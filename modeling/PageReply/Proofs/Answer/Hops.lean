import PageReply.Proofs.Answer.Failure
import PageReply.Proofs.Answer.Reference
import PageReply.Proofs.Answer.Renders
import PageReply.Proofs.Http.Whole
import PageReply.Proofs.Store.Retention

/-!
# Redirects end after one hop

A client that displays a page and asks for it is not sent anywhere, unless its page is always
redirected to. So a client that was redirected gets an answer with its next request: the page that
was rendered for it before, or else the page that is rendered now. One page is rendered for the two
requests, never two.
-/

namespace PageReply

variable {σ τ : Type}

/-- The client displays the page, and its browser itself asks for it. -/
structure Request.Arrived (r : Request) : Prop where
  plain : r.ajax = false
  there : r.target = r.current

/-! ## What is undertaken -/

section Rules

variable {c : Config} {p : Policy} {r : Request}

/-- Where a client has arrived, no rule sends it away but the policy. -/
theorem not_redirectRule_of_arrived (hr : r.Arrived) (hp : p ≠ .alwaysRedirect)
    (hwrite : ¬ WriteRule c p r) : ¬ RedirectRule c p r := by
  rintro (hpolicy | hstrategy | ⟨hajax, -⟩ | ⟨hdiffer, -⟩ | ⟨hdiffer, -, -⟩)
  · exact hp hpolicy
  · exact hwrite (.followed hr.there hstrategy)
  · rw [hr.plain] at hajax
    cases hajax
  · exact hdiffer hr.there
  · exact hdiffer hr.there

theorem not_writeRule_iff_of_arrived (hr : r.Arrived) (hp : p = .alwaysRedirect) :
    ¬ WriteRule c p r ↔ r.keepUrl = false ∧ c.strategy ≠ .redirectToRender ∧
      (r.stateless = true ∨ r.newInstance = true) := by
  constructor
  · intro hwrite
    refine ⟨?_, fun hstrategy => hwrite (.followed hr.there hstrategy), ?_⟩
    · exact Bool.eq_false_iff.2 fun hkeep => hwrite (.keepUrl hkeep)
    · by_contra hneither
      rw [not_or, Bool.not_eq_true, Bool.not_eq_true] at hneither
      exact hwrite (.displayed hr.plain hr.there hneither.1 hneither.2)
  · rintro ⟨hkeep, hstrategy, hfresh⟩
      (hpolicy | ⟨-, -, hpolicy⟩ | ⟨-, -, hstateless, hold⟩ | ⟨-, hrender⟩ | hkeep')
    · rw [hp] at hpolicy
      cases hpolicy
    · exact hpolicy hp
    · simp [hstateless, hold] at hfresh
    · exact hstrategy hrender
    · simp [hkeep] at hkeep'

end Rules

namespace Handler

variable {h : Handler} {r : Request}

theorem undertake_of_arrived (hr : r.Arrived) (hp : h.policy ≠ .alwaysRedirect) :
    h.undertake r = .write r.target := by
  rw [undertake]
  obtain ⟨haction, -⟩ | ⟨-, hwrite, hredirect⟩ | ⟨haction, -, -⟩ := action_cases h r
  · rw [haction, hr.there]
  · exact absurd hredirect (not_redirectRule_of_arrived hr hp hwrite)
  · rw [haction]
    simp only
    split
    · rw [hr.there]
    · rw [if_pos hr.there.symm]

/-- A client is sent to the page it displays when no rule says to write it. -/
theorem undertake_of_always (hr : r.Arrived) (hp : h.policy = .alwaysRedirect) :
    h.undertake r =
      if r.keepUrl = false ∧ h.config.val.strategy ≠ .redirectToRender ∧
          (r.stateless = true ∨ r.newInstance = true) then
        .redirect r.target
      else .write r.current := by
  rw [undertake]
  obtain ⟨haction, hwrite⟩ | ⟨haction, hwrite, -⟩ | ⟨-, -, hredirect⟩ := action_cases h r
  · rw [haction, if_neg fun hcond => (not_writeRule_iff_of_arrived hr hp).2 hcond hwrite]
  · rw [haction, if_pos ((not_writeRule_iff_of_arrived hr hp).1 hwrite)]
  · exact absurd (.alwaysRedirect hp) hredirect

end Handler

/-! ## What the handler itself does -/

theorem Course.kind_of_mem_calls {course : Course} {page : Option Response} {status : Status}
    (hredirect : ∀ url, course ≠ .redirect url) (hbuffer : ∀ url, course ≠ .buffer url) :
    ∀ call ∈ course.calls status page, call.kind ≠ .redirect := by
  intro call hcall
  cases course with
  | replay response => exact Message.kind_of_mem_calls hcall
  | redirect url => exact absurd rfl (hredirect url)
  | write url =>
    cases page with
    | none => cases hcall
    | some response => exact Message.kind_of_mem_calls hcall
  | buffer url => exact absurd rfl (hbuffer url)

namespace Handler

/-- A handler sends the client on, or tries to. -/
def SendsOn [Live σ] (h : Handler) (render : Renderer σ) (x : Exchange σ) : Prop :=
  ∃ call ∈ h.calls render x, call.kind = .redirect

/-- A handler puts nothing in: it leaves the store as the look-up does or, if the page is rendered,
as the render does. -/
inductive PutsNothing [Live σ] (h : Handler) (render : Renderer σ) (x : Exchange σ) : Prop
  | unrendered (renders : h.renders render x = [])
    (store : ((h.answer render).run x).2.store =
      (x.store.take x.now x.request.session x.request.target).2)
  | rendered {url : Url} {log : List Event} (renders : h.renders render x = [url])
    (store : ((h.answer render).run x).2.store = ((render url).run
      { x with store := (x.store.take x.now x.request.session x.request.target).2, log }).2.store)

section

variable [Live σ] {h : Handler} {render : Renderer σ} {x : Exchange σ}

theorem store_deliver {course : Course} (hbuffer : ∀ url, course ≠ .buffer url)
    (page : Option Response) (y : Exchange σ) : (h.deliver course page y).2.store = y.store := by
  unfold deliver
  rcases Live.performAll (course.calls h.config.val.redirectStatus page) y.live with ⟨_ | _, live⟩
  · rfl
  · cases course with
    | buffer url => exact absurd rfl (hbuffer url)
    | _ => cases page <;> rfl

theorem putsNothing_of_course (hbuffer : ∀ url, h.course x ≠ .buffer url) :
    h.PutsNothing render x := by
  have hstore : ((h.answer render).run x).2.store =
      (((h.course x).page render).run (h.settled x)).2.store := by
    rw [run_answer_eq, pursue]
    rcases ((h.course x).page render).run (h.settled x) with ⟨_ | page, y⟩
    · rfl
    · exact store_deliver hbuffer page y
  cases hurl : (h.course x).url? with
  | none =>
    rw [Course.page, hurl] at hstore
    exact .unrendered (by rw [renders_eq, hurl]; rfl) hstore
  | some url =>
    rw [Course.page, hurl] at hstore
    exact .rendered (by rw [renders_eq, hurl]; rfl) hstore

theorem not_sendsOn (hredirect : ∀ url, h.course x ≠ .redirect url)
    (hbuffer : ∀ url, h.course x ≠ .buffer url) : ¬ h.SendsOn render x := by
  rintro ⟨call, hcall, hkind⟩
  rw [calls_eq, callsOn] at hcall
  rcases hpage : ((h.course x).page render).run (h.settled x) with ⟨_ | page, y⟩
  · rw [hpage] at hcall
    cases hcall
  · rw [hpage] at hcall
    exact Course.kind_of_mem_calls hredirect hbuffer call ((Live.made_prefix _ _).subset hcall)
      hkind

/-- A client that is sent on gets one call and nothing else, and how that call ends is how the
answer ends. -/
theorem answer_of_redirect {url : Url} (hcourse : h.course x = .redirect url) :
    h.renders render x = [] ∧
      h.calls render x = [.redirect url.text h.config.val.redirectStatus] ∧
      ((h.answer render).run x).1 =
        (Live.perform (.redirect url.text h.config.val.redirectStatus) x.live).1.map
          fun _ => .redirected := by
  refine ⟨?_, ?_, ?_⟩
  · rw [renders_eq, hcourse]
    rfl
  · rw [calls_eq, hcourse]
    exact Live.made_singleton _ x.live
  · rw [run_answer_eq, hcourse]
    change (h.deliver (.redirect url) none (h.settled x)).1 = _
    rw [result_deliver, Course.calls, Live.performAll_singleton]
    rfl

/-- A client that has arrived stays, and nothing is put in for it. -/
theorem stays_of_arrived (hthere : x.request.Arrived) (hp : h.policy ≠ .alwaysRedirect) :
    ¬ h.SendsOn render x ∧ h.PutsNothing render x := by
  obtain ⟨response, -, hcourse⟩ | ⟨-, hcourse⟩ := h.course_cases x
  · exact ⟨not_sendsOn (by simp [hcourse]) (by simp [hcourse]),
      putsNothing_of_course (by simp [hcourse])⟩
  · rw [undertake_of_arrived hthere hp] at hcourse
    exact ⟨not_sendsOn (by simp [hcourse]) (by simp [hcourse]),
      putsNothing_of_course (by simp [hcourse])⟩

/-- Under a policy that always redirects, a client is sent to the page it displays under four
conditions. -/
theorem sendsOn_iff_of_always (hthere : x.request.Arrived) (hp : h.policy = .alwaysRedirect) :
    h.SendsOn render x ↔
      (found x).response? = none ∧ x.request.keepUrl = false ∧
        h.config.val.strategy ≠ .redirectToRender ∧
        (x.request.stateless = true ∨ x.request.newInstance = true) := by
  obtain ⟨response, hit, hcourse⟩ | ⟨hmiss, hcourse⟩ := h.course_cases x
  · refine iff_of_false (not_sendsOn (by simp [hcourse]) (by simp [hcourse])) fun hcond => ?_
    rw [hit] at hcond
    cases hcond.1
  · rw [undertake_of_always hthere hp] at hcourse
    split at hcourse
    · next hcond =>
      refine iff_of_true
        ⟨.redirect x.request.target.text h.config.val.redirectStatus, ?_, rfl⟩ ⟨hmiss, hcond⟩
      rw [(answer_of_redirect hcourse).2.1]
      exact List.mem_singleton_self _
    · next hcond =>
      exact iff_of_false (not_sendsOn (by simp [hcourse]) (by simp [hcourse]))
        fun hsent => hcond hsent.2

/-- A client that is sent to the page it displays gets nothing else. -/
theorem answer_of_sendsOn (hthere : x.request.Arrived) (hsent : h.SendsOn render x) :
    h.renders render x = [] ∧
      h.calls render x = [.redirect x.request.current.text h.config.val.redirectStatus] ∧
      ((h.answer render).run x).1 =
        (Live.perform (.redirect x.request.current.text h.config.val.redirectStatus) x.live).1.map
          fun _ => .redirected := by
  rw [← hthere.there]
  apply answer_of_redirect
  obtain ⟨response, -, hcourse⟩ | ⟨-, hcourse⟩ := h.course_cases x
  · exact absurd hsent (not_sendsOn (by simp [hcourse]) (by simp [hcourse]))
  · by_cases hp : h.policy = .alwaysRedirect
    · rw [undertake_of_always hthere hp] at hcourse
      split at hcourse
      · exact hcourse
      · exact absurd hsent (not_sendsOn (by simp [hcourse]) (by simp [hcourse]))
    · exact absurd hsent (stays_of_arrived hthere hp).1

end

end Handler

/-! ## The next request -/

/-- The next request of a client that an answer has sent on: it is made by the same session, as the
answer left it, in time and with the store as it was left, and displays the page. -/
structure Arrives (x y : Exchange σ) (next : Exchange τ) : Prop where
  store : next.store = y.store
  session : next.request.session = y.request.session
  target : next.request.target = x.request.target
  arrived : next.request.Arrived
  later : y.now ≤ next.now
  intime : next.now - y.now < y.store.limits.span

/-- A live response that takes any response whole. -/
def Live.Open [Live σ] (live : σ) : Prop :=
  ∀ response : Response, ∃ after, performAll response.calls live = (.ok (), after)

/-- Whatever the render does, it leaves an open live response open. -/
def Renderer.KeepsOpen [Live σ] (render : Renderer σ) : Prop :=
  ∀ url x, Live.Open x.live → Live.Open ((render url).run x).2.live

/-- The render gives a page, whatever it is asked for. -/
def Renderer.Gives (render : Renderer σ) : Prop :=
  ∀ url x, ∃ response y, (render url).run x = (.ok (some response), y)

/-- What becomes of a request whose page is rendered to be written. -/
def Outcome.ofPage : Option Response → Outcome
  | some _ => .written
  | none => .aborted

namespace Handler

variable [Live σ] {h : Handler} {render : Renderer σ} {x y : Exchange σ} {next : Exchange τ}

theorem found_of_bufferedRedirect (hrun : (h.answer render).run x = (.ok .bufferedRedirect, y))
    (hfits : y.store.limits.Fits) (hnext : Arrives x y next) :
    ∃ response, found next = .hit response := by
  obtain ⟨-, response, z, live, -, -, hleft⟩ := bufferedRedirect_course hrun
  refine ⟨response, ?_⟩
  have hlater := hnext.later
  have hage := hnext.intime
  rw [found, hnext.store, hnext.session, hnext.target]
  rw [hleft] at hfits hlater hage ⊢
  exact (Store.Waiting.of_insert z.store z.now z.request.session x.request.target response).lookup
    (Entry.not_expired_of_le hfits hlater hage)

theorem found_of_redirected (hrun : (h.answer render).run x = (.ok .redirected, y))
    (hnext : Arrives x y next) : found next = .missing := by
  obtain ⟨-, hrequest, hstore⟩ := redirected_inv hrun
  rw [found, hnext.store, hnext.session, hnext.target, hrequest, hstore]
  exact Store.lookup_erase x.store next.now _

/-- A page that is rendered to be written is written if the live response is open to it. -/
theorem answer_of_write {url : Url} (hcourse : h.course x = .write url)
    (hopen : Live.Open ((render url).run (h.settled x)).2.live) :
    h.renders render x = [url] ∧
      ((h.answer render).run x).1 = ((render url).run (h.settled x)).1.map Outcome.ofPage := by
  constructor
  · rw [renders_eq, hcourse]
    rfl
  · rw [run_answer_eq, hcourse, pursue_write, run_writePage]
    rcases hrender : (render url).run (h.settled x) with ⟨_ | _ | response, y⟩
    · rfl
    · rfl
    · rw [hrender] at hopen
      obtain ⟨live, hsend⟩ := hopen response
      simp only [hsend]
      rfl

end Handler

/-- **Redirects end after one hop.** A client that displays a page and asks for it is not sent
anywhere and nothing is put in for it, unless the policy is to redirect always; then it is sent to
the page it displays under four conditions. And for a client that was sent to a page, the page is
rendered once, by the answer that sent it there or by the answer to its next request, which sends it
what was buffered or else ends the way the render does. What was buffered is there if the timeout is
one that 64 bits can tell. -/
theorem redirects_end (h : Handler) :
    (∀ {σ : Type} [Live σ] (render : Renderer σ) (x : Exchange σ), x.request.Arrived →
      (h.policy ≠ .alwaysRedirect → ¬ h.SendsOn render x ∧ h.PutsNothing render x) ∧
      (h.policy = .alwaysRedirect →
        (h.SendsOn render x ↔
          (Handler.found x).response? = none ∧ x.request.keepUrl = false ∧
            h.config.val.strategy ≠ .redirectToRender ∧
            (x.request.stateless = true ∨ x.request.newInstance = true)) ∧
        (h.SendsOn render x →
          h.renders render x = [] ∧
          h.calls render x = [.redirect x.request.current.text h.config.val.redirectStatus] ∧
          ((h.answer render).run x).1 = (Live.perform
            (.redirect x.request.current.text h.config.val.redirectStatus) x.live).1.map
              fun _ => .redirected))) ∧
    ∀ {σ τ : Type} [Live σ] [Live τ] {render : Renderer σ} {x y : Exchange σ} {outcome : Outcome}
      {h' : Handler} {render' : Renderer τ} {next : Exchange τ},
      (h.answer render).run x = (.ok outcome, y) →
      outcome = .redirected ∨ outcome = .bufferedRedirect ∧ y.store.limits.Fits →
      Arrives x y next → h'.policy ≠ .alwaysRedirect →
      Live.Open next.live → render'.KeepsOpen →
        h.renders render x ++ h'.renders render' next = [x.request.target] ∧
        (outcome = .bufferedRedirect → ((h'.answer render').run next).1 = .ok .bufferedWrite) ∧
        (outcome = .redirected → ∃ log, ((h'.answer render').run next).1 =
          ((render' x.request.target).run { next with
            store := (next.store.take next.now next.request.session next.request.target).2
            log }).1.map Outcome.ofPage) ∧
        (render'.Gives →
          ((h'.answer render').run next).1 = .ok .bufferedWrite ∨
            ((h'.answer render').run next).1 = .ok .written) := by
  constructor
  · intro σ _ render x hthere
    exact ⟨Handler.stays_of_arrived hthere,
      fun hp => ⟨Handler.sendsOn_iff_of_always hthere hp, Handler.answer_of_sendsOn hthere⟩⟩
  · intro σ τ _ _ render x y outcome h' render' next hrun houtcome hnext hp hopen hkeeps
    obtain rfl | ⟨rfl, hfits⟩ := houtcome
    · obtain ⟨hfirst, -, -⟩ := Handler.redirected_inv hrun
      have hcourse : h'.course next = .write x.request.target := by
        rw [Handler.course, Handler.found_of_redirected hrun hnext,
          ← hnext.target]
        exact Handler.undertake_of_arrived hnext.arrived hp
      obtain ⟨hsecond, hend⟩ := Handler.answer_of_write hcourse (hkeeps _ (h'.settled next) hopen)
      refine ⟨by rw [hfirst, hsecond]; rfl, (fun hnot => by cases hnot), fun _ => ⟨_, hend⟩,
        fun hgives => .inr ?_⟩
      obtain ⟨response, z, hpage⟩ := hgives x.request.target (h'.settled next)
      rw [hend, hpage]
      rfl
    · obtain ⟨hfirst, -⟩ := Handler.bufferedRedirect_course hrun
      obtain ⟨response, hit⟩ := Handler.found_of_bufferedRedirect hrun hfits hnext
      obtain ⟨live, hsend⟩ := hopen response
      obtain ⟨hsecond, -, z, hend, -⟩ :=
        h'.answer_of_hit render' hit hsend
      have hserved : ((h'.answer render').run next).1 = .ok .bufferedWrite := congrArg Prod.fst hend
      exact ⟨by rw [hfirst, hsecond]; rfl, fun _ => hserved, (fun hnot => by cases hnot),
        fun _ => .inl hserved⟩

namespace Hop

def render : Renderer Transcript := fun _ => return some { body := ascii "text" }

theorem render_keepsOpen : render.KeepsOpen := fun _ _ hopen => hopen

theorem render_gives : render.Gives := fun _ x => ⟨_, x, rfl⟩

def page : Url := .ofBytes (ascii "page")

def always : Handler := { Handler.plain with policy := .alwaysRedirect }

/-- A request for the page from somewhere. -/
def asks (current : Url) (ajax stateless : Bool) : Exchange Transcript where
  store := .tiny
  clock := {}
  request := { current, target := page, session := ascii "s1", ajax, stateless }
  live := {}

/-- The next request of the session, from the page. -/
def asksAgain (h : Handler) (x : Exchange Transcript) : Exchange Transcript where
  store := ((h.answer render).run x).2.store
  clock := Clock.advance {} 999999
  request := { current := page, target := page, session := ascii "s1" }
  live := {}

/-- A render that takes the answer over. -/
def handsOver : Renderer Transcript := fun _ => return none

theorem handsOver_keepsOpen : handsOver.KeepsOpen := fun _ _ hopen => hopen

theorem arrives {h : Handler} {x : Exchange Transcript} (htarget : x.request.target = page)
    (hsession : ((h.answer render).run x).2.request.session = ascii "s1")
    (hlater : ((h.answer render).run x).2.now ≤ (asksAgain h x).now)
    (hage : (asksAgain h x).now - ((h.answer render).run x).2.now <
      ((h.answer render).run x).2.store.limits.span) :
    Arrives x ((h.answer render).run x).2 (asksAgain h x) where
  store := rfl
  session := hsession.symm
  target := htarget.symm
  arrived := ⟨rfl, rfl⟩
  later := hlater
  intime := hage

/-- A form that leads to the page. -/
def form : Exchange Transcript := asks (.ofBytes (ascii "form")) false false

def sentOn : Exchange Transcript := ((always.answer render).run form).2

end Hop

theorem redirects_end_hop :
    Hop.always.SendsOn Hop.render (Hop.asks Hop.page false true) ∧
    (Hop.always.renders Hop.render (Hop.asks Hop.page true false) ++
        Handler.plain.renders Hop.render
          (Hop.asksAgain Hop.always (Hop.asks Hop.page true false)) = [Hop.page] ∧
      ((Handler.plain.answer Hop.render).run
        (Hop.asksAgain Hop.always (Hop.asks Hop.page true false))).1 = .ok .written) ∧
    (Handler.plain.renders Hop.render (Hop.asks .empty false false) ++
        Handler.plain.renders Hop.render
          (Hop.asksAgain Handler.plain (Hop.asks .empty false false)) = [Hop.page] ∧
      ((Handler.plain.answer Hop.render).run
        (Hop.asksAgain Handler.plain (Hop.asks .empty false false))).1 = .ok .bufferedWrite) := by
  have hopen : Live.Open ({} : Transcript) := fun response =>
    Transcript.exists_performAll response.calls rfl
  have hpolicy : Handler.plain.policy ≠ .alwaysRedirect := by decide
  refine ⟨?_, ?_, ?_⟩
  · have hthere : (Hop.asks Hop.page false true).request.Arrived := ⟨rfl, rfl⟩
    exact (((redirects_end Hop.always).1 Hop.render _ hthere).2 rfl).1.2
      ⟨by decide +kernel, rfl, by decide, .inl rfl⟩
  · have hrun : (Hop.always.answer Hop.render).run (Hop.asks Hop.page true false) =
        (.ok .redirected, ((Hop.always.answer Hop.render).run (Hop.asks Hop.page true false)).2) :=
      Prod.ext (by decide +kernel) rfl
    obtain ⟨hrenders, -, -, hends⟩ := (redirects_end Hop.always).2 hrun (.inl rfl)
      (Hop.arrives rfl (by decide +kernel) (by decide +kernel) (by decide +kernel)) hpolicy hopen
      Hop.render_keepsOpen
    exact ⟨hrenders, (hends Hop.render_gives).resolve_left (by decide +kernel)⟩
  · have hrun : (Handler.plain.answer Hop.render).run (Hop.asks .empty false false) =
        (.ok .bufferedRedirect,
          ((Handler.plain.answer Hop.render).run (Hop.asks .empty false false)).2) :=
      Prod.ext (by decide +kernel) rfl
    have hfits : ((Handler.plain.answer Hop.render).run
        (Hop.asks .empty false false)).2.store.limits.Fits := by
      decide +kernel
    obtain ⟨hrenders, hserved, -⟩ := (redirects_end Handler.plain).2 hrun (.inr ⟨rfl, hfits⟩)
      (Hop.arrives rfl (by decide +kernel) (by decide +kernel) (by decide +kernel)) hpolicy hopen
      Hop.render_keepsOpen
    exact ⟨hrenders, hserved rfl⟩

/-- The request after a redirect does not always get a page: its render may take the answer over. -/
theorem taken_over_after_hop :
    (Hop.always.answer Hop.render).run Hop.form = (.ok .redirected, Hop.sentOn) ∧
    Arrives Hop.form Hop.sentOn (Hop.asksAgain Hop.always Hop.form) ∧
    Handler.plain.policy ≠ .alwaysRedirect ∧
    Live.Open (Hop.asksAgain Hop.always Hop.form).live ∧ Hop.handsOver.KeepsOpen ∧
    ((Handler.plain.answer Hop.handsOver).run (Hop.asksAgain Hop.always Hop.form)).1 =
      .ok .aborted := by
  have harrives : Arrives Hop.form Hop.sentOn (Hop.asksAgain Hop.always Hop.form) :=
    Hop.arrives rfl (by decide +kernel) (by decide +kernel) (by decide +kernel)
  refine ⟨Prod.ext ?_ rfl, harrives, by decide,
    fun response => Transcript.exists_performAll response.calls rfl, Hop.handsOver_keepsOpen, ?_⟩
  · decide +kernel
  · decide +kernel

end PageReply
