import PageReply.Proofs.Answer.Calls
import PageReply.Proofs.Answer.Reference
import PageReply.Proofs.Http.Whole
import PageReply.Proofs.Store.Run

/-!
# Answers that fail

An answer fails when the render does, or when the live response refuses a call. Either way the fault
is passed on as it is, and the answer stops where it stands. What it leaves is little: a redirect is
sent before the page is put in, so the store is as the look-up left it, and a message is as it was
before. The response that the look-up handed out is lost.
-/

namespace PageReply

variable {σ τ : Type}

/-- A render that leaves the live response alone. -/
def Renderer.Silent (render : Renderer σ) : Prop :=
  ∀ url x, ((render url).run x).2.live = x.live

theorem Renderer.Silent.page {render : Renderer σ} (hsilent : render.Silent) (course : Course)
    (x : Exchange σ) : ((course.page render).run x).2.live = x.live := by
  unfold Course.page
  cases course.url? with
  | none => rfl
  | some url => exact hsilent url x

/-- A render that leaves the store and the live response alone. -/
def Renderer.Detached (render : Renderer σ) : Prop :=
  ∀ url x, ((render url).run x).2.store = x.store ∧ ((render url).run x).2.live = x.live

theorem Renderer.Detached.silent {render : Renderer σ} (hdetached : render.Detached) :
    render.Silent :=
  fun url x => (hdetached url x).2

theorem Renderer.Detached.page {render : Renderer σ} (hdetached : render.Detached)
    (course : Course) (x : Exchange σ) :
    ((course.page render).run x).2.store = x.store ∧
      ((course.page render).run x).2.live = x.live := by
  unfold Course.page
  cases course.url? with
  | none => exact ⟨rfl, rfl⟩
  | some url => exact hdetached url x

/-- The page that a render gives with one live response, another render gives with another one. -/
def Renderer.Like (render : Renderer σ) (live : σ) (other : Renderer τ) (live' : τ) : Prop :=
  ∀ url x page y, x.live = live → (render url).run x = (.ok page, y) →
    ((other url).run (x.on live')).1 = .ok page

theorem Renderer.Like.page {render : Renderer σ} {other : Renderer τ} {live' : τ} {x y : Exchange σ}
    {page : Option Response} (hlike : render.Like x.live other live') {course : Course}
    (hrun : (course.page render).run x = (.ok page, y)) :
    ((course.page other).run (x.on live')).1 = .ok page := by
  unfold Course.page at hrun ⊢
  cases hurl : course.url? with
  | none =>
    rw [hurl] at hrun
    cases hrun
    rfl
  | some url =>
    rw [hurl] at hrun
    exact hlike url x page y rfl hrun

/-- Renders on a live response that is put aside, and gives nothing instead of a fault. -/
def Renderer.aside (render : Renderer σ) (live : σ) : Renderer τ := fun url =>
  ExceptT.mk do
    let x ← get
    let (page, y) := (render url).run (x.on live)
    set (y.on x.live)
    return .ok (page.toOption.getD none)

theorem Renderer.run_aside (render : Renderer σ) (live : σ) (url : Url) (x : Exchange τ) :
    (render.aside live url).run x =
      (.ok (((render url).run (x.on live)).1.toOption.getD none),
        ((render url).run (x.on live)).2.on x.live) :=
  rfl

theorem Renderer.like_aside (render : Renderer σ) (live : σ) (live' : τ) :
    render.Like live (render.aside live) live' := by
  intro url x page y hlive hrender
  have hback : (x.on live').on live = x := by
    rw [← hlive]
    rfl
  rw [run_aside, hback, hrender]
  rfl

/-- A page that is rendered aside is there, and the live response has seen nothing of it. -/
theorem Course.exists_page_aside (course : Course) (render : Renderer σ) (live : σ)
    (x : Exchange τ) :
    ∃ page y, (course.page (render.aside live)).run x = (.ok page, y) ∧ y.live = x.live := by
  unfold Course.page
  cases course.url? with
  | none => exact ⟨none, x, rfl, rfl⟩
  | some url => exact ⟨_, _, render.run_aside live url x, rfl⟩

theorem Transcript.exists_performAll (calls : List Call) {t : Transcript} (h : t.failOn = none) :
    ∃ after, Live.performAll calls t = (.ok (), after) := by
  induction calls generalizing t with
  | nil => exact ⟨t, rfl⟩
  | cons call calls ih =>
    obtain ⟨after, hrest⟩ := ih (t := { t with calls := t.calls ++ [call] }) h
    have hcall : Live.perform call t = (.ok (), { t with calls := t.calls ++ [call] }) := by
      simp [Live.perform, h]
    refine ⟨after, ?_⟩
    rw [Live.performAll, hcall]
    exact hrest

/-- The calls of an answer to the same request on another live response, with the same pages, that
does not fail. -/
inductive Unhindered (h : Handler) (render : Renderer σ) (x : Exchange σ) : List Call → Prop
  | intro {τ : Type} [Live τ] {other : Renderer τ} {live : τ} {outcome : Outcome} {y : Exchange τ}
    (like : render.Like x.live other live)
    (run : (h.answer other).run (x.on live) = (.ok outcome, y)) :
    Unhindered h render x (h.calls other (x.on live))

/-- Nothing hinders an answer on a transcript that refuses nothing, with the page rendered aside. -/
theorem exists_unhindered (h : Handler) (render : Renderer σ) (x : Exchange σ) :
    ∃ calls, Unhindered h render x calls := by
  suffices ∃ outcome z, (h.answer (render.aside x.live)).run (x.on ({} : Transcript)) =
      (.ok outcome, z) by
    obtain ⟨outcome, z, hrun⟩ := this
    exact ⟨h.calls (render.aside x.live) (x.on ({} : Transcript)),
      .intro (render.like_aside x.live ({} : Transcript)) hrun⟩
  rw [Handler.run_answer_eq, Handler.pursue]
  obtain ⟨page, z, hrun, hlive⟩ := (h.course x).exists_page_aside render x.live
    ((h.settled x).on ({} : Transcript))
  obtain ⟨after, hsend⟩ := Transcript.exists_performAll
    ((h.course x).calls h.config.val.redirectStatus page) (t := z.live)
    (congrArg Transcript.failOn hlive)
  rw [Handler.course_on, Handler.settled_on, hrun]
  simp only [Handler.deliver, hsend]
  exact ⟨_, _, rfl⟩

section

variable [Live σ]

/-- Whose fault it is that an answer fails. -/
inductive Blame (h : Handler) (render : Renderer σ) (x : Exchange σ) (fault : Fault)
    (y : Exchange σ) : Prop
  /-- The render failed, and no call was made. -/
  | render {url : Url} (course : (h.course x).url? = some url)
    (raised : (render url).run (h.settled x) = (.error fault, y))
    (silent : h.calls render x = [])
  /-- The last call was refused. -/
  | refusal {done : List Call} {call : Call} {live : σ} (calls : h.calls render x = done ++ [call])
    (accepted : Live.performAll done x.live = (.ok (), live))
    (refused : Live.perform call live = (.error fault, y.live))

variable {h : Handler} {render : Renderer σ} {x y : Exchange σ} {fault : Fault}

theorem deliver_error_inv {course : Course} {page : Option Response}
    (hrun : h.deliver course page x = (.error fault, y)) :
    Live.performAll (course.calls h.config.val.redirectStatus page) x.live =
        (.error fault, y.live) ∧ y = { x with live := y.live } := by
  unfold Handler.deliver at hrun
  rcases hsend : Live.performAll (course.calls h.config.val.redirectStatus page) x.live with
    ⟨_ | _, live⟩
  · rw [hsend] at hrun
    cases hrun
    exact ⟨rfl, rfl⟩
  · rw [hsend] at hrun
    cases hrun

/-- An answer that fails has failed while the page was rendered or while it made its calls. -/
theorem answer_error_inv (hrun : (h.answer render).run x = (.error fault, y)) :
    (((h.course x).page render).run (h.settled x) = (.error fault, y) ∧
      h.calls render x = []) ∨
    ∃ page z, ((h.course x).page render).run (h.settled x) = (.ok page, z) ∧
      Live.performAll ((h.course x).calls h.config.val.redirectStatus page) z.live =
        (.error fault, y.live) ∧
      y = { z with live := y.live } ∧
      h.calls render x =
        Live.made ((h.course x).calls h.config.val.redirectStatus page) z.live := by
  rw [Handler.calls_eq, Handler.callsOn]
  rw [Handler.run_answer_eq, Handler.pursue] at hrun
  rcases hpage : ((h.course x).page render).run (h.settled x) with ⟨_ | page, z⟩
  · rw [hpage] at hrun
    cases hrun
    exact .inl ⟨rfl, rfl⟩
  · rw [hpage] at hrun
    obtain ⟨hsend, hleft⟩ := deliver_error_inv hrun
    exact .inr ⟨page, z, rfl, hsend, hleft, rfl⟩

theorem answer_ok_inv {outcome : Outcome} (hrun : (h.answer render).run x = (.ok outcome, y)) :
    ∃ page z, ((h.course x).page render).run (h.settled x) = (.ok page, z) ∧
      h.calls render x = (h.course x).calls h.config.val.redirectStatus page := by
  obtain ⟨page, z, live, hpage, hsend, -, -⟩ := h.answer_ok_course render x hrun
  refine ⟨page, z, hpage, ?_⟩
  rw [Handler.calls_eq, Handler.callsOn, hpage]
  exact Live.made_of_ok hsend

theorem blame_of_answer (hdetached : render.Detached)
    (hrun : (h.answer render).run x = (.error fault, y)) : Blame h render x fault y := by
  obtain ⟨hpage, hcalls⟩ | ⟨page, z, hpage, hsend, hleft, hcalls⟩ := answer_error_inv hrun
  · unfold Course.page at hpage
    cases hurl : (h.course x).url? with
    | none =>
      rw [hurl] at hpage
      cases hpage
    | some url =>
      rw [hurl] at hpage
      exact .render hurl hpage hcalls
  · have hlive := (hdetached.page (h.course x) (h.settled x)).2
    rw [hpage] at hlive
    obtain ⟨done, call, live, hmade, hdone, hcall⟩ := Live.made_of_error hsend
    rw [hlive] at hdone
    exact .refusal (hcalls.trans hmade) hdone hcall

theorem store_of_answer_error (hdetached : render.Detached)
    (hrun : (h.answer render).run x = (.error fault, y)) :
    y.store = (x.store.take x.now x.request.session x.request.target).2 := by
  have hstore := (hdetached.page (h.course x) (h.settled x)).1
  obtain ⟨hpage, -⟩ | ⟨page, z, hpage, -, hleft, -⟩ := answer_error_inv hrun
  · rw [hpage] at hstore
    exact hstore
  · rw [hpage] at hstore
    rw [hleft]
    exact hstore

theorem Unhindered.calls_prefix {calls : List Call} (hcalls : Unhindered h render x calls)
    (hrun : (h.answer render).run x = (.error fault, y)) : h.calls render x <+: calls := by
  obtain ⟨hlike, hother⟩ := hcalls
  obtain ⟨-, hmade⟩ | ⟨page, z, hpage, -, -, hmade⟩ := answer_error_inv hrun
  · rw [hmade]
    exact List.nil_prefix
  · obtain ⟨page', z', hpage', hall⟩ := answer_ok_inv hother
    rw [Handler.course_on] at hpage' hall
    rw [Handler.settled_on] at hpage'
    -- both answers have the same page and so the same calls before them
    have hsame := Renderer.Like.page (x := h.settled x) hlike hpage
    rw [hpage'] at hsame
    rw [hmade, hall, Except.ok.inj hsame]
    exact Live.made_prefix _ _

end

/-- A message has the calls of a course whole or not at all. -/
theorem Course.eq_of_refused {course : Course} {page : Option Response} {status : Status}
    {m after : Message} {fault : Fault}
    (h : Live.performAll (course.calls status page) m = (.error fault, after)) : after = m := by
  cases course with
  | replay response => exact Message.eq_of_replay_refused h
  | redirect url => exact Message.eq_of_refused ((Live.performAll_singleton _ m).symm.trans h)
  | write url =>
    cases page with
    | none => cases h
    | some response => exact Message.eq_of_replay_refused h
  | buffer url =>
    cases page with
    | none => cases h
    | some response => exact Message.eq_of_refused ((Live.performAll_singleton _ m).symm.trans h)

theorem Renderer.Silent.message_of_error {h : Handler} {render : Renderer Message}
    {x y : Exchange Message} {fault : Fault} (hsilent : render.Silent)
    (hrun : (h.answer render).run x = (.error fault, y)) : y.live = x.live := by
  have hlive := hsilent.page (h.course x) (h.settled x)
  obtain ⟨hpage, -⟩ | ⟨page, z, hpage, hsend, -, -⟩ := answer_error_inv hrun
  · rw [hpage] at hlive
    exact hlive
  · rw [hpage] at hlive
    exact (Course.eq_of_refused hsend).trans hlive

theorem message_of_answer_error {h : Handler} {render : Renderer Message} {x y : Exchange Message}
    {fault : Fault} (hdetached : render.Detached)
    (hrun : (h.answer render).run x = (.error fault, y)) : y.live = x.live :=
  hdetached.silent.message_of_error hrun

/-- **An answer that fails leaves nothing behind**: the fault is the one of the render or of the
call that was refused; the store is as the look-up left it, with nothing put in and without the
response that the look-up handed out; the calls are the first ones of those that are made when
nothing is refused; and a message is as it was. -/
theorem nothing_left_by_fault (h : Handler) :
    (∀ {σ : Type} [Live σ] {render : Renderer σ} {x y : Exchange σ} {fault : Fault},
      render.Detached → (h.answer render).run x = (.error fault, y) →
        Blame h render x fault y ∧
        y.store = (x.store.take x.now x.request.session x.request.target).2 ∧
        y.store.entries = x.store.entries.filter
          (·.key ≠ Store.key x.request.session x.request.target) ∧
        y.store.stats.stored = x.store.stats.stored ∧
        (∀ later, (y.store.take later x.request.session x.request.target).1 = .missing) ∧
        (∃ calls, Unhindered h render x calls) ∧
        ∀ calls, Unhindered h render x calls → h.calls render x <+: calls) ∧
    ∀ {render : Renderer Message} {x y : Exchange Message} {fault : Fault},
      render.Detached → (h.answer render).run x = (.error fault, y) → y.live = x.live := by
  constructor
  · intro σ _ render x y fault hdetached hrun
    have hstore := store_of_answer_error hdetached hrun
    refine ⟨blame_of_answer hdetached hrun, hstore, ?_, ?_, ?_, exists_unhindered h render x,
      fun calls hcalls => hcalls.calls_prefix hrun⟩
    · rw [hstore]
      rfl
    · rw [hstore]
      exact Stats.stored_afterLookup _ _
    · intro later
      rw [hstore]
      exact Store.lookup_erase x.store later _
  · intro render x y fault hdetached hrun
    exact message_of_answer_error hdetached hrun

namespace Stumble

def render : Renderer σ := fun _ => return some { body := ascii "text" }

theorem render_detached : (render : Renderer σ).Detached :=
  fun _ _ => ⟨rfl, rfl⟩

def field : Header where
  name := ascii "Age"
  value := ascii "1"
  name_valid := by decide +kernel
  value_valid := by decide +kernel
  value_trimmed := by decide +kernel

/-- A response with a field is waiting, and the live response takes no fields. -/
def waiting : Exchange Transcript where
  store := Store.tiny.insert 0 (ascii "s1") (.ofBytes (ascii "page")) { headers := [field] }
  clock := {}
  request := { target := .ofBytes (ascii "page"), session := ascii "s1" }
  live := { failOn := some .header }

/-- The client is to be sent to a URL of two lines. -/
def twoLines : Exchange Message where
  store := Store.tiny.insert 0 (ascii "s2") (.ofBytes (ascii "page")) {}
  clock := {}
  request := { target := .ofBytes (ascii "page\npage"), session := ascii "s1" }
  live := {}

end Stumble

theorem nothing_left_by_fault_stumble :
    (∃ y, (Handler.plain.answer Stumble.render).run Stumble.waiting =
        (.error (.refused .header), y) ∧
      Handler.plain.calls Stumble.render Stumble.waiting = [.status .ok, .header Stumble.field] ∧
      y.store.entries = [] ∧
      ∀ later, (y.store.take later (ascii "s1") (.ofBytes (ascii "page"))).1 = .missing) ∧
    ∃ y, (Handler.plain.answer Stumble.render).run Stumble.twoLines =
        (.error (.header .value), y) ∧
      y.live = {} ∧
      y.store.entries = Stumble.twoLines.store.entries := by
  obtain ⟨hleft, hmessage⟩ := nothing_left_by_fault Handler.plain
  constructor
  · have hrun : (Handler.plain.answer Stumble.render).run Stumble.waiting =
        (.error (.refused .header),
          ((Handler.plain.answer Stumble.render).run Stumble.waiting).2) :=
      Prod.ext (by decide +kernel) rfl
    obtain ⟨-, -, hentries, -, hconsumed, -⟩ := hleft Stumble.render_detached hrun
    exact ⟨_, hrun, by decide +kernel, hentries.trans (by decide +kernel), hconsumed⟩
  · have hrun : (Handler.plain.answer Stumble.render).run Stumble.twoLines =
        (.error (.header .value), ((Handler.plain.answer Stumble.render).run Stumble.twoLines).2) :=
      Prod.ext (by decide +kernel) rfl
    obtain ⟨-, -, hentries, -⟩ := hleft Stumble.render_detached hrun
    exact ⟨_, hrun, hmessage Stumble.render_detached hrun, hentries.trans (by decide +kernel)⟩

end PageReply
