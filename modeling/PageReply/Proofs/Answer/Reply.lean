import PageReply.Proofs.Answer.Hops
import PageReply.Proofs.Http.History

/-!
# The message that a client gets

A request is answered on a new message. The answer fails if the render does, or if the client is to
be sent to a URL that is no field value; nothing else that a message checks is in the way of an
answer. A message whose answer fails is as new. Otherwise it is what became of the request that
decides about it: it has the response and nothing else, or it is a redirect and nothing else, or it
is as new because the render has taken over.
-/

namespace PageReply

/-- A message that has a response and nothing else. -/
def Response.message (r : Response) (ajax : Bool) : Message where
  ajax
  phase := .writing
  status := r.status
  headers := r.headers
  body := r.body

/-- A message sends the client to a URL and has nothing else. -/
structure Message.SendsTo (m : Message) (url : Bytes) (status : Status) : Prop where
  phase : m.phase = .redirected
  status : m.status = if m.ajax then .ok else status
  fields : m.fields = [(if m.ajax then ascii "Ajax-Location" else ascii "Location", url.trim)]
  body : m.body = []

/-! ## What the calls make of a new message -/

namespace Message

variable {ajax : Bool} {m : Message} {url : Bytes} {status : Status} {fault : Fault}

theorem sendsTo_of_performAll
    (h : Live.performAll [.redirect url status] ({ ajax } : Message) = (.ok (), m)) :
    m.ajax = ajax ∧ m.SendsTo url status := by
  have haccept : redirect { ajax } url status = .ok m := accept_of_performAll h
  obtain ⟨-, -, location, hname, hvalue, rfl⟩ := redirect_inv haccept
  refine ⟨rfl, rfl, rfl, ?_, rfl⟩
  simp only [fields, List.nil_append, List.map_singleton, hname, hvalue]
  rfl

theorem performAll_redirect_eq_error_iff (hstatus : status.IsRedirect) :
    (Live.performAll [.redirect url status] ({ ajax } : Message)).1 = .error fault ↔
      fault = .header .value ∧ ¬ Header.ValidValue url := by
  rw [← redirect_eq_error_iff (m := { ajax }) rfl hstatus, Live.performAll_singleton]
  simp only [Live.perform, accept]
  cases redirect { ajax } url status with
  | ok after => simp
  | error fault' => simp

end Message

namespace Course

variable {σ : Type} {course : Course} {render : Renderer σ} {x : Exchange σ}

theorem page_eq_error_iff {fault : Fault} :
    ((course.page render).run x).1 = .error fault ↔
      ∃ url, course.url? = some url ∧ ((render url).run x).1 = .error fault := by
  unfold page
  cases course.url? with
  | none => simp
  | some url => simp

theorem page_eq_of_url {url : Url} (hurl : course.url? = some url) :
    (course.page render).run x = (render url).run x := by
  rw [page, hurl]

theorem live_close (course : Course) (page : Option Response) (x : Exchange σ) :
    (course.close page x).live = x.live := by
  cases course <;> cases page <;> rfl

end Course

namespace Handler

variable {σ : Type} [Live σ] {h : Handler} {render : Renderer σ} {x : Exchange σ}

theorem renders_eq_singleton_iff {url : Url} :
    h.renders render x = [url] ↔ (h.course x).url? = some url := by
  rw [renders_eq, Option.toList_eq_singleton_iff]

theorem deliver_eq_error_iff {course : Course} {page : Option Response} {fault : Fault} :
    (h.deliver course page x).1 = .error fault ↔
      (Live.performAll (course.calls h.config.val.redirectStatus page) x.live).1 =
        .error fault := by
  rw [result_deliver]
  cases (Live.performAll (course.calls h.config.val.redirectStatus page) x.live).1 with
  | error raised => simp [Except.map]
  | ok done => simp [Except.map]

/-- A client is sent on when its page, if one is rendered, is there and a redirect is called for. -/
theorem sendsOn_iff : h.SendsOn render x ↔
    ∃ page, (((h.course x).page render).run (h.settled x)).1 = .ok page ∧
      (h.course x).calls h.config.val.redirectStatus page =
        [.redirect x.request.target.text h.config.val.redirectStatus] := by
  rw [SendsOn, calls_eq, callsOn]
  rcases ((h.course x).page render).run (h.settled x) with ⟨fault | page, z⟩
  · simp
  · constructor
    · rintro ⟨call, hcall, hkind⟩
      have hmem := (Live.made_prefix _ _).subset hcall
      obtain hcalls | ⟨response, hcalls⟩ | hcalls :=
        h.course_calls_cases x page h.config.val.redirectStatus
      · exact ⟨page, rfl, hcalls⟩
      · rw [hcalls] at hmem
        exact absurd hkind (Message.kind_of_mem_calls hmem)
      · rw [hcalls] at hmem
        cases hmem
    · rintro ⟨_, hpage, hcalls⟩
      cases hpage
      simp only [hcalls, Live.made_singleton]
      exact ⟨_, List.mem_singleton_self _, rfl⟩

end Handler

/-! ## Answers on a new message -/

/-- What an answer has made of a new message, by what became of the request. -/
inductive Replied (h : Handler) (render : Renderer Message) (x : Exchange Message) (ajax : Bool)
    (m : Message) : Outcome → Prop
  | bufferedWrite {response : Response} (hit : Handler.found x = .hit response)
    (whole : m = response.message ajax) : Replied h render x ajax m .bufferedWrite
  | written {url : Url} {response : Response} (renders : h.renders render x = [url])
    (page : ((render url).run (h.settled x)).1 = .ok (some response))
    (whole : m = response.message ajax) : Replied h render x ajax m .written
  | redirected (renders : h.renders render x = []) (ajax_eq : m.ajax = ajax)
    (sent : m.SendsTo x.request.target.text h.config.val.redirectStatus) :
    Replied h render x ajax m .redirected
  | bufferedRedirect {response : Response} (renders : h.renders render x = [x.request.target])
    (page : ((render x.request.target).run (h.settled x)).1 = .ok (some response))
    (ajax_eq : m.ajax = ajax)
    (sent : m.SendsTo x.request.target.text h.config.val.redirectStatus) :
    Replied h render x ajax m .bufferedRedirect
  | aborted {url : Url} (renders : h.renders render x = [url])
    (page : ((render url).run (h.settled x)).1 = .ok none) (new : m = { ajax }) :
    Replied h render x ajax m .aborted

section

variable {h : Handler} {render : Renderer Message} {x y : Exchange Message} {ajax : Bool}

/-- Of the calls of a course, a new message refuses a redirect to a URL that is no field value and
nothing else. -/
theorem performAll_course_eq_error_iff {page : Option Response} {fault : Fault} :
    (Live.performAll ((h.course x).calls h.config.val.redirectStatus page)
        ({ ajax } : Message)).1 = .error fault ↔
      fault = .header .value ∧
        (h.course x).calls h.config.val.redirectStatus page =
          [.redirect x.request.target.text h.config.val.redirectStatus] ∧
        ¬ Header.ValidValue x.request.target.text := by
  obtain hcalls | ⟨response, hcalls⟩ | hcalls :=
    h.course_calls_cases x page h.config.val.redirectStatus
  · rw [hcalls, Message.performAll_redirect_eq_error_iff h.config.property.redirectStatus]
    simp
  · rw [hcalls, Message.performAll_calls (m := { ajax }) nofun response]
    simp [Response.calls]
  · simp [hcalls, Live.performAll]

theorem answer_eq_error_iff (hsilent : render.Silent) (hnew : x.live = { ajax }) {fault : Fault} :
    ((h.answer render).run x).1 = .error fault ↔
      (∃ url, h.renders render x = [url] ∧ ((render url).run (h.settled x)).1 = .error fault) ∨
      (fault = .header .value ∧ h.SendsOn render x ∧
        ¬ Header.ValidValue x.request.target.text) := by
  have hlive := (hsilent.page (h.course x) (h.settled x)).trans hnew
  -- both sides are about the course: its page and the calls that follow
  simp only [Handler.renders_eq_singleton_iff, ← Course.page_eq_error_iff, Handler.sendsOn_iff]
  rw [Handler.run_answer_eq, Handler.pursue]
  rcases hpage : ((h.course x).page render).run (h.settled x) with ⟨raised | page, z⟩
  · simp
  · rw [hpage] at hlive
    change z.live = { ajax } at hlive
    simp [Handler.deliver_eq_error_iff, hlive, performAll_course_eq_error_iff]

theorem replied_of_answer {outcome : Outcome} (hsilent : render.Silent) (hnew : x.live = { ajax })
    (hrun : (h.answer render).run x = (.ok outcome, y)) :
    Replied h render x ajax y.live outcome := by
  obtain ⟨page, z, live, hpage, hsend, rfl, rfl⟩ := h.answer_ok_course render x hrun
  -- the message is still new when the first call is made
  have hlive := (hsilent.page (h.course x) (h.settled x)).trans hnew
  rw [hpage] at hlive
  change z.live = { ajax } at hlive
  rw [hlive] at hsend
  rw [Course.live_close]
  have hwhole : ∀ response : Response,
      Live.performAll response.calls ({ ajax } : Message) = (.ok (), response.message ajax) :=
    Message.performAll_calls nofun
  have hrendered : ∀ url, (h.course x).url? = some url → h.renders render x = [url] ∧
      ((render url).run (h.settled x)).1 = .ok page := by
    intro url hurl
    rw [Handler.renders_eq_singleton_iff, ← Course.page_eq_of_url hurl, hpage]
    exact ⟨hurl, rfl⟩
  obtain ⟨response, hit, hcourse⟩ | ⟨url, hcourse⟩ | hcourse | hcourse := h.course_forms x
  · rw [hcourse] at hsend ⊢
    cases (hwhole response).symm.trans hsend
    exact .bufferedWrite hit rfl
  · obtain ⟨hrenders, hgiven⟩ := hrendered url (by rw [hcourse]; rfl)
    rw [hcourse] at hsend ⊢
    cases page with
    | none =>
      cases hsend
      exact .aborted hrenders hgiven rfl
    | some response =>
      cases (hwhole response).symm.trans hsend
      exact .written hrenders hgiven rfl
  · have hrenders : h.renders render x = [] := by
      rw [Handler.renders_eq, hcourse]
      rfl
    rw [hcourse] at hsend ⊢
    obtain ⟨hajax, hsent⟩ := Message.sendsTo_of_performAll hsend
    exact .redirected hrenders hajax hsent
  · obtain ⟨hrenders, hgiven⟩ := hrendered x.request.target (by rw [hcourse]; rfl)
    rw [hcourse] at hsend ⊢
    cases page with
    | none =>
      cases hsend
      exact .aborted hrenders hgiven rfl
    | some response =>
      obtain ⟨hajax, hsent⟩ := Message.sendsTo_of_performAll hsend
      exact .bufferedRedirect hrenders hgiven hajax hsent

/-- **The message that a client gets.** An answer on a new message fails in two cases: the page is
rendered and the render fails, or a redirect is called for and the URL has a byte that may not stand
in a field value. Either way the message stays new. Any other answer makes of it what the outcome
says. -/
theorem message_of_answer (h : Handler) (hsilent : render.Silent) (hnew : x.live = { ajax }) :
    (∀ fault, ((h.answer render).run x).1 = .error fault ↔
      (∃ url, h.renders render x = [url] ∧ ((render url).run (h.settled x)).1 = .error fault) ∨
      (fault = .header .value ∧ h.SendsOn render x ∧
        ¬ Header.ValidValue x.request.target.text)) ∧
    (∀ fault y, (h.answer render).run x = (.error fault, y) → y.live = { ajax }) ∧
    ∀ outcome y, (h.answer render).run x = (.ok outcome, y) →
      Replied h render x ajax y.live outcome := by
  refine ⟨fun fault => answer_eq_error_iff hsilent hnew, ?_, ?_⟩
  · intro fault y hrun
    rw [hsilent.message_of_error hrun, hnew]
  · intro outcome y hrun
    exact replied_of_answer hsilent hnew hrun

end

namespace Errand

/-- A script asks for a page whose URL starts with a blank. -/
def byScript : Exchange Message where
  store := .tiny
  clock := {}
  request := { target := .ofBytes (ascii " page"), session := ascii "s1", ajax := true }
  live := { ajax := true }

/-- A response without a body is waiting. -/
def blank : Exchange Message where
  store :=
    Store.tiny.insert 0 (ascii "s1") (.ofBytes (ascii "page")) { headers := [Stumble.field] }
  clock := {}
  request := { target := .ofBytes (ascii "page"), session := ascii "s1" }
  live := {}

/-- The page cannot be rendered. -/
def fails : Renderer Message := fun _ => throw (.raised .failure (ascii "no page"))

theorem fails_silent : fails.Silent := fun _ _ => rfl

theorem run_eq {render : Renderer Message} {x : Exchange Message} {result : Except Fault Outcome}
    (hresult : ((Handler.plain.answer render).run x).1 = result) :
    (Handler.plain.answer render).run x = (result, ((Handler.plain.answer render).run x).2) :=
  Prod.ext hresult rfl

end Errand

theorem message_of_answer_errands :
    (∃ y, (Handler.plain.answer Stumble.render).run Errand.byScript = (.ok .bufferedRedirect, y) ∧
      y.live.fields = [(ascii "Ajax-Location", ascii "page")] ∧ y.live.status = .ok) ∧
    (∃ y, (Handler.plain.answer Stumble.render).run Errand.blank = (.ok .bufferedWrite, y) ∧
      y.live = { phase := .writing, headers := [Stumble.field] }) ∧
    ((Handler.plain.answer Stumble.render).run Stumble.twoLines).1 = .error (.header .value) ∧
    ∃ y, (Handler.plain.answer Errand.fails).run Errand.byScript =
        (.error (.raised .failure (ascii "no page")), y) ∧
      y.live = { ajax := true } := by
  have hsilent : (Stumble.render : Renderer Message).Silent := Stumble.render_detached.silent
  refine ⟨?_, ?_, ?_, ?_⟩
  · have hnew : Errand.byScript.live = { ajax := true } := rfl
    have hresult : ((Handler.plain.answer Stumble.render).run Errand.byScript).1 =
        .ok .bufferedRedirect := by
      decide +kernel
    have hrun := Errand.run_eq hresult
    refine ⟨_, hrun, ?_⟩
    cases (message_of_answer Handler.plain hsilent hnew).2.2 _ _ hrun with
    | bufferedRedirect _ _ hajax hsent =>
      rw [hsent.fields, hsent.status, hajax]
      exact ⟨by decide +kernel, rfl⟩
  · have hnew : Errand.blank.live = { ajax := false } := rfl
    have hresult : ((Handler.plain.answer Stumble.render).run Errand.blank).1 =
        .ok .bufferedWrite := by
      decide +kernel
    have hrun := Errand.run_eq hresult
    refine ⟨_, hrun, ?_⟩
    cases (message_of_answer Handler.plain hsilent hnew).2.2 _ _ hrun with
    | bufferedWrite hit hwhole =>
      have hfound : Handler.found Errand.blank = .hit { headers := [Stumble.field] } := by
        decide +kernel
      cases hfound.symm.trans hit
      exact hwhole
  · have hnew : Stumble.twoLines.live = { ajax := false } := rfl
    refine ((message_of_answer Handler.plain hsilent hnew).1 _).2 (.inr ⟨rfl, ?_, ?_⟩)
    · exact ⟨.redirect (ascii "page\npage") .found, by decide +kernel, rfl⟩
    · decide +kernel
  · have hnew : Errand.byScript.live = { ajax := true } := rfl
    obtain ⟨hfault, hstays, -⟩ := message_of_answer Handler.plain Errand.fails_silent hnew
    have hresult := (hfault (.raised .failure (ascii "no page"))).2
      (.inl ⟨.ofBytes (ascii " page"), by decide +kernel, rfl⟩)
    exact ⟨_, Errand.run_eq hresult, hstays _ _ (Errand.run_eq hresult)⟩

end PageReply
