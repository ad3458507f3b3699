import PageReply.Proofs.Answer.Run

/-!
# The course of an answer

An answer takes one of four courses, which is settled before anything is rendered or sent: by what
the look-up finds and, if that is nothing, by the facts of the request. Whatever the course, the
rest is the same: at most one page is rendered, then some calls are made on the live response, and
last, on one of the courses, something is put in. `Handler.run_answer_eq` says so in one equation,
which holds whatever the render does and whatever is refused.
-/

namespace PageReply

/-- What a handler sets out to do about a request. -/
inductive Course where
  /-- Sends a response that was waiting. -/
  | replay (response : Response)
  /-- Sends the client to a URL. -/
  | redirect (url : Url)
  /-- Renders the page for a URL and sends it. -/
  | write (url : Url)
  /-- Renders the page for a URL, sends the client there and puts the page in. -/
  | buffer (url : Url)
deriving DecidableEq, Repr

namespace Course

/-- The URL that the page is rendered for. -/
def url? : Course → Option Url
  | replay _ | redirect _ => none
  | write url | buffer url => some url

/-- The calls to make when the page is there; a course without a render has no page. -/
def calls (status : Status) : Course → Option Response → List Call
  | replay response, _ | write _, some response => response.calls
  | redirect url, _ | buffer url, some _ => [.redirect url.text status]
  | write _, none | buffer _, none => []

def outcome : Course → Option Response → Outcome
  | replay _, _ => .bufferedWrite
  | redirect _, _ => .redirected
  | write _, some _ => .written
  | buffer _, some _ => .bufferedRedirect
  | write _, none | buffer _, none => .aborted

theorem exists_redirect_of_outcome {course : Course} {page : Option Response}
    (h : course.outcome page = .redirected) : ∃ url, course = .redirect url := by
  cases course with
  | redirect url => exact ⟨url, rfl⟩
  | replay response => cases h
  | write url | buffer url => cases page <;> cases h

theorem exists_buffer_of_outcome {course : Course} {page : Option Response}
    (h : course.outcome page = .bufferedRedirect) :
    ∃ url response, course = .buffer url ∧ page = some response := by
  cases course with
  | buffer url =>
    cases page with
    | none => cases h
    | some response => exact ⟨url, response, rfl, rfl⟩
  | replay response | redirect url => cases h
  | write url => cases page <;> cases h

variable {σ : Type}

/-- Renders the page, if there is one to render. -/
def page (render : Renderer σ) (course : Course) : ExchangeM σ (Option Response) :=
  match course.url? with
  | none => return none
  | some url => render url

/-- The exchange when all calls have been accepted. -/
def close (course : Course) (page : Option Response) (x : Exchange σ) : Exchange σ :=
  match course, page with
  | buffer url, some response =>
    { x with
      store := x.store.insert x.now x.request.session url response
      log := x.log ++ x.store.insertEvents x.now (Store.key x.request.session url) }
  | write url, none | buffer url, none => { x with log := x.log ++ [.takenOver url] }
  | replay _, _ | redirect _, _ | write _, some _ => x

end Course

namespace Handler

variable {σ : Type} [Live σ] (h : Handler) (render : Renderer σ) (x : Exchange σ)

/-- The course when nothing is buffered for a request. -/
def undertake (request : Request) : Course :=
  match h.action request with
  | .write => .write request.current
  | .redirect => .redirect request.target
  | .buffer =>
    if (h.facts request).stateless ∧ ¬ (h.facts request).redirectStateless then
      .write request.current
    else if request.current = request.target then .write request.target
    else .buffer request.target

/-- What the look-up for a request finds. -/
def found : Lookup :=
  (x.store.take x.now x.request.session x.request.target).1

def course : Course :=
  match found x with
  | .hit response => .replay response
  | .missing | .stale => h.undertake x.request

/-- The exchange when the course is settled. -/
def settled : Exchange σ :=
  { x with
    store := (x.store.take x.now x.request.session x.request.target).2
    log := x.log ++
      match found x with
      | .hit response => [.served x.request.target response.size, .replaying x.request.target]
      | miss => miss.event x.request.target :: h.decisionLog x.request }

/-- Makes the calls of a course and closes it. -/
def deliver (course : Course) (page : Option Response) (x : Exchange σ) :
    Except Fault Outcome × Exchange σ :=
  match Live.performAll (course.calls h.config.val.redirectStatus page) x.live with
  | (.ok (), live) => (.ok (course.outcome page), course.close page { x with live })
  | (.error fault, live) => (.error fault, { x with live })

theorem result_deliver (course : Course) (page : Option Response) :
    (h.deliver course page x).1 =
      (Live.performAll (course.calls h.config.val.redirectStatus page) x.live).1.map
        fun _ => course.outcome page := by
  unfold deliver
  rcases Live.performAll (course.calls h.config.val.redirectStatus page) x.live with ⟨_ | _, live⟩
  · rfl
  · rfl

/-- Follows a course from an exchange on which it is settled. -/
def pursue (course : Course) (x : Exchange σ) : Except Fault Outcome × Exchange σ :=
  match (course.page render).run x with
  | (.ok page, y) => h.deliver course page y
  | (.error fault, y) => (.error fault, y)

theorem pursue_write (url : Url) :
    h.pursue render (.write url) x = (writePage render url).run x := by
  rw [run_writePage, pursue]
  change (match (render url).run x with | (.ok page, y) => _ | (.error fault, y) => _) = _
  rcases (render url).run x with ⟨_ | _ | response, y⟩ <;> rfl

theorem pursue_buffer (current target : Url) :
    h.pursue render (if current = target then .write target else .buffer target) x =
      (h.bufferPage render current target).run x := by
  rw [run_bufferPage]
  by_cases hsame : current = target
  · simp only [if_pos hsame]
    rw [pursue_write, run_writePage]
  · simp only [if_neg hsame]
    change (match (render target).run x with | (.ok page, y) => _ | (.error fault, y) => _) = _
    rcases (render target).run x with ⟨_ | _ | response, y⟩ <;> rfl

theorem pursue_undertake (request : Request) :
    h.pursue render (h.undertake request) { x with log := x.log ++ h.decisionLog request } =
      (h.act render request).run x := by
  rw [run_act, undertake]
  cases h.action request with
  | write => exact h.pursue_write render _ _
  | redirect => rfl
  | buffer =>
    simp only
    split
    · exact h.pursue_write render _ _
    · exact h.pursue_buffer render _ _ _

/-- **An answer settles its course and follows it.** -/
theorem run_answer_eq :
    (h.answer render).run x = h.pursue render (h.course x) (h.settled x) := by
  rw [run_answer, course, settled, found]
  rcases x.store.take x.now x.request.session x.request.target with ⟨_ | _ | response, store⟩
  · simp only
    rw [← pursue_undertake, List.append_assoc, List.singleton_append]
  · simp only
    rw [← pursue_undertake, List.append_assoc, List.singleton_append]
  · rfl

/-- An answer that does not fail has the page of its course, makes all the calls, and closes it. -/
theorem answer_ok_course {outcome : Outcome} {y : Exchange σ}
    (hrun : (h.answer render).run x = (.ok outcome, y)) :
    ∃ page z live, ((h.course x).page render).run (h.settled x) = (.ok page, z) ∧
      Live.performAll ((h.course x).calls h.config.val.redirectStatus page) z.live =
        (.ok (), live) ∧
      outcome = (h.course x).outcome page ∧ y = (h.course x).close page { z with live } := by
  rw [run_answer_eq, pursue] at hrun
  rcases hpage : ((h.course x).page render).run (h.settled x) with ⟨_ | page, z⟩
  · rw [hpage] at hrun
    cases hrun
  · simp only [hpage, deliver] at hrun
    rcases hsend : Live.performAll ((h.course x).calls h.config.val.redirectStatus page) z.live with
      ⟨_ | _, live⟩
    · rw [hsend] at hrun
      cases hrun
    · rw [hsend] at hrun
      cases hrun
      exact ⟨page, z, live, rfl, hsend, rfl, rfl⟩

omit [Live σ] in
/-- A course is to replay, or it is undertaken because the look-up finds nothing. -/
theorem course_cases :
    (∃ response, found x = .hit response ∧ h.course x = .replay response) ∨
      ((found x).response? = none ∧ h.course x = h.undertake x.request) := by
  rw [course]
  cases found x with
  | hit response => exact .inl ⟨response, rfl, rfl⟩
  | _ => exact .inr ⟨rfl, rfl⟩

omit [Live σ] in
/-- A client is sent to its target only. -/
theorem undertake_cases (request : Request) :
    (∃ url, h.undertake request = .write url) ∨ h.undertake request = .redirect request.target ∨
      h.undertake request = .buffer request.target := by
  rw [undertake]
  split
  · exact .inl ⟨_, rfl⟩
  · exact .inr (.inl rfl)
  · split
    · exact .inl ⟨_, rfl⟩
    · split
      · exact .inl ⟨_, rfl⟩
      · exact .inr (.inr rfl)

omit [Live σ] in
/-- Only what the look-up finds is replayed, and a client is sent to its target only. -/
theorem course_forms :
    (∃ response, found x = .hit response ∧ h.course x = .replay response) ∨
      (∃ url, h.course x = .write url) ∨ h.course x = .redirect x.request.target ∨
        h.course x = .buffer x.request.target := by
  obtain hreplay | ⟨-, hundertake⟩ := h.course_cases x
  · exact .inl hreplay
  · rw [hundertake]
    exact .inr (h.undertake_cases x.request)

omit [Live σ] in
theorem eq_target_of_course {url : Url} (hcourse : h.course x = .buffer url) :
    url = x.request.target := by
  obtain ⟨response, -, hreplay⟩ | ⟨current, hwrite⟩ | hredirect | hbuffer := h.course_forms x
  · cases hcourse.symm.trans hreplay
  · cases hcourse.symm.trans hwrite
  · cases hcourse.symm.trans hredirect
  · exact Course.buffer.inj (hcourse.symm.trans hbuffer)

omit [Live σ] in
/-- A client is sent to its target by the only call there is, or not at all. -/
theorem course_calls_cases (page : Option Response) (status : Status) :
    (h.course x).calls status page = [.redirect x.request.target.text status] ∨
      (∃ response : Response, (h.course x).calls status page = response.calls) ∨
        (h.course x).calls status page = [] := by
  obtain ⟨response, -, hcourse⟩ | ⟨current, hcourse⟩ | hcourse | hcourse := h.course_forms x
  · rw [hcourse]
    exact .inr (.inl ⟨response, rfl⟩)
  · rw [hcourse]
    cases page with
    | none => exact .inr (.inr rfl)
    | some response => exact .inr (.inl ⟨response, rfl⟩)
  · rw [hcourse]
    exact .inl rfl
  · rw [hcourse]
    cases page with
    | none => exact .inr (.inr rfl)
    | some response => exact .inl rfl

end Handler

end PageReply
