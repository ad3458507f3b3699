import PageReply.Proofs.Answer.Calls

/-!
# The pages that an answer renders

`Watched` keeps a watch beside a live response: it notes each URL that a page is rendered for,
whether the render fails or not. The watch changes nothing (`Handler.run_answer_watched`), so
`Handler.renders` are the renders of the answer without it. There is at most one, and the course of
the answer says for which URL.
-/

namespace PageReply

variable {σ : Type}

/-- A live response with a watch beside it. -/
structure Watched (σ : Type) where
  live : σ
  renders : List Url := []

instance [Live σ] : Live (Watched σ) where
  perform call w := ((Live.perform call w.live).1, { w with live := (Live.perform call w.live).2 })

/-- The exchange with a watch beside its live response, which has seen some renders. -/
def Exchange.watched (x : Exchange σ) (renders : List Url) : Exchange (Watched σ) :=
  x.on { live := x.live, renders }

/-- Renders under watch, on the live response itself. -/
def Renderer.watched (render : Renderer σ) : Renderer (Watched σ) := fun url =>
  ExceptT.mk do
    let x ← get
    let (page, y) := (render url).run (x.on x.live.live)
    set (y.watched (x.live.renders ++ [url]))
    return page

theorem Live.performAll_watched [Live σ] (calls : List Call) (live : σ) (renders : List Url) :
    Live.performAll calls (⟨live, renders⟩ : Watched σ) =
      ((Live.performAll calls live).1, ⟨(Live.performAll calls live).2, renders⟩) := by
  induction calls generalizing live with
  | nil => rfl
  | cons call calls ih =>
    have hcall : perform call (⟨live, renders⟩ : Watched σ) =
        ((perform call live).1, ⟨(perform call live).2, renders⟩) := rfl
    rw [performAll, performAll, hcall]
    rcases perform call live with ⟨_ | _, next⟩
    · rfl
    · exact ih next

theorem Course.page_watched (course : Course) (render : Renderer σ) (x : Exchange σ) :
    (course.page render.watched).run (x.watched []) =
      (((course.page render).run x).1,
        ((course.page render).run x).2.watched course.url?.toList) := by
  unfold Course.page
  cases course.url? <;> rfl

namespace Handler

variable [Live σ] (h : Handler) (render : Renderer σ) (x : Exchange σ)

/-- The URLs that the page is rendered for. -/
def renders : List Url :=
  ((h.answer render.watched).run (x.watched [])).2.live.renders

theorem deliver_watched (course : Course) (page : Option Response) (renders : List Url) :
    h.deliver course page (x.watched renders) =
      ((h.deliver course page x).1, (h.deliver course page x).2.watched renders) := by
  have hsend := Live.performAll_watched (course.calls h.config.val.redirectStatus page) x.live
    renders
  unfold deliver Exchange.watched Exchange.on
  simp only [hsend]
  rcases Live.performAll (course.calls h.config.val.redirectStatus page) x.live with ⟨_ | _, live⟩
  · rfl
  · cases course <;> cases page <;> rfl

theorem pursue_watched (course : Course) :
    h.pursue render.watched course (x.watched []) =
      ((h.pursue render course x).1,
        (h.pursue render course x).2.watched course.url?.toList) := by
  rw [pursue, pursue, Course.page_watched]
  rcases (course.page render).run x with ⟨_ | page, y⟩
  · rfl
  · exact h.deliver_watched y course page _

/-- The watch changes nothing. -/
theorem run_answer_watched :
    (h.answer render.watched).run (x.watched []) =
      (((h.answer render).run x).1,
        ((h.answer render).run x).2.watched (h.course x).url?.toList) := by
  rw [run_answer_eq, run_answer_eq]
  exact h.pursue_watched render (h.settled x) (h.course x)

theorem renders_eq : h.renders render x = (h.course x).url?.toList := by
  rw [renders, run_answer_watched]
  rfl

/-! ## Answers to requests for which a response waits -/

section Found

variable {x}

omit [Live σ] in
theorem course_of_found {response : Response} (hit : found x = .hit response) :
    h.course x = .replay response := by
  rw [course, hit]

/-- A response that is found is sent and that is all, even if a call is refused. -/
theorem run_answer_of_found {response : Response} (hit : found x = .hit response) :
    (h.answer render).run x =
      ((Live.performAll response.calls x.live).1.map fun _ => .bufferedWrite,
        { h.settled x with live := (Live.performAll response.calls x.live).2 }) := by
  have hpursue : h.pursue render (.replay response) (h.settled x) =
      h.deliver (.replay response) none (h.settled x) := rfl
  have hcalls : (Course.replay response).calls h.config.val.redirectStatus none =
      response.calls := rfl
  have hlive : (h.settled x).live = x.live := rfl
  rw [run_answer_eq, h.course_of_found hit, hpursue, deliver, hcalls, hlive]
  rcases Live.performAll response.calls x.live with ⟨_ | _, live⟩ <;> rfl

/-- The calls for a response that is found are its own, up to the first that is refused. -/
theorem calls_of_found {response : Response} (hit : found x = .hit response) :
    h.calls render x = Live.made response.calls x.live := by
  rw [calls_eq, h.course_of_found hit]
  rfl

theorem renders_of_found {response : Response} (hit : found x = .hit response) :
    h.renders render x = [] := by
  rw [renders_eq, h.course_of_found hit]
  rfl

end Found

/-! ## Answers by their outcome -/

variable {h render x} {y : Exchange σ}

/-- When a client is sent on without a page, nothing has changed but what the look-up did. -/
theorem redirected_inv (hrun : (h.answer render).run x = (.ok .redirected, y)) :
    h.renders render x = [] ∧ y.request = x.request ∧
      y.store = (x.store.take x.now x.request.session x.request.target).2 := by
  obtain ⟨page, z, live, hpage, -, houtcome, hleft⟩ := h.answer_ok_course render x hrun
  obtain ⟨url, hcourse⟩ := Course.exists_redirect_of_outcome houtcome.symm
  rw [hcourse] at hpage hleft
  cases hpage
  rw [renders_eq, hcourse, hleft]
  exact ⟨rfl, rfl, rfl⟩

/-- When a page is buffered, it was rendered for its own URL, the client was sent there, and the
page was put in as the last thing of all, for the session that is there after the render. -/
theorem bufferedRedirect_course (hrun : (h.answer render).run x = (.ok .bufferedRedirect, y)) :
    h.renders render x = [x.request.target] ∧
      ∃ response z live, (render x.request.target).run (h.settled x) = (.ok (some response), z) ∧
        Live.performAll [.redirect x.request.target.text h.config.val.redirectStatus] z.live =
          (.ok (), live) ∧
        y = (Course.buffer x.request.target).close (some response) { z with live } := by
  obtain ⟨page, z, live, hpage, hsend, houtcome, hleft⟩ := h.answer_ok_course render x hrun
  obtain ⟨url, response, hcourse, rfl⟩ := Course.exists_buffer_of_outcome houtcome.symm
  obtain rfl := h.eq_target_of_course x hcourse
  rw [hcourse] at hpage hsend hleft
  rw [renders_eq, hcourse]
  exact ⟨rfl, response, z, live, hpage, hsend, hleft⟩

variable (h render) in
/-- When a response is waiting, it is sent and nothing is rendered. -/
theorem answer_of_hit {response : Response} {live : σ} (hit : found x = .hit response)
    (hsend : Live.performAll response.calls x.live = (.ok (), live)) :
    h.renders render x = [] ∧ h.calls render x = response.calls ∧
      ∃ y, (h.answer render).run x = (.ok .bufferedWrite, y) ∧ y.live = live ∧
        y.store = (x.store.take x.now x.request.session x.request.target).2 := by
  refine ⟨h.renders_of_found render hit, ?_, _,
    h.run_answer_of_hit render x (Prod.ext hit rfl) hsend, rfl, rfl⟩
  rw [h.calls_of_found render hit]
  exact Live.made_of_ok hsend

end Handler

end PageReply
