import PageReply.Proofs.Answer.Course

/-!
# The calls that an answer makes

A live response is opaque: it takes calls, and what it makes of them is its own affair. `Tapped`
puts a tap on one, which writes down the calls that are made on it and hands them on. The page is
rendered on the live response itself, so that the tap hears the handler and not the render. The tap
changes nothing (`Handler.run_answer_tapped`), so `Handler.calls` are the calls of the answer
without it.
-/

namespace PageReply

variable {σ τ : Type}

/-- The same exchange with another live response. -/
def Exchange.on (x : Exchange σ) (live : τ) : Exchange τ where
  store := x.store
  clock := x.clock
  request := x.request
  live := live
  log := x.log

namespace Live

variable [Live σ]

/-- Of some calls those that are made: up to the first that is refused, and that one too. -/
def made : List Call → σ → List Call
  | [], _ => []
  | call :: calls, live =>
    call ::
      match perform call live with
      | (.ok (), after) => made calls after
      | (.error _, _) => []

variable {calls : List Call} {live after : σ}

theorem made_prefix (calls : List Call) (live : σ) : made calls live <+: calls := by
  induction calls generalizing live with
  | nil => exact List.prefix_rfl
  | cons call calls ih =>
    rw [made, List.cons_prefix_cons]
    refine ⟨rfl, ?_⟩
    rcases perform call live with ⟨_ | _, after⟩
    · exact List.nil_prefix
    · exact ih after

/-- A call that is refused has been made all the same. -/
theorem made_singleton (call : Call) (live : σ) : made [call] live = [call] := by
  rw [made]
  rcases perform call live with ⟨_ | _, after⟩ <;> rfl

theorem made_of_ok (h : performAll calls live = (.ok (), after)) : made calls live = calls := by
  induction calls generalizing live with
  | nil => rfl
  | cons call calls ih =>
    rw [performAll] at h
    rw [made]
    rcases hcall : perform call live with ⟨_ | _, next⟩
    · rw [hcall] at h
      cases h
    · rw [hcall] at h
      exact congrArg (call :: ·) (ih h)

/-- The last of the calls that are made is the one that is refused. -/
theorem made_of_error {fault : Fault} (h : performAll calls live = (.error fault, after)) :
    ∃ done call next, made calls live = done ++ [call] ∧
      performAll done live = (.ok (), next) ∧ perform call next = (.error fault, after) := by
  induction calls generalizing live with
  | nil => cases h
  | cons call calls ih =>
    rw [performAll] at h
    rw [made]
    rcases hcall : perform call live with ⟨fault' | _, next⟩
    · rw [hcall] at h
      cases h
      exact ⟨[], call, live, rfl, rfl, hcall⟩
    · rw [hcall] at h
      obtain ⟨done, last, before, hmade, hdone, hlast⟩ := ih h
      refine ⟨call :: done, last, before, congrArg (call :: ·) hmade, ?_, hlast⟩
      rw [performAll, hcall]
      exact hdone

end Live

/-- A live response with a tap on it. -/
structure Tapped (σ : Type) where
  live : σ
  calls : List Call := []

instance [Live σ] : Live (Tapped σ) where
  perform call t :=
    ((Live.perform call t.live).1, ⟨(Live.perform call t.live).2, t.calls ++ [call]⟩)

/-- The exchange with a tap on its live response, which has heard some calls. -/
def Exchange.tapped (x : Exchange σ) (calls : List Call) : Exchange (Tapped σ) :=
  x.on { live := x.live, calls }

/-- Renders on the live response itself. -/
def Renderer.tapped (render : Renderer σ) : Renderer (Tapped σ) := fun url =>
  ExceptT.mk do
    let x ← get
    let (page, y) := (render url).run (x.on x.live.live)
    set (y.tapped x.live.calls)
    return page

theorem Live.performAll_tapped [Live σ] (calls before : List Call) (live : σ) :
    Live.performAll calls (⟨live, before⟩ : Tapped σ) =
      ((Live.performAll calls live).1,
        ⟨(Live.performAll calls live).2, before ++ Live.made calls live⟩) := by
  induction calls generalizing live before with
  | nil => simp [performAll, made]
  | cons call calls ih =>
    have hcall : perform call (⟨live, before⟩ : Tapped σ) =
        ((perform call live).1, ⟨(perform call live).2, before ++ [call]⟩) := rfl
    rw [performAll, performAll, made, hcall]
    rcases perform call live with ⟨_ | _, next⟩
    · rfl
    · simp only [ih, List.append_assoc, List.singleton_append]

theorem Course.page_tapped (course : Course) (render : Renderer σ) (x : Exchange σ) :
    (course.page render.tapped).run (x.tapped []) =
      (((course.page render).run x).1, ((course.page render).run x).2.tapped []) := by
  unfold Course.page
  cases course.url? <;> rfl

namespace Handler

theorem course_on (h : Handler) (x : Exchange σ) (live : τ) : h.course (x.on live) = h.course x :=
  rfl

theorem settled_on (h : Handler) (x : Exchange σ) (live : τ) :
    h.settled (x.on live) = (h.settled x).on live := rfl

variable [Live σ] (h : Handler) (render : Renderer σ) (x : Exchange σ)

/-- The calls that the handler makes on the live response. -/
def calls : List Call :=
  ((h.answer render.tapped).run (x.tapped [])).2.live.calls

def callsOn (course : Course) (x : Exchange σ) : List Call :=
  match (course.page render).run x with
  | (.ok page, y) => Live.made (course.calls h.config.val.redirectStatus page) y.live
  | (.error _, _) => []

theorem deliver_tapped (course : Course) (page : Option Response) :
    h.deliver course page (x.tapped []) =
      ((h.deliver course page x).1,
        (h.deliver course page x).2.tapped
          (Live.made (course.calls h.config.val.redirectStatus page) x.live)) := by
  have hsend := Live.performAll_tapped (course.calls h.config.val.redirectStatus page) [] x.live
  unfold deliver Exchange.tapped Exchange.on
  simp only [hsend]
  rcases Live.performAll (course.calls h.config.val.redirectStatus page) x.live with ⟨_ | _, live⟩
  · rfl
  · cases course <;> cases page <;> rfl

theorem pursue_tapped (course : Course) :
    h.pursue render.tapped course (x.tapped []) =
      ((h.pursue render course x).1,
        (h.pursue render course x).2.tapped (h.callsOn render course x)) := by
  rw [pursue, pursue, callsOn, Course.page_tapped]
  rcases (course.page render).run x with ⟨_ | page, y⟩
  · rfl
  · exact h.deliver_tapped y course page

/-- The tap changes nothing. -/
theorem run_answer_tapped :
    (h.answer render.tapped).run (x.tapped []) =
      (((h.answer render).run x).1,
        ((h.answer render).run x).2.tapped (h.callsOn render (h.course x) (h.settled x))) := by
  rw [run_answer_eq, run_answer_eq]
  exact h.pursue_tapped render (h.settled x) (h.course x)

theorem calls_eq : h.calls render x = h.callsOn render (h.course x) (h.settled x) := by
  rw [calls, run_answer_tapped]
  rfl

end Handler

end PageReply
