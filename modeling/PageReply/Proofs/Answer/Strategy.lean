import PageReply.Proofs.Answer.Renders
import PageReply.Proofs.Echo

/-!
# Strategies that make no difference

Rendering into a buffer is what a handler does when no rule says otherwise, whether its strategy
asks for it or not. So a handler whose strategy asks for it answers as one whose strategy asks for
nothing that a rule is about, and where rendering in one pass is ruled out, as one whose strategy
asks for that. What differs is the log.
-/

namespace PageReply

/-- The second strategy may stand for the first in answers to requests, ajax or not, under a policy.
Only a strategy that asks for a buffer can be replaced. -/
inductive Strategy.Swaps (ajax : Bool) (policy : Policy) : Strategy → Strategy → Prop
  | same (s : Strategy) : Swaps ajax policy s s
  | fallback {s : Strategy} (notOnePass : s ≠ .onePass) (notRedirect : s ≠ .redirectToRender) :
    Swaps ajax policy .redirectToBuffer s
  | onePass (ruledOut : ajax = true ∨ policy = .alwaysRedirect) :
    Swaps ajax policy .redirectToBuffer .onePass

namespace Strategy.Swaps

variable {ajax : Bool} {policy : Policy} {s s' : Strategy}

theorem redirectToRender_iff (h : Swaps ajax policy s s') :
    s' = .redirectToRender ↔ s = .redirectToRender := by
  cases h with
  | same => rfl
  | fallback _ notRedirect => simp [notRedirect]
  | onePass => simp

theorem onePass_iff (h : Swaps ajax policy s s') :
    (s' = .onePass ↔ s = .onePass) ∨ ajax = true ∨ policy = .alwaysRedirect := by
  cases h with
  | same => exact .inl .rfl
  | fallback notOnePass => simp [notOnePass]
  | onePass ruledOut => exact .inr ruledOut

end Strategy.Swaps

/-- Settings differ in the strategy only, and in one that may stand for the other. -/
def Config.Swaps (ajax : Bool) (policy : Policy) (c c' : Config) : Prop :=
  ∃ strategy, Strategy.Swaps ajax policy c.strategy strategy ∧ c' = { c with strategy }

def Handler.Swaps (ajax : Bool) (h h' : Handler) : Prop :=
  h'.policy = h.policy ∧ h.config.val.Swaps ajax h.policy h'.config.val

/-! ## Facts -/

namespace Facts

variable (f : Facts) (same : Bool)

/-- Whether the strategy is to render into a buffer is not asked. Whether it is to render in one
pass is asked only of requests that are not ajax, and only where redirects are not required. -/
theorem action_swap {onePass redirectToBuffer : Bool}
    (h : onePass = f.onePass ∨ f.ajax = true ∨ f.policy = .alwaysRedirect) :
    { f with onePass, redirectToBuffer }.action same = f.action same := by
  have hwrites : { f with onePass, redirectToBuffer }.Writes same ↔ f.Writes same := by
    obtain rfl | hajax | hpolicy := h
    · rfl
    · simp [Writes, hajax]
    · simp [Writes, hpolicy]
  have hredirects : { f with onePass, redirectToBuffer }.Redirects same ↔ f.Redirects same := .rfl
  simp only [action, hwrites, hredirects]

end Facts

namespace Handler

variable {h h' : Handler} {request : Request}

/-- The facts that two handlers have of a request differ in what is not asked. -/
theorem Swaps.facts (hswap : h.Swaps request.ajax h') :
    ∃ onePass redirectToBuffer,
      h'.facts request = { h.facts request with onePass, redirectToBuffer } ∧
        (onePass = (h.facts request).onePass ∨ (h.facts request).ajax = true ∨
          (h.facts request).policy = .alwaysRedirect) := by
  obtain ⟨hpolicy, strategy, hstrategy, hconfig⟩ := hswap
  refine ⟨(h'.facts request).onePass, (h'.facts request).redirectToBuffer, ?_, ?_⟩
  · simp only [Handler.facts, Facts.ofRequest, hpolicy, hconfig, hstrategy.redirectToRender_iff]
  · refine hstrategy.onePass_iff.imp_left fun hone => ?_
    simp only [Handler.facts, Facts.ofRequest, hconfig, hone]

theorem Swaps.action_eq (hswap : h.Swaps request.ajax h') :
    h'.action request = h.action request := by
  obtain ⟨onePass, redirectToBuffer, hfacts, hunasked⟩ := hswap.facts
  rw [action, hfacts]
  exact (h.facts request).action_swap _ hunasked

/-- Two handlers set out to do the same. -/
theorem Swaps.undertake_eq (hswap : h.Swaps request.ajax h') :
    h'.undertake request = h.undertake request := by
  obtain ⟨onePass, redirectToBuffer, hfacts, -⟩ := hswap.facts
  rw [undertake, undertake, hswap.action_eq, hfacts]

theorem Swaps.redirectStatus_eq {ajax : Bool} (hswap : h.Swaps ajax h') :
    h'.config.val.redirectStatus = h.config.val.redirectStatus := by
  obtain ⟨-, strategy, -, hconfig⟩ := hswap
  rw [hconfig]

end Handler

/-! ## Answers -/

namespace Record

variable {σ : Type} [Live σ] {R : σ → σ → Prop} {render render' : Renderer σ}
  {page : ∀ url, Record (render url).run} {page' : ∀ url, Record (render' url).run}
  {h h' : Handler}

theorem echoes_writePage (hR : Live.Keeps R)
    (hpage : ∀ url, Echoes R (Ends Eq) (page url) (page' url)) (url : Url) :
    Echoes R (Ends Eq) (writePage page url) (writePage page' url) :=
  (hpage url).bindEq fun
    | none => (echoes_note _ _).bindEq fun _ => echoes_pure rfl
    | some _ => (echoes_send hR rfl).bindEq fun _ => echoes_pure rfl

theorem echoes_bufferPage (hR : Live.Keeps R)
    (hpage : ∀ url, Echoes R (Ends Eq) (page url) (page' url))
    (hstatus : h'.config.val.redirectStatus = h.config.val.redirectStatus) (current target : Url) :
    Echoes R (Ends Eq) (bufferPage page h current target) (bufferPage page' h' current target) := by
  refine (hpage target).bindEq fun found => ?_
  cases found with
  | none => exact (echoes_note _ _).bindEq fun _ => echoes_pure rfl
  | some response =>
    refine .ite .rfl ((echoes_send hR rfl).bindEq fun _ => echoes_pure rfl) ?_
    refine (echoes_send hR (by rw [hstatus])).bindEq fun _ => echoes_get.bind fun x y hxy => ?_
    obtain ⟨live, log, -, rfl⟩ := hxy
    exact (echoes_insert _ target response).bindEq fun _ => echoes_pure rfl

theorem echoes_act (hR : Live.Keeps R)
    (hpage : ∀ url, Echoes R (Ends Eq) (page url) (page' url)) {request : Request}
    (hswap : h.Swaps request.ajax h') :
    Echoes R (Ends Eq) (act page h request) (act page' h' request) := by
  refine (echoes_note _ _).bindEq fun _ => ?_
  have haction := hswap.action_eq
  rw [Handler.action, Handler.action, Handler.facts, Handler.facts] at haction
  generalize (Facts.ofRequest request h.config.val h.policy).action
    (request.target = request.current) = action at haction ⊢
  generalize (Facts.ofRequest request h'.config.val h'.policy).action
    (request.target = request.current) = action' at haction ⊢
  subst haction
  cases action' with
  | write => exact echoes_writePage hR hpage _
  | redirect =>
    exact (echoes_send hR (by rw [hswap.redirectStatus_eq])).bindEq fun _ => echoes_pure rfl
  | buffer =>
    obtain ⟨onePass, redirectToBuffer, hfacts, -⟩ := hswap.facts
    rw [Handler.facts, Handler.facts] at hfacts
    refine .remark (.ite ?_ (echoes_writePage hR hpage _) ?_) _ _
    · rw [hfacts]
    · exact echoes_bufferPage hR hpage hswap.redirectStatus_eq _ _

/-- Answers echo each other when the renders of the page do, for handlers that differ in nothing
that is asked about the request. -/
theorem echoesAt_answer (hR : Live.Keeps R)
    (hpage : ∀ url, Echoes R (Ends Eq) (page url) (page' url)) {x y : Exchange σ}
    (hxy : x.Matches R y) (hswap : h.Swaps x.request.ajax h') :
    EchoesAt R (Ends Eq) (answer page h) (answer page' h') x y := by
  refine (echoes_get x y hxy).bind fun _ _ _ _ hget hget' _ hleft => ?_
  cases hget
  cases hget'
  obtain ⟨live, log, hlive, rfl⟩ := hxy
  refine (echoes_take _ _).bindEq (fun found => ?_) _ _ hleft
  cases found with
  | none => exact echoes_act hR hpage hswap
  | some response =>
    exact (echoes_note _ _).bindEq fun _ => (echoes_send hR rfl).bindEq fun _ => echoes_pure rfl

end Record

/-- What is rendered on a course, if anything is. -/
theorem Course.page_matches {σ : Type} {R : σ → σ → Prop} {render render' : Renderer σ}
    {page : ∀ url, Record (render url).run} {page' : ∀ url, Record (render' url).run}
    (hpage : ∀ url, Record.Echoes R (Ends Eq) (page url) (page' url)) (course : Course)
    {x y : Exchange σ} (hxy : x.Matches R y) :
    Ends Eq ((course.page render).run x).1 ((course.page render').run y).1 ∧
      ((course.page render).run x).2.Matches R ((course.page render').run y).2 := by
  unfold Course.page
  cases course.url? with
  | none => exact ⟨.ok rfl, hxy⟩
  | some url => exact (hpage url x y hxy).2

namespace Handler.Swaps

variable {σ : Type} [Live σ] {R : σ → σ → Prop} {render render' : Renderer σ}
  {page : ∀ url, Record (render url).run} {page' : ∀ url, Record (render' url).run}
  {h h' : Handler} {x y : Exchange σ}

omit [Live σ] in
theorem course_eq (hswap : h.Swaps x.request.ajax h') (hxy : x.Matches R y) :
    h'.course y = h.course x := by
  obtain ⟨live, log, -, rfl⟩ := hxy
  have hfound : found { x with live, log } = found x := rfl
  rw [course, course, hfound, hswap.undertake_eq]

theorem renders_eq (hswap : h.Swaps x.request.ajax h') (hxy : x.Matches R y) :
    h'.renders render' y = h.renders render x := by
  rw [Handler.renders_eq, Handler.renders_eq, hswap.course_eq hxy]

theorem calls_eq (hswap : h.Swaps x.request.ajax h') (hR : Live.Keeps R)
    (hpage : ∀ url, Record.Echoes R (Ends Eq) (page url) (page' url)) (hxy : x.Matches R y) :
    h'.calls render' y = h.calls render x := by
  have hsettled : (h.settled x).Matches R (h'.settled y) := by
    obtain ⟨live, log, hlive, rfl⟩ := hxy
    exact ⟨live, _, hlive, rfl⟩
  obtain ⟨hresult, hleft⟩ := (h.course x).page_matches hpage hsettled
  rw [Handler.calls_eq, Handler.calls_eq, hswap.course_eq hxy, callsOn, callsOn,
    hswap.redirectStatus_eq]
  rcases hrender : ((h.course x).page render).run (h.settled x) with ⟨result, z⟩
  rcases hrender' : ((h.course x).page render').run (h'.settled y) with ⟨result', w⟩
  rw [hrender, hrender'] at hresult hleft
  obtain ⟨live, log, hlive, rfl⟩ := hleft
  cases hresult with
  | error fault => rfl
  | ok hsame => exact hsame ▸ hR.made_eq _ hlive

end Handler.Swaps

end PageReply
