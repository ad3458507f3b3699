import PageReply.Proofs.Answer.Reference
import PageReply.Proofs.Answer.Strategy
import PageReply.Proofs.Script.Echo

/-!
# Scripts and strategies

When some of the requests of a script, also of those that are answered while another page is
rendered, are answered under a strategy that may stand for the former one, the script does to its
store what it did before, at the same times, and all of its reports say the same but for the log.
-/

namespace PageReply

namespace Script

/-- The request is answered under another strategy, which may stand for the former one. -/
def Visit.Swaps (v v' : Visit) : Prop :=
  ∃ config, v.config.Swaps v.request.ajax v.policy config ∧ v' = { v with config }

mutual

/-- A visit and the visits within it may be answered under other strategies; other steps stay. -/
inductive Step.Swaps : Step → Step → Prop
  | visit {v v' : Visit} {during during' : List Step} (request : v.Swaps v')
    (render : SwapsAll during during') : Step.Swaps (.visit v during) (.visit v' during')
  | other {step : Step} (plain : ∀ v during, step ≠ .visit v during) : Step.Swaps step step

inductive SwapsAll : List Step → List Step → Prop
  | nil : SwapsAll [] []
  | cons {step step' : Step} {steps steps' : List Step} (head : step.Swaps step')
    (tail : SwapsAll steps steps') : SwapsAll (step :: steps) (step' :: steps')

end

end Script

/-! ## Settings -/

/-- Settings that differ in the strategy are both usable, or are refused for the same defect. -/
theorem Config.check_strategy (c : Config) (strategy : Strategy) :
    (∃ valid valid', c.check = .ok ⟨c, valid⟩ ∧
      { c with strategy }.check = .ok ⟨{ c with strategy }, valid'⟩) ∨
    ∃ defect, c.check = .error defect ∧ { c with strategy }.check = .error defect := by
  by_cases hstatus : c.redirectStatus.IsRedirect
  · by_cases hcapacity : 0 < c.capacity
    · by_cases htimeout : 0 < c.timeout
      · exact .inl ⟨⟨hstatus, hcapacity, htimeout⟩, ⟨hstatus, hcapacity, htimeout⟩,
          check_of_valid _, check_of_valid _⟩
      · exact .inr ⟨.timeout c.timeout, by simp [check, hstatus, hcapacity, htimeout]⟩
    · exact .inr ⟨.capacity, by simp [check, hstatus, hcapacity]⟩
  · exact .inr ⟨.redirectStatus c.redirectStatus, by simp [check, hstatus]⟩

theorem Exchange.request_usable (c : Config) (x : Exchange Script.Stage) :
    ((usable c).run x).2.request = x.request := by
  unfold usable Config.usable
  cases c.check <;> rfl

/-! ## Echoes of visits -/

namespace Record

open Script

theorem echoes_usable {ajax : Bool} {policy : Policy} {c c' : Config}
    (hswap : c.Swaps ajax policy c') :
    Echoes Stage.Alike (Ends fun valid valid' => valid.val = c ∧ valid'.val = c') (usable c)
      (usable c') := by
  obtain ⟨strategy, -, rfl⟩ := hswap
  rintro x _ ⟨live, log, hlive, rfl⟩
  refine ⟨rfl, ?_⟩
  change Ends _ ((Exchange.usable c).run x).1 ((Exchange.usable _).run _).1 ∧
    ((Exchange.usable c).run x).2.Matches Stage.Alike ((Exchange.usable _).run _).2
  unfold Exchange.usable Config.usable
  obtain ⟨valid, valid', hcheck, hcheck'⟩ | ⟨defect, hcheck, hcheck'⟩ := c.check_strategy strategy
  · rw [hcheck, hcheck']
    exact ⟨.ok ⟨rfl, rfl⟩, live, log, hlive, rfl⟩
  · rw [hcheck, hcheck']
    exact ⟨.error _, live, _, hlive, rfl⟩

/-- Unusable settings are refused before the strategy is asked for, and usable ones are those of
handlers that differ in the strategy. -/
theorem echoesAt_answered {v v' : Visit} (hswap : v.Swaps v')
    {steps steps' : StateM (Exchange Stage) (List Report)} {r : Record steps} {r' : Record steps'}
    (hsteps : Echoes Stage.Alike AllAlike r r') (x y : Exchange Stage)
    (hxy : x.Matches Stage.Alike y) :
    EchoesAt Stage.Alike (Ends Eq) (answered v r) (answered v' r') (v.begin x) (v'.begin y) := by
  obtain ⟨config, hconfig, rfl⟩ := hswap
  refine (echoes_usable hconfig _ _ (v.begin_matches hxy)).bind
    fun valid valid' z w hrun _ hvalid hleft => ?_
  have hasked : z.request = v.request := by
    have hkept := (v.begin x).request_usable v.config
    rwa [hrun] at hkept
  refine echoesAt_answer Stage.keeps_alike (echoes_render rfl hsteps) hleft ⟨rfl, ?_⟩
  rw [hvalid.1, hvalid.2, hasked]
  exact hconfig

end Record

namespace Script

/-! ## Echoes of scripts

By recursion on how the steps stand for each other: before a visit come the steps of its render. -/

mutual

theorem Step.Swaps.echoes : {step step' : Step} → step.Swaps step' →
    Record.Echoes Stage.Alike Report.Alike step.record step'.record
  | _, _, .visit request render => Record.echoes_reported <|
    Record.echoes_visit fun x y hxy => Record.echoesAt_answered request render.echoes x y hxy
  | _, _, .other plain => Record.echoes_step plain

theorem SwapsAll.echoes : {steps steps' : List Step} → SwapsAll steps steps' →
    Record.Echoes Stage.Alike AllAlike (recordAll steps) (recordAll steps')
  | _, _, .nil => fun _ _ hxy => ⟨rfl, rfl, hxy⟩
  | _, _, .cons head tail => head.echoes.andThen fun _ _ hhead =>
    tail.echoes.andThen fun _ _ htail _ _ hxy => ⟨rfl, congrArg₂ List.cons hhead htail, hxy⟩

end

end Script

open Script

/-- **It makes no difference but in the log whether the strategy asks for a buffer.** Where one
strategy may stand for another, answers to the same request meet the same store at the same times,
end with the same outcome or fault, make the same calls and renders and leave the same behind, if
the renders of the page do, which may well answer requests themselves. And a script in which
strategies are replaced so, in any of the requests that it answers, leads to the same reports, to
the same moments of the store, and to the same end. -/
theorem strategy_unseen :
    (∀ {σ : Type} [Live σ] {h h' : Handler} {render render' : Renderer σ}
        (page : ∀ url, Record (render url).run) (page' : ∀ url, Record (render' url).run)
        {x y : Exchange σ},
      (∀ url, Record.Echoes Eq (Ends Eq) (page url) (page' url)) → x.Matches Eq y →
        h.Swaps x.request.ajax h' →
          (Record.answer page' h').moments y = (Record.answer page h).moments x ∧
          ((h'.answer render').run y).1 = ((h.answer render).run x).1 ∧
          h'.calls render' y = h.calls render x ∧
          h'.renders render' y = h.renders render x ∧
          ((h.answer render).run x).2.Matches Eq ((h'.answer render').run y).2) ∧
    ∀ {steps steps' : List Step} (x : Exchange Stage), SwapsAll steps steps' →
      (recordAll steps').moments x = (recordAll steps).moments x ∧
      AllAlike ((runAll steps).run x).1 ((runAll steps').run x).1 ∧
      ((runAll steps).run x).2.Matches Stage.Alike ((runAll steps').run x).2 := by
  refine ⟨?_, ?_⟩
  · intro σ _ h h' render render' page page' x y hpage hxy hswap
    obtain ⟨hmoments, hresult, hleft⟩ :=
      Record.echoesAt_answer Live.keeps_eq hpage hxy hswap
    exact ⟨hmoments, hresult.eq, hswap.calls_eq Live.keeps_eq hpage hxy, hswap.renders_eq hxy,
      hleft⟩
  · intro steps steps' x hswap
    exact hswap.echoes x x ⟨x.live, x.log, ⟨x.live.during, rfl, rfl⟩, rfl⟩

namespace Retuned

def form : Url := .ofBytes (ascii "form")

def page : Url := .ofBytes (ascii "page")

def help : Url := .ofBytes (ascii "help")

def outer (strategy : Strategy) : Visit where
  request := { current := form, target := page, session := ascii "s1" }
  config := { strategy }

def inner (strategy : Strategy) : Visit where
  request := { current := form, target := help, session := ascii "s1", ajax := true }
  config := { strategy }
  outlet := .message true

/-- While a page is rendered, a script asks for another page. Both are put in, but the first one for
the session that the request has moved to. -/
def steps (strategy strategy' : Strategy) : List Step :=
  [.visit (outer strategy)
    [.visit (inner strategy') [.advance 5], .change { session := some (ascii "s2") }],
    .take (ascii "s1") help, .take (ascii "s2") page]

theorem swaps :
    SwapsAll (steps .redirectToBuffer .redirectToBuffer) (steps .unrecognized .onePass) := by
  have houter : (outer .redirectToBuffer).Swaps (outer .unrecognized) :=
    ⟨{ strategy := .unrecognized }, ⟨.unrecognized, .fallback nofun nofun, rfl⟩, rfl⟩
  have hinner : (inner .redirectToBuffer).Swaps (inner .onePass) :=
    ⟨{ strategy := .onePass }, ⟨.onePass, .onePass (.inl rfl), rfl⟩, rfl⟩
  refine .cons (.visit houter (.cons (.visit hinner (.cons (.other ?_) .nil))
    (.cons (.other ?_) .nil))) (.cons (.other ?_) (.cons (.other ?_) .nil))
  all_goals simp

def idle : Exchange Stage where
  store := .tiny
  clock := {}
  request := {}
  live := {}

def log : Report → List Event
  | .mk _ _ _ log => log

/-- A render that puts another page in. -/
def render : Renderer Transcript := fun _ => do
  Exchange.insert (ascii "s1") help {}
  return some { body := ascii "text" }

def record (url : Url) : Record (render url).run :=
  (Record.insert (ascii "s1") help {}).bind fun _ => .pure _

theorem echoes (url : Url) : Record.Echoes Eq (Ends Eq) (record url) (record url) :=
  (Record.echoes_insert _ _ _).bindEq fun _ => Record.echoes_pure rfl

def request : Exchange Transcript where
  store := .tiny
  clock := {}
  request := { current := form, target := page, session := ascii "s1" }
  live := {}

/-- The plain handler, but for a strategy that asks for nothing. -/
def unsure : Handler where
  config := ⟨{ strategy := .unrecognized }, by decide, by decide, by decide⟩

end Retuned

open Retuned in
theorem strategy_unseen_retuned :
    ((unsure.answer render).run { request with log := [.fallback] }).1 =
      ((Handler.plain.answer render).run request).1 ∧
    ((Handler.plain.answer render).run request).1 = .ok .bufferedRedirect ∧
    (recordAll (steps .unrecognized .onePass)).moments idle =
      (recordAll (steps .redirectToBuffer .redirectToBuffer)).moments idle ∧
    ((recordAll (steps .redirectToBuffer .redirectToBuffer)).moments idle).length = 7 ∧
    AllAlike ((runAll (steps .redirectToBuffer .redirectToBuffer)).run idle).1
      ((runAll (steps .unrecognized .onePass)).run idle).1 ∧
    ((runAll (steps .unrecognized .onePass)).run idle).1.map log ≠
      ((runAll (steps .redirectToBuffer .redirectToBuffer)).run idle).1.map log := by
  obtain ⟨hanswers, hscripts⟩ := strategy_unseen
  have hswap : Handler.plain.Swaps request.request.ajax unsure :=
    ⟨rfl, .unrecognized, .fallback nofun nofun, rfl⟩
  obtain ⟨-, hresult, -⟩ :=
    hanswers record record echoes ⟨request.live, [.fallback], rfl, rfl⟩ hswap
  obtain ⟨hmoments, halike, -⟩ := hscripts idle swaps
  exact ⟨hresult, by decide +kernel, hmoments, by decide +kernel, halike, by decide +kernel⟩

end PageReply
