import PageReply.Proofs.Echo
import PageReply.Proofs.Script.Record

/-!
# Echoes of scripts

A script sees logs in the reports of renders only, which it hands on. So steps whose stages and
reports differ in nothing but logs echo each other, and a visit echoes another one as soon as the
answers to the two requests do.
-/

namespace PageReply

namespace Script

/-! ## Reports and stages without logs -/

mutual

/-- The report with all logs left out, its own and those of the steps of renders. -/
def Report.silent : Report → Report
  | .mk result size stats _ => .mk result.silent size stats []

def Result.silent : Result Report → Result Report
  | .visited outcome renders channel during =>
    .visited outcome renders channel (silentAll during)
  | .done => .done
  | .failed fault => .failed fault
  | .taken response => .taken response
  | .purged count => .purged count
  | .seen value => .seen value

def silentAll : List Report → List Report
  | [] => []
  | report :: reports => report.silent :: silentAll reports

end

/-- Nothing differs but the logs. -/
def Report.Alike (report report' : Report) : Prop :=
  report'.silent = report.silent

def Result.Alike (result result' : Result Report) : Prop :=
  result'.silent = result.silent

def AllAlike (reports reports' : List Report) : Prop :=
  silentAll reports' = silentAll reports

theorem silentAll_append (reports more : List Report) :
    silentAll (reports ++ more) = silentAll reports ++ silentAll more := by
  induction reports with
  | nil => rfl
  | cons report reports ih => rw [List.cons_append, silentAll, ih, silentAll, List.cons_append]

theorem AllAlike.append {reports reports' more more' : List Report} (h : AllAlike reports reports')
    (hmore : AllAlike more more') : AllAlike (reports ++ more) (reports' ++ more') := by
  rw [AllAlike, silentAll_append, silentAll_append, h, hmore]

/-- Nothing differs but the logs in the reports of the render. -/
def Stage.Alike (s t : Stage) : Prop :=
  ∃ during, AllAlike s.during during ∧ t = { s with during }

theorem Stage.keeps_alike : Live.Keeps Stage.Alike := by
  rintro call s _ ⟨during, hduring, rfl⟩
  exact ⟨rfl, during, hduring, rfl⟩

/-- A request that comes sees no reports of former steps. -/
theorem Stage.enter_during (s : Stage) (outlet : Outlet) (during : List Report) :
    { s with during }.enter outlet = s.enter outlet := by
  cases outlet with
  | previous =>
    simp only [enter]
    cases s.latest <;> rfl
  | _ => rfl

/-! ## What visits and reported steps give and leave -/

namespace Visit

variable (v : Visit) (during : StateM (Exchange Stage) (List Report)) (x : Exchange Stage)

/-- The exchange when the request of a visit comes. -/
def begin : Exchange Stage :=
  { x with request := v.request, live := x.live.enter v.outlet }

/-- The part of a visit in which its request is answered. -/
def answered : ExchangeM Stage Outcome := do
  let config ← Exchange.usable v.config
  Handler.answer { config, policy := v.policy } (v.render during)

theorem run_answer :
    (v.answer during).run x =
      let (outcome, y) := (v.answered during).run (v.begin x)
      (.ok (.visited outcome y.live.renders y.live.channel y.live.during),
        { y with request := x.request, live := y.live.leave x.live }) := rfl

/-- Alike stages are the same to a request that comes. -/
theorem begin_matches {x y : Exchange Stage} (hxy : x.Matches Stage.Alike y) :
    (v.begin x).Matches Stage.Alike (v.begin y) := by
  obtain ⟨_, log, ⟨during, -, rfl⟩, rfl⟩ := hxy
  refine ⟨x.live.enter v.outlet, log, ⟨_, rfl, rfl⟩, ?_⟩
  simp only [begin, Stage.enter_during]

end Visit

theorem run_reported (work : ExchangeM Stage (Result Report)) (x : Exchange Stage) :
    (reported work).run x =
      let (outcome, y) := work.run { x with log := [] }
      let result := match outcome with
        | .ok result => result
        | .error fault => .failed fault
      (.mk result y.store.size y.store.stats y.log, { y with log := x.log }) := rfl

end Script

/-! ## Echoes -/

namespace Record

open Script

/-! ### Renders -/

theorem echoes_built (draft : Draft) :
    Echoes Stage.Alike (Ends Eq) (built draft) (built draft) := by
  rintro x _ ⟨live, log, hlive, rfl⟩
  refine ⟨rfl, ?_⟩
  change Ends Eq ((Script.built draft).run x).1 ((Script.built draft).run _).1 ∧
    ((Script.built draft).run x).2.Matches Stage.Alike ((Script.built draft).run _).2
  unfold Script.built
  cases draft.build with
  | ok response => exact ⟨.ok rfl, live, log, hlive, rfl⟩
  | error defect => exact ⟨.error _, live, log, hlive, rfl⟩

theorem echoes_finish (ending : Ending) (url : Url) :
    Echoes Stage.Alike (Ends Eq) (finish ending url) (finish ending url) :=
  match ending with
  | .page none => echoes_pure rfl
  | .page (some draft) => (echoes_built draft).bindEq fun _ => echoes_pure rfl
  | .takeover => echoes_pure rfl
  | .failure fault => fun _ _ hxy => ⟨rfl, .error fault, hxy⟩

theorem echoes_lift {β : Type} {S : β → β → Prop} {work other : StateM (Exchange Stage) β}
    {r : Record work} {r' : Record other} (h : Echoes Stage.Alike S r r') :
    Echoes Stage.Alike (Ends S) r.lift r'.lift := by
  intro x y hxy
  obtain ⟨hmoments, hresult, hleft⟩ := h x y hxy
  exact ⟨hmoments, .ok hresult, hleft⟩

variable {v v' : Visit} {steps steps' : StateM (Exchange Stage) (List Report)} {r : Record steps}
  {r' : Record steps'}

/-- What the steps of a render report is kept on the stage, where its logs go unheard. -/
theorem echoes_render (hending : v'.ending = v.ending) (hsteps : Echoes Stage.Alike AllAlike r r')
    (url : Url) : Echoes Stage.Alike (Ends Eq) (render v r url) (render v' r' url) := by
  refine Echoes.bindEq ?_ fun _ => (echoes_lift hsteps).bind fun reports reports' halike =>
    Echoes.bindEq ?_ fun _ => hending ▸ echoes_finish v.ending url
  · rintro x _ ⟨_, log, ⟨during, hduring, rfl⟩, rfl⟩
    exact ⟨rfl, .ok rfl, _, log, ⟨during, hduring, rfl⟩, rfl⟩
  · rintro x _ ⟨_, log, ⟨during, hduring, rfl⟩, rfl⟩
    exact ⟨rfl, .ok rfl, _, log, ⟨during ++ reports', hduring.append halike, rfl⟩, rfl⟩

/-! ### Steps -/

/-- A visit adds nothing to the answer but what is on the stage. -/
theorem echoes_visit
    (h : ∀ x y : Exchange Stage, x.Matches Stage.Alike y →
      EchoesAt Stage.Alike (Ends Eq) (answered v r) (answered v' r') (v.begin x) (v'.begin y)) :
    Echoes Stage.Alike (Ends Result.Alike) (visit v r) (visit v' r') := by
  intro x y hxy
  obtain ⟨hmoments, hresult, hleft⟩ := h x y hxy
  refine ⟨hmoments, ?_⟩
  change Ends Eq ((v.answered steps).run (v.begin x)).1 ((v'.answered steps').run (v'.begin y)).1
    at hresult
  change ((v.answered steps).run (v.begin x)).2.Matches _ ((v'.answered steps').run (v'.begin y)).2
    at hleft
  change Ends _ ((v.answer steps).run x).1 ((v'.answer steps').run y).1 ∧
    ((v.answer steps).run x).2.Matches _ ((v'.answer steps').run y).2
  rw [Visit.run_answer, Visit.run_answer]
  rcases hrun : (v.answered steps).run (v.begin x) with ⟨outcome, z⟩
  rcases hrun' : (v'.answered steps').run (v'.begin y) with ⟨outcome', w⟩
  rw [hrun, hrun'] at hresult hleft
  cases hresult.eq
  obtain ⟨_, log, ⟨during, hduring, rfl⟩, rfl⟩ := hleft
  obtain ⟨_, heard, ⟨around, haround, rfl⟩, rfl⟩ := hxy
  exact ⟨.ok (congrArg (Result.visited outcome z.live.renders z.live.channel) hduring), _, log,
    ⟨around, haround, rfl⟩, rfl⟩

theorem echoes_touch (t : Touch) :
    Echoes Stage.Alike (Ends Result.Alike) (quiet fun _ => rfl : Record t.run.run)
      (quiet fun _ => rfl : Record t.run.run) := by
  rintro x _ ⟨_, log, ⟨during, hduring, rfl⟩, rfl⟩
  refine ⟨rfl, ?_, _, log, ⟨during, hduring, rfl⟩, rfl⟩
  change Ends Result.Alike ((t.apply x.live.channel).1.map Result.seen)
    ((t.apply x.live.channel).1.map Result.seen)
  cases (t.apply x.live.channel).1 with
  | error fault => exact .error fault
  | ok value => exact .ok rfl

theorem echoes_reported {work other : ExchangeM Stage (Result Report)} {r : Record work.run}
    {r' : Record other.run} (h : Echoes Stage.Alike (Ends Result.Alike) r r') :
    Echoes Stage.Alike Report.Alike r.reported r'.reported := by
  rintro x _ ⟨live, log, hlive, rfl⟩
  obtain ⟨hmoments, hresult, hleft⟩ :=
    h { x with log := [] } { x with live, log := [] } ⟨live, [], hlive, rfl⟩
  refine ⟨hmoments, ?_⟩
  rw [run_reported, run_reported]
  change Ends _ (work.run _).1 (other.run _).1 at hresult
  change (work.run _).2.Matches _ (other.run _).2 at hleft
  simp only
  rcases hrun : work.run { x with log := [] } with ⟨result, z⟩
  rcases hrun' : other.run { x with live, log := [] } with ⟨result', w⟩
  rw [hrun, hrun'] at hresult hleft
  obtain ⟨live', heard, hlive', rfl⟩ := hleft
  refine ⟨?_, live', log, hlive', rfl⟩
  cases hresult with
  | error fault => rfl
  | ok halike => exact congrArg (Report.mk · z.store.size z.store.stats []) halike

/-- A step that answers no request echoes itself. -/
theorem echoes_step {step : Step} (hplain : ∀ v during, step ≠ .visit v during) :
    Echoes Stage.Alike Report.Alike step.record step.record := by
  cases step with
  | insert session url draft =>
    exact echoes_reported <| (echoes_built draft).bindEq fun response =>
      (echoes_insert session url response).bindEq fun _ => echoes_pure rfl
  | take session url =>
    exact echoes_reported <| (echoes_take session url).bindEq fun _ => echoes_pure rfl
  | purge offset =>
    exact echoes_reported <| (echoes_purge offset).bindEq fun _ => echoes_pure rfl
  | advance ns => exact echoes_reported <| (echoes_advance ns).bindEq fun _ => echoes_pure rfl
  | visit v during => exact absurd rfl (hplain v during)
  | touch t => exact echoes_reported (echoes_touch t)
  | change c =>
    refine echoes_reported ?_
    rintro x _ ⟨live, log, hlive, rfl⟩
    exact ⟨rfl, .ok rfl, live, log, hlive, rfl⟩

end Record

end PageReply
