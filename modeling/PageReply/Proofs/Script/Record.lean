import PageReply.Proofs.Record
import PageReply.Script.Run

/-!
# Records of scripts

Every step of a script has a record, so every script is a run of its store: the operations it asks
for itself, those of the requests it answers, and those of the steps that run while a page is
rendered, in the order in which they happen.
-/

namespace PageReply

namespace Record

open Script

/-- A report is about the work alone. -/
def reported {work : ExchangeM Stage (Result Report)} (r : Record work.run) :
    Record (Script.reported work) where
  moments x := r.moments { x with log := [] }
  run x := r.run { x with log := [] }

def lift {β : Type} {work : StateM (Exchange Stage) β} (r : Record work) :
    Record (liftM work : ExchangeM Stage β).run where
  moments := r.moments
  run := r.run

def usable (config : Config) :
    Record (Exchange.usable config : ExchangeM Stage { c : Config // c.Valid }).run :=
  quiet fun x => by
    unfold Exchange.usable Config.usable
    cases config.check <;> rfl

def built (draft : Draft) : Record (Script.built draft).run :=
  quiet fun x => by
    unfold Script.built
    cases draft.build <;> rfl

def finish (ending : Ending) (url : Url) : Record (ending.finish url).run :=
  match ending with
  | .page none => pure _
  | .page (some draft) => (built draft).bind fun _ => pure _
  | .takeover => pure _
  | .failure _ => quiet fun _ => rfl

def render (v : Visit) {during : StateM (Exchange Stage) (List Report)} (steps : Record during)
    (url : Url) : Record (v.render during url).run :=
  (quiet fun _ => rfl).bind fun _ => steps.lift.bind fun _ =>
    (quiet fun _ => rfl).bind fun _ => finish v.ending url

/-- The part of a visit in which its request is answered. -/
def answered (v : Visit) {during : StateM (Exchange Stage) (List Report)} (steps : Record during) :
    Record (do
      let config ← Exchange.usable v.config
      Handler.answer { config, policy := v.policy } (v.render during)).run :=
  (usable v.config).bind fun config => answer (render v steps) { config, policy := v.policy }

def visit (v : Visit) {during : StateM (Exchange Stage) (List Report)} (steps : Record during) :
    Record (v.answer during).run where
  moments x := (answered v steps).moments
    { x with request := v.request, live := x.live.enter v.outlet }
  run x := (answered v steps).run { x with request := v.request, live := x.live.enter v.outlet }

end Record

namespace Script

mutual

def Step.record : (step : Step) → Record step.run
  | .insert session url draft => ((Record.built draft).bind fun response =>
      (Record.insert session url response).bind fun _ => .pure _).reported
  | .take session url => ((Record.take session url).bind fun _ => .pure _).reported
  | .purge offset => ((Record.purge offset).bind fun _ => .pure _).reported
  | .advance ns => ((Record.advance ns).bind fun _ => .pure _).reported
  | .visit v during => (Record.visit v (recordAll during)).reported
  | .touch _ => Record.reported (Record.quiet fun _ => rfl)
  | .change _ => Record.reported (Record.quiet fun _ => rfl)

/-- What steps do, one after the other. -/
def recordAll : (steps : List Step) → Record (runAll steps)
  | [] => .quiet fun _ => rfl
  | step :: steps =>
    step.record.andThen fun _ => (recordAll steps).andThen fun _ => .quiet fun _ => rfl

end

end Script

end PageReply
