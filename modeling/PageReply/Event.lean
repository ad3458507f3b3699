import PageReply.Bytes.Decimal
import PageReply.Decision
import PageReply.Fault

/-!
# Log events

What happens while requests are answered is logged as typed events. Each has a level and a text.

Whoever is given settings checks them first. Settings that cannot be used are logged once and
refused.
-/

namespace PageReply

/-- How much attention an event asks for. -/
inductive Level where
  /-- Of interest only when a single request is followed. -/
  | trace
  /-- Of interest when behaviour is examined. -/
  | debug
  /-- Something was lost. -/
  | warn
  /-- Nothing can work. -/
  | critical
deriving DecidableEq, Repr

def Level.name : Level → String
  | .trace => "trace"
  | .debug => "debug"
  | .warn => "warn"
  | .critical => "critical"

/-- Something worth a line in the log. -/
inductive Event where
  | missing (url : Url)
  | stale (url : Url)
  /-- The response buffered for the URL, of the given size, left the store. -/
  | served (url : Url) (size : Nat)
  /-- That many responses were too old. -/
  | purged (count : Nat)
  /-- The oldest of that many entries made room for a new one. -/
  | evicting (size : Nat)
  | replaying (url : Url)
  | decided (current target : Url) (facts : Facts) (action : Action)
  /-- The page is rendered into a buffer although the strategy is another. -/
  | fallback
  | takenOver (url : Url)
  | rejected (defect : Config.Defect)
deriving DecidableEq, Repr

namespace Event

def truth (b : Bool) : Bytes :=
  if b then ascii "true" else ascii "false"

def level : Event → Level
  | .missing _ | .served _ _ => .trace
  | .evicting _ | .replaying _ | .decided _ _ _ _ | .fallback | .takenOver _ => .debug
  | .stale _ | .purged _ => .warn
  | .rejected _ => .critical

def text : Event → Bytes
  | .missing url => ascii "no buffered response for " ++ url.text.quoted
  | .stale url => ascii "discarding expired buffered response for " ++ url.text.quoted
  | .served url size =>
    ascii "serving buffered response for " ++ url.text.quoted ++ ascii " (" ++
      Bytes.decimal size ++ ascii " bytes)"
  | .purged count =>
    ascii "discarded " ++ Bytes.decimal count ++ ascii " expired buffered response(s)"
  | .evicting size =>
    ascii "buffered response store full (" ++ Bytes.decimal size ++
      ascii " entries), evicting oldest"
  | .replaying url => ascii "writing buffered response for " ++ url.text.quoted
  | .decided current target facts action =>
    current.text.quoted ++ ascii " -> " ++ target.text.quoted ++
      ascii " [policy " ++ ascii facts.policy.name ++
      ascii ", ajax " ++ truth facts.ajax ++
      ascii ", stateless " ++ truth facts.stateless ++
      ascii ", new instance " ++ truth facts.newInstance ++
      ascii "]: " ++ ascii action.name
  | .fallback =>
    ascii "falling back to redirect-to-buffer strategy, none of the other conditions matched"
  | .takenOver url =>
    ascii "rendering of " ++ url.text.quoted ++ ascii " was taken over by another handler"
  | .rejected (.redirectStatus status) =>
    ascii "redirectStatusCode " ++ Bytes.signedDecimal status.code.toInt ++
      ascii " is not a redirect status code"
  | .rejected .capacity => ascii "maxBufferedResponses must be strictly positive"
  | .rejected (.timeout ms) =>
    ascii "bufferedResponseTimeout must be strictly positive, got " ++ Bytes.signedDecimal ms ++
      ascii " ms"

def line (e : Event) : Bytes :=
  ascii e.level.name ++ ascii ": " ++ e.text

end Event

/-! ## Refused settings -/

/-- A fault, and what was logged on the way to it. -/
structure Refusal where
  fault : Fault
  log : List Event := []
deriving DecidableEq, Repr

/-- Settings that can be used, or their refusal. -/
def Config.usable (c : Config) : Except Refusal { c : Config // c.Valid } :=
  match c.check with
  | .ok valid => .ok valid
  | .error defect => .error { fault := .config defect, log := [.rejected defect] }

theorem Config.usable_of_valid {c : Config} (h : c.Valid) : c.usable = .ok ⟨c, h⟩ := by
  rw [usable, check_of_valid h]

end PageReply
