import PageReply.Config
import PageReply.Request

/-!
# The decision

When no buffered response waits for a request, facts about the request, the page and the settings
decide what to do: write the page, redirect, or render it into a buffer. Writing wins over
redirecting, and the buffer is what is left.
-/

namespace PageReply

/-- Whether the handler of a page allows redirects. -/
inductive Policy where
  /-- The page is always written, never redirected to. -/
  | neverRedirect
  /-- The other facts decide. -/
  | autoRedirect
  /-- The client is always redirected to the page. -/
  | alwaysRedirect
  /-- A setting that stands for none of the three; the other facts decide. -/
  | unrecognized
deriving DecidableEq, Repr

namespace Policy

def ofCode : Nat → Policy
  | 0 => .neverRedirect
  | 1 => .autoRedirect
  | 2 => .alwaysRedirect
  | _ => .unrecognized

def name : Policy → String
  | .neverRedirect => "NEVER_REDIRECT"
  | .autoRedirect => "AUTO_REDIRECT"
  | .alwaysRedirect => "ALWAYS_REDIRECT"
  | .unrecognized => "UNKNOWN"

end Policy

/-- What the decision depends on, besides whether the client already displays the page's URL. -/
structure Facts where
  ajax : Bool := false
  keepUrl : Bool := false
  -- of these three at most one holds when they come from settings
  onePass : Bool := false
  redirectToRender : Bool := false
  redirectToBuffer : Bool := false
  temporarySession : Bool := false
  redirectStateless : Bool := true
  newInstance : Bool := false
  stateless : Bool := false
  policy : Policy := .autoRedirect
deriving DecidableEq, Repr

/-- What is decided for a request. -/
inductive Action where
  /-- Render the page for the URL the client displays and write it. -/
  | write
  /-- Redirect to the page's URL without rendering. -/
  | redirect
  /-- Render the page for its own URL, to be written or buffered. -/
  | buffer
deriving DecidableEq, Repr

namespace Action

def ofCode? : Nat → Option Action
  | 0 => some .write
  | 1 => some .redirect
  | 2 => some .buffer
  | _ => none

def name : Action → String
  | .write => "render-and-write"
  | .redirect => "redirect"
  | .buffer => "render-to-buffer"

def nameOfCode (code : Nat) : String :=
  ((ofCode? code).map name).getD "unknown"

end Action

namespace Facts

def ofRequest (request : Request) (config : Config) (policy : Policy) : Facts where
  ajax := request.ajax
  keepUrl := request.keepUrl
  onePass := config.strategy = .onePass
  redirectToRender := config.strategy = .redirectToRender
  redirectToBuffer := config.strategy = .redirectToBuffer
  temporarySession := request.temporarySession
  redirectStateless := config.redirectStateless
  newInstance := request.newInstance
  stateless := request.stateless
  policy := policy

/-- The page is written at once. Here and below, `same` says that the client already displays the
page's URL. -/
def Writes (f : Facts) (same : Bool) : Prop :=
  f.policy = .neverRedirect ∨
  (¬ f.ajax ∧ f.onePass ∧ f.policy ≠ .alwaysRedirect) ∨
  (¬ f.ajax ∧ same ∧ ¬ f.stateless ∧ ¬ f.newInstance) ∨
  (same ∧ f.redirectToRender) ∨
  f.keepUrl

instance (f : Facts) (same : Bool) : Decidable (f.Writes same) :=
  inferInstanceAs (Decidable (_ ∨ _))

/-- The client is sent to the page's URL and nothing is rendered. -/
def Redirects (f : Facts) (same : Bool) : Prop :=
  f.policy = .alwaysRedirect ∨
  f.redirectToRender ∨
  (f.ajax ∧ same) ∨
  (¬ same ∧ (f.newInstance ∨ (f.temporarySession ∧ f.stateless)))

instance (f : Facts) (same : Bool) : Decidable (f.Redirects same) :=
  inferInstanceAs (Decidable (_ ∨ _))

def action (f : Facts) (same : Bool) : Action :=
  if f.Writes same then .write
  else if f.Redirects same then .redirect
  else .buffer

end Facts

end PageReply
