import PageReply.Http.Status

/-!
# Settings

How an application answers page requests: the strategy, the status of its redirects, and the limits
on buffered responses. Settings can be written down freely; `check` says whether they can be used,
and reports the first defect in a fixed order.
-/

namespace PageReply

/-- How a request is answered when no more specific rule applies. -/
inductive Strategy where
  /-- Renders the page within the request, without any redirect. -/
  | onePass
  /-- Renders the page into a buffer and redirects the client to it. -/
  | redirectToBuffer
  /-- Redirects first; the page is rendered when the client follows. -/
  | redirectToRender
  /-- A setting that stands for none of the three. -/
  | unrecognized
deriving DecidableEq, Repr

namespace Strategy

def ofCode : Nat → Strategy
  | 0 => .onePass
  | 1 => .redirectToBuffer
  | 2 => .redirectToRender
  | _ => .unrecognized

def name : Strategy → String
  | .onePass => "ONE_PASS_RENDER"
  | .redirectToBuffer => "REDIRECT_TO_BUFFER"
  | .redirectToRender => "REDIRECT_TO_RENDER"
  | .unrecognized => "UNKNOWN"

end Strategy

/-- Settings of an application, usable or not. -/
structure Config where
  strategy : Strategy := .redirectToBuffer
  /-- Stateless pages may be buffered and redirected to, too. -/
  redirectStateless : Bool := true
  redirectStatus : Status := .found
  capacity : Nat := 1000
  /-- How long a buffered response is kept, in milliseconds. -/
  timeout : Int := 60000
deriving DecidableEq, Repr

namespace Config

/-- What makes settings unusable. -/
inductive Defect where
  /-- The status is none that a client follows. -/
  | redirectStatus (status : Status)
  | capacity
  | timeout (ms : Int)
deriving DecidableEq, Repr

structure Valid (c : Config) : Prop where
  redirectStatus : c.redirectStatus.IsRedirect
  capacity_pos : 0 < c.capacity
  timeout_pos : 0 < c.timeout

/-- The same settings, known to be usable, or their first defect: status before capacity before
timeout. -/
def check (c : Config) : Except Defect { c : Config // c.Valid } :=
  if hs : c.redirectStatus.IsRedirect then
    if hc : 0 < c.capacity then
      if ht : 0 < c.timeout then .ok ⟨c, hs, hc, ht⟩
      else .error (.timeout c.timeout)
    else .error .capacity
  else .error (.redirectStatus c.redirectStatus)

theorem check_of_valid {c : Config} (h : c.Valid) : c.check = .ok ⟨c, h⟩ := by
  simp [check, h.redirectStatus, h.capacity_pos, h.timeout_pos]

end Config

end PageReply
