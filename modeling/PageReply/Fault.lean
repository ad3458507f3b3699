import PageReply.Call
import PageReply.Store.Limits

/-!
# Faults

Why an answer, or a step on the way to one, fails. A fault is a cause; its wording and the category
that a caller can act on are functions of it.
-/

namespace PageReply

/-- What kind of failure a fault is. -/
inductive Fault.Category where
  /-- A value given by the caller is not acceptable. -/
  | badArgument
  /-- The call is not allowed any more, or not yet. -/
  | badState
  /-- Something failed outside of the caller's control. -/
  | failure
deriving DecidableEq, Repr

/-- Why something failed. -/
inductive Fault where
  | header (defect : Header.Defect)
  | config (defect : Config.Defect)
  | limits (defect : Limits.Defect)
  | alreadyRedirected (kind : Call.Kind)
  | bodyStarted
  | notRedirectStatus
  /-- A transcript was told to fail on this kind of call. -/
  | refused (kind : Call.Kind)
  /-- A render failed by itself. -/
  | raised (category : Fault.Category) (message : Bytes)
deriving DecidableEq, Repr

namespace Fault

/-- What a call of some kind would have done, in the words of a message. -/
def attempt : Call.Kind → Bytes
  | .status => ascii "set status of"
  | .header => ascii "add header to"
  | .write => ascii "write to"
  | .redirect => ascii "redirect"

def category : Fault → Category
  | .header _ | .config _ | .limits _ | .notRedirectStatus => .badArgument
  | .alreadyRedirected _ | .bodyStarted => .badState
  | .refused _ => .failure
  | .raised category _ => category

def message : Fault → Bytes
  | .header .name => ascii "HTTP header name is invalid"
  | .header .value => ascii "HTTP header value is invalid"
  | .config (.redirectStatus _) =>
    ascii "redirectStatusCode must be one of 301, 302, 303, 307, 308"
  | .config .capacity => ascii "maxBufferedResponses must be strictly positive"
  | .config (.timeout _) => ascii "bufferedResponseTimeout must be strictly positive"
  | .limits .timeout => ascii "buffered response timeout must be strictly positive"
  | .limits .capacity => ascii "buffered response store capacity must be strictly positive"
  | .alreadyRedirected kind =>
    ascii "cannot " ++ attempt kind ++ ascii " a response already redirected"
  | .bodyStarted => ascii "cannot redirect a response whose body has already been written"
  | .notRedirectStatus => ascii "sendRedirect needs a redirect status code"
  | .refused kind => ascii "sink failed on " ++ ascii kind.name
  | .raised _ message => message.terminated

end Fault

end PageReply
