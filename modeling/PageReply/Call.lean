import PageReply.Response

/-!
# Calls on a live response

A live response is built by calls, one at a time. Sending a rendered response is a fixed list of
calls: its status, its fields in order, and its body in one piece.
-/

namespace PageReply

/-- One call on a live response. -/
inductive Call where
  | status (status : Status)
  | header (header : Header)
  /-- Adds bytes at the end of the body; no bytes at all still start the body. -/
  | write (chunk : Bytes)
  | redirect (url : Bytes) (status : Status)
deriving DecidableEq, Repr

namespace Call

inductive Kind where
  | status
  | header
  | write
  | redirect
deriving DecidableEq, Repr

def Kind.name : Kind → String
  | .status => "setStatus"
  | .header => "addHeader"
  | .write => "write"
  | .redirect => "sendRedirect"

def Kind.ofName? (name : String) : Option Kind :=
  [.status, .header, .write, .redirect].find? (·.name = name)

def kind : Call → Kind
  | .status _ => .status
  | .header _ => .header
  | .write _ => .write
  | .redirect _ _ => .redirect

end Call

/-- The calls that send a response: status, fields in order, one write of the body. -/
def Response.calls (r : Response) : List Call :=
  .status r.status :: r.headers.map .header ++ [.write r.body]

end PageReply
