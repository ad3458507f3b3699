import PageReply.Url

/-!
# Requests

What is known of the request being answered and of the page it asks for. While the page is being
rendered any of it may change.
-/

namespace PageReply

/-- A request for a page. -/
structure Request where
  /-- The URL the client displays. -/
  current : Url := .empty
  /-- The URL of the page. -/
  target : Url := .empty
  /-- The id of the session; it may be empty. -/
  session : Bytes := []
  /-- The answer is read by a script of the client, not by the browser itself. -/
  ajax : Bool := false
  /-- The client must keep the URL it displays. -/
  keepUrl : Bool := false
  /-- The session has not been kept by the server yet. -/
  temporarySession : Bool := false
  /-- The page depends on nothing but its URL. -/
  stateless : Bool := false
  newInstance : Bool := false
deriving DecidableEq, Repr

/-- A change of some of what is known of a request. -/
structure Request.Change where
  current : Option Url := none
  target : Option Url := none
  session : Option Bytes := none
  ajax : Option Bool := none
  keepUrl : Option Bool := none
  temporarySession : Option Bool := none
  stateless : Option Bool := none
  newInstance : Option Bool := none
deriving DecidableEq, Repr

/-- What is known after a change; what it does not mention stays. -/
def Request.Change.apply (c : Request.Change) (r : Request) : Request where
  current := c.current.getD r.current
  target := c.target.getD r.target
  session := c.session.getD r.session
  ajax := c.ajax.getD r.ajax
  keepUrl := c.keepUrl.getD r.keepUrl
  temporarySession := c.temporarySession.getD r.temporarySession
  stateless := c.stateless.getD r.stateless
  newInstance := c.newInstance.getD r.newInstance

end PageReply
