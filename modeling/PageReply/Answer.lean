import PageReply.Exchange

/-!
# Answering a request

A handler answers requests for one page. A response that a former request left in the store is sent
before anything else is asked. Otherwise the facts, read once, decide: the page is written at once,
or the client is redirected to it, or it is rendered for its own URL and then written, if the client
is already there, or else buffered for the request that follows the redirect.

The redirect is sent before the response is buffered. When it is refused, nothing is left behind
that no request would ever ask for.
-/

namespace PageReply

/-- What became of a request that was answered. -/
inductive Outcome where
  | bufferedWrite
  | written
  /-- The client was redirected; nothing was rendered. -/
  | redirected
  /-- The page was rendered and buffered; the client was redirected to it. -/
  | bufferedRedirect
  /-- Someone else took over the answer while the page was rendered. -/
  | aborted
deriving DecidableEq, Repr

namespace Outcome

def ofCode? : Nat → Option Outcome
  | 0 => some .bufferedWrite
  | 1 => some .written
  | 2 => some .redirected
  | 3 => some .bufferedRedirect
  | 4 => some .aborted
  | _ => none

def name : Outcome → String
  | .bufferedWrite => "buffered-write"
  | .written => "written"
  | .redirected => "redirected"
  | .bufferedRedirect => "buffered-redirect"
  | .aborted => "aborted"

def nameOfCode (code : Nat) : String :=
  ((ofCode? code).map name).getD "unknown"

end Outcome

/-- Answers requests for a page. -/
structure Handler where
  config : { c : Config // c.Valid }
  policy : Policy := .autoRedirect

namespace Handler

open Exchange

variable {σ : Type} [Live σ]

def writePage (render : Renderer σ) (url : Url) : ExchangeM σ Outcome := do
  match ← render url with
  | none =>
    note (.takenOver url)
    return .aborted
  | some response =>
    send response.calls
    return .written

def redirect (h : Handler) (url : Url) : ExchangeM σ Unit :=
  send [.redirect url.text h.config.val.redirectStatus]

/-- Renders the page for its own URL. A client that is there gets it; any other client is redirected
and gets it with its next request. -/
def bufferPage (h : Handler) (render : Renderer σ) (current target : Url) :
    ExchangeM σ Outcome := do
  match ← render target with
  | none =>
    note (.takenOver target)
    return .aborted
  | some response =>
    if current = target then
      send response.calls
      return .written
    else
      h.redirect target
      -- the session may have changed while the page was rendered
      insert (← get).request.session target response
      return .bufferedRedirect

/-- Acts on the facts of a request for which nothing is buffered. -/
def act (h : Handler) (render : Renderer σ) (request : Request) : ExchangeM σ Outcome := do
  let facts := Facts.ofRequest request h.config.val h.policy
  let action := facts.action (request.target = request.current)
  note (.decided request.current request.target facts action)
  match action with
  | .write => writePage render request.current
  | .redirect =>
    h.redirect request.target
    return .redirected
  | .buffer =>
    unless facts.redirectToBuffer do note .fallback
    if facts.stateless ∧ ¬ facts.redirectStateless then writePage render request.current
    else h.bufferPage render request.current request.target

def answer (h : Handler) (render : Renderer σ) : ExchangeM σ Outcome := do
  let request := (← get).request
  match ← take request.session request.target with
  | some response =>
    note (.replaying request.target)
    send response.calls
    return .bufferedWrite
  | none => h.act render request

end Handler

end PageReply
