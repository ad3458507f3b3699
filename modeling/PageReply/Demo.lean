import PageReply.Answer
import PageReply.Http.Message

/-!
# Demonstration

A form is submitted and the client follows the redirect, if it gets one. Both requests are for the
same stateful page in the same session; the page says how often it has been rendered. The strategy
is named on the command line.
-/

namespace PageReply.Demo

/-- What the demonstration prints, and how it ends. -/
structure Printout where
  exitCode : UInt8 := 0
  out : Bytes := []
  err : Bytes := []
  log : List Event := []
deriving DecidableEq, Repr

/-- The message being built, how often the page has been rendered, and what was printed. -/
structure Booth where
  message : Message := {}
  renders : Nat := 0
  out : Bytes := []
deriving DecidableEq, Repr

instance : Live Booth where
  perform call b :=
    let (outcome, message) := Live.perform call b.message
    (outcome, { b with message })

/-- The strategy that the arguments name. Without arguments responses are buffered; arguments after
the first are ignored. -/
def strategy? : List Bytes → Option Strategy
  | [] => some .redirectToBuffer
  | arg :: _ =>
    let name := arg.terminated
    if name = ascii "one-pass" then some .onePass
    else if name = ascii "redirect-to-render" then some .redirectToRender
    else if name = ascii "redirect-to-buffer" then some .redirectToBuffer
    else none

def render : Renderer Booth := fun url => do
  modify fun x => { x with live.renders := x.live.renders + 1 }
  let count := (← get).live.renders
  match Header.ofParts (ascii "Content-Type") (ascii "text/html; charset=UTF-8") with
  | .error defect => throw (.header defect)
  | .ok contentType =>
    return some {
      headers := [contentType]
      body := ascii "<html><body>Rendered for " ++ url.text ++ ascii ", render #" ++
        Bytes.decimal count ++ ascii "</body></html>" }

/-- What is printed of an answer: the request and the outcome, where a redirect leads, and the
message itself. -/
def printed (client : Bytes) (outcome : Outcome) (m : Message) : Bytes :=
  ascii "--- GET " ++ client ++ ascii " (" ++ ascii outcome.name ++ ascii ")\n" ++
    (if m.phase = .redirected then
      ascii "redirected to " ++ (m.header? (ascii "Location")).getD [] ++ ascii "\n"
    else []) ++
    m.wire ++ ascii "\n\n"

/-- Answers a client that displays a URL, on a new message, and prints the answer. -/
def visit (h : Handler) (client : Bytes) : ExchangeM Booth Unit := do
  modify fun x =>
    { x with
      live.message := {}
      request :=
        { current := .ofBytes client
          target := .ofBytes (ascii "page/3?1")
          session := ascii "demo" } }
  let outcome ← h.answer render
  modify fun x => { x with live.out := x.live.out ++ printed client outcome x.live.message }

def clients : List Bytes :=
  [ascii "form?0-1.submit", ascii "page/3?1"]

def failed (fault : Fault) (out : Bytes) (log : List Event) : Printout where
  exitCode := 1
  out := out
  err := ascii "Rendering failed: " ++ fault.message ++ ascii "\n"
  log := log

def runWith (config : { c : Config // c.Valid }) : Printout :=
  let start : Exchange Booth :=
    { store := { limits := .ofConfig config }
      clock := {}
      request := {}
      live := {} }
  let (outcome, x) := (clients.forM (visit { config })).run start
  match outcome with
  | .ok () => { out := x.live.out, log := x.log }
  | .error fault => failed fault x.live.out x.log

/-- Runs the demonstration. A submission is answered with 303. -/
def run (args : List Bytes) : Printout :=
  match strategy? args with
  | none =>
    { exitCode := 1
      err := ascii "Invalid render strategy: " ++ (args.headD []).terminated ++
        ascii " (expected one-pass, redirect-to-buffer or redirect-to-render)\n" }
  | some strategy =>
    match ({ strategy, redirectStatus := .seeOther } : Config).usable with
    | .ok config => runWith config
    | .error refusal => failed refusal.fault [] refusal.log

end PageReply.Demo
