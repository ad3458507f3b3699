import PageReply.Bytes.Decimal
import PageReply.Live

/-!
# HTTP messages

A `Message` is the HTTP response of a request while it is built. It carries either a body or a
redirect: after a redirect every call is refused, and after a write, even of no bytes, a redirect
is. A refused call leaves the message as it was.

To a browser a redirect is a status and a location. A script of the client would follow these
without noticing, so it gets a plain answer that names the location in a field of its own.

The wire form of a message is a head of lines, each with its line end, then an empty line, then the
body. The head is the status line, the fields in order, and the length of the body.
-/

namespace PageReply

/-- What a message has become so far. -/
inductive Phase where
  | pristine
  | writing
  | redirected
deriving DecidableEq, Repr

def Phase.name : Phase → String
  | .pristine => "Pristine"
  | .writing => "Writing"
  | .redirected => "Redirected"

structure Message where
  /-- The answer is read by a script of the client. -/
  ajax : Bool := false
  phase : Phase := .pristine
  status : Status := .ok
  headers : List Header := []
  body : Bytes := []
deriving DecidableEq, Repr

namespace Message

/-- The field that tells a client where to go. -/
def locationName (m : Message) : Bytes :=
  if m.ajax then ascii "Ajax-Location" else ascii "Location"

/-- The status of a redirect as the client sees it. -/
def redirectStatus (m : Message) (status : Status) : Status :=
  if m.ajax then .ok else status

def header? (m : Message) (name : Bytes) : Option Bytes :=
  Header.find? m.headers name

/-- Turns a message into a redirect. A message that has become something else is refused first, then
a status that does not redirect, then a URL that is no field value. -/
def redirect (m : Message) (url : Bytes) (status : Status) : Except Fault Message :=
  match m.phase with
  | .writing => .error .bodyStarted
  | .redirected => .error (.alreadyRedirected .redirect)
  | .pristine =>
    if status.IsRedirect then
      match Header.ofParts m.locationName url with
      | .error defect => .error (.header defect)
      | .ok location =>
        .ok { m with
          phase := .redirected
          status := m.redirectStatus status
          headers := m.headers ++ [location] }
    else .error .notRedirectStatus

/-- The message after a call, or why the call is refused. -/
def accept (m : Message) : Call → Except Fault Message
  | .status status =>
    if m.phase = .redirected then .error (.alreadyRedirected .status)
    else .ok { m with status }
  | .header header =>
    if m.phase = .redirected then .error (.alreadyRedirected .header)
    else .ok { m with headers := m.headers ++ [header] }
  | .write chunk =>
    if m.phase = .redirected then .error (.alreadyRedirected .write)
    else .ok { m with phase := .writing, body := m.body ++ chunk }
  | .redirect url status => m.redirect url status

instance : Live Message where
  perform call m :=
    match m.accept call with
    | .ok after => (.ok (), after)
    | .error fault => (.error fault, m)

end Message

/-! ## The wire form -/

/-- The version, the code and, if there is one, the phrase. -/
def Status.line (s : Status) : Bytes :=
  ascii "HTTP/1.1 " ++ Bytes.signedDecimal s.code.toInt ++
    match s.phrase? with
    | some phrase => Byte.space :: phrase
    | none => []

namespace Message

def lengthLine (m : Message) : Bytes :=
  ascii "Content-Length: " ++ Bytes.decimal m.body.length

def head (m : Message) : List Bytes :=
  m.status.line :: m.headers.map (·.raw) ++ [m.lengthLine]

/-- The message as it is sent. -/
def wire (m : Message) : Bytes :=
  m.head.flatMap (· ++ Bytes.crlf) ++ Bytes.crlf ++ m.body

end Message

end PageReply
