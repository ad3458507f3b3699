import PageReply.Http.Message

/-!
# Channels

Scripts answer requests on channels: HTTP messages or transcripts. A touch is what a script does to
a channel by itself: a call, with its parts not checked yet, or a look at the fields.
-/

namespace PageReply.Script

/-- A live response of a script. -/
inductive Channel where
  | message (m : Message)
  | transcript (t : Transcript)
deriving DecidableEq, Repr

namespace Channel

instance : Live Channel where
  perform call
    | .message m => let (outcome, after) := Live.perform call m; (outcome, .message after)
    | .transcript t => let (outcome, after) := Live.perform call t; (outcome, .transcript after)

/-- The value of the first field with the given name. A transcript has calls, not fields. -/
def header? (name : Bytes) : Channel → Option Bytes
  | .message m => m.header? name
  | .transcript _ => none

end Channel

/-- Something a script does to a channel. -/
inductive Touch where
  | status (status : Status)
  | header (name value : Bytes)
  | write (chunk : Bytes)
  | redirect (url : Bytes) (status : Status)
  | replay (draft : Draft)
  | find (name : Bytes)
  /-- Looks a field up; a field that is not there has the empty value. -/
  | findOrEmpty (name : Bytes)
deriving DecidableEq, Repr

namespace Touch

/-- The calls of a touch. They are made only after all parts were found good. -/
def calls : Touch → Except Header.Defect (List Call)
  | .status code => .ok [.status code]
  | .header name value => (Header.ofParts name value).map fun h => [.header h]
  | .write chunk => .ok [.write chunk]
  | .redirect url code => .ok [.redirect url code]
  | .replay draft => draft.build.map (·.calls)
  | .find _ | .findOrEmpty _ => .ok []

/-- What a touch sees. -/
def sees (channel : Channel) : Touch → Option Bytes
  | .find name => channel.header? name
  | .findOrEmpty name => some ((channel.header? name).getD [])
  | _ => none

/-- Touches a channel. What was done before a fault stays. -/
def apply (touch : Touch) (channel : Channel) : Except Fault (Option Bytes) × Channel :=
  match touch.calls with
  | .error defect => (.error (.header defect), channel)
  | .ok calls =>
    match Live.performAll calls channel with
    | (.ok (), after) => (.ok (touch.sees after), after)
    | (.error fault, after) => (.error fault, after)

end Touch

end PageReply.Script
