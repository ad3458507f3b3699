import PageReply.Bytes.Basic

/-!
# Status codes

A status is any 16-bit number; no range is enforced. Five codes send the client elsewhere, and the
codes that the library emits on its own have a reason phrase.
-/

namespace PageReply

structure Status where
  code : Int16
deriving DecidableEq, Repr

namespace Status

def ok : Status := ⟨200⟩

def found : Status := ⟨302⟩

/-- The answer to a submission is found by a second request. -/
def seeOther : Status := ⟨303⟩

/-- The status tells the client to follow a location. 300 is not followed without the user, and 304
is about a copy the client holds. -/
def IsRedirect (s : Status) : Prop :=
  s.code ∈ [301, 302, 303, 307, 308]

instance (s : Status) : Decidable s.IsRedirect :=
  inferInstanceAs (Decidable (s.code ∈ _))

/-- The words that follow the code on the status line, if the code has any. -/
def phrase? (s : Status) : Option Bytes :=
  if s.code = 200 then some (ascii "OK")
  else if s.code = 301 then some (ascii "Moved Permanently")
  else if s.code = 302 then some (ascii "Found")
  else if s.code = 303 then some (ascii "See Other")
  else if s.code = 307 then some (ascii "Temporary Redirect")
  else if s.code = 308 then some (ascii "Permanent Redirect")
  else if s.code = 500 then some (ascii "Internal Server Error")
  else none

end Status

end PageReply
