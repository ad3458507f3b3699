import PageReply.Http.Header
import PageReply.Http.Status

/-!
# Rendered responses

A `Response` is what a render produced: a status, header fields and a body, kept apart from any live
connection. A `Draft` is the same before its fields are checked.
-/

namespace PageReply

/-- What a render produced. -/
structure Response where
  status : Status := .ok
  headers : List Header := []
  body : Bytes := []
deriving DecidableEq, Repr

namespace Response

def header? (r : Response) (name : Bytes) : Option Bytes :=
  Header.find? r.headers name

/-- The bytes the response is counted for: those of its body and of its fields as written. -/
def size (r : Response) : Nat :=
  r.body.length + (r.headers.flatMap (·.raw)).length

end Response

/-- A response whose fields have not been checked yet. -/
structure Draft where
  status : Status := .ok
  /-- Names and values. -/
  fields : List (Bytes × Bytes) := []
  body : Bytes := []
deriving DecidableEq, Repr

/-- Makes the fields one after the other; the first bad one is reported. -/
def Draft.build (d : Draft) : Except Header.Defect Response := do
  let headers ← d.fields.mapM fun f => Header.ofParts f.1 f.2
  return { status := d.status, headers, body := d.body }

end PageReply
