import PageReply.Proofs.Http.History
import PageReply.Proofs.Http.Reading

/-!
# How often a message tells its length

The last field in the head of a message is the length of its body. Nothing keeps a message from
accepting a field of that name before, from a call or with a response. It is sent as well, so the
head tells two lengths then, and only the last one is about the body.
-/

namespace PageReply

def lengthName : Bytes :=
  ascii "Content-Length"

/-- The names and values of the fields in a head. All lines but the first are fields. -/
def Bytes.headFields (head : Bytes) : List (Bytes × Bytes) :=
  head.lines.tail.filterMap (·.dropInfix? Header.separator)

/-- The lengths that a head tells, in order. -/
def Bytes.lengths (head : Bytes) : List Bytes :=
  (head.headFields.filter fun f => Bytes.EqFold f.1 lengthName).map (·.2)

/-- The length that a call makes a message tell. -/
def Call.length? : Call → Option Bytes
  | header h => if Bytes.EqFold h.name lengthName then some h.value else none
  | status _ | write _ | redirect _ _ => none

namespace Call

variable {call : Call}

theorem length?_eq_none_iff :
    call.length? = none ↔ ∀ h, call = header h → ¬ Bytes.EqFold h.name lengthName := by
  cases call with
  | header h => simp [length?]
  | _ => simp [length?]

/-- No redirect goes by the name of the length. -/
theorem filter_fields {locationName : Bytes} (h : ¬ Bytes.EqFold locationName lengthName) :
    ((call.fields locationName).filter fun f => Bytes.EqFold f.1 lengthName).map (·.2) =
      call.length?.toList := by
  cases call with
  | header header =>
    by_cases hname : Bytes.EqFold header.name lengthName <;> simp [fields, length?, hname]
  | redirect url status => simp [fields, length?, h]
  | _ => rfl

end Call

namespace Message

variable (m : Message)

theorem lengthLine_dropInfix? : m.lengthLine.dropInfix? Header.separator =
    some (lengthName, Bytes.decimal m.body.length) := by
  have hname : Byte.colon ∉ lengthName := by decide +kernel
  exact Bytes.dropInfix?_of_not_mem hname

theorem headFields_headText :
    m.headText.headFields = m.fields ++ [(lengthName, Bytes.decimal m.body.length)] := by
  have hfields : (m.headers.map (·.raw)).filterMap (·.dropInfix? Header.separator) = m.fields := by
    rw [List.filterMap_map, fields, ← List.filterMap_eq_map]
    exact List.filterMap_congr fun h _ => h.raw_dropInfix?
  have hlength : [m.lengthLine].filterMap (·.dropInfix? Header.separator) =
      [(lengthName, Bytes.decimal m.body.length)] :=
    List.filterMap_cons_some m.lengthLine_dropInfix?
  rw [Bytes.headFields, lines_headText, head, List.cons_append, List.tail_cons,
    List.filterMap_append, hfields, hlength]

theorem History.lengths_headText {ajax : Bool} {calls : List Call} {m : Message}
    (h : History ajax calls m) :
    m.headText.lengths = calls.filterMap Call.length? ++ [Bytes.decimal m.body.length] := by
  have hname : ¬ Bytes.EqFold m.locationName lengthName := by
    rw [locationName]
    cases m.ajax <;> decide +kernel
  have hadded : ((calls.flatMap (Call.fields m.locationName)).filter
      fun f => Bytes.EqFold f.1 lengthName).map (·.2) = calls.filterMap Call.length? := by
    rw [List.filter_flatMap, List.map_flatMap, List.filterMap_eq_flatMap_toList]
    exact List.flatMap_congr fun call _ => Call.filter_fields hname
  have hown : Bytes.EqFold lengthName lengthName := .refl lengthName
  rw [Bytes.lengths, headFields_headText, h.fields_eq, List.filter_append, List.map_append, hadded,
    List.filter_cons_of_pos (by simpa using hown), List.filter_nil, List.map_singleton]

/-- **When a message tells its length once**, and what it tells. The lengths in its head are those
that were added by the calls it accepted, and then the length of the body that comes after the head.
So the right length is told, and no other, if no accepted call adds a field of that name in any
letter case, and only then. -/
theorem length_told_once_iff (ajax : Bool) (deeds : List Deed) :
    ∃ head : Bytes,
      (life { ajax } deeds).wire.dropInfix? (Bytes.crlf ++ Bytes.crlf) =
        some (head, (life { ajax } deeds).body) ∧
      head.lengths = (heard { ajax } deeds).filterMap Call.length? ++
        [Bytes.decimal (life { ajax } deeds).body.length] ∧
      (head.lengths.length = 1 ↔
        ∀ h, .header h ∈ heard { ajax } deeds → ¬ Bytes.EqFold h.name lengthName) ∧
      (head.lengths = [Bytes.decimal (life { ajax } deeds).body.length] ↔
        ∀ h, .header h ∈ heard { ajax } deeds → ¬ Bytes.EqFold h.name lengthName) := by
  have hlengths := (history_life ajax deeds).lengths_headText
  have hnone : (heard { ajax } deeds).filterMap Call.length? = [] ↔
      ∀ h, .header h ∈ heard { ajax } deeds → ¬ Bytes.EqFold h.name lengthName := by
    simp only [List.filterMap_eq_nil_iff, Call.length?_eq_none_iff]
    constructor
    · intro hcalls h hmem
      exact hcalls _ hmem h rfl
    · rintro hfields _ hmem h rfl
      exact hfields h hmem
  refine ⟨(life { ajax } deeds).headText, (life { ajax } deeds).wire_dropInfix?, hlengths, ?_, ?_⟩
  · rw [hlengths, ← hnone, List.length_append, List.length_singleton, Nat.add_eq_right,
      List.length_eq_zero_iff]
  · rw [hlengths, ← hnone, List.append_left_eq_self]

/-- A field of the name of the length is added before the body is written. -/
def twice : List Deed :=
  [.call (.header
      { name := ascii "content-length"
        value := ascii "99"
        name_valid := by decide +kernel
        value_valid := by decide +kernel
        value_trimmed := by decide +kernel }),
    .call (.write (ascii "hello"))]

/-- Two lengths are told, and the first is not that of the body. -/
theorem length_told_twice :
    ((life {} twice).wire.dropInfix? (Bytes.crlf ++ Bytes.crlf)).map
        (fun parts => (Bytes.lengths parts.1, parts.2)) =
      some ([ascii "99", ascii "5"], ascii "hello") := by
  decide +kernel

end Message

end PageReply
