import PageReply.Bytes.Trim

/-!
# Header fields

A field has a name made of token bytes and a value of one line, without blanks at its ends. Both
hold for every `Header`, so a field can never break the line it is written on.
-/

namespace PageReply

/-- A byte that may stand in a field name: a letter, a digit or one of fifteen signs. -/
def Byte.IsToken (b : UInt8) : Prop :=
  Byte.IsDigit b ∨ Byte.IsUpper b ∨ Byte.IsLower b ∨ b ∈ ascii "!#$%&'*+-.^_`|~"

instance (b : UInt8) : Decidable (Byte.IsToken b) :=
  inferInstanceAs (Decidable (_ ∨ _))

/-- A byte that may stand in a field value: a tab, a space or a visible ASCII sign. -/
abbrev Byte.IsField (b : UInt8) : Prop := b = Byte.tab ∨ 0x20 ≤ b ∧ b ≤ 0x7E

/-- A field name is not empty and has token bytes only. -/
def Header.ValidName (name : Bytes) : Prop :=
  name ≠ [] ∧ ∀ b ∈ name, Byte.IsToken b

instance (name : Bytes) : Decidable (Header.ValidName name) :=
  inferInstanceAs (Decidable (_ ∧ _))

/-- A field value has field bytes only; it may be empty. -/
def Header.ValidValue (value : Bytes) : Prop :=
  ∀ b ∈ value, Byte.IsField b

instance (value : Bytes) : Decidable (Header.ValidValue value) :=
  inferInstanceAs (Decidable (∀ b ∈ value, Byte.IsField b))

/-- One field of a message head. The name keeps the letter case it was given. -/
@[ext] structure Header where
  name : Bytes
  value : Bytes
  name_valid : Header.ValidName name
  value_valid : Header.ValidValue value
  value_trimmed : Bytes.Trimmed value
deriving DecidableEq, Repr

namespace Header

inductive Defect where
  | name
  | value
deriving DecidableEq, Repr

/-- The field of a name and a value, whose outer blanks are dropped. A bad name is reported before a
bad value. -/
def ofParts (name value : Bytes) : Except Defect Header :=
  if hn : ValidName name then
    if hv : ValidValue value.trim then
      .ok ⟨name, value.trim, hn, hv, Bytes.trimmed_trim value⟩
    else .error .value
  else .error .name

def separator : Bytes := [Byte.colon, Byte.space]

/-- The field as it is written on its line. -/
def raw (h : Header) : Bytes :=
  h.name ++ separator ++ h.value

/-- The value of the first field with the given name, in any letter case. -/
def find? (headers : List Header) (name : Bytes) : Option Bytes :=
  (headers.find? fun h => Bytes.EqFold h.name name).map (·.value)

theorem find?_append (hs ks : List Header) (name : Bytes) :
    find? (hs ++ ks) name = (find? hs name).or (find? ks name) := by
  simp only [find?, List.find?_append, Option.map_or]

end Header

end PageReply
