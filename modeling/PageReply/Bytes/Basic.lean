/-!
# Byte strings

Every text of the library (URLs, header fields, bodies, session ids, log lines) is a list of bytes.
Nothing assumes an encoding: a byte above 127 is a byte like any other.

Header names are compared without regard to the case of ASCII letters. Other bytes, also those
above 127, are compared as they are.
-/

namespace PageReply

abbrev Bytes := List UInt8

/-- The bytes of a text whose characters are all below U+0100, one byte a character. -/
def ascii (text : String) : Bytes :=
  text.toList.map fun c => c.toUInt8

namespace Byte

abbrev tab : UInt8 := 0x09

abbrev lf : UInt8 := 0x0A

abbrev cr : UInt8 := 0x0D

abbrev space : UInt8 := 0x20

/-- The sign that opens a fragment. -/
abbrev hash : UInt8 := 0x23

abbrev quote : UInt8 := 0x27

abbrev minus : UInt8 := 0x2D

abbrev zero : UInt8 := 0x30

abbrev colon : UInt8 := 0x3A

/-- The sign that opens a query. -/
abbrev question : UInt8 := 0x3F

abbrev IsDigit (b : UInt8) : Prop := 0x30 ≤ b ∧ b ≤ 0x39

abbrev IsUpper (b : UInt8) : Prop := 0x41 ≤ b ∧ b ≤ 0x5A

abbrev IsLower (b : UInt8) : Prop := 0x61 ≤ b ∧ b ≤ 0x7A

end Byte

namespace Bytes

abbrev crlf : Bytes := [Byte.cr, Byte.lf]

/-- Text between single quotation marks, as log lines cite it. -/
def quoted (text : Bytes) : Bytes :=
  Byte.quote :: text ++ [Byte.quote]

/-- The part before the first byte of value zero, which is where a text handed over by the system
ends. -/
def terminated (text : Bytes) : Bytes :=
  text.takeWhile (· ≠ 0)

end Bytes

/-! ## Letter case -/

/-- The lower case form of an upper case ASCII letter; any other byte is its own. -/
def Byte.lower (b : UInt8) : UInt8 :=
  if Byte.IsUpper b then b + 0x20 else b

namespace Bytes

def lower (v : Bytes) : Bytes :=
  v.map Byte.lower

/-- Two strings are the same up to the case of ASCII letters. -/
def EqFold (v w : Bytes) : Prop :=
  lower v = lower w

instance (v w : Bytes) : Decidable (EqFold v w) :=
  inferInstanceAs (Decidable (lower v = lower w))

theorem EqFold.refl (v : Bytes) : EqFold v v := rfl

theorem EqFold.symm {v w : Bytes} (h : EqFold v w) : EqFold w v := Eq.symm h

theorem EqFold.trans {u v w : Bytes} (h₁ : EqFold u v) (h₂ : EqFold v w) : EqFold u w :=
  Eq.trans h₁ h₂

end Bytes

end PageReply
