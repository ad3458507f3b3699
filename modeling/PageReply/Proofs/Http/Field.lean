import Mathlib.Data.List.Basic
import PageReply.Http.Header
import PageReply.Proofs.Trim

/-!
# Fields keep the parts they were made of

A field is made of a name and a value, or refused for one of them, the name first. It is stored as a
single text, the one that goes on its line, and the place of the colon after the name. Cut there,
the text gives both parts back. No name has a colon in it, so two fields of the same text have the
same parts, and the place says nothing that the text does not say.

Which bytes a name may have is looked up in a table of bits.
-/

namespace PageReply

namespace Bytes

/-- Nothing in a text ends the line it is written on. -/
def Unbroken (v : Bytes) : Prop :=
  Byte.cr ∉ v ∧ Byte.lf ∉ v

instance (v : Bytes) : Decidable (Unbroken v) :=
  inferInstanceAs (Decidable (_ ∧ _))

theorem Unbroken.append {v w : Bytes} (hv : v.Unbroken) (hw : w.Unbroken) : (v ++ w).Unbroken := by
  simp only [Unbroken, List.mem_append, not_or]
  exact ⟨⟨hv.1, hw.1⟩, ⟨hv.2, hw.2⟩⟩

/-! ## Cutting a text -/

/-- A part without a certain byte reaches no further than to where that byte occurs. -/
theorem prefix_of_not_mem {b : UInt8} {front back before after : Bytes} (h : b ∉ front)
    (hsplit : front ++ back = before ++ b :: after) : front <+: before := by
  obtain ⟨rest, rfl, -⟩ | ⟨rest, rfl, hrest⟩ := List.append_eq_append_iff.1 hsplit
  · exact List.prefix_append front rest
  · cases rest with
    | nil => simp
    | cons c rest =>
      cases hrest
      simp at h

/-- A text is cut at a separator whose first byte does not occur before it. -/
theorem dropInfix?_of_not_mem {b : UInt8} {front sep back : Bytes} (h : b ∉ front) :
    (front ++ (b :: sep) ++ back).dropInfix? (b :: sep) = some (front, back) := by
  rw [List.dropInfix?_eq_some_iff]
  refine ⟨⟨_, rfl, BEq.rfl⟩, ?_⟩
  intro before found after hsplit hfound
  obtain rfl := eq_of_beq hfound
  rw [List.append_assoc, List.append_assoc, List.cons_append] at hsplit
  exact (prefix_of_not_mem h hsplit).length_le

end Bytes

namespace Byte

/-- A table with the bits of some bytes set, all of them below 64 or all from there on. -/
def bitTable (bytes : Bytes) : UInt64 :=
  bytes.foldl (fun table b => table ||| (1 : UInt64) <<< (b &&& 63).toUInt64) 0

/-- The token bytes below 64: ten digits in a row, and signs. -/
def lowTokens : UInt64 :=
  (0x3FF : UInt64) <<< 48 ||| bitTable (ascii "!#$%&'*+-.")

/-- The token bytes from 64 on: twice the letters in a row, and signs. -/
def highTokens : UInt64 :=
  (0x3FFFFFF : UInt64) <<< 1 ||| (0x3FFFFFF : UInt64) <<< 33 ||| bitTable (ascii "^_`|~")

/-- The entry of a byte in the tables. -/
def tokenBit (b : UInt8) : Bool :=
  b < 128 && (((if b < 64 then lowTokens else highTokens) >>> (b &&& 63).toUInt64) &&& 1) != 0

theorem tokenBit_iff {b : UInt8} : tokenBit b = true ↔ IsToken b := by
  have htables : ∀ n : Fin 256,
      tokenBit (UInt8.ofNat n.val) = true ↔ IsToken (UInt8.ofNat n.val) := by
    decide +kernel
  simpa using htables ⟨b.toNat, b.toNat_lt⟩

end Byte

namespace Header

/-! ## Making a field -/

section Parts

variable {name value : Bytes} {h : Header}

theorem ofParts_eq_ok_iff : ofParts name value = .ok h ↔ h.name = name ∧ h.value = value.trim := by
  constructor
  · intro hparts
    unfold ofParts at hparts
    split at hparts
    · split at hparts
      · cases hparts
        exact ⟨rfl, rfl⟩
      · cases hparts
    · cases hparts
  · rintro ⟨rfl, hvalue⟩
    unfold ofParts
    rw [dif_pos h.name_valid, dif_pos (hvalue ▸ h.value_valid)]
    exact congrArg Except.ok (Header.ext rfl hvalue.symm)

/-- A field that is made of the parts of a field is that field. -/
theorem ofParts_name_value (h : Header) : ofParts h.name h.value = .ok h :=
  ofParts_eq_ok_iff.2 ⟨rfl, (Bytes.trim_eq_self h.value_trimmed).symm⟩

/-- A bad value is only looked at when the name is good. -/
theorem ofParts_eq_error_iff {defect : Defect} : ofParts name value = .error defect ↔
    defect = .name ∧ ¬ ValidName name ∨
      defect = .value ∧ ValidName name ∧ ¬ ValidValue value := by
  rw [← validValue_trim_iff]
  unfold ofParts
  by_cases hname : ValidName name
  · by_cases hvalue : ValidValue value.trim
    · simp [hname, hvalue]
    · simp [hname, hvalue, eq_comm]
  · simp [hname, eq_comm]

theorem exists_ofParts_iff :
    (∃ h, ofParts name value = .ok h) ↔ ValidName name ∧ ValidValue value := by
  constructor
  · rintro ⟨h, hparts⟩
    obtain ⟨rfl, hvalue⟩ := ofParts_eq_ok_iff.1 hparts
    exact ⟨h.name_valid, validValue_trim_iff.1 (hvalue ▸ h.value_valid)⟩
  · rintro ⟨hname, hvalue⟩
    exact ⟨⟨name, value.trim, hname, validValue_trim_iff.2 hvalue, Bytes.trimmed_trim value⟩,
      ofParts_eq_ok_iff.2 ⟨rfl, rfl⟩⟩

end Parts

/-! ## The text of a field -/

section Text

variable (h : Header)

theorem not_mem_name {b : UInt8} (hb : ¬ Byte.IsToken b) : b ∉ h.name :=
  fun hmem => hb (h.name_valid.2 b hmem)

theorem not_mem_value {b : UInt8} (hb : ¬ Byte.IsField b) : b ∉ h.value :=
  fun hmem => hb (h.value_valid b hmem)

theorem unbroken_raw : h.raw.Unbroken := by
  have hname : h.name.Unbroken :=
    ⟨h.not_mem_name (by decide +kernel), h.not_mem_name (by decide +kernel)⟩
  have hvalue : h.value.Unbroken := ⟨h.not_mem_value (by decide), h.not_mem_value (by decide)⟩
  exact (hname.append (by decide)).append hvalue

/-- No name has a colon in it, so the first one is that of the separator. -/
theorem raw_dropInfix? : h.raw.dropInfix? separator = some (h.name, h.value) :=
  Bytes.dropInfix?_of_not_mem (h.not_mem_name (by decide +kernel))

theorem raw_injective : Function.Injective raw := by
  intro h k hraw
  have hparts := h.raw_dropInfix?
  rw [hraw, k.raw_dropInfix?, Option.some.injEq, Prod.mk.injEq] at hparts
  exact Header.ext hparts.1.symm hparts.2.symm

end Text

/-! ## Storing a field -/

/-- A field as it is stored: the text of its line and the place of the colon in it. -/
structure Line where
  text : Bytes
  colon : UInt32
deriving DecidableEq, Repr

namespace Line

def name (l : Line) : Bytes :=
  l.text.take l.colon.toNat

def value (l : Line) : Bytes :=
  l.text.drop (l.colon.toNat + separator.length)

/-- Stores the field of a name and a value. -/
def ofParts (name value : Bytes) : Except Defect Line :=
  if name ≠ [] ∧ name.all Byte.tokenBit then
    if ValidValue value.trim then
      .ok { text := name ++ separator ++ value.trim, colon := name.length.toUInt32 }
    else .error .value
  else .error .name

end Line

/-- The stored form of a field. -/
def line (h : Header) : Line where
  text := h.raw
  colon := h.name.length.toUInt32

variable {h k : Header}

theorem line_ofParts (name value : Bytes) :
    Line.ofParts name value = (ofParts name value).map line := by
  -- Both look at the name first, so what one refuses the other refuses for the same reason.
  have htokens : (name ≠ [] ∧ name.all Byte.tokenBit) ↔ ValidName name := by
    simp only [ValidName, List.all_eq_true, Byte.tokenBit_iff]
  unfold Line.ofParts ofParts
  by_cases hname : ValidName name
  · rw [if_pos (htokens.2 hname), dif_pos hname]
    split <;> rfl
  · rw [if_neg (mt htokens.1 hname), dif_neg hname]
    rfl

/-- The place of the colon is right as long as it fits into its number. -/
theorem toNat_colon_line (hlength : h.name.length < UInt32.size) :
    h.line.colon.toNat = h.name.length := by
  rw [line, UInt32.toNat_ofNat']
  exact Nat.mod_eq_of_lt hlength

theorem name_line (hlength : h.name.length < UInt32.size) : h.line.name = h.name := by
  rw [Line.name, toNat_colon_line hlength, line, raw, List.append_assoc, List.take_left]

theorem value_line (hlength : h.name.length < UInt32.size) : h.line.value = h.value := by
  rw [Line.value, toNat_colon_line hlength, line, raw, ← List.length_append, List.drop_left]

/-- Cut at its first separator, the text of a line gives the name and the value that are cut out of
it by the place of the colon. -/
theorem raw_dropInfix?_line (hlength : h.name.length < UInt32.size) :
    h.raw.dropInfix? separator = some (h.line.name, h.line.value) := by
  rw [name_line hlength, value_line hlength, raw_dropInfix?]

theorem raw_eq_iff : h.raw = k.raw ↔ h.name = k.name ∧ h.value = k.value := by
  rw [raw_injective.eq_iff, Header.ext_iff]

theorem line_eq_iff : h.line = k.line ↔ h = k :=
  ⟨fun hline => raw_injective (congrArg Line.text hline), congrArg line⟩

/-- **A field keeps the parts it was made of.** It is made if the name is one and the value is one,
with its outer blanks or without, and is refused for the name otherwise, or for the value if the
name is good. Then it has the given name and the trimmed value, also when they are cut out of its
stored text, which is of one line; of its own parts the same field is made; and it is the same
as another one if they have the same text, which they have if the parts are the same. -/
theorem parts_kept {name : Bytes} (hlength : name.length < UInt32.size) (value : Bytes) :
    ((∃ h, ofParts name value = .ok h) ↔ ValidName name ∧ ValidValue value) ∧
    (ValidValue value ↔ ValidValue value.trim) ∧
    (ofParts name value = .error .name ↔ ¬ ValidName name) ∧
    (ofParts name value = .error .value ↔ ValidName name ∧ ¬ ValidValue value) ∧
    Line.ofParts name value = (ofParts name value).map line ∧
    ∀ h, ofParts name value = .ok h →
      (h.name = name ∧ h.value = value.trim ∧ h.raw = name ++ ascii ": " ++ value.trim) ∧
      (h.line.name = name ∧ h.line.value = value.trim ∧ h.line.text = h.raw) ∧
      (Byte.cr ∉ h.raw ∧ Byte.lf ∉ h.raw) ∧
      ofParts h.name h.value = .ok h ∧
      ∀ name' value' k, ofParts name' value' = .ok k →
        (h = k ↔ h.raw = k.raw) ∧
        (h.line = k.line ↔ h.raw = k.raw) ∧
        (h.raw = k.raw ↔ name = name' ∧ value.trim = value'.trim) := by
  refine ⟨exists_ofParts_iff, validValue_trim_iff.symm, by simp [ofParts_eq_error_iff],
    by simp [ofParts_eq_error_iff], line_ofParts name value, fun h hparts => ?_⟩
  obtain ⟨rfl, hvalue⟩ := ofParts_eq_ok_iff.1 hparts
  rw [← hvalue]
  refine ⟨⟨rfl, rfl, rfl⟩, ⟨name_line hlength, value_line hlength, rfl⟩, h.unbroken_raw,
    ofParts_name_value h, fun name' value' k hparts' => ?_⟩
  obtain ⟨rfl, hvalue'⟩ := ofParts_eq_ok_iff.1 hparts'
  rw [← hvalue']
  exact ⟨raw_injective.eq_iff.symm, line_eq_iff.trans raw_injective.eq_iff.symm, raw_eq_iff⟩

/-- A separator in the value is not taken for the one after the name. -/
theorem parts_kept_nested :
    (ascii "Note").length < UInt32.size ∧
    ∃ h, ofParts (ascii "Note") (ascii " a: b\t") = .ok h ∧
      h.raw = ascii "Note: a: b" ∧
      h.line.name = ascii "Note" ∧ h.line.value = ascii "a: b" := by
  have hlength : (ascii "Note").length < UInt32.size := by decide +kernel
  have htrim : (ascii " a: b\t").trim = ascii "a: b" := by decide +kernel
  obtain ⟨hmade, -, -, -, -, hkept⟩ := parts_kept hlength (ascii " a: b\t")
  obtain ⟨h, hparts⟩ := hmade.2 (by decide +kernel)
  obtain ⟨⟨-, -, hraw⟩, ⟨hname, hvalue, -⟩, -⟩ := hkept h hparts
  rw [htrim] at hraw hvalue
  exact ⟨hlength, h, hparts, hraw.trans (by decide +kernel), hname, hvalue⟩

end Header

end PageReply
