import PageReply.Proofs.Http.History

/-!
# Looking up fields

Whoever looks up a name in a response or in a message finds the value of the first field that has
it. Two names are the same if they are of the same length and differ in nothing but the case of
ASCII letters. A response that is sent adds its fields after those of the message: what was found in
the message before is found after it, and what was not is found as in the response.
-/

namespace PageReply

namespace Byte

/-- Two bytes are the same one, or the two cases of an ASCII letter. -/
def SameLetter (a b : UInt8) : Prop :=
  a = b ∨ IsUpper a ∧ b = a + 0x20 ∨ IsUpper b ∧ a = b + 0x20

theorem lower_of_isUpper {a : UInt8} (h : IsUpper a) : lower a = a + 0x20 := if_pos h

theorem lower_of_not_isUpper {a : UInt8} (h : ¬ IsUpper a) : lower a = a := if_neg h

/-- The lower case form of an upper case letter is none. -/
theorem not_isUpper_add {a : UInt8} (h : IsUpper a) : ¬ IsUpper (a + 0x20) := by
  simp only [IsUpper, UInt8.le_iff_toNat_le, UInt8.toNat_add, UInt8.reduceToNat] at h ⊢
  omega

theorem lower_eq_lower_iff {a b : UInt8} : lower a = lower b ↔ SameLetter a b := by
  constructor
  · intro h
    by_cases ha : IsUpper a
    · by_cases hb : IsUpper b
      · rw [lower_of_isUpper ha, lower_of_isUpper hb, UInt8.add_left_inj] at h
        exact .inl h
      · rw [lower_of_isUpper ha, lower_of_not_isUpper hb] at h
        exact .inr (.inl ⟨ha, h.symm⟩)
    · by_cases hb : IsUpper b
      · rw [lower_of_not_isUpper ha, lower_of_isUpper hb] at h
        exact .inr (.inr ⟨hb, h⟩)
      · rw [lower_of_not_isUpper ha, lower_of_not_isUpper hb] at h
        exact .inl h
  · rintro (rfl | ⟨ha, rfl⟩ | ⟨hb, rfl⟩)
    · rfl
    · rw [lower_of_isUpper ha, lower_of_not_isUpper (not_isUpper_add ha)]
    · rw [lower_of_isUpper hb, lower_of_not_isUpper (not_isUpper_add hb)]

end Byte

namespace Bytes

/-- Two texts are of the same length and have the same letters in the same places. -/
def SameLetters (v w : Bytes) : Prop :=
  v.length = w.length ∧ ∀ (i : Nat) (_ : i < v.length) (_ : i < w.length), Byte.SameLetter v[i] w[i]

theorem eqFold_iff_sameLetters {v w : Bytes} : EqFold v w ↔ SameLetters v w := by
  simp [EqFold, lower, SameLetters, List.ext_getElem_iff, Byte.lower_eq_lower_iff]

/-- What is 32 apart is a letter twice only between A and Z. -/
example : EqFold (ascii "AZ") (ascii "az") ∧ ¬ EqFold (ascii "[") (ascii "\x7b") ∧
    ¬ EqFold (ascii "Ä") (ascii "ä") := by
  decide +kernel

end Bytes

namespace Header

variable {headers : List Header} {name name' : Bytes} {found : Option Bytes}

/-- What is to be found under a name: the value of the first field that has it, or nothing if no
field has it. -/
inductive Found (headers : List Header) (name : Bytes) : Option Bytes → Prop
  | absent (none_same : ∀ h ∈ headers, ¬ Bytes.SameLetters h.name name) : Found headers name none
  | first {before after : List Header} {h : Header} (split : headers = before ++ h :: after)
      (none_same : ∀ k ∈ before, ¬ Bytes.SameLetters k.name name)
      (same : Bytes.SameLetters h.name name) : Found headers name (some h.value)

theorem find?_eq_iff : find? headers name = found ↔ Found headers name found := by
  have hnone : headers.find? (fun h => Bytes.EqFold h.name name) = none ↔
      ∀ h ∈ headers, ¬ Bytes.SameLetters h.name name := by
    simp [Bytes.eqFold_iff_sameLetters]
  have hsome (h : Header) : headers.find? (fun h => Bytes.EqFold h.name name) = some h ↔
      Bytes.SameLetters h.name name ∧ ∃ before after, headers = before ++ h :: after ∧
        ∀ k ∈ before, ¬ Bytes.SameLetters k.name name := by
    simp [List.find?_eq_some_iff_append, Bytes.eqFold_iff_sameLetters]
  constructor
  · rintro rfl
    rw [find?]
    cases hfind : headers.find? fun h => Bytes.EqFold h.name name with
    | none => exact .absent (hnone.1 hfind)
    | some h =>
      obtain ⟨hsame, before, after, hsplit, hbefore⟩ := (hsome h).1 hfind
      exact .first hsplit hbefore hsame
  · intro h
    cases h with
    | absent hnot => rw [find?, hnone.2 hnot, Option.map_none]
    | first hsplit hbefore hsame =>
      rw [find?, (hsome _).2 ⟨hsame, _, _, hsplit, hbefore⟩, Option.map_some]

/-- A name finds the same in any letter case. -/
theorem find?_congr (h : Bytes.SameLetters name name') :
    find? headers name = find? headers name' := by
  have hsame : Bytes.EqFold name name' := Bytes.eqFold_iff_sameLetters.2 h
  have hfields : (fun k : Header => decide (Bytes.EqFold k.name name)) =
      fun k => decide (Bytes.EqFold k.name name') :=
    funext fun k => decide_eq_decide.2 ⟨(·.trans hsame), (·.trans hsame.symm)⟩
  rw [find?, find?, hfields]

end Header

/-- **What is found under a name**, in a message and in a response: the value of the first field of
that name in any letter case, or nothing if there is no such field. A message that has been sent a
response finds what it found before, and where that was nothing, what the response finds. -/
theorem header?_found (m : Message) (r : Response) :
    (m.phase ≠ .redirected → ∃ after, (Deed.replay r).perform m = (.ok (), after) ∧
      (∀ name, after.header? name = (m.header? name).or (r.header? name)) ∧
      (m.headers = [] → ∀ name, after.header? name = r.header? name)) ∧
    (∀ name found, (m.header? name = found ↔ Header.Found m.headers name found) ∧
      (r.header? name = found ↔ Header.Found r.headers name found)) ∧
    ∀ name name' : Bytes, name.SameLetters name' →
      m.header? name = m.header? name' ∧ r.header? name = r.header? name' := by
  refine ⟨fun hphase => ?_, fun name found => ⟨Header.find?_eq_iff, Header.find?_eq_iff⟩,
    fun name name' hsame => ⟨Header.find?_congr hsame, Header.find?_congr hsame⟩⟩
  refine ⟨_, Message.performAll_calls hphase r, fun name => Header.find?_append .., ?_⟩
  intro hnew name
  rw [Message.header?, hnew, List.nil_append, Response.header?]

end PageReply
