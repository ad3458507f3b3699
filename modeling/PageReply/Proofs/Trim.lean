import Mathlib.Data.List.Induction
import Mathlib.Data.List.TakeWhile
import PageReply.Http.Header

/-!
# Trimming is exact

Trimming is two loops. The first drops the byte in front for as long as it is a blank; the second
starts with what the first has left and does the same at the end. Each of them ends, and what they
leave is known without them: it is the only part of the text that has nothing but blanks before and
after it and no blank at its own ends. A text of nothing but blanks can be cut in many ways, but the
part in the middle is empty in all of them.
-/

namespace PageReply

namespace Bytes

variable {v w u l r : Bytes}

/-- There is nothing but blanks in a text. -/
def Blank (v : Bytes) : Prop :=
  ∀ b ∈ v, Byte.IsBlank b

/-! ## The two loops -/

/-- What a pass of the first loop leaves, if the loop goes on. -/
def popFront? (v : Bytes) : Option Bytes :=
  if v.head?.any (Byte.IsBlank ·) then some v.tail else none

/-- What a pass of the second loop leaves, if the loop goes on. -/
def popBack? (v : Bytes) : Option Bytes :=
  if v.getLast?.any (Byte.IsBlank ·) then some v.dropLast else none

/-- A loop that begins with one text ends with another. -/
inductive Loop (pass? : Bytes → Option Bytes) : Bytes → Bytes → Prop
  | stop {v : Bytes} (ended : pass? v = none) : Loop pass? v v
  | pass {v w u : Bytes} (goesOn : pass? v = some w) (rest : Loop pass? w u) : Loop pass? v u

theorem Loop.unique {pass? : Bytes → Option Bytes} (h₁ : Loop pass? v w) (h₂ : Loop pass? v u) :
    w = u := by
  induction h₁ with
  | stop hended =>
    cases h₂ with
    | stop _ => rfl
    | pass hgoesOn _ => simp [hended] at hgoesOn
  | pass hgoesOn _ ih =>
    cases h₂ with
    | stop hended => simp [hended] at hgoesOn
    | pass hgoesOn' rest =>
      obtain rfl := Option.some.inj (hgoesOn.symm.trans hgoesOn')
      exact ih rest

theorem trimStart_cons (b : UInt8) (v : Bytes) :
    trimStart (b :: v) = if Byte.IsBlank b then trimStart v else b :: v := by
  simp [trimStart, List.dropWhile_cons]

theorem trimEnd_concat (v : Bytes) (b : UInt8) :
    trimEnd (v ++ [b]) = if Byte.IsBlank b then trimEnd v else v ++ [b] := by
  rw [trimEnd, List.reverse_concat, trimStart_cons]
  split
  · rfl
  · rw [List.reverse_cons, List.reverse_reverse]

theorem loop_popFront? (v : Bytes) : Loop popFront? v (trimStart v) := by
  induction v with
  | nil => exact .stop rfl
  | cons b v ih =>
    rw [trimStart_cons]
    split
    · next hb => exact .pass (by simp [popFront?, hb]) ih
    · next hb => exact .stop (by simp [popFront?, hb])

theorem loop_popBack? (v : Bytes) : Loop popBack? v (trimEnd v) := by
  -- A pass takes the last byte away, so the induction adds one at the end.
  induction v using List.reverseRecOn with
  | nil => exact .stop rfl
  | append_singleton v b ih =>
    rw [trimEnd_concat]
    split
    · next hb => exact .pass (by simp [popBack?, hb]) ih
    · next hb => exact .stop (by simp [popBack?, hb])

/-- The second loop starts with what the first has left, and ends with the trimmed text. -/
theorem loops_iff : (∃ left, Loop popFront? v left ∧ Loop popBack? left w) ↔ w = trim v := by
  constructor
  · rintro ⟨left, hfirst, hsecond⟩
    obtain rfl := hfirst.unique (loop_popFront? v)
    exact hsecond.unique (loop_popBack? (trimStart v))
  · rintro rfl
    exact ⟨trimStart v, loop_popFront? v, loop_popBack? (trimStart v)⟩

/-! ## Blanks around a text -/

theorem trimStart_append (h : Blank l) (v : Bytes) : trimStart (l ++ v) = trimStart v :=
  List.dropWhile_append_of_pos fun b hb => decide_eq_true (h b hb)

theorem trimEnd_append (h : Blank r) (v : Bytes) : trimEnd (v ++ r) = trimEnd v := by
  have hreverse : Blank r.reverse := fun b hb => h b (List.mem_reverse.1 hb)
  rw [trimEnd, trimEnd, List.reverse_append, trimStart_append hreverse]

theorem trimStart_eq_nil_iff : trimStart v = [] ↔ v.Blank := by
  rw [trimStart, List.dropWhile_eq_nil_iff]
  simp [Blank]

/-- Blanks that are put around a text are all dropped again. -/
theorem trim_append (hl : Blank l) (hr : Blank r) (v : Bytes) : trim (l ++ v ++ r) = trim v := by
  rw [List.append_assoc, trim, trimStart_append hl, trim]
  by_cases hv : v.Blank
  · -- Then nothing is left by the first loop, of the text and of the blanks after it.
    rw [trimStart_append hv, trimStart_eq_nil_iff.2 hr, trimStart_eq_nil_iff.2 hv]
  · have hfirst : trimStart (v ++ r) = trimStart v ++ r := by
      rw [trimStart, List.dropWhile_append, if_neg]
      · rfl
      · exact fun hempty => hv (trimStart_eq_nil_iff.1 (List.isEmpty_iff.1 hempty))
    rw [hfirst, trimEnd_append hr]

theorem exists_eq_append_trim (v : Bytes) :
    ∃ l r : Bytes, v = l ++ trim v ++ r ∧ l.Blank ∧ r.Blank := by
  obtain ⟨r, hr, hend⟩ := exists_trimEnd_append (trimStart v)
  refine ⟨v.takeWhile (Byte.IsBlank ·), r, ?_, ?_, hr⟩
  · rw [List.append_assoc, trim, ← hend, trimStart, List.takeWhile_append_dropWhile]
  · intro b hb
    simpa using List.all_eq_true.1 List.all_takeWhile b hb

/-- Only one part of a text is trimmed and has nothing but blanks around it. -/
theorem part_iff : (∃ l r : Bytes, v = l ++ w ++ r ∧ l.Blank ∧ r.Blank ∧ w.Trimmed) ↔
    w = trim v := by
  constructor
  · rintro ⟨l, r, rfl, hl, hr, hw⟩
    rw [trim_append hl hr, trim_eq_self hw]
  · rintro rfl
    obtain ⟨l, r, hv, hl, hr⟩ := exists_eq_append_trim v
    exact ⟨l, r, hv, hl, hr, trimmed_trim v⟩

theorem trim_sublist (v : Bytes) : (trim v).Sublist v := by
  obtain ⟨l, r, hv, -, -⟩ := exists_eq_append_trim v
  have hsub : (trim v).Sublist (l ++ trim v ++ r) :=
    (List.sublist_append_right l (trim v)).trans (List.sublist_append_left (l ++ trim v) r)
  rwa [← hv] at hsub

end Bytes

/-! ## Field values -/

/-- Blanks may stand in a field value, so dropping them makes no value valid or invalid. -/
theorem Header.validValue_trim_iff {value : Bytes} :
    Header.ValidValue value.trim ↔ Header.ValidValue value := by
  have hfield : ∀ b, Byte.IsBlank b → Byte.IsField b := by
    rintro b (rfl | rfl)
    · exact .inr (by decide)
    · exact .inl rfl
  constructor
  · intro h b hb
    by_cases hblank : Byte.IsBlank b
    · exact hfield b hblank
    · exact h b ((Bytes.mem_trim_iff hblank).2 hb)
  · intro h b hb
    by_cases hblank : Byte.IsBlank b
    · exact hfield b hblank
    · exact h b ((Bytes.mem_trim_iff hblank).1 hb)

namespace Bytes

/-- **What trimming leaves.** The two loops end, one after the other, with the trimmed text and with
no other. It is the only text without blanks at its ends that makes up the whole with blanks around
it. So trimming twice is trimming once, blanks on either side make no difference, and a text is a
field value if it is one when it is trimmed, and only then. -/
theorem trim_exact (v : Bytes) :
    (∀ t, (∃ left, Loop popFront? v left ∧ Loop popBack? left t) ↔ t = v.trim) ∧
    (∀ t : Bytes, (∃ l r : Bytes, v = l ++ t ++ r ∧ l.Blank ∧ r.Blank ∧ t.Trimmed) ↔ t = v.trim) ∧
    v.trim.trim = v.trim ∧
    (∀ l r : Bytes, l.Blank → r.Blank → (l ++ v ++ r).trim = v.trim) ∧
    (Header.ValidValue v ↔ Header.ValidValue v.trim) := by
  refine ⟨fun t => loops_iff, fun t => part_iff, trim_eq_self (trimmed_trim v), ?_,
    Header.validValue_trim_iff.symm⟩
  intro l r hl hr
  exact trim_append hl hr v

end Bytes

end PageReply
