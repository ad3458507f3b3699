import PageReply.Bytes.Basic

/-!
# Trimming blanks

A blank is a space or a tab. `trim` removes all blanks from both ends; its result is `Trimmed`, and
a trimmed string is left as it is.
-/

namespace PageReply

/-- Space or tab, the optional white space of header fields. -/
abbrev Byte.IsBlank (b : UInt8) : Prop := b = Byte.space ∨ b = Byte.tab

namespace Bytes

def trimStart (v : Bytes) : Bytes :=
  v.dropWhile (Byte.IsBlank ·)

def trimEnd (v : Bytes) : Bytes :=
  (trimStart v.reverse).reverse

def trim (v : Bytes) : Bytes :=
  trimEnd (trimStart v)

/-- Neither the first nor the last byte is a blank. -/
def Trimmed (v : Bytes) : Prop :=
  (∀ b ∈ v.head?, ¬ Byte.IsBlank b) ∧ ∀ b ∈ v.getLast?, ¬ Byte.IsBlank b

instance (v : Bytes) : Decidable (Trimmed v) :=
  inferInstanceAs (Decidable (_ ∧ _))

theorem not_isBlank_of_mem_head?_trimStart (v : Bytes) :
    ∀ b ∈ (trimStart v).head?, ¬ Byte.IsBlank b := by
  intro b hb
  have h := List.head?_dropWhile_not (fun b => decide (Byte.IsBlank b)) v
  rw [trimStart] at hb
  rw [Option.mem_def] at hb
  rw [hb] at h
  simpa using h

theorem trimStart_eq_self {v : Bytes} (h : ∀ b ∈ v.head?, ¬ Byte.IsBlank b) : trimStart v = v := by
  cases v with
  | nil => rfl
  | cons b v => exact List.dropWhile_cons_of_neg (by simpa using h b rfl)

/-- What `trimEnd` removes is a run of blanks, so its result starts its argument. -/
theorem exists_trimEnd_append (v : Bytes) :
    ∃ blanks : Bytes, (∀ b ∈ blanks, Byte.IsBlank b) ∧ v = trimEnd v ++ blanks := by
  refine ⟨(v.reverse.takeWhile (Byte.IsBlank ·)).reverse, ?_, ?_⟩
  · intro b hb
    simpa using List.all_eq_true.1 List.all_takeWhile b (List.mem_reverse.1 hb)
  · rw [trimEnd, trimStart, ← List.reverse_append, List.takeWhile_append_dropWhile,
      List.reverse_reverse]

theorem trimmed_trim (v : Bytes) : Trimmed (trim v) := by
  constructor
  · intro b hb
    obtain ⟨blanks, -, h⟩ := exists_trimEnd_append (trimStart v)
    refine not_isBlank_of_mem_head?_trimStart v b ?_
    rw [h, List.head?_append]
    simp only [trim] at hb
    simp [Option.mem_def.1 hb]
  · intro b hb
    rw [trim, trimEnd, List.getLast?_reverse] at hb
    exact not_isBlank_of_mem_head?_trimStart _ b hb

theorem trim_eq_self {v : Bytes} (h : Trimmed v) : trim v = v := by
  rw [trim, trimStart_eq_self h.1, trimEnd, trimStart_eq_self, List.reverse_reverse]
  simpa using h.2

section

variable {v : Bytes} {b : UInt8} (hb : ¬ Byte.IsBlank b)

include hb

theorem mem_trimStart_iff : b ∈ trimStart v ↔ b ∈ v := by
  refine ⟨fun h => (List.dropWhile_sublist _).subset h, fun h => ?_⟩
  rw [← List.takeWhile_append_dropWhile (p := fun b => decide (Byte.IsBlank b)) (l := v),
    List.mem_append] at h
  refine h.resolve_left fun hblank => hb ?_
  simpa using List.all_eq_true.1 List.all_takeWhile b hblank

/-- Only blanks are lost. -/
theorem mem_trim_iff : b ∈ trim v ↔ b ∈ v := by
  rw [trim, trimEnd, List.mem_reverse, mem_trimStart_iff hb, List.mem_reverse,
    mem_trimStart_iff hb]

end

end Bytes

end PageReply
