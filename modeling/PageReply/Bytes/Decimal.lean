import PageReply.Bytes.Basic

/-!
# Decimal text

`decimal n` is the number `n` in decimal, most significant digit first, without leading zeros.
`value` reads digits back, so different numbers have different decimal texts.
-/

namespace PageReply.Bytes

def digit (d : Nat) : UInt8 :=
  d.toUInt8 + Byte.zero

def decimal (n : Nat) : Bytes :=
  if n < 10 then [digit n] else decimal (n / 10) ++ [digit (n % 10)]

/-- An integer in decimal, with a minus sign when it is negative. -/
def signedDecimal : Int → Bytes
  | .ofNat n => decimal n
  | .negSucc n => Byte.minus :: decimal (n + 1)

/-- The number that a string of digits denotes. -/
def value (digits : Bytes) : Nat :=
  digits.foldl (fun v b => 10 * v + (b - Byte.zero).toNat) 0

theorem toNat_digit_sub_zero {d : Nat} (h : d < 10) : (digit d - Byte.zero).toNat = d := by
  rw [digit, UInt8.add_sub_cancel, UInt8.toNat_ofNat']
  exact Nat.mod_eq_of_lt (by omega)

theorem isDigit_digit {d : Nat} (h : d < 10) : Byte.IsDigit (digit d) := by
  have : ∀ d : Fin 10, Byte.IsDigit (digit d.val) := by decide
  exact this ⟨d, h⟩

theorem value_append_digit (digits : Bytes) (b : UInt8) :
    value (digits ++ [b]) = 10 * value digits + (b - Byte.zero).toNat := by
  simp [value]

/-- Reading the decimal text of a number gives the number back. -/
theorem value_decimal (n : Nat) : value (decimal n) = n := by
  fun_induction decimal n with
  | case1 n h => simpa [value] using toNat_digit_sub_zero h
  | case2 n h ih =>
    rw [value_append_digit, ih, toNat_digit_sub_zero (by omega)]
    omega

theorem decimal_inj {m n : Nat} : decimal m = decimal n ↔ m = n :=
  ⟨fun h => by rw [← value_decimal m, h, value_decimal], fun h => by rw [h]⟩

theorem isDigit_of_mem_decimal {n : Nat} {b : UInt8} (h : b ∈ decimal n) : Byte.IsDigit b := by
  fun_induction decimal n with
  | case1 n hn =>
    rw [List.mem_singleton.1 h]
    exact isDigit_digit hn
  | case2 n hn ih =>
    rcases List.mem_append.1 h with h | h
    · exact ih h
    · rw [List.mem_singleton.1 h]
      exact isDigit_digit (by omega)

theorem minus_not_mem_decimal (n : Nat) : Byte.minus ∉ decimal n := by
  intro h
  exact absurd (isDigit_of_mem_decimal h) (by decide)

theorem mem_signedDecimal {i : Int} {b : UInt8} (h : b ∈ signedDecimal i) :
    b = Byte.minus ∨ Byte.IsDigit b := by
  cases i with
  | ofNat n => exact .inr (isDigit_of_mem_decimal h)
  | negSucc n =>
    rcases List.mem_cons.1 h with h | h
    · exact .inl h
    · exact .inr (isDigit_of_mem_decimal h)

theorem signedDecimal_inj {i j : Int} : signedDecimal i = signedDecimal j ↔ i = j := by
  constructor
  · intro h
    cases i with
    | ofNat m =>
      cases j with
      | ofNat n => exact congrArg Int.ofNat (decimal_inj.1 h)
      | negSucc n =>
        simp only [signedDecimal] at h
        exact absurd (h ▸ List.mem_cons_self) (minus_not_mem_decimal m)
    | negSucc m =>
      cases j with
      | ofNat n =>
        simp only [signedDecimal] at h
        exact absurd (h ▸ List.mem_cons_self) (minus_not_mem_decimal n)
      | negSucc n =>
        have hsucc : m + 1 = n + 1 := decimal_inj.1 (List.cons_eq_cons.1 h).2
        exact congrArg Int.negSucc (Nat.succ.inj hsucc)
  · exact fun h => by rw [h]

end PageReply.Bytes
