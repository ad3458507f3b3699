import PageReply.Config

/-!
# Times and limits

How long and how many responses are kept. Times are in nanoseconds; settings give milliseconds.

Durations are held as 64 bits with a sign, which is enough for 292 years. A duration that does not
fit wraps around. Of the durations that a store compares, the time between two readings of a clock
always fits, as no clock runs that long. A timeout need not fit, nor does the age that an entry has
at a time that is no reading of the clock.
-/

namespace PageReply

namespace Time

def millisecond : Int := 1000000

/-- A duration that 64 bits can hold. -/
def Fits (ns : Int) : Prop :=
  -9223372036854775808 ≤ ns ∧ ns < 9223372036854775808

instance (ns : Int) : Decidable (Fits ns) :=
  inferInstanceAs (Decidable (_ ∧ _))

/-- What 64 bits hold of a duration. -/
def wrap (ns : Int) : Int :=
  (Int64.ofInt ns).toInt

theorem fits_zero : Fits 0 := by decide

theorem wrap_eq {ns : Int} (h : Fits ns) : wrap ns = ns :=
  Int64.toInt_ofInt_of_le h.1 h.2

/-- A duration that is not negative can only get shorter. -/
theorem wrap_le {ns : Int} (h : 0 ≤ ns) : wrap ns ≤ ns := by
  have hsize : (Int64.size : Int) = 18446744073709551616 := rfl
  rw [wrap, Int64.toInt_ofInt, Int.bmod_def, hsize]
  split <;> omega

end Time

/-- A clock: when it began, and for how long it has been running. -/
structure Clock where
  start : Int := 0
  elapsed : Nat := 0
  fits : Time.Fits elapsed := by exact Time.fits_zero
deriving DecidableEq, Repr

namespace Clock

/-- What the clock reads. -/
def time (c : Clock) : Int :=
  c.start + c.elapsed

/-- Lets time pass, up to the end of what 64 bits can tell from the start. -/
def advance (c : Clock) (ns : Nat) : Clock where
  start := c.start
  elapsed := min (c.elapsed + ns) 9223372036854775807
  fits := by
    unfold Time.Fits
    omega

theorem start_le_time (c : Clock) : c.start ≤ c.time :=
  Int.le_add_of_nonneg_right (Int.natCast_nonneg _)

theorem time_le_advance (c : Clock) (ns : Nat) : c.time ≤ (c.advance ns).time := by
  have := c.fits
  unfold Time.Fits at this
  simp only [time, advance]
  omega

/-- The time between a point in time and any reading that the clock has had fits. -/
def Reaches (c : Clock) (time : Int) : Prop :=
  -9223372036854775808 ≤ time - c.time ∧ time - c.start < 9223372036854775808

instance (c : Clock) (time : Int) : Decidable (c.Reaches time) :=
  inferInstanceAs (Decidable (_ ∧ _))

theorem Reaches.fits {c : Clock} {time reading : Int} (h : c.Reaches time)
    (hstart : c.start ≤ reading) (hnow : reading ≤ c.time) : Time.Fits (time - reading) := by
  unfold Reaches at h
  unfold Time.Fits
  omega

theorem reaches_time (c : Clock) : c.Reaches c.time := by
  have := c.fits
  unfold Time.Fits at this
  simp only [Reaches, time]
  omega

end Clock

structure Limits where
  /-- How long an entry is to be kept, in milliseconds. -/
  timeout : Int
  /-- How many entries are kept at most. -/
  capacity : Nat
  timeout_pos : 0 < timeout
  capacity_pos : 0 < capacity
deriving DecidableEq, Repr

namespace Limits

/-- Why a timeout and a capacity are no limits. -/
inductive Defect where
  | timeout
  | capacity
deriving DecidableEq, Repr

/-- How long an entry is to be kept. -/
def span (l : Limits) : Int :=
  l.timeout * Time.millisecond

/-- How long an entry is kept, as far as 64 bits can tell. -/
def lifetime (l : Limits) : Int :=
  Time.wrap l.span

/-- Entries are kept for as long as they are to be kept. -/
def Fits (l : Limits) : Prop :=
  l.span < 9223372036854775808

instance (l : Limits) : Decidable l.Fits :=
  inferInstanceAs (Decidable (_ < _))

theorem span_pos (l : Limits) : 0 < l.span :=
  Int.mul_pos l.timeout_pos (by decide)

theorem lifetime_eq {l : Limits} (h : l.Fits) : l.lifetime = l.span := by
  have := l.span_pos
  refine Time.wrap_eq ⟨?_, h⟩
  omega

theorem lifetime_le_span (l : Limits) : l.lifetime ≤ l.span :=
  Time.wrap_le (Int.le_of_lt l.span_pos)

/-- The limits of a timeout in milliseconds and a capacity. A bad timeout is reported before a bad
capacity. -/
def ofParts (timeout : Int) (capacity : Nat) : Except Defect Limits :=
  if ht : 0 < timeout then
    if hc : 0 < capacity then .ok ⟨timeout, capacity, ht, hc⟩
    else .error .capacity
  else .error .timeout

/-- The limits that usable settings ask for. -/
def ofConfig (c : { c : Config // c.Valid }) : Limits :=
  ⟨c.val.timeout, c.val.capacity, c.property.timeout_pos, c.property.capacity_pos⟩

end Limits

end PageReply
