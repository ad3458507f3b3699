import Mathlib.Data.List.Induction
import PageReply.Store.Basic

/-!
# Runs of a store

A run is any finite sequence of operations on a store, with time passing in between. Each of its
moments shows the operation together with the store and the clock it met, so that what happened can
be said of the run itself: a look-up found this, an insertion was made at that time.

No two slots share a key: a key opens with the length of the session id in decimal and a colon. No
digit is a colon, so the first colon ends the length, whatever bytes follow; the length then says
where the session id ends.

`Clocked.exists_kept` says once what a single operation does to the entries: some of those before it
are kept, in their order, none of them in the slot of the operation, and at most one is added at the
end. The other properties of runs are derived from it.
-/

namespace PageReply

/-! ## Keys -/

namespace Bytes

/-- The digits of a number end at the first colon after them. -/
theorem takeWhile_isDigit_decimal_colon (n : Nat) (rest : Bytes) :
    (decimal n ++ Byte.colon :: rest).takeWhile (Byte.IsDigit ·) = decimal n := by
  have hdigits : ∀ b ∈ decimal n, decide (Byte.IsDigit b) = true :=
    fun b hb => decide_eq_true (isDigit_of_mem_decimal hb)
  rw [List.takeWhile_append_of_pos hdigits, List.takeWhile_cons_of_neg (by decide),
    List.append_nil]

/-- A number written before a colon can be told from what follows the colon. -/
theorem decimal_colon_inj {m n : Nat} {v w : Bytes}
    (h : decimal m ++ Byte.colon :: v = decimal n ++ Byte.colon :: w) : m = n ∧ v = w := by
  have hdecimal : decimal m = decimal n := by
    rw [← takeWhile_isDigit_decimal_colon m v, h, takeWhile_isDigit_decimal_colon]
  rw [hdecimal, List.append_cancel_left_eq] at h
  exact ⟨decimal_inj.1 hdecimal, List.tail_eq_of_cons_eq h⟩

end Bytes

namespace Store

/-- Different pairs of a session and a page have different keys. -/
theorem key_inj {s t : Bytes} {u v : Url} (h : key s u = key t v) : s = t ∧ u = v := by
  simp only [key, List.cons_append, List.append_assoc] at h
  obtain ⟨hlength, hrest⟩ := Bytes.decimal_colon_inj h
  obtain ⟨hsession, htext⟩ := List.append_inj hrest hlength
  exact ⟨hsession, Url.ext htext⟩

/-- **A key tells which session and which page it is for**, whatever bytes their texts are of. -/
theorem key_eq_iff {s t : Bytes} {u v : Url} : key s u = key t v ↔ s = t ∧ u = v := by
  constructor
  · exact key_inj
  · rintro ⟨rfl, rfl⟩
    rfl

end Store

/-! ## Operations -/

/-- Where a response is buffered: a session and a page. -/
abbrev Slot := Bytes × Url

/-- What can be done to a store, and the passing of time. -/
inductive Op where
  | insert (session : Bytes) (url : Url) (response : Response)
  | take (session : Bytes) (url : Url)
  /-- Purges what has expired at a distance from now. -/
  | purge (offset : Int)
  | advance (ns : Nat)
deriving DecidableEq, Repr

namespace Op

def slot? : Op → Option Slot
  | insert session url _ | take session url => some (session, url)
  | purge _ | advance _ => none

def filled? : Op → Option Slot
  | insert session url _ => some (session, url)
  | take _ _ | purge _ | advance _ => none

/-- The distance from now of the time that a purge is for. -/
def offset? : Op → Option Int
  | purge offset => some offset
  | insert _ _ _ | take _ _ | advance _ => none

/-- The entries that an operation adds at a time: one for an insertion. -/
def added (now : Int) : Op → List Entry
  | insert session url response =>
    [{ key := Store.key session url, response, storedAt := now }]
  | take _ _ | purge _ | advance _ => []

/-- A purge is for a time that the clock reaches. -/
def InReach (clock : Clock) (op : Op) : Prop :=
  ∀ offset ∈ op.offset?, clock.Reaches (clock.time + offset)

instance (clock : Clock) (op : Op) : Decidable (op.InReach clock) :=
  inferInstanceAs (Decidable (∀ offset ∈ op.offset?, _))

end Op

@[simp] theorem Stats.stored_afterLookup (s : Stats) (found : Lookup) :
    (s.afterLookup found).stored = s.stored := by
  cases found <;> rfl

@[simp] theorem Stats.evicted_afterLookup (s : Stats) (found : Lookup) :
    (s.afterLookup found).evicted = s.evicted := by
  cases found <;> rfl

/-- A store, and the clock. -/
structure Clocked where
  store : Store
  clock : Clock
deriving DecidableEq, Repr

namespace Clocked

abbrev now (c : Clocked) : Int :=
  c.clock.time

/-- What a look-up finds. -/
def found (c : Clocked) (session : Bytes) (url : Url) : Lookup :=
  (c.store.take c.now session url).1

def apply (c : Clocked) : Op → Clocked
  | .insert session url response => { c with store := c.store.insert c.now session url response }
  | .take session url => { c with store := (c.store.take c.now session url).2 }
  | .purge offset => { c with store := c.store.purge (c.now + offset) }
  | .advance ns => { c with clock := c.clock.advance ns }

@[simp] theorem apply_limits (c : Clocked) (op : Op) :
    (c.apply op).store.limits = c.store.limits := by
  cases op <;> rfl

theorem now_le_apply (c : Clocked) (op : Op) : c.now ≤ (c.apply op).now := by
  cases op with
  | advance ns => exact c.clock.time_le_advance ns
  | _ => exact Int.le_refl _

@[simp] theorem apply_start (c : Clocked) (op : Op) :
    (c.apply op).clock.start = c.clock.start := by
  cases op <;> rfl

end Clocked

/-! ## How old an entry is -/

namespace Entry

variable {e : Entry} {lifetime now : Int}

/-- The age of an entry at some time is one that 64 bits can tell. -/
def AgeFits (e : Entry) (now : Int) : Prop :=
  Time.Fits (now - e.storedAt)

instance (e : Entry) (now : Int) : Decidable (e.AgeFits now) :=
  inferInstanceAs (Decidable (Time.Fits _))

theorem expired_iff (h : e.AgeFits now) : e.Expired lifetime now ↔ lifetime ≤ now - e.storedAt := by
  rw [Expired, Time.wrap_eq h]

theorem not_expired_iff (h : e.AgeFits now) :
    ¬ e.Expired lifetime now ↔ now - e.storedAt < lifetime := by
  rw [expired_iff h, Int.not_le]

theorem not_expired_of_age {limits : Limits} (hfits : limits.Fits) (hages : e.AgeFits now)
    (hage : now - e.storedAt < limits.span) : ¬ e.Expired limits.lifetime now := by
  rwa [not_expired_iff hages, Limits.lifetime_eq hfits]

/-- Within a timeout that 64 bits can tell, they can tell how old an entry is. -/
theorem not_expired_of_le {limits : Limits} (hfits : limits.Fits) (hpast : e.storedAt ≤ now)
    (hage : now - e.storedAt < limits.span) : ¬ e.Expired limits.lifetime now := by
  unfold Limits.Fits at hfits
  refine not_expired_of_age hfits ⟨?_, ?_⟩ hage <;> omega

end Entry

theorem Op.storedAt_of_mem_added {op : Op} {now : Int} {e : Entry} (he : e ∈ op.added now) :
    e.storedAt = now := by
  cases op with
  | insert session url response => rw [List.mem_singleton.1 he]
  | _ => cases he

/-! ## What one operation does to the entries -/

namespace Store

theorem lookup_erase (s : Store) (now : Int) (key : Bytes) :
    (s.erase key).lookup now key = .missing := by
  have hnone : (s.erase key).entries.find? (·.key = key) = none := by
    simp [erase]
  rw [lookup, hnone]

theorem evict_suffix (capacity : Nat) (es : List Entry) : evict capacity es <:+ es := by
  induction es with
  | nil => exact List.suffix_rfl
  | cons e es ih =>
    rw [evict]
    split
    · exact ih.trans (List.suffix_cons e es)
    · exact List.suffix_rfl

theorem prepare_sublist (s : Store) (now : Int) (key : Bytes) :
    (s.prepare now key).entries.Sublist s.entries :=
  (evict_suffix _ _).sublist.trans
    (List.filter_sublist.trans (List.dropWhile_sublist _))

theorem key_ne_of_mem_prepare {s : Store} {now : Int} {key : Bytes} {e : Entry}
    (he : e ∈ (s.prepare now key).entries) : e.key ≠ key := by
  have := (evict_suffix _ _).subset he
  simpa using (List.mem_filter.1 this).2

end Store

/-- Some entries are kept, in their order, none of them in the slot of the operation, and what the
operation adds comes last. -/
theorem Clocked.exists_kept (c : Clocked) (op : Op) :
    ∃ kept : List Entry, kept.Sublist c.store.entries ∧
      (∀ session url, op.slot? = some (session, url) →
        ∀ e ∈ kept, e.key ≠ Store.key session url) ∧
      (c.apply op).store.entries = kept ++ op.added c.now := by
  cases op with
  | insert session url response =>
    refine ⟨(c.store.prepare c.now (Store.key session url)).entries,
      Store.prepare_sublist _ _ _, ?_, rfl⟩
    intro s u hslot e he
    cases hslot
    exact Store.key_ne_of_mem_prepare he
  | take session url =>
    refine ⟨c.store.entries.filter (·.key ≠ Store.key session url), List.filter_sublist, ?_,
      (List.append_nil _).symm⟩
    intro s u hslot e he
    cases hslot
    simpa using (List.mem_filter.1 he).2
  | purge offset =>
    refine ⟨(c.store.purge (c.now + offset)).entries, List.dropWhile_sublist _, ?_,
      (List.append_nil _).symm⟩
    intro s u hslot
    cases hslot
  | advance ns =>
    refine ⟨c.store.entries, List.Sublist.refl _, ?_, (List.append_nil _).symm⟩
    intro s u hslot
    cases hslot

/-- An entry was there before an operation in another slot, or is what the operation adds. -/
theorem Clocked.mem_of_mem_apply {c : Clocked} {op : Op} {e : Entry}
    (he : e ∈ (c.apply op).store.entries) :
    (e ∈ c.store.entries ∧
      ∀ session url, op.slot? = some (session, url) → e.key ≠ Store.key session url) ∨
    e ∈ op.added c.now := by
  obtain ⟨kept, hkept, hslot, hentries⟩ := c.exists_kept op
  rw [hentries] at he
  rcases List.mem_append.1 he with hold | hnew
  · exact .inl ⟨hkept.subset hold, fun session url hop => hslot session url hop e hold⟩
  · exact .inr hnew

/-! ## Runs -/

/-- An operation, with the store and the clock it meets. -/
structure Moment where
  op : Op
  state : Clocked
deriving DecidableEq, Repr

/-- From one store and clock to another through moments, each of which meets what the ones before it
leave. -/
inductive Run (start : Clocked) : List Moment → Clocked → Prop
  | nil : Run start [] start
  | snoc {ms : List Moment} {c : Clocked} (run : Run start ms c) (op : Op) :
    Run start (ms ++ [⟨op, c⟩]) (c.apply op)

namespace Run

variable {a b c : Clocked} {ms ns : List Moment}

theorem single (c : Clocked) (op : Op) : Run c [⟨op, c⟩] (c.apply op) :=
  .snoc .nil op

theorem append (h : Run a ms b) (k : Run b ns c) : Run a (ms ++ ns) c := by
  induction k with
  | nil => rwa [List.append_nil]
  | snoc _ op ih =>
    rw [← List.append_assoc]
    exact .snoc ih op

/-- The last moment of a run meets what the others leave. -/
theorem of_snoc {m : Moment} (h : Run a (ms ++ [m]) c) :
    Run a ms m.state ∧ c = m.state.apply m.op := by
  generalize hall : ms ++ [m] = all at h
  cases h with
  | nil => simp at hall
  | snoc run op =>
    obtain ⟨rfl, rfl⟩ := List.append_singleton_inj.1 hall
    exact ⟨run, rfl⟩

theorem split (h : Run a (ms ++ ns) c) : ∃ b, Run a ms b ∧ Run b ns c := by
  induction ns using List.reverseRecOn generalizing c with
  | nil => exact ⟨c, by rwa [List.append_nil] at h, .nil⟩
  | append_singleton ns m ih =>
    rw [← List.append_assoc] at h
    obtain ⟨hrun, rfl⟩ := h.of_snoc
    obtain ⟨b, hb, hm⟩ := ih hrun
    exact ⟨b, hb, .snoc hm m.op⟩

/-- A moment in the middle of a run meets what those before it leave, and those after it meet what
it leaves. -/
theorem at_moment {m : Moment} (h : Run a (ms ++ m :: ns) c) :
    Run a ms m.state ∧ Run (m.state.apply m.op) ns c := by
  rw [List.append_cons] at h
  obtain ⟨b, hb, hns⟩ := h.split
  obtain ⟨hms, rfl⟩ := hb.of_snoc
  exact ⟨hms, hns⟩

theorem limits_eq (h : Run a ms c) : c.store.limits = a.store.limits := by
  induction h with
  | nil => rfl
  | snoc _ op ih => rw [Clocked.apply_limits, ih]

theorem now_le (h : Run a ms c) : a.now ≤ c.now := by
  induction h with
  | nil => exact Int.le_refl _
  | @snoc _ b _ op ih => exact Int.le_trans ih (b.now_le_apply op)

theorem now_of_mem (h : Run a ms c) {m : Moment} (hm : m ∈ ms) :
    a.now ≤ m.state.now ∧ m.state.now ≤ c.now := by
  obtain ⟨before, after, rfl⟩ := List.append_of_mem hm
  obtain ⟨hbefore, hafter⟩ := h.at_moment
  exact ⟨hbefore.now_le, Int.le_trans (m.state.now_le_apply m.op) hafter.now_le⟩

end Run

namespace Clocked

def follow (c : Clocked) (ops : List Op) : Clocked :=
  ops.foldl apply c

/-- The moments of a list of operations. -/
def moments (c : Clocked) : List Op → List Moment
  | [] => []
  | op :: ops => ⟨op, c⟩ :: (c.apply op).moments ops

/-- Every list of operations is a run. -/
theorem run (c : Clocked) (ops : List Op) : Run c (c.moments ops) (c.follow ops) := by
  induction ops generalizing c with
  | nil => exact .nil
  | cons op ops ih => exact (Run.single c op).append (ih (c.apply op))

end Clocked

/-- An empty store for two responses, a millisecond each. -/
def Store.tiny : Store where
  limits := ⟨1, 2, by decide, by decide⟩

/-- An empty store for two responses, with the shortest timeout that 64 bits cannot tell in
nanoseconds. -/
def Store.overlong : Store where
  limits := ⟨9223372036855, 2, by decide, by decide⟩

end PageReply
