import Mathlib.Data.List.Nodup
import PageReply.Proofs.Store.Run

/-!
# What always holds of a store

Whatever is done to a store that starts out empty, its entries have different keys, are not more
than it has room for, and stand in the order in which they were stored, none of them before the
clock began and none in the future. So 64 bits can tell how old each of them is.

Nothing is said of the counters, nor of what was stored when: that is the history of a store, not
its form.
-/

namespace PageReply

/-- When a function tells the elements of a list apart, looking for a value of it finds its only
element. -/
theorem find?_eq_some_iff_of_nodup {α β : Type} [DecidableEq β] {f : α → β} {l : List α}
    (h : (l.map f).Nodup) {a : α} {b : β} : l.find? (f · = b) = some a ↔ a ∈ l ∧ f a = b := by
  constructor
  · intro hfind
    exact ⟨List.mem_of_find?_eq_some hfind, by simpa using List.find?_some hfind⟩
  · rintro ⟨ha, rfl⟩
    cases hfind : l.find? (f · = f a) with
    | none => simpa using List.find?_eq_none.1 hfind a ha
    | some a' =>
      have ha' := List.mem_of_find?_eq_some hfind
      have hsame : f a' = f a := by simpa using List.find?_some hfind
      rw [List.inj_on_of_nodup_map h ha' ha hsame]

structure Clocked.WF (c : Clocked) : Prop where
  nodup : (c.store.entries.map (·.key)).Nodup
  fits : c.store.size ≤ c.store.limits.capacity
  ordered : c.store.entries.Pairwise (·.storedAt ≤ ·.storedAt)
  since : ∀ e ∈ c.store.entries, c.clock.start ≤ e.storedAt
  past : ∀ e ∈ c.store.entries, e.storedAt ≤ c.now

namespace Store

theorem length_evict_lt {capacity : Nat} (hpos : 0 < capacity) (es : List Entry) :
    (evict capacity es).length < capacity := by
  induction es with
  | nil => exact hpos
  | cons e es ih =>
    rw [evict]
    split
    · exact ih
    · next hfits => exact Nat.lt_of_not_le hfits

theorem size_insert_le (s : Store) (now : Int) (session : Bytes) (url : Url)
    (response : Response) : (s.insert now session url response).size ≤ s.limits.capacity := by
  have hroom := length_evict_lt s.limits.capacity_pos
    ((s.purge now).erase (key session url)).entries
  simp only [size, insert, prepare, makeRoom, List.length_append, List.length_singleton]
  exact hroom

end Store

namespace Clocked.WF

variable {c : Clocked}

theorem of_entries_eq_nil (h : c.store.entries = []) : c.WF where
  nodup := by simp [h]
  fits := by simp [Store.size, h]
  ordered := by simp [h]
  since := by simp [h]
  past := by simp [h]

theorem fresh (limits : Limits) (clock : Clock) : WF ⟨{ limits }, clock⟩ :=
  of_entries_eq_nil rfl

theorem nodup_apply (h : c.WF) (op : Op) : ((c.apply op).store.entries.map (·.key)).Nodup := by
  obtain ⟨kept, hsub, hslot, hentries⟩ := c.exists_kept op
  have hkept : (kept.map (·.key)).Nodup := h.nodup.sublist (hsub.map _)
  rw [hentries, List.map_append, List.nodup_append]
  cases op with
  | insert session url response =>
    refine ⟨hkept, List.nodup_singleton _, fun k hk k' hk' => ?_⟩
    obtain ⟨e, he, rfl⟩ := List.mem_map.1 hk
    rw [List.mem_singleton.1 hk']
    exact hslot session url rfl e he
  | _ => exact ⟨hkept, List.nodup_nil, fun _ _ _ hk' => absurd hk' List.not_mem_nil⟩

theorem fits_apply (h : c.WF) (op : Op) : (c.apply op).store.size ≤ c.store.limits.capacity := by
  obtain ⟨kept, hsub, -, hentries⟩ := c.exists_kept op
  cases op with
  | insert session url response => exact Store.size_insert_le c.store c.now session url response
  | _ =>
    rw [Store.size, hentries, List.length_append]
    exact Nat.le_trans hsub.length_le h.fits

theorem ordered_apply (h : c.WF) (op : Op) :
    (c.apply op).store.entries.Pairwise (·.storedAt ≤ ·.storedAt) := by
  obtain ⟨kept, hsub, -, hentries⟩ := c.exists_kept op
  have hkept : kept.Pairwise (·.storedAt ≤ ·.storedAt) := h.ordered.sublist hsub
  rw [hentries, List.pairwise_append]
  cases op with
  | insert session url response =>
    refine ⟨hkept, List.pairwise_singleton _ _, fun e he e' he' => ?_⟩
    rw [List.mem_singleton.1 he']
    exact h.past e (hsub.subset he)
  | _ => exact ⟨hkept, .nil, fun _ _ _ he' => absurd he' List.not_mem_nil⟩

theorem since_apply (h : c.WF) (op : Op) :
    ∀ e ∈ (c.apply op).store.entries, c.clock.start ≤ e.storedAt := by
  intro e he
  rcases mem_of_mem_apply he with ⟨hold, -⟩ | hnew
  · exact h.since e hold
  · rw [Op.storedAt_of_mem_added hnew]
    exact c.clock.start_le_time

theorem past_apply (h : c.WF) (op : Op) :
    ∀ e ∈ (c.apply op).store.entries, e.storedAt ≤ (c.apply op).now := by
  intro e he
  rcases mem_of_mem_apply he with ⟨hold, -⟩ | hnew
  · exact Int.le_trans (h.past e hold) (c.now_le_apply op)
  · rw [Op.storedAt_of_mem_added hnew]
    exact c.now_le_apply op

theorem apply (h : c.WF) (op : Op) : (c.apply op).WF where
  nodup := h.nodup_apply op
  fits := by
    rw [apply_limits]
    exact h.fits_apply op
  ordered := h.ordered_apply op
  since := by
    rw [apply_start]
    exact h.since_apply op
  past := h.past_apply op

/-- How old the entries are at a time that the clock reaches can be told. -/
theorem ageFits (h : c.WF) {time : Int} (htime : c.clock.Reaches time) :
    ∀ e ∈ c.store.entries, e.AgeFits time :=
  fun e he => htime.fits (h.since e he) (h.past e he)

theorem ageFits_now (h : c.WF) : ∀ e ∈ c.store.entries, e.AgeFits c.now :=
  h.ageFits c.clock.reaches_time

end Clocked.WF

theorem Run.wf {a c : Clocked} {ms : List Moment} (h : Run a ms c) (ha : a.WF) : c.WF := by
  induction h with
  | nil => exact ha
  | snoc _ op ih => exact ih.apply op

/-- A run leads here from a store that was empty. -/
def Clocked.Reachable (c : Clocked) : Prop :=
  ∃ limits clock ms, Run ⟨{ limits }, clock⟩ ms c

theorem Clocked.reachable_follow (limits : Limits) (clock : Clock) (ops : List Op) :
    (Clocked.follow ⟨{ limits }, clock⟩ ops).Reachable :=
  ⟨limits, clock, _, Clocked.run ⟨{ limits }, clock⟩ ops⟩

/-- **The form holds of every store that can be reached.** -/
theorem Clocked.Reachable.wf {c : Clocked} (h : c.Reachable) : c.WF := by
  obtain ⟨limits, clock, ms, hrun⟩ := h
  exact hrun.wf (.fresh limits clock)

end PageReply
