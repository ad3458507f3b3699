import PageReply.Proofs.Script.Buffered
import PageReply.Proofs.Store.Index

/-!
# The form of a store that was opened

However a store is opened and whatever is done to it, what always holds of a store holds of it, and
a store with an index that is treated alike has the same entries and leads to each by its key. The
entries that have expired come first at every time at which 64 bits can tell how old the entries
are, and not at every other (`old_behind_young`).
-/

namespace PageReply

theorem Limits.capacity_of_ofParts {timeout : Int} {capacity : Nat} {limits : Limits}
    (h : Limits.ofParts timeout capacity = .ok limits) : limits.capacity = capacity := by
  unfold Limits.ofParts at h
  split at h
  · split at h
    · cases h
      rfl
    · cases h
  · cases h

theorem Config.val_of_check {c : Config} {valid : { c : Config // c.Valid }}
    (h : c.check = .ok valid) : valid.val = c := by
  unfold Config.check at h
  split at h
  · split at h
    · split at h
      · cases h
        rfl
      · cases h
    · cases h
  · cases h

namespace Script

namespace Opening

/-- The capacity that is asked for. -/
def capacity : Opening → Nat
  | .limits _ capacity => capacity
  | .config c => c.capacity

theorem capacity_eq {opening : Opening} {store : Store} (h : opening.store = .ok store) :
    store.limits.capacity = opening.capacity := by
  cases opening with
  | limits timeout capacity =>
    simp only [Opening.store] at h
    cases hlimits : Limits.ofParts timeout capacity with
    | error defect =>
      rw [hlimits] at h
      cases h
    | ok limits =>
      rw [hlimits] at h
      cases h
      exact Limits.capacity_of_ofParts hlimits
  | config c =>
    simp only [Opening.store, Config.usable] at h
    cases hcheck : c.check with
    | error defect =>
      rw [hcheck] at h
      cases h
    | ok valid =>
      rw [hcheck] at h
      cases h
      exact congrArg Config.capacity (Config.val_of_check hcheck)

end Opening

/-- **The form of every store that was opened**: its keys differ; searching its entries and
following an index find the entry of a key, if there is one; they are not more than the store was
opened for; they stand in the order in which they were stored, none of them in the future; and so
those that have expired are the first ones, at every time at which it can be told how old they are,
and the current time is one. -/
theorem form_of_run {opening : Opening} {store : Store} (hopen : opening.store = .ok store)
    (start : Clock) {ms : List Moment} {c : Clocked} (hrun : Run ⟨store, start⟩ ms c) :
    (c.store.entries.map (·.key)).Nodup ∧
    (∀ key e, c.store.entries.find? (·.key = key) = some e ↔ e ∈ c.store.entries ∧ e.key = key) ∧
    (Indexed.follow { limits := store.limits } ms).toStore = c.store ∧
    (∀ key e, ((Indexed.follow { limits := store.limits } ms).node? key).map (·.entry) = some e ↔
      e ∈ c.store.entries ∧ e.key = key) ∧
    c.store.size ≤ opening.capacity ∧
    c.store.entries.Pairwise (·.storedAt ≤ ·.storedAt) ∧
    (∀ e ∈ c.store.entries, e.storedAt ≤ c.now) ∧
    (∀ time, (∀ e ∈ c.store.entries, e.AgeFits time) →
      c.store.entries.filter (·.Expired c.store.limits.lifetime time) <+: c.store.entries) ∧
    ∀ e ∈ c.store.entries, e.AgeFits c.now := by
  have hstore : store = { limits := store.limits } := Opening.store_eq hopen
  have hindexed : Run ⟨(Indexed.toStore { limits := store.limits }), start⟩ ms c := by
    rw [hstore] at hrun
    exact hrun
  obtain ⟨hwf, hsame⟩ := Indexed.follow_spec (.empty store.limits) hindexed
  have hform : c.WF := hindexed.wf (.fresh store.limits start)
  have hcapacity : c.store.limits.capacity = opening.capacity := by
    rw [hrun.limits_eq]
    exact Opening.capacity_eq hopen
  have hfind : ∀ key e, c.store.entries.find? (·.key = key) = some e ↔
      e ∈ c.store.entries ∧ e.key = key :=
    fun _ _ => find?_eq_some_iff_of_nodup hform.nodup
  refine ⟨hform.nodup, hfind, hsame, fun key e => ?_, hcapacity ▸ hform.fits, hform.ordered,
    hform.past, fun time hages => ?_, hform.ageFits_now⟩
  · rw [hwf.node?_eq_find?, hsame]
    exact hfind key e
  · rw [← Store.takeWhile_eq_filter_expired hform.ordered hages]
    exact List.takeWhile_prefix _

namespace Turnover

/-- A page is replaced by a newer one, and another has to go for a third. -/
def ops : List Op :=
  let s1 := ascii "s1"
  let s2 := ascii "s2"
  let page := Url.ofBytes (ascii "page")
  let home := Url.ofBytes (ascii "home")
  [.insert s1 page {}, .insert s2 page {}, .advance 10, .insert s1 page {},
    .insert s2 home {}, .purge (-50)]

def indexed : Indexed :=
  Indexed.follow { limits := Store.tiny.limits } (Clocked.moments ⟨.tiny, {}⟩ ops)

end Turnover

theorem form_of_run_turnover :
    (Clocked.follow ⟨.tiny, {}⟩ Turnover.ops).store.size ≤ 2 ∧
    (Clocked.follow ⟨.tiny, {}⟩ Turnover.ops).store.stats.evicted = 1 ∧
    (Turnover.indexed.node? (Store.key (ascii "s1") (.ofBytes (ascii "page")))).map (·.entry) =
      some ⟨Store.key (ascii "s1") (.ofBytes (ascii "page")), {}, 10⟩ := by
  have hopen : (Opening.limits 1 2).store = .ok .tiny := rfl
  obtain ⟨-, -, -, hindex, hfits, -⟩ :=
    form_of_run hopen {} (Clocked.run ⟨.tiny, {}⟩ Turnover.ops)
  exact ⟨hfits, by decide +kernel, (hindex _ _).2 (by decide +kernel)⟩

/-- At a time so long before the entries were stored that 64 bits cannot tell how old the newer one
is, the newer one has expired and the older one has not. -/
theorem old_behind_young :
    let c : Clocked := Clocked.follow ⟨.tiny, {}⟩
      [.insert (ascii "s1") .empty {}, .advance 1000, .insert (ascii "s2") .empty {}]
    let time : Int := -9223372036854775308
    c.store.entries.map (·.storedAt) = [0, 1000] ∧
    c.store.entries.map (fun e => decide (e.Expired c.store.limits.lifetime time)) =
      [false, true] ∧
    ¬ c.store.entries.filter (·.Expired c.store.limits.lifetime time) <+: c.store.entries := by
  decide +kernel

end Script

end PageReply
