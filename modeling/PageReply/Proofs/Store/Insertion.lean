import PageReply.Proofs.Store.Expiry

/-!
# What putting a response in does

What has expired goes first, then the entry that the new one replaces, and only then, if the store
is still full, the oldest entry of all. As a store is never more than full, one entry is enough: the
loop that makes room runs once or not at all. It would run for ever, or fail, on a store that has
room for nothing; `Store.Rounds` follows it, and has no round for a list without entries.

What has expired is what 64 bits take for it. With a timeout that they cannot tell, everything may
have expired, even the new entry; then there is nothing that could have to go.
-/

namespace PageReply

namespace Store

/-- The loop that makes room, from the entries that it meets to those that it leaves, with the
number of its rounds. It ends when another entry fits. A round needs an entry to drop. -/
inductive Rounds (capacity : Nat) : Nat → List Entry → List Entry → Prop
  | done {es : List Entry} (fits : es.length < capacity) : Rounds capacity 0 es es
  | round {n : Nat} {e : Entry} {es left : List Entry} (full : capacity ≤ (e :: es).length)
    (rest : Rounds capacity n es left) : Rounds capacity (n + 1) (e :: es) left

namespace Rounds

variable {capacity n : Nat} {es left : List Entry}

/-- Without any capacity there is no end to the loop. -/
theorem capacity_pos (h : Rounds capacity n es left) : 0 < capacity := by
  induction h with
  | done fits => exact Nat.zero_lt_of_lt fits
  | round _ _ ih => exact ih

theorem eq_drop (h : Rounds capacity n es left) : left = es.drop n := by
  induction h with
  | done => rfl
  | round _ _ ih => exact ih

/-- With some capacity the loop ends, whatever entries it meets. -/
theorem of_evict (hpos : 0 < capacity) (es : List Entry) :
    Rounds capacity (es.length + 1 - capacity) es (evict capacity es) := by
  induction es with
  | nil =>
    have hnone : ([] : List Entry).length + 1 - capacity = 0 := by
      rw [List.length_nil]
      omega
    rw [hnone]
    exact .done hpos
  | cons e es ih =>
    rw [evict]
    split
    · next hfull =>
      have hone : (e :: es).length + 1 - capacity = es.length + 1 - capacity + 1 := by
        rw [List.length_cons] at hfull ⊢
        omega
      rw [hone]
      exact .round hfull ih
    · next hfits =>
      have hnone : (e :: es).length + 1 - capacity = 0 := by omega
      rw [hnone]
      exact .done (Nat.lt_of_not_le hfits)

end Rounds

theorem excess_eq (s : Store) : s.excess = s.size + 1 - s.limits.capacity := by
  have hdrop := (Rounds.of_evict s.limits.capacity_pos s.entries).eq_drop
  have hpos := s.limits.capacity_pos
  rw [excess, hdrop, List.length_drop, size]
  omega

/-- The entries beside which a new one under a key has to fit: those of other keys that are young
enough. -/
def rivals (s : Store) (now : Int) (k : Bytes) : List Entry :=
  s.entries.filter fun e => ¬ e.Expired s.limits.lifetime now ∧ e.key ≠ k

/-- The number of rivals that have to go. -/
def surplus (s : Store) (now : Int) (k : Bytes) : Nat :=
  (s.rivals now k).length + 1 - s.limits.capacity

section Rivals

variable {s : Store} {now : Int} {k : Bytes} {e : Entry}

theorem young_of_mem_rivals (he : e ∈ s.rivals now k) : ¬ e.Expired s.limits.lifetime now :=
  (of_decide_eq_true (List.mem_filter.1 he).2).1

theorem key_ne_of_mem_rivals (he : e ∈ s.rivals now k) : e.key ≠ k :=
  (of_decide_eq_true (List.mem_filter.1 he).2).2

variable (now) in
/-- The entry that a new one replaces is none of its rivals. -/
theorem length_rivals_lt (he : e ∈ s.entries) (hkey : e.key = k) :
    (s.rivals now k).length < s.size := by
  refine List.length_filter_lt_length_iff_exists.2 ⟨e, he, ?_⟩
  simp [hkey]

section Fits

variable (hfits : s.size ≤ s.limits.capacity)

include hfits

variable (now k) in
theorem length_rivals_le : (s.rivals now k).length ≤ s.limits.capacity :=
  Nat.le_trans (List.length_filter_le _ _) hfits

variable (now k) in
/-- One rival at most has to go, and one has to if the rivals fill the store. -/
theorem surplus_eq :
    s.surplus now k = if (s.rivals now k).length = s.limits.capacity then 1 else 0 := by
  have hle := length_rivals_le now k hfits
  unfold surplus
  split <;> omega

theorem surplus_eq_zero (hk : k ∈ s.entries.map (·.key)) : s.surplus now k = 0 := by
  obtain ⟨e, he, hkey⟩ := List.mem_map.1 hk
  have hlt := length_rivals_lt now he hkey
  unfold surplus
  omega

end Fits

section Ordered

variable (hordered : s.entries.Pairwise (·.storedAt ≤ ·.storedAt))
  (hages : ∀ e ∈ s.entries, e.AgeFits now)

include hordered hages

theorem entries_erase_purge (k : Bytes) : ((s.purge now).erase k).entries = s.rivals now k := by
  rw [erase, entries_purge hordered hages, List.filter_filter, rivals]
  refine List.filter_congr fun e _ => ?_
  simp [and_comm]

theorem excess_erase_purge (k : Bytes) : ((s.purge now).erase k).excess = s.surplus now k := by
  rw [excess_eq, size, entries_erase_purge hordered hages]
  rfl

/-- The loop meets the rivals and leaves them without their surplus. -/
theorem rounds_prepare (k : Bytes) :
    Rounds s.limits.capacity (s.surplus now k) ((s.purge now).erase k).entries
      (s.prepare now k).entries := by
  have hrounds := Rounds.of_evict s.limits.capacity_pos ((s.purge now).erase k).entries
  have hcount : ((s.purge now).erase k).entries.length + 1 - s.limits.capacity =
      s.surplus now k := by
    rw [entries_erase_purge hordered hages]
    rfl
  rw [hcount] at hrounds
  exact hrounds

theorem entries_prepare (k : Bytes) :
    (s.prepare now k).entries = (s.rivals now k).drop (s.surplus now k) := by
  rw [(rounds_prepare hordered hages k).eq_drop, entries_erase_purge hordered hages]

/-- An insertion takes the rivals without their surplus and puts the new entry behind them. -/
theorem insert_eq (session : Bytes) (url : Url) (response : Response) :
    s.insert now session url response =
      { s with
        entries := (s.rivals now (key session url)).drop (s.surplus now (key session url)) ++
          [{ key := key session url, response, storedAt := now }]
        stats := { s.stats with
          stored := s.stats.stored + 1
          expired := s.stats.expired + (s.entries.filter (·.Expired s.limits.lifetime now)).length
          evicted := s.stats.evicted + s.surplus now (key session url) } } := by
  have hentries := entries_prepare hordered hages (key session url)
  have hsurplus := excess_erase_purge hordered hages (key session url)
  rw [insert, hentries, ← hsurplus, ← purgeable_eq hordered hages]
  rfl

/-- If an insertion leaves anything that is too old, then only the new entry, because in this store
everything is. -/
theorem lifetime_le_of_mem_insert {session : Bytes} {url : Url} {response : Response}
    (he : e ∈ (s.insert now session url response).entries)
    (hold : e.Expired s.limits.lifetime now) : s.limits.lifetime ≤ 0 := by
  rw [insert_eq hordered hages] at he
  rcases List.mem_append.1 he with hrival | hnew
  · exact absurd hold (young_of_mem_rivals (List.mem_of_mem_drop hrival))
  · exact (Entry.expired_of_new (by rw [List.mem_singleton.1 hnew])).1 hold

theorem filter_key_insert (session : Bytes) (url : Url) (response : Response) :
    (s.insert now session url response).entries.filter (·.key = key session url) =
      [{ key := key session url, response, storedAt := now }] := by
  have hnone : ((s.rivals now (key session url)).drop (s.surplus now (key session url))).filter
      (·.key = key session url) = [] :=
    List.filter_eq_nil_iff.2 fun e he => by
      simpa using key_ne_of_mem_rivals (List.mem_of_mem_drop he)
  rw [insert_eq hordered hages, List.filter_append, hnone, List.nil_append]
  exact List.filter_cons_of_pos (decide_eq_true rfl)

end Ordered

end Rivals

end Store

/-- A store in which everything is too old has no rivals for a new entry. -/
theorem Clocked.WF.lifetime_pos_of_mem_rivals {c : Clocked} (h : c.WF) {k : Bytes} {e : Entry}
    (he : e ∈ c.store.rivals c.now k) : 0 < c.store.limits.lifetime := by
  have hmem := List.mem_of_mem_filter he
  have hyoung := (Entry.not_expired_iff (h.ageFits_now e hmem)).1 (Store.young_of_mem_rivals he)
  have hpast := h.past e hmem
  omega

/-- **What putting a response in does.** The new entry comes last, behind its rivals in their order.
If the rivals fill the store, the first of them has to go, and no other entry: the loop that makes
room runs once then, and never otherwise. What was too old is counted as expired. When something has
to go, nothing that is too old is kept; and nothing has to go for an entry that replaces another
one, which is the newest then. With a timeout that 64 bits can tell, what is too old was stored a
timeout ago or earlier, and nothing of that is ever kept. -/
theorem insert_effect {c : Clocked} (hreach : c.Reachable) (session : Bytes) (url : Url)
    (response : Response) :
    ∃ rounds ≤ 1,
      (rounds = 1 ↔
        (c.store.rivals c.now (Store.key session url)).length = c.store.limits.capacity) ∧
      Store.Rounds c.store.limits.capacity rounds
        ((c.store.purge c.now).erase (Store.key session url)).entries
        (c.store.prepare c.now (Store.key session url)).entries ∧
      c.store.insert c.now session url response =
        { c.store with
          entries := (c.store.rivals c.now (Store.key session url)).drop rounds ++
            [{ key := Store.key session url, response, storedAt := c.now }]
          stats := { c.store.stats with
            stored := c.store.stats.stored + 1
            expired := c.store.stats.expired +
              (c.store.entries.filter (·.Expired c.store.limits.lifetime c.now)).length
            evicted := c.store.stats.evicted + rounds } } ∧
      (rounds = 1 → ∀ e ∈ (c.store.insert c.now session url response).entries,
        ¬ e.Expired c.store.limits.lifetime c.now) ∧
      (Store.key session url ∈ c.store.entries.map (·.key) → rounds = 0) ∧
      (c.store.insert c.now session url response).entries.filter
          (·.key = Store.key session url) =
        [{ key := Store.key session url, response, storedAt := c.now }] ∧
      (c.store.limits.Fits →
        (∀ e ∈ c.store.entries, e.Expired c.store.limits.lifetime c.now ↔
          c.store.limits.span ≤ c.now - e.storedAt) ∧
        ∀ e ∈ (c.store.insert c.now session url response).entries,
          ¬ e.Expired c.store.limits.lifetime c.now) := by
  have hwf := hreach.wf
  have hages := hwf.ageFits_now
  have hsurplus := Store.surplus_eq c.now (Store.key session url) hwf.fits
  refine ⟨c.store.surplus c.now (Store.key session url), ?_, ?_,
    Store.rounds_prepare hwf.ordered hages _, Store.insert_eq hwf.ordered hages _ _ _, ?_,
    Store.surplus_eq_zero hwf.fits, Store.filter_key_insert hwf.ordered hages _ _ _, ?_⟩
  · rw [hsurplus]
    split <;> decide
  · rw [hsurplus]
    split <;> simp [*]
  · intro hround e he hold
    have hnone := Store.lifetime_le_of_mem_insert hwf.ordered hages he hold
    -- an entry that has to go was young enough, so not everything is too old
    have hrivals : c.store.rivals c.now (Store.key session url) ≠ [] := by
      intro hempty
      rw [hsurplus, hempty, List.length_nil, if_neg] at hround
      · exact absurd hround (by decide)
      · exact Nat.ne_of_lt c.store.limits.capacity_pos
    obtain ⟨f, hf⟩ := List.exists_mem_of_ne_nil _ hrivals
    have := hwf.lifetime_pos_of_mem_rivals hf
    omega
  · intro hfits
    have hspan := c.store.limits.span_pos
    refine ⟨fun e he => ?_, fun e he hold => ?_⟩
    · rw [Entry.expired_iff (hages e he), Limits.lifetime_eq hfits]
    · have hnone := Store.lifetime_le_of_mem_insert hwf.ordered hages he hold
      rw [Limits.lifetime_eq hfits] at hnone
      omega

namespace Squeeze

def page : Url := .ofBytes (ascii "page")

/-- The page that was put in first is too old when the store is full of two others. -/
def ops : List Op :=
  [.insert (ascii "s1") page {}, .advance 999999, .insert (ascii "s2") page {}, .advance 1,
    .insert (ascii "s3") page {}]

def full : Clocked := Clocked.follow ⟨.tiny, {}⟩ ops

theorem reachable : full.Reachable :=
  Clocked.reachable_follow Store.tiny.limits {} ops

end Squeeze

theorem insert_effect_squeeze :
    (Squeeze.full.store.insert Squeeze.full.now (ascii "s4") Squeeze.page {}).entries.map (·.key) =
      [Store.key (ascii "s3") Squeeze.page, Store.key (ascii "s4") Squeeze.page] ∧
    (Squeeze.full.store.insert Squeeze.full.now (ascii "s4") Squeeze.page {}).stats =
      { stored := 4, expired := 1, evicted := 1 } := by
  obtain ⟨rounds, -, hfull, -, hinsert, -⟩ :=
    insert_effect Squeeze.reachable (ascii "s4") Squeeze.page {}
  obtain rfl := hfull.2 (by decide +kernel)
  rw [hinsert]
  exact ⟨by decide +kernel, by decide +kernel⟩

end PageReply
