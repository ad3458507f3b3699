import Mathlib.Data.Finset.Card
import Mathlib.Data.Finset.Option
import PageReply.Proofs.Store.Run

/-!
# How long a response is kept

A response that was put in waits behind older entries, and whatever is put in later stands behind
it. `Store.Waiting` follows it through the phases of the operations that come after it. Purging and
making room take from the front, so the response goes only when it has expired or when the entries
behind it fill the store. Those are for different slots, so that takes insertions in as many
different slots as the store has room for, however often the same slots are filled, emptied and
filled again.
-/

namespace PageReply

namespace Store

/-- An entry stands behind entries of other slots, and behind it there is at most one entry for each
of some slots. -/
def Waiting (s : Store) (e : Entry) (slots : Finset Slot) : Prop :=
  ∃ older newer : List Entry, s.entries = older ++ e :: newer ∧ (∀ o ∈ older, o.key ≠ e.key) ∧
    (newer.map (·.key)).Nodup ∧ ∀ n ∈ newer, ∃ p ∈ slots, n.key = key p.1 p.2

/-- Entries that are at most one for each of some slots are not more than the slots. -/
theorem length_le_card {es : List Entry} {slots : Finset Slot} (hnodup : (es.map (·.key)).Nodup)
    (hslots : ∀ e ∈ es, ∃ p ∈ slots, e.key = key p.1 p.2) : es.length ≤ slots.card := by
  have hsubset : (es.map (·.key)).toFinset ⊆ slots.image fun p => key p.1 p.2 := by
    intro k hk
    obtain ⟨e, he, rfl⟩ := List.mem_map.1 (List.mem_toFinset.1 hk)
    obtain ⟨p, hp, hkey⟩ := hslots e he
    exact Finset.mem_image.2 ⟨p, hp, hkey.symm⟩
  calc es.length = (es.map (·.key)).toFinset.card := by
        rw [List.toFinset_card_of_nodup hnodup, List.length_map]
    _ ≤ (slots.image fun p => key p.1 p.2).card := Finset.card_le_card hsubset
    _ ≤ slots.card := Finset.card_image_le

/-- What is shorter than the capacity at the end of a list stays when room is made. -/
theorem exists_evict_append {capacity : Nat} {back : List Entry} (h : back.length < capacity)
    (front : List Entry) :
    ∃ front', front' <:+ front ∧ evict capacity (front ++ back) = front' ++ back := by
  induction front with
  | nil =>
    refine ⟨[], List.suffix_rfl, ?_⟩
    cases back with
    | nil => rfl
    | cons b back => rw [List.nil_append, evict, if_neg (Nat.not_le.2 h)]
  | cons f front ih =>
    rw [List.cons_append, evict]
    split
    · obtain ⟨front', hsuffix, heq⟩ := ih
      exact ⟨front', hsuffix.trans (List.suffix_cons f front), heq⟩
    · exact ⟨f :: front, List.suffix_rfl, rfl⟩

namespace Waiting

variable {s : Store} {e : Entry} {slots : Finset Slot}

theorem mono (h : s.Waiting e slots) {slots' : Finset Slot} (hslots : slots ⊆ slots') :
    s.Waiting e slots' := by
  obtain ⟨older, newer, hentries, holder, hnodup, hnewer⟩ := h
  refine ⟨older, newer, hentries, holder, hnodup, fun n hn => ?_⟩
  obtain ⟨p, hp, hkey⟩ := hnewer n hn
  exact ⟨p, hslots hp, hkey⟩

theorem purge (h : s.Waiting e slots) {time : Int} (hyoung : ¬ e.Expired s.limits.lifetime time) :
    (s.purge time).Waiting e slots := by
  obtain ⟨older, newer, hentries, holder, hnodup, hnewer⟩ := h
  refine ⟨older.dropWhile (·.Expired s.limits.lifetime time), newer, ?_, ?_, hnodup, hnewer⟩
  · have hstop : (e :: newer).dropWhile (·.Expired s.limits.lifetime time) = e :: newer :=
      List.dropWhile_cons_of_neg (by simpa using hyoung)
    simp only [Store.purge, hentries, List.dropWhile_append, hstop]
    split
    · next hnone => rw [List.isEmpty_iff.1 hnone, List.nil_append]
    · rfl
  · exact fun o ho => holder o ((List.dropWhile_sublist _).subset ho)

theorem erase (h : s.Waiting e slots) {p : Slot} (hkey : e.key ≠ key p.1 p.2) :
    (s.erase (key p.1 p.2)).Waiting e (slots.erase p) := by
  obtain ⟨older, newer, hentries, holder, hnodup, hnewer⟩ := h
  refine ⟨older.filter (·.key ≠ key p.1 p.2), newer.filter (·.key ≠ key p.1 p.2), ?_, ?_, ?_, ?_⟩
  · simp only [Store.erase, hentries, List.filter_append, List.filter_cons, hkey, decide_true,
      not_false_eq_true, ne_eq, if_true]
  · exact fun o ho => holder o (List.mem_of_mem_filter ho)
  · exact hnodup.sublist (List.filter_sublist.map _)
  · intro n hn
    obtain ⟨hmem, hne⟩ := List.mem_filter.1 hn
    obtain ⟨q, hq, hnkey⟩ := hnewer n hmem
    refine ⟨q, Finset.mem_erase.2 ⟨?_, hq⟩, hnkey⟩
    rintro rfl
    simp [hnkey] at hne

theorem makeRoom (h : s.Waiting e slots) (hroom : slots.card + 1 < s.limits.capacity) :
    s.makeRoom.Waiting e slots := by
  obtain ⟨older, newer, hentries, holder, hnodup, hnewer⟩ := h
  have hlength : (e :: newer).length < s.limits.capacity := by
    have := length_le_card hnodup hnewer
    rw [List.length_cons]
    omega
  obtain ⟨older', hsuffix, hevict⟩ := exists_evict_append hlength older
  refine ⟨older', newer, ?_, fun o ho => holder o (hsuffix.subset ho), hnodup, hnewer⟩
  rw [Store.makeRoom, hentries, hevict]

theorem insert (h : s.Waiting e slots) {now : Int} {p : Slot} (response : Response)
    (hkey : e.key ≠ key p.1 p.2) (hyoung : ¬ e.Expired s.limits.lifetime now)
    (hroom : (slots ∪ {p}).card < s.limits.capacity) :
    (s.insert now p.1 p.2 response).Waiting e (slots ∪ {p}) := by
  have hcard : (slots.erase p).card + 1 = (slots ∪ {p}).card := by
    rw [← Finset.card_insert_of_notMem (Finset.notMem_erase p slots)]
    congr 1
    ext q
    by_cases hq : q = p <;> simp [hq]
  obtain ⟨older, newer, hentries, holder, hnodup, hnewer⟩ :=
    ((h.purge hyoung).erase hkey).makeRoom (hcard ▸ hroom)
  have hnew : ∀ n ∈ newer, n.key ≠ key p.1 p.2 := by
    intro n hn hnkey
    obtain ⟨q, hq, hqkey⟩ := hnewer n hn
    obtain ⟨hsession, hurl⟩ := key_inj (hqkey.symm.trans hnkey)
    exact Finset.ne_of_mem_erase hq (Prod.ext hsession hurl)
  refine ⟨older, newer ++ [⟨key p.1 p.2, response, now⟩], ?_, holder, ?_, ?_⟩
  · change (s.prepare now (key p.1 p.2)).entries ++ _ = _
    rw [Store.prepare, hentries, List.append_assoc, List.cons_append]
  · rw [List.map_append, List.nodup_append]
    refine ⟨hnodup, by simp, ?_⟩
    simpa using hnew
  · intro n hn
    rcases List.mem_append.1 hn with hn | hn
    · obtain ⟨q, hq, hqkey⟩ := hnewer n hn
      exact ⟨q, Finset.mem_union_left _ (Finset.mem_of_mem_erase hq), hqkey⟩
    · rw [List.mem_singleton.1 hn]
      exact ⟨p, Finset.mem_union_right _ (Finset.mem_singleton_self p), rfl⟩

/-- What was just put in waits with nothing behind it. -/
theorem of_insert (s : Store) (now : Int) (session : Bytes) (url : Url) (response : Response) :
    (s.insert now session url response).Waiting ⟨key session url, response, now⟩ ∅ :=
  ⟨(s.prepare now (key session url)).entries, [], rfl, fun _ => key_ne_of_mem_prepare, by simp,
    by simp⟩

/-- A waiting entry that is young enough is what a look-up of its slot hands out. -/
theorem lookup (h : s.Waiting e slots) {now : Int} (hyoung : ¬ e.Expired s.limits.lifetime now) :
    s.lookup now e.key = .hit e.response := by
  obtain ⟨older, newer, hentries, holder, -, -⟩ := h
  have hfind : s.entries.find? (·.key = e.key) = some e := by
    rw [hentries, List.find?_append, List.find?_eq_none.2 (by simpa using holder)]
    simp
  simp only [Store.lookup, hfind, if_neg hyoung]

end Waiting

end Store

/-! ## Over a run -/

/-- An operation on another slot leaves an entry waiting that is young enough, if there is room. -/
theorem Clocked.waiting_apply {c : Clocked} {op : Op} {e : Entry} {slots : Finset Slot}
    (h : c.store.Waiting e slots) {session : Bytes} {url : Url}
    (hkey : e.key = Store.key session url) (hother : op.slot? ≠ some (session, url))
    (hyoung : ¬ e.Expired c.store.limits.lifetime c.now)
    (hpurge : ∀ offset ∈ op.offset?, ¬ e.Expired c.store.limits.lifetime (c.now + offset))
    (hroom : (slots ∪ op.filled?.toFinset).card < c.store.limits.capacity) :
    (c.apply op).store.Waiting e (slots ∪ op.filled?.toFinset) := by
  have hne : ∀ s u, op.slot? = some (s, u) → e.key ≠ Store.key s u := by
    intro s u hslot hsame
    obtain ⟨rfl, rfl⟩ := Store.key_inj (hkey.symm.trans hsame)
    exact hother hslot
  cases op with
  | insert s u response => exact h.insert (p := (s, u)) response (hne s u rfl) hyoung hroom
  | take s u =>
    have herase := h.erase (p := (s, u)) (hne s u rfl)
    exact herase.mono ((Finset.erase_subset _ _).trans Finset.subset_union_left)
  | purge offset => exact (h.purge (hpurge offset rfl)).mono Finset.subset_union_left
  | advance ns => exact h.mono Finset.subset_union_left

def filledBy (ms : List Moment) : Finset Slot :=
  (ms.filterMap (·.op.filled?)).toFinset

theorem filledBy_snoc (ms : List Moment) (m : Moment) :
    filledBy (ms ++ [m]) = filledBy ms ∪ m.op.filled?.toFinset := by
  cases h : m.op.filled? <;> simp [filledBy, h, List.toFinset_append]

/-- Whatever happens to other slots while an entry is young, it waits, as long as the slots that are
filled are fewer than the store has room for. -/
theorem Run.waiting {a c : Clocked} {ms : List Moment} (h : Run a ms c) {session : Bytes}
    {url : Url} {e : Entry} (hkey : e.key = Store.key session url) (hstart : a.store.Waiting e ∅)
    (hquiet : ∀ m ∈ ms, m.op.slot? ≠ some (session, url))
    (hyoung : ∀ m ∈ ms, ¬ e.Expired a.store.limits.lifetime m.state.now)
    (hpurge : ∀ m ∈ ms, ∀ offset ∈ m.op.offset?,
      ¬ e.Expired a.store.limits.lifetime (m.state.now + offset))
    (hroom : (filledBy ms).card < a.store.limits.capacity) :
    c.store.Waiting e (filledBy ms) := by
  induction h with
  | nil => exact hstart
  | @snoc ms b run op ih =>
    rw [filledBy_snoc] at hroom ⊢
    have hwaiting : b.store.Waiting e (filledBy ms) :=
      ih (fun m hm => hquiet m (List.mem_append_left _ hm))
        (fun m hm => hyoung m (List.mem_append_left _ hm))
        (fun m hm => hpurge m (List.mem_append_left _ hm))
        (Nat.lt_of_le_of_lt (Finset.card_le_card Finset.subset_union_left) hroom)
    rw [← run.limits_eq] at hyoung hpurge hroom
    have hlast : (⟨op, b⟩ : Moment) ∈ ms ++ [⟨op, b⟩] := by simp
    have hnow : ¬ e.Expired b.store.limits.lifetime b.now := hyoung ⟨op, b⟩ hlast
    exact b.waiting_apply hwaiting hkey (hquiet _ hlast) hnow (hpurge ⟨op, b⟩ hlast) hroom

/-- A purge is for a time at which what was stored at some time is not too old, and 64 bits can tell
how old it is. -/
def Moment.Spares (m : Moment) (span stored : Int) : Prop :=
  ∀ offset ∈ m.op.offset?,
    Time.Fits (m.state.now + offset - stored) ∧ m.state.now + offset - stored < span

instance (m : Moment) (span stored : Int) : Decidable (m.Spares span stored) :=
  inferInstanceAs (Decidable (∀ offset ∈ m.op.offset?, _))

/-- A response that was put in is handed out by the next look-up of its slot, if that comes in time
and the slots filled between them are fewer than the store has room for. -/
theorem Run.hit_of_insert {c d : Clocked} {between : List Moment} {session : Bytes} {url : Url}
    {response : Response} (h : Run (c.apply (.insert session url response)) between d)
    (hfits : c.store.limits.Fits) (hquiet : ∀ m ∈ between, m.op.slot? ≠ some (session, url))
    (hage : d.now - c.now < c.store.limits.span)
    (hpurge : ∀ m ∈ between, m.Spares c.store.limits.span c.now)
    (hroom : (filledBy between).card < c.store.limits.capacity) :
    d.found session url = .hit response := by
  let e : Entry := ⟨Store.key session url, response, c.now⟩
  have hyoung : ∀ m ∈ between, ¬ e.Expired c.store.limits.lifetime m.state.now := by
    intro m hm
    obtain ⟨hafter, hbefore⟩ := h.now_of_mem hm
    refine Entry.not_expired_of_le hfits hafter (Int.lt_of_le_of_lt ?_ hage)
    exact Int.sub_le_sub_right hbefore c.now
  have hspared : ∀ m ∈ between, ∀ offset ∈ m.op.offset?,
      ¬ e.Expired c.store.limits.lifetime (m.state.now + offset) := by
    intro m hm offset hoffset
    obtain ⟨hreach, hspare⟩ := hpurge m hm offset hoffset
    exact Entry.not_expired_of_age hfits hreach hspare
  have hwaiting : d.store.Waiting e (filledBy between) :=
    h.waiting rfl (Store.Waiting.of_insert c.store c.now session url response) hquiet hyoung
      hspared hroom
  have hlast : ¬ e.Expired d.store.limits.lifetime d.now := by
    rw [h.limits_eq]
    exact Entry.not_expired_of_le hfits h.now_le hage
  exact hwaiting.lookup hlast

end PageReply
