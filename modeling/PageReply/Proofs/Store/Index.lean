import PageReply.Proofs.Store.Expiry

/-!
# A store with an index

A store that searches its entries for a key takes the longer the more there are. An `Indexed` store
follows an index instead, which leads from a key to the place of its node, as an address would. List
and index are two structures that every operation has to change together: `Indexed.WF` says that
they agree, every operation keeps it, and read as a list of entries an `Indexed` store does what a
`Store` does.

Entries leave in a single way, by `unlink`, and come in a single way, by `link`. Both loops that
drop entries from the front are `shed`.
-/

namespace PageReply

/-- An entry in its place. No two nodes are ever given the same place. -/
structure Node where
  place : Nat
  entry : Entry

structure Indexed where
  limits : Limits
  /-- The node of the oldest entry comes first. -/
  nodes : List Node := []
  index : Std.HashMap Bytes Nat := ∅
  /-- The place of the next node. -/
  next : Nat := 0
  stats : Stats := {}

namespace Indexed

def size (s : Indexed) : Nat :=
  s.nodes.length

/-- The node that the index leads to. -/
def node? (s : Indexed) (key : Bytes) : Option Node :=
  s.index[key]?.bind fun place => s.nodes.find? (·.place = place)

def unlink (s : Indexed) (n : Node) : Indexed :=
  { s with
    nodes := s.nodes.filter (·.place ≠ n.place)
    index := s.index.erase n.entry.key }

/-- Adds an entry at the end. A key that the index knows already keeps its place there. -/
def link (s : Indexed) (e : Entry) : Indexed :=
  { s with
    nodes := s.nodes ++ [⟨s.next, e⟩]
    index := s.index.insertIfNew e.key s.next
    next := s.next + 1 }

def remove (s : Indexed) (key : Bytes) : Indexed :=
  match s.node? key with
  | none => s
  | some n => s.unlink n

def lookup (s : Indexed) (now : Int) (key : Bytes) : Lookup :=
  match s.node? key with
  | none => .missing
  | some n =>
    if n.entry.Expired s.limits.lifetime now then .stale else .hit n.entry.response

def take (s : Indexed) (now : Int) (session : Bytes) (url : Url) : Lookup × Indexed :=
  let found := s.lookup now (Store.key session url)
  (found, { s.remove (Store.key session url) with stats := s.stats.afterLookup found })

/-- Unlinks the first node over and over, as long as its entry and the number of nodes meet a
condition. The nodes are given once more, for the loop to follow. -/
def shed (p : Entry → Nat → Bool) : List Node → Indexed → Indexed
  | [], s => s
  | n :: ns, s => if p n.entry s.size then shed p ns (s.unlink n) else s

def purge (s : Indexed) (now : Int) : Indexed :=
  let kept := shed (fun e _ => e.Expired s.limits.lifetime now) s.nodes s
  { kept with stats.expired := s.stats.expired + (s.size - kept.size) }

def makeRoom (s : Indexed) : Indexed :=
  let kept := shed (fun _ size => s.limits.capacity ≤ size) s.nodes s
  { kept with stats.evicted := s.stats.evicted + (s.size - kept.size) }

def prepare (s : Indexed) (now : Int) (key : Bytes) : Indexed :=
  ((s.purge now).remove key).makeRoom

def insert (s : Indexed) (now : Int) (session : Bytes) (url : Url) (response : Response) :
    Indexed :=
  let ready := s.prepare now (Store.key session url)
  { ready.link { key := Store.key session url, response, storedAt := now } with
    stats.stored := ready.stats.stored + 1 }

def apply (s : Indexed) (now : Int) : Op → Indexed
  | .insert session url response => s.insert now session url response
  | .take session url => (s.take now session url).2
  | .purge offset => s.purge (now + offset)
  | .advance _ => s

/-- Does what is done at some moments, at the times of these. -/
def follow (s : Indexed) (ms : List Moment) : Indexed :=
  ms.foldl (fun s m => s.apply m.state.now m.op) s

/-- The store of the same entries without places and index. -/
def toStore (s : Indexed) : Store where
  limits := s.limits
  entries := s.nodes.map (·.entry)
  stats := s.stats

/-- List and index agree: they lead to the same nodes. -/
structure WF (s : Indexed) : Prop where
  places : (s.nodes.map (·.place)).Nodup
  keys : (s.nodes.map (·.entry.key)).Nodup
  fresh : ∀ n ∈ s.nodes, n.place < s.next
  index_iff : ∀ key place,
    s.index[key]? = some place ↔ ∃ n ∈ s.nodes, n.entry.key = key ∧ n.place = place

end Indexed

theorem nodup_map_concat {α β : Type} {f : α → β} {l : List α} {a : α} (h : (l.map f).Nodup)
    (hnew : ∀ x ∈ l, f x ≠ f a) : ((l ++ [a]).map f).Nodup := by
  rw [List.map_append, List.nodup_append]
  refine ⟨h, List.nodup_singleton _, ?_⟩
  intro b hb c hc
  obtain ⟨x, hx, rfl⟩ := List.mem_map.1 hb
  rw [List.mem_singleton.1 hc]
  exact hnew x hx

namespace Indexed

variable {s : Indexed} {n m : Node}

namespace WF

theorem empty (limits : Limits) : WF { limits } where
  places := List.nodup_nil
  keys := List.nodup_nil
  fresh _ hn := absurd hn List.not_mem_nil
  index_iff key place := by simp

theorem node?_eq_some_iff (h : s.WF) {key : Bytes} :
    s.node? key = some n ↔ n ∈ s.nodes ∧ n.entry.key = key := by
  rw [node?, Option.bind_eq_some_iff]
  constructor
  · rintro ⟨place, hindex, hfind⟩
    obtain ⟨hn, hplace⟩ := (find?_eq_some_iff_of_nodup h.places).1 hfind
    obtain ⟨m, hm, hkey, hplace'⟩ := (h.index_iff key place).1 hindex
    rw [List.inj_on_of_nodup_map h.places hn hm (hplace.trans hplace'.symm)]
    exact ⟨hm, hkey⟩
  · rintro ⟨hn, hkey⟩
    exact ⟨n.place, (h.index_iff key n.place).2 ⟨n, hn, hkey, rfl⟩,
      (find?_eq_some_iff_of_nodup h.places).2 ⟨hn, rfl⟩⟩

/-- Following the index finds what a search of the entries finds. -/
theorem node?_eq_find? (h : s.WF) (key : Bytes) :
    (s.node? key).map (·.entry) = s.toStore.entries.find? (·.key = key) := by
  have hnode : s.node? key = s.nodes.find? (·.entry.key = key) :=
    Option.ext fun n => by
      rw [h.node?_eq_some_iff, find?_eq_some_iff_of_nodup h.keys]
  rw [hnode, toStore, List.find?_map]
  rfl

theorem place_eq_iff (h : s.WF) (hm : m ∈ s.nodes) (hn : n ∈ s.nodes) :
    m.place = n.place ↔ m.entry.key = n.entry.key := by
  constructor
  · intro hplace
    rw [List.inj_on_of_nodup_map h.places hm hn hplace]
  · intro hkey
    rw [List.inj_on_of_nodup_map h.keys hm hn hkey]

/-! ## One node goes or comes -/

theorem unlink (h : s.WF) (hn : n ∈ s.nodes) : (s.unlink n).WF where
  places := h.places.sublist (List.filter_sublist.map _)
  keys := h.keys.sublist (List.filter_sublist.map _)
  fresh m hm := h.fresh m (List.mem_of_mem_filter hm)
  index_iff key place := by
    simp only [Indexed.unlink, Std.HashMap.getElem?_erase, List.mem_filter, decide_eq_true_eq]
    by_cases hkey : n.entry.key = key
    -- the node was the only one of its key
    · rw [if_pos (by simpa using hkey)]
      constructor
      · intro hnone
        cases hnone
      · rintro ⟨m, ⟨hm, hplace⟩, hkey', -⟩
        exact absurd ((h.place_eq_iff hm hn).2 (hkey'.trans hkey.symm)) hplace
    · rw [if_neg (by simpa using hkey), h.index_iff]
      constructor
      · rintro ⟨m, hm, hkey', hplace⟩
        have hother : m.place ≠ n.place := fun hsame =>
          hkey (((h.place_eq_iff hm hn).1 hsame).symm.trans hkey')
        exact ⟨m, ⟨hm, hother⟩, hkey', hplace⟩
      · rintro ⟨m, ⟨hm, -⟩, hkey', hplace⟩
        exact ⟨m, hm, hkey', hplace⟩

theorem toStore_unlink (h : s.WF) (hn : n ∈ s.nodes) :
    (s.unlink n).toStore = s.toStore.erase n.entry.key := by
  have hentries : (s.nodes.filter (·.place ≠ n.place)).map (·.entry) =
      (s.nodes.map (·.entry)).filter (·.key ≠ n.entry.key) := by
    rw [List.filter_map]
    refine congrArg (List.map Node.entry) (List.filter_congr fun m hm => ?_)
    exact decide_eq_decide.2 (not_congr (h.place_eq_iff hm hn))
  exact congrArg (fun entries => { s.toStore with entries }) hentries

theorem link (h : s.WF) {e : Entry} (hnew : ∀ n ∈ s.nodes, n.entry.key ≠ e.key) :
    (s.link e).WF where
  places := nodup_map_concat h.places fun n hn => Nat.ne_of_lt (h.fresh n hn)
  keys := nodup_map_concat h.keys hnew
  fresh n hn := by
    rcases List.mem_append.1 hn with hold | hlast
    · exact Nat.lt_succ_of_lt (h.fresh n hold)
    · rw [List.mem_singleton.1 hlast]
      exact Nat.lt_succ_self s.next
  index_iff key place := by
    -- otherwise the index would lead to the old place of the key
    have hunknown : e.key ∉ s.index := by
      intro hknown
      have hindex := Std.HashMap.getElem?_eq_some_getElem hknown
      obtain ⟨n, hn, hkey, -⟩ := (h.index_iff e.key _).1 hindex
      exact hnew n hn hkey
    simp only [Indexed.link, Std.HashMap.getElem?_insertIfNew, hunknown, not_false_eq_true,
      and_true, List.mem_append, List.mem_singleton, beq_iff_eq]
    by_cases hkey : e.key = key
    · rw [if_pos hkey, Option.some_inj]
      constructor
      · rintro rfl
        exact ⟨⟨s.next, e⟩, .inr rfl, hkey, rfl⟩
      · rintro ⟨n, hn | rfl, hkey', hplace⟩
        · exact absurd (hkey'.trans hkey.symm) (hnew n hn)
        · exact hplace
    · rw [if_neg hkey, h.index_iff]
      constructor
      · rintro ⟨n, hn, hsame⟩
        exact ⟨n, .inl hn, hsame⟩
      · rintro ⟨n, hn | rfl, hsame⟩
        · exact ⟨n, hn, hsame⟩
        · exact absurd hsame.1 hkey

theorem counted (h : s.WF) (stats : Stats) : WF { s with stats } :=
  ⟨h.places, h.keys, h.fresh, h.index_iff⟩

end WF

theorem toStore_link (s : Indexed) (e : Entry) :
    (s.link e).toStore = { s.toStore with entries := s.toStore.entries ++ [e] } := by
  simp only [Indexed.link, toStore, List.map_append, List.map_singleton]

/-! ## Look-ups -/

theorem remove_spec (h : s.WF) (key : Bytes) :
    (s.remove key).WF ∧ (s.remove key).toStore = s.toStore.erase key := by
  rw [remove]
  cases hnode : s.node? key with
  | none =>
    refine ⟨h, ?_⟩
    have hfind := h.node?_eq_find? key
    rw [hnode] at hfind
    have hall : s.toStore.entries.filter (·.key ≠ key) = s.toStore.entries :=
      List.filter_eq_self.2 fun e he => by
        simpa using List.find?_eq_none.1 hfind.symm e he
    exact congrArg (fun entries => { s.toStore with entries }) hall.symm
  | some n =>
    obtain ⟨hn, rfl⟩ := h.node?_eq_some_iff.1 hnode
    exact ⟨h.unlink hn, h.toStore_unlink hn⟩

theorem lookup_eq (h : s.WF) (now : Int) (key : Bytes) :
    s.lookup now key = s.toStore.lookup now key := by
  rw [lookup, Store.lookup, ← h.node?_eq_find? key]
  cases s.node? key <;> rfl

theorem take_spec (h : s.WF) (now : Int) (session : Bytes) (url : Url) :
    (s.take now session url).1 = (s.toStore.take now session url).1 ∧
      (s.take now session url).2.WF ∧
      (s.take now session url).2.toStore = (s.toStore.take now session url).2 := by
  obtain ⟨hwf, hstore⟩ := remove_spec h (Store.key session url)
  have hfound := lookup_eq h now (Store.key session url)
  refine ⟨hfound, hwf.counted _, ?_⟩
  calc (s.take now session url).2.toStore
      = { (s.remove (Store.key session url)).toStore with
          stats := s.stats.afterLookup (s.lookup now (Store.key session url)) } := rfl
    _ = (s.toStore.take now session url).2 := by
      rw [hstore, hfound]
      rfl

/-! ## Dropping from the front -/

/-- What a loop that sheds entries leaves of them. -/
def shedEntries (p : Entry → Nat → Bool) : List Entry → List Entry
  | [] => []
  | e :: es => if p e (e :: es).length then shedEntries p es else e :: es

theorem shedEntries_expired (lifetime now : Int) (es : List Entry) :
    shedEntries (fun e _ => e.Expired lifetime now) es =
      es.dropWhile (·.Expired lifetime now) := by
  induction es with
  | nil => rfl
  | cons e es ih => rw [shedEntries, List.dropWhile_cons, ih]

theorem shedEntries_full (capacity : Nat) (es : List Entry) :
    shedEntries (fun _ size => capacity ≤ size) es = Store.evict capacity es := by
  induction es with
  | nil => rfl
  | cons e es ih => simp only [shedEntries, Store.evict, ih, decide_eq_true_eq]

/-- The first of the nodes stands nowhere else. -/
theorem nodes_unlink_first {ns : List Node} (h : s.WF) (hnodes : s.nodes = n :: ns) :
    (s.unlink n).nodes = ns := by
  have hplaces := h.places
  rw [hnodes, List.map_cons, List.nodup_cons] at hplaces
  change s.nodes.filter (·.place ≠ n.place) = ns
  rw [hnodes, List.filter_cons_of_neg (by simp), List.filter_eq_self]
  intro m hm
  have hother : m.place ≠ n.place := fun hsame =>
    hplaces.1 (List.mem_map.2 ⟨m, hm, hsame⟩)
  simpa using hother

theorem size_toStore (s : Indexed) : s.toStore.size = s.size :=
  List.length_map _

theorem shed_spec (p : Entry → Nat → Bool) {ns : List Node} (h : s.WF) (hnodes : s.nodes = ns) :
    (shed p ns s).WF ∧ (shed p ns s).toStore =
      { s.toStore with entries := shedEntries p s.toStore.entries } := by
  -- `ns` are the nodes that are left at each turn of the loop
  induction ns generalizing s with
  | nil =>
    refine ⟨h, ?_⟩
    simp only [shed, toStore, hnodes, List.map_nil, shedEntries]
  | cons n ns ih =>
    have hentries : s.toStore.entries = n.entry :: ns.map (·.entry) := by
      rw [toStore, hnodes, List.map_cons]
    have hsize : s.size = (n.entry :: ns.map (·.entry)).length := by
      rw [size, hnodes, List.length_cons, List.length_cons, List.length_map]
    rw [shed, hentries, shedEntries, hsize]
    split
    · have hrest := nodes_unlink_first h hnodes
      obtain ⟨hwf, hstore⟩ := ih (h.unlink (hnodes ▸ List.mem_cons_self)) hrest
      refine ⟨hwf, hstore.trans ?_⟩
      have hleft : (s.unlink n).toStore.entries = ns.map (·.entry) :=
        congrArg (List.map Node.entry) hrest
      rw [hleft]
      rfl
    · refine ⟨h, ?_⟩
      rw [← hentries]

theorem size_shed (p : Entry → Nat → Bool) (h : s.WF) :
    (shed p s.nodes s).size = (shedEntries p s.toStore.entries).length := by
  rw [← size_toStore, (shed_spec p h rfl).2]
  rfl

theorem purge_spec (h : s.WF) (now : Int) :
    (s.purge now).WF ∧ (s.purge now).toStore = s.toStore.purge now := by
  obtain ⟨hwf, hstore⟩ := shed_spec (fun e _ => e.Expired s.limits.lifetime now) h rfl
  have hsize := size_shed (fun e _ => e.Expired s.limits.lifetime now) h
  rw [shedEntries_expired] at hstore hsize
  have hcount : s.size - (s.toStore.purge now).size = s.toStore.purgeable now := by
    have hall := s.toStore.purgeable_add_size_purge now
    rw [size_toStore] at hall
    omega
  refine ⟨hwf.counted _, ?_⟩
  calc (s.purge now).toStore
      = { (shed (fun e _ => e.Expired s.limits.lifetime now) s.nodes s).toStore with
          stats.expired := s.stats.expired +
            (s.size - (shed (fun e _ => e.Expired s.limits.lifetime now) s.nodes s).size) } := rfl
    _ = s.toStore.purge now := by
      rw [hsize, hstore]
      exact congrArg (fun n => { s.toStore.purge now with stats.expired := s.stats.expired + n })
        hcount

theorem makeRoom_spec (h : s.WF) :
    s.makeRoom.WF ∧ s.makeRoom.toStore = s.toStore.makeRoom := by
  obtain ⟨hwf, hstore⟩ := shed_spec (fun _ size => s.limits.capacity ≤ size) h rfl
  have hsize := size_shed (fun _ size => s.limits.capacity ≤ size) h
  rw [shedEntries_full] at hstore hsize
  refine ⟨hwf.counted _, ?_⟩
  calc s.makeRoom.toStore
      = { (shed (fun _ size => s.limits.capacity ≤ size) s.nodes s).toStore with
          stats.evicted := s.stats.evicted +
            (s.size - (shed (fun _ size => s.limits.capacity ≤ size) s.nodes s).size) } := rfl
    _ = s.toStore.makeRoom := by
      rw [hsize, hstore, ← size_toStore]
      rfl

/-! ## All operations -/

theorem prepare_spec (h : s.WF) (now : Int) (key : Bytes) :
    (s.prepare now key).WF ∧ (s.prepare now key).toStore = s.toStore.prepare now key := by
  obtain ⟨hpurged, hpurge⟩ := purge_spec h now
  obtain ⟨hremoved, hremove⟩ := remove_spec hpurged key
  obtain ⟨hready, hroom⟩ := makeRoom_spec hremoved
  refine ⟨hready, ?_⟩
  rw [prepare, hroom, hremove, hpurge]
  rfl

theorem insert_spec (h : s.WF) (now : Int) (session : Bytes) (url : Url) (response : Response) :
    (s.insert now session url response).WF ∧
      (s.insert now session url response).toStore =
        s.toStore.insert now session url response := by
  obtain ⟨hready, hprepare⟩ := prepare_spec h now (Store.key session url)
  have hnew : ∀ n ∈ (s.prepare now (Store.key session url)).nodes,
      n.entry.key ≠ Store.key session url := by
    intro n hn
    have he : n.entry ∈ (s.prepare now (Store.key session url)).toStore.entries :=
      List.mem_map_of_mem hn
    rw [hprepare] at he
    exact Store.key_ne_of_mem_prepare he
  have hstats : (s.prepare now (Store.key session url)).stats =
      (s.toStore.prepare now (Store.key session url)).stats :=
    congrArg Store.stats hprepare
  refine ⟨(hready.link hnew).counted _, ?_⟩
  calc (s.insert now session url response).toStore
      = { ((s.prepare now (Store.key session url)).link
            { key := Store.key session url, response, storedAt := now }).toStore with
          stats := { (s.prepare now (Store.key session url)).stats with
            stored := (s.prepare now (Store.key session url)).stats.stored + 1 } } := rfl
    _ = s.toStore.insert now session url response := by
      rw [toStore_link, hprepare, hstats]
      rfl

theorem apply_spec (h : s.WF) (clock : Clock) (op : Op) :
    (s.apply clock.time op).WF ∧
      (s.apply clock.time op).toStore = ((⟨s.toStore, clock⟩ : Clocked).apply op).store := by
  cases op with
  | insert session url response => exact insert_spec h clock.time session url response
  | take session url => exact (take_spec h clock.time session url).2
  | purge offset => exact purge_spec h (clock.time + offset)
  | advance ns => exact ⟨h, rfl⟩

theorem follow_spec {c : Clocked} {ms : List Moment} {clock : Clock} (h : s.WF)
    (hrun : Run ⟨s.toStore, clock⟩ ms c) : (s.follow ms).WF ∧ (s.follow ms).toStore = c.store := by
  induction hrun with
  | nil => exact ⟨h, rfl⟩
  | snoc hrun op ih =>
    obtain ⟨hwf, hstore⟩ := ih
    rw [follow, List.foldl_append]
    obtain ⟨hwf', hstore'⟩ := apply_spec hwf _ op
    rw [hstore] at hstore'
    exact ⟨hwf', hstore'⟩

end Indexed

end PageReply
