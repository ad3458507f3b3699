import Mathlib.Data.List.Basic
import PageReply.Exchange
import PageReply.Proofs.Store.Invariant

/-!
# What a purge drops

A purge walks over the entries from the front and stops at the first that is young enough. Where 64
bits can tell how old the entries are, what has expired at a time has expired at every later one, so
purging twice is purging once at the later time. When the entries also stand in the order in which
they were stored, nothing old stands behind something young: a purge then drops all that has expired
and nothing else.

Where the age of an entry wraps around, or the timeout does, a purge drops what is young and stops
at what is old (`purge_drops_young`).
-/

namespace PageReply

namespace Entry

variable {e f : Entry} {lifetime a b : Int}

theorem Expired.mono (h : e.Expired lifetime a) (hab : a ≤ b) (ha : e.AgeFits a)
    (hb : e.AgeFits b) : e.Expired lifetime b := by
  rw [expired_iff ha] at h
  rw [expired_iff hb]
  omega

theorem Expired.of_older (h : f.Expired lifetime a) (hef : e.storedAt ≤ f.storedAt)
    (he : e.AgeFits a) (hf : f.AgeFits a) : e.Expired lifetime a := by
  rw [expired_iff hf] at h
  rw [expired_iff he]
  omega

/-- What was stored just now can be handed out, if anything can. -/
theorem expired_of_new {now : Int} (he : e.storedAt = now) :
    e.Expired lifetime now ↔ lifetime ≤ 0 := by
  rw [Expired, he, Int.sub_self, Time.wrap_eq (by decide)]

end Entry

namespace Store

variable (s : Store) {a b now : Int} {e : Entry}

theorem takeWhile_append_purge (now : Int) :
    s.entries.takeWhile (·.Expired s.limits.lifetime now) ++ (s.purge now).entries = s.entries :=
  List.takeWhile_append_dropWhile

theorem purgeable_add_size_purge (now : Int) :
    s.purgeable now + (s.purge now).size = s.size := by
  rw [purgeable, size, size, ← List.length_append, takeWhile_append_purge]

theorem purge_sublist (now : Int) : (s.purge now).entries.Sublist s.entries :=
  List.dropWhile_sublist _

/-! ## Purging twice -/

theorem expired_of_mem_takeWhile {es : List Entry} {lifetime : Int}
    (he : e ∈ es.takeWhile (·.Expired lifetime now)) : e.Expired lifetime now := by
  simpa using List.all_eq_true.1 List.all_takeWhile e he

theorem not_expired_of_head?_purge (he : (s.purge now).entries.head? = some e) :
    ¬ e.Expired s.limits.lifetime now := by
  have hhead := List.head?_dropWhile_not (·.Expired s.limits.lifetime now) s.entries
  simp only [purge] at he
  rw [he] at hhead
  simpa using hhead

/-- A purge finds nothing to drop after one that drops whatever it would. -/
theorem purge_purge_eq_first
    (h : ∀ e ∈ s.entries, e.Expired s.limits.lifetime b → e.Expired s.limits.lifetime a) :
    (s.purge a).purge b = s.purge a := by
  have hnone : (s.purge a).entries.takeWhile (·.Expired s.limits.lifetime b) = [] := by
    cases hentries : (s.purge a).entries with
    | nil => rfl
    | cons e es =>
      have hyoung : ¬ e.Expired s.limits.lifetime a :=
        s.not_expired_of_head?_purge (by rw [hentries, List.head?_cons])
      have he : e ∈ s.entries := (s.purge_sublist a).subset (hentries ▸ List.mem_cons_self ..)
      exact List.takeWhile_cons_of_neg (by simpa using fun hold => hyoung (h e he hold))
  have hall : ((s.purge a).purge b).entries = (s.purge a).entries := by
    have hsplit := (s.purge a).takeWhile_append_purge b
    change (s.purge a).entries.takeWhile (·.Expired s.limits.lifetime b) ++ _ = _ at hsplit
    rwa [hnone, List.nil_append] at hsplit
  have hcount : (s.purge a).purgeable b = 0 := congrArg List.length hnone
  calc (s.purge a).purge b
      = { s.purge a with
          entries := ((s.purge a).purge b).entries
          stats.expired := (s.purge a).stats.expired + (s.purge a).purgeable b } := rfl
    _ = s.purge a := by rw [hall, hcount, Nat.add_zero]

/-- A purge drops the rest of what it would drop by itself after one that drops some of that. -/
theorem purge_purge_eq_second
    (h : ∀ e ∈ s.entries, e.Expired s.limits.lifetime a → e.Expired s.limits.lifetime b) :
    (s.purge a).purge b = s.purge b := by
  have hsplit := (s.takeWhile_append_purge a).symm
  have hold : ∀ e ∈ s.entries.takeWhile (·.Expired s.limits.lifetime a),
      decide (e.Expired s.limits.lifetime b) = true := fun e he =>
    decide_eq_true (h e ((List.takeWhile_sublist _).subset he) (expired_of_mem_takeWhile he))
  have hentries : (s.purge b).entries =
      (s.purge a).entries.dropWhile (·.Expired s.limits.lifetime b) := by
    change s.entries.dropWhile _ = _
    conv_lhs => rw [hsplit]
    exact List.dropWhile_append_of_pos hold
  have hcount : s.purgeable b = s.purgeable a + (s.purge a).purgeable b := by
    unfold purgeable
    conv_lhs => rw [hsplit, List.takeWhile_append_of_pos hold, List.length_append]
    rfl
  calc (s.purge a).purge b
      = { s with
          entries := (s.purge a).entries.dropWhile (·.Expired s.limits.lifetime b)
          stats.expired := s.stats.expired + s.purgeable a + (s.purge a).purgeable b } := rfl
    _ = s.purge b := by
      rw [← hentries, Nat.add_assoc, ← hcount]
      rfl

section Ages

variable {s : Store} (ha : ∀ e ∈ s.entries, e.AgeFits a) (hb : ∀ e ∈ s.entries, e.AgeFits b)

include ha hb

theorem purge_purge_of_le (hab : a ≤ b) : (s.purge a).purge b = s.purge b :=
  s.purge_purge_eq_second fun e he hold => hold.mono hab (ha e he) (hb e he)

theorem purge_purge_of_ge (hba : b ≤ a) : (s.purge a).purge b = s.purge a :=
  s.purge_purge_eq_first fun e he hold => hold.mono hba (hb e he) (ha e he)

theorem purge_purge : (s.purge a).purge b = s.purge (max a b) := by
  rcases Int.le_total a b with hab | hba
  · rw [Int.max_eq_right hab, purge_purge_of_le ha hb hab]
  · rw [Int.max_eq_left hba, purge_purge_of_ge ha hb hba]

/-- The counter of expired responses tells how many a purge drops. -/
theorem purgeable_purge_purge :
    s.purgeable a + (s.purge a).purgeable b = s.purgeable (max a b) := by
  have hcounter := congrArg (·.stats.expired) (purge_purge ha hb)
  change s.stats.expired + s.purgeable a + (s.purge a).purgeable b =
    s.stats.expired + s.purgeable (max a b) at hcounter
  omega

end Ages

/-! ## Entries in order -/

section Ordered

variable {s : Store} (hordered : s.entries.Pairwise (·.storedAt ≤ ·.storedAt))
  (hages : ∀ e ∈ s.entries, e.AgeFits now)

include hordered hages

theorem not_expired_of_mem_purge (he : e ∈ (s.purge now).entries) :
    ¬ e.Expired s.limits.lifetime now := by
  cases hentries : (s.purge now).entries with
  | nil =>
    rw [hentries] at he
    cases he
  | cons f fs =>
    have hyoung : ¬ f.Expired s.limits.lifetime now :=
      s.not_expired_of_head?_purge (by rw [hentries, List.head?_cons])
    have hsub : (f :: fs).Sublist s.entries := hentries ▸ s.purge_sublist now
    have hfirst := (List.pairwise_cons.1 (hordered.sublist hsub)).1
    rw [hentries] at he
    have hfits : ∀ g ∈ f :: fs, g.AgeFits now := fun g hg => hages g (hsub.subset hg)
    have hf := hfits f (List.mem_cons_self ..)
    rcases List.mem_cons.1 he with rfl | hrest
    · exact hyoung
    · exact fun hold => hyoung (hold.of_older (hfirst e hrest) hf (hfits e he))

theorem takeWhile_eq_filter_expired :
    s.entries.takeWhile (·.Expired s.limits.lifetime now) =
      s.entries.filter (·.Expired s.limits.lifetime now) := by
  have hfront : (s.entries.takeWhile (·.Expired s.limits.lifetime now)).filter
      (·.Expired s.limits.lifetime now) = s.entries.takeWhile (·.Expired s.limits.lifetime now) :=
    List.filter_eq_self.2 fun e he => decide_eq_true (expired_of_mem_takeWhile he)
  have hback : (s.purge now).entries.filter (·.Expired s.limits.lifetime now) = [] :=
    List.filter_eq_nil_iff.2 fun e he => by
      simpa using not_expired_of_mem_purge hordered hages he
  conv_rhs =>
    rw [← s.takeWhile_append_purge now, List.filter_append, hfront, hback, List.append_nil]

theorem purgeable_eq :
    s.purgeable now = (s.entries.filter (·.Expired s.limits.lifetime now)).length := by
  rw [purgeable, takeWhile_eq_filter_expired hordered hages]

/-- A purge keeps what is young enough, wherever it stands. -/
theorem entries_purge :
    (s.purge now).entries = s.entries.filter (¬ ·.Expired s.limits.lifetime now) := by
  have hfront : (s.entries.takeWhile (·.Expired s.limits.lifetime now)).filter
      (¬ ·.Expired s.limits.lifetime now) = [] :=
    List.filter_eq_nil_iff.2 fun e he => by
      simpa using expired_of_mem_takeWhile he
  have hback : (s.purge now).entries.filter (¬ ·.Expired s.limits.lifetime now) =
      (s.purge now).entries :=
    List.filter_eq_self.2 fun e he =>
      decide_eq_true (not_expired_of_mem_purge hordered hages he)
  conv_rhs =>
    rw [← s.takeWhile_append_purge now, List.filter_append, hfront, hback, List.nil_append]

end Ordered

/-! ## One entry for a key -/

theorem lookup_of_mem {s : Store} (hnodup : (s.entries.map (·.key)).Nodup) (he : e ∈ s.entries)
    (now : Int) :
    s.lookup now e.key =
      if e.Expired s.limits.lifetime now then .stale else .hit e.response := by
  rw [lookup, (find?_eq_some_iff_of_nodup hnodup).2 ⟨he, rfl⟩]

theorem filter_key_eq {es : List Entry} (hnodup : (es.map (·.key)).Nodup) (k : Bytes) :
    es.filter (·.key = k) = (es.find? (·.key = k)).toList := by
  induction es with
  | nil => rfl
  | cons e es ih =>
    obtain ⟨hnew, hrest⟩ := List.nodup_cons.1 hnodup
    by_cases hkey : e.key = k
    · have hnone : es.filter (·.key = k) = [] := by
        refine List.filter_eq_nil_iff.2 fun f hf hsame => hnew ?_
        exact List.mem_map.2 ⟨f, hf, (of_decide_eq_true hsame).trans hkey.symm⟩
      rw [List.filter_cons_of_pos (by simpa), List.find?_cons_of_pos (by simpa), hnone]
      rfl
    · rw [List.filter_cons_of_neg (by simpa), List.find?_cons_of_neg (by simpa), ih hrest]

/-- Some entries are left out, the others are found as before. -/
theorem find?_key_filter {es : List Entry} (hnodup : (es.map (·.key)).Nodup) (p : Entry → Bool)
    (k : Bytes) : (es.filter p).find? (·.key = k) = (es.find? (·.key = k)).filter p := by
  rw [← List.head?_filter, List.filter_comm, filter_key_eq hnodup]
  cases es.find? (·.key = k) with
  | none => rfl
  | some e => cases hp : p e <;> simp [hp, Option.filter]

end Store

namespace Clocked

/-- The entries that are young enough to be handed out. -/
def young (c : Clocked) : List Entry :=
  c.store.entries.filter (¬ ·.Expired c.store.limits.lifetime c.now)

/-- A look-up hands out what is young enough and nothing else. -/
theorem response?_found {c : Clocked} (h : c.WF) (session : Bytes) (url : Url) :
    (c.found session url).response? =
      (c.young.find? (·.key = Store.key session url)).map (·.response) := by
  rw [young, Store.find?_key_filter h.nodup, found, Store.take, Store.lookup]
  cases c.store.entries.find? (·.key = Store.key session url) with
  | none => rfl
  | some e =>
    by_cases hold : e.Expired c.store.limits.lifetime c.now <;>
      simp [hold, Lookup.response?, Option.filter]

end Clocked

/-- **What a purge does** for a time at which 64 bits can tell how old the entries are, in a store
whose timeout they can tell: it drops every entry that was stored a timeout ago or earlier and no
other, says how many that were, and counts them as expired. What it keeps stays in order and is
found under its key as before. To purge for one time and then for another is to purge for the later
one. -/
theorem purge_effect {c : Clocked} (hreach : c.Reachable) (hfits : c.store.limits.Fits) {time : Int}
    (hages : ∀ e ∈ c.store.entries, e.AgeFits time) :
    c.store.purge time =
      { c.store with
        entries := c.store.entries.filter fun e => time - e.storedAt < c.store.limits.span
        stats := { c.store.stats with
          expired := c.store.stats.expired +
            (c.store.entries.filter fun e => c.store.limits.span ≤ time - e.storedAt).length } } ∧
    (∀ {σ : Type} (x : Exchange σ), x.store = c.store →
      ∃ y, (Exchange.purge (time - x.now)).run x =
          (.ok (c.store.entries.filter fun e =>
            c.store.limits.span ≤ time - e.storedAt).length, y) ∧
        y.store = c.store.purge time) ∧
    (∀ e ∈ (c.store.purge time).entries, ∀ later,
      (c.store.purge time).lookup later e.key =
        if e.Expired c.store.limits.lifetime later then .stale else .hit e.response) ∧
    ∀ next, (∀ e ∈ c.store.entries, e.AgeFits next) →
      (c.store.purge time).purge next = c.store.purge (max time next) ∧
      c.store.purgeable time + (c.store.purge time).purgeable next =
        c.store.purgeable (max time next) := by
  have hwf := hreach.wf
  have hexpired : ∀ e ∈ c.store.entries,
      e.Expired c.store.limits.lifetime time ↔ c.store.limits.span ≤ time - e.storedAt := by
    intro e he
    rw [Entry.expired_iff (hages e he), Limits.lifetime_eq hfits]
  have hdropped : c.store.purgeable time =
      (c.store.entries.filter fun e => c.store.limits.span ≤ time - e.storedAt).length := by
    rw [Store.purgeable_eq hwf.ordered hages]
    exact congrArg List.length
      (List.filter_congr fun e he => decide_eq_decide.2 (hexpired e he))
  have hleft : (c.store.purge time).entries =
      c.store.entries.filter fun e => time - e.storedAt < c.store.limits.span := by
    rw [Store.entries_purge hwf.ordered hages]
    refine List.filter_congr fun e he => decide_eq_decide.2 ?_
    rw [hexpired e he, Int.not_le]
  refine ⟨?_, ?_, ?_, fun next hnext => ⟨Store.purge_purge hages hnext,
    Store.purgeable_purge_purge hages hnext⟩⟩
  · rw [← hleft, ← hdropped]
    rfl
  · intro σ x hstore
    have hnow : x.now + (time - x.now) = time := by omega
    rw [Exchange.run_purge, hnow, hstore, hdropped]
    exact ⟨_, rfl, rfl⟩
  · intro e he later
    have hkept : ((c.store.purge time).entries.map (·.key)).Nodup :=
      hwf.nodup.sublist ((c.store.purge_sublist time).map _)
    exact Store.lookup_of_mem hkept he later

namespace Foresight

def page : Url := .ofBytes (ascii "page")

/-- A purge for a time in the future, after which a page is replaced and another one put in. -/
def ops : List Op :=
  [.insert (ascii "s1") page {}, .purge 400000, .advance 300000, .insert (ascii "s2") page {},
    .advance 300000, .insert (ascii "s1") page {}]

def later : Clocked := Clocked.follow ⟨.tiny, {}⟩ ops

theorem reachable : later.Reachable :=
  Clocked.reachable_follow Store.tiny.limits {} ops

end Foresight

theorem purge_effect_foresight :
    (Foresight.later.store.purge 1500000).entries =
      [⟨Store.key (ascii "s1") Foresight.page, {}, 600000⟩] ∧
    (Foresight.later.store.purge 1500000).lookup 1599999 (Store.key (ascii "s1") Foresight.page) =
      .hit {} ∧
    (Foresight.later.store.purge 1500000).purge 0 = Foresight.later.store.purge 1500000 := by
  have hfits : Foresight.later.store.limits.Fits := by decide +kernel
  have hages : ∀ e ∈ Foresight.later.store.entries, e.AgeFits 1500000 := by decide +kernel
  have hbefore : ∀ e ∈ Foresight.later.store.entries, e.AgeFits 0 := by decide +kernel
  obtain ⟨hpurge, -, hfound, htwice⟩ := purge_effect Foresight.reachable hfits hages
  have hentries : (Foresight.later.store.purge 1500000).entries =
      [⟨Store.key (ascii "s1") Foresight.page, {}, 600000⟩] :=
    (congrArg Store.entries hpurge).trans (by decide +kernel)
  have hkept : (⟨Store.key (ascii "s1") Foresight.page, {}, 600000⟩ : Entry) ∈
      (Foresight.later.store.purge 1500000).entries := by
    rw [hentries]
    exact List.mem_singleton_self _
  exact ⟨hentries, (hfound _ hkept 1599999).trans (by decide +kernel), (htwice 0 hbefore).1⟩

namespace Overlong

def held : Clocked :=
  Clocked.follow ⟨.overlong, {}⟩ [.insert (ascii "s1") (.ofBytes (ascii "page")) {}]

theorem reachable : held.Reachable :=
  Clocked.reachable_follow Store.overlong.limits {} _

end Overlong

/-- With a timeout of more than 292 years a purge drops an entry that was stored just now. -/
theorem purge_drops_young :
    Overlong.held.Reachable ∧
    Overlong.held.store.entries.map (·.storedAt) = [Overlong.held.now] ∧
    Overlong.held.store.limits.timeout = 9223372036855 ∧
    Overlong.held.store.purgeable Overlong.held.now = 1 ∧
    (Overlong.held.store.purge Overlong.held.now).entries = [] :=
  ⟨Overlong.reachable, by decide +kernel, rfl, by decide +kernel, by decide +kernel⟩

end PageReply
