import Mathlib.Data.Set.Basic
import PageReply.Proofs.Store.Expiry

/-!
# Slots do not interfere

What is done in some slots makes two differences to a store: it changes what is held in those slots,
and it may drop entries of other slots, those that have expired and those that have to make room.
The first kind of drop does not show, as an entry that has expired is not handed out anyway. So as
long as nothing has to make room, look-ups in the other slots give what they would give by
themselves. This is for purges at times that the clock reaches; at others the first entry may stop a
purge although the next one has expired (`others_seen_out_of_reach`).

Two stores that are compared here do not hold the same entries of the slots that are looked at, for
they drop them at different times. They hold the same entries that are young enough
(`Clocked.Restricts`).
-/

namespace PageReply

/-! ## What an operation does to the entries that are young enough -/

namespace Store

theorem evict_of_lt {capacity : Nat} {es : List Entry} (h : es.length < capacity) :
    evict capacity es = es := by
  cases es with
  | nil => rfl
  | cons e es => rw [evict, if_neg (Nat.not_le.2 h)]

theorem excess_eq_zero_iff (s : Store) : s.excess = 0 ↔ s.size < s.limits.capacity := by
  constructor
  · intro hnone
    have hroom := length_evict_lt s.limits.capacity_pos s.entries
    unfold excess at hnone
    omega
  · intro hroom
    rw [excess, evict_of_lt hroom]
    exact Nat.sub_self _

end Store

/-- The operation does not drop the entry, if the entry is young enough and needs not make room. -/
def Op.Keeps (lifetime : Int) (clock : Clock) (e : Entry) : Op → Prop
  | insert session url _ | take session url => e.key ≠ Store.key session url
  | purge offset => ¬ e.Expired lifetime (clock.time + offset)
  | advance ns => ¬ e.Expired lifetime (clock.advance ns).time

instance (lifetime : Int) (clock : Clock) (e : Entry) :
    (op : Op) → Decidable (op.Keeps lifetime clock e)
  | .insert _ _ _ | .take _ _ => inferInstanceAs (Decidable (_ ≠ _))
  | .purge _ | .advance _ => inferInstanceAs (Decidable (¬ _))

namespace Clocked

def kept (c : Clocked) (op : Op) : List Entry :=
  c.young.filter (op.Keeps c.store.limits.lifetime c.clock ·)

/-- What an operation adds that can be handed out: nothing, if nothing can. -/
def fresh (c : Clocked) (op : Op) : List Entry :=
  (op.added c.now).filter (¬ ·.Expired c.store.limits.lifetime c.now)

variable {c : Clocked}

theorem entries_erase_purge (h : c.WF) (session : Bytes) (url : Url) (response : Response) :
    ((c.store.purge c.now).erase (Store.key session url)).entries =
      c.kept (.insert session url response) := by
  rw [Store.erase, Store.entries_purge h.ordered h.ageFits_now]
  rfl

theorem evicted_apply_iff (h : c.WF) (op : Op) :
    (c.apply op).store.stats.evicted = c.store.stats.evicted ↔
      (c.kept op).length + (op.added c.now).length ≤ c.store.limits.capacity := by
  have hfits : (c.kept op).length ≤ c.store.limits.capacity :=
    (List.length_filter_le _ _).trans ((List.length_filter_le _ _).trans h.fits)
  cases op with
  | insert session url response =>
    have hevicted : (c.apply (.insert session url response)).store.stats.evicted =
        c.store.stats.evicted +
          ((c.store.purge c.now).erase (Store.key session url)).excess := rfl
    have hroom := ((c.store.purge c.now).erase (Store.key session url)).excess_eq_zero_iff
    rw [Store.size, entries_erase_purge h session url response] at hroom
    rw [hevicted, Nat.add_eq_left, hroom]
    rfl
  | take session url =>
    refine iff_of_true ?_ hfits
    exact Stats.evicted_afterLookup _ _
  | purge offset => exact iff_of_true rfl hfits
  | advance ns => exact iff_of_true rfl hfits

theorem young_of_mem_kept {op : Op} {e : Entry} (he : e ∈ c.kept op) :
    ¬ e.Expired c.store.limits.lifetime c.now :=
  of_decide_eq_true (List.mem_filter.1 (List.mem_of_mem_filter he)).2

/-- Of what is young enough an operation leaves what it keeps and what it adds, unless something has
to make room. -/
theorem young_apply (h : c.WF) {op : Op} (hreach : op.InReach c.clock)
    (hroom : (c.apply op).store.stats.evicted = c.store.stats.evicted) :
    (c.apply op).young = c.kept op ++ c.fresh op := by
  cases op with
  | insert session url response =>
    have hlength : (c.kept (.insert session url response)).length < c.store.limits.capacity :=
      (evicted_apply_iff h _).1 hroom
    have hentries : (c.apply (.insert session url response)).store.entries =
        c.kept (.insert session url response) ++
          [⟨Store.key session url, response, c.now⟩] := by
      have hready := entries_erase_purge h session url response
      rw [← Store.evict_of_lt hlength, ← hready]
      rfl
    have hkept : (c.kept (.insert session url response)).filter
        (¬ ·.Expired c.store.limits.lifetime c.now) = c.kept (.insert session url response) :=
      List.filter_eq_self.2 fun e he => decide_eq_true (young_of_mem_kept (c := c) he)
    rw [young, hentries, List.filter_append]
    exact congrArg (· ++ _) hkept
  | take session url =>
    rw [fresh, Op.added, List.filter_nil, List.append_nil]
    exact List.filter_comm ..
  | purge offset =>
    rw [fresh, Op.added, List.filter_nil, List.append_nil, young, apply,
      Store.entries_purge h.ordered (h.ageFits (hreach offset rfl))]
    exact List.filter_comm ..
  | advance ns =>
    rw [fresh, Op.added, List.filter_nil, List.append_nil, kept, young, young, List.filter_filter]
    refine List.filter_congr fun e he => ?_
    change decide (¬ e.Expired c.store.limits.lifetime (c.clock.advance ns).time) = _
    by_cases hlater : e.Expired c.store.limits.lifetime (c.clock.advance ns).time
    · simp [Op.Keeps, hlater]
    · have hnow : ¬ e.Expired c.store.limits.lifetime c.now := fun hold =>
        hlater (hold.mono (c.clock.time_le_advance ns) (h.ageFits_now e he)
          ((h.apply (.advance ns)).ageFits_now e he))
      simp [Op.Keeps, hlater, hnow]

theorem evicted_le_apply (c : Clocked) (op : Op) :
    c.store.stats.evicted ≤ (c.apply op).store.stats.evicted := by
  cases op with
  | insert session url response => exact Nat.le_add_right _ _
  | take session url => exact (Stats.evicted_afterLookup _ _).ge
  | _ => exact Nat.le_refl _

theorem evicted_le_follow (c : Clocked) (ops : List Op) :
    c.store.stats.evicted ≤ (c.follow ops).store.stats.evicted := by
  induction ops generalizing c with
  | nil => exact Nat.le_refl _
  | cons op ops ih => exact Nat.le_trans (c.evicted_le_apply op) (ih (c.apply op))

end Clocked

/-! ## What is done in other slots -/

/-- An operation in one of some slots, or in no slot. -/
def Op.Within (slots : Set Slot) (op : Op) : Prop :=
  ∀ p ∈ op.slot?, p ∈ slots

instance (slots : Set Slot) [DecidablePred (· ∈ slots)] (op : Op) : Decidable (op.Within slots) :=
  inferInstanceAs (Decidable (∀ p ∈ op.slot?, p ∈ slots))

def Moment.answer? (slots : Set Slot) [DecidablePred (· ∈ slots)] (m : Moment) :
    Option (Slot × Option Response) :=
  match m.op with
  | .take session url =>
    if (session, url) ∈ slots then
      some ((session, url), (m.state.found session url).response?)
    else none
  | .insert _ _ _ | .purge _ | .advance _ => none

/-- What the look-ups in some slots hand out, in the order in which they are made. -/
def answers (slots : Set Slot) [DecidablePred (· ∈ slots)] (ms : List Moment) :
    List (Slot × Option Response) :=
  ms.filterMap (·.answer? slots)

def Entry.Within (slots : Set Slot) (e : Entry) : Prop :=
  ∃ p ∈ slots, e.key = Store.key p.1 p.2

section

variable {slots : Set Slot} {op : Op} {now : Int} {e : Entry}

theorem Op.exists_slot_of_not_within (h : ¬ op.Within slots) :
    ∃ p, op.slot? = some p ∧ p ∉ slots := by
  simpa [Op.Within] using h

theorem Moment.answer?_of_not_within [DecidablePred (· ∈ slots)] {c : Clocked}
    (h : ¬ op.Within slots) : Moment.answer? slots ⟨op, c⟩ = none := by
  obtain ⟨p, hslot, hp⟩ := Op.exists_slot_of_not_within h
  cases op with
  | take session url =>
    cases hslot
    exact if_neg hp
  | _ => rfl

theorem Op.key_of_mem_added (he : e ∈ op.added now) :
    ∃ p, op.slot? = some p ∧ e.key = Store.key p.1 p.2 := by
  cases op with
  | insert session url response =>
    rw [List.mem_singleton.1 he]
    exact ⟨(session, url), rfl, rfl⟩
  | _ => cases he

theorem Entry.Within.of_added (hop : op.Within slots) (he : e ∈ op.added now) : e.Within slots := by
  obtain ⟨p, hslot, hkey⟩ := Op.key_of_mem_added he
  exact ⟨p, hop p hslot, hkey⟩

theorem Entry.not_within_of_added (hop : ¬ op.Within slots) (he : e ∈ op.added now) :
    ¬ e.Within slots := by
  obtain ⟨p, hslot, hkey⟩ := Op.key_of_mem_added he
  rintro ⟨q, hq, hqkey⟩
  obtain ⟨hsession, hurl⟩ := Store.key_inj (hkey.symm.trans hqkey)
  obtain ⟨p', hslot', hp'⟩ := Op.exists_slot_of_not_within hop
  obtain rfl : p = p' := Option.some_inj.1 (hslot.symm.trans hslot')
  exact hp' (Prod.ext hsession hurl ▸ hq)

theorem Entry.Within.keeps (h : e.Within slots) (hop : ¬ op.Within slots) (lifetime : Int)
    (clock : Clock) : op.Keeps lifetime clock e := by
  obtain ⟨q, hq, hqkey⟩ := h
  obtain ⟨p, hslot, hp⟩ := Op.exists_slot_of_not_within hop
  have hne : e.key ≠ Store.key p.1 p.2 := by
    intro hkey
    obtain ⟨hsession, hurl⟩ := Store.key_inj (hkey.symm.trans hqkey)
    exact hp (Prod.ext hsession hurl ▸ hq)
  cases op with
  | insert session url response =>
    cases hslot
    exact hne
  | take session url =>
    cases hslot
    exact hne
  | _ => cases hslot

end

section

open Classical in
/-- The second store holds the entries of some slots that the first one holds and that are young
enough. -/
structure Clocked.Restricts (slots : Set Slot) (c d : Clocked) : Prop where
  wf : c.WF
  wf' : d.WF
  limits : d.store.limits = c.store.limits
  clock : d.clock = c.clock
  young : d.young = c.young.filter (·.Within slots)

variable {slots : Set Slot} {c d : Clocked}

namespace Clocked.Restricts

/-- What has no room without the other slots has none with them. -/
theorem evicted_apply (h : Restricts slots c d) {op : Op}
    (hroom : (c.apply op).store.stats.evicted = c.store.stats.evicted) :
    (d.apply op).store.stats.evicted = d.store.stats.evicted := by
  have hkept : (d.kept op).Sublist (c.kept op) := by
    unfold kept
    rw [h.young, h.limits, h.clock]
    exact List.filter_sublist.filter _
  have hlength := (evicted_apply_iff h.wf op).1 hroom
  have := hkept.length_le
  have hnow : d.now = c.now := congrArg Clock.time h.clock
  rw [evicted_apply_iff h.wf', h.limits, hnow]
  omega

open Classical in
theorem apply_both (h : Restricts slots c d) {op : Op} (hop : op.Within slots)
    (hreach : op.InReach c.clock)
    (hroom : (c.apply op).store.stats.evicted = c.store.stats.evicted) :
    Restricts slots (c.apply op) (d.apply op) where
  wf := h.wf.apply op
  wf' := h.wf'.apply op
  limits := by rw [apply_limits, apply_limits, h.limits]
  clock := by cases op <;> simp [Clocked.apply, h.clock]
  young := by
    have hkept : d.kept op = (c.kept op).filter (·.Within slots) := by
      unfold kept
      rw [h.young, h.limits, h.clock, List.filter_comm]
    have hfresh : d.fresh op = c.fresh op := by
      unfold fresh now
      rw [h.limits, h.clock]
    have hwithin : (c.fresh op).filter (·.Within slots) = c.fresh op :=
      List.filter_eq_self.2 fun e he =>
        decide_eq_true (Entry.Within.of_added hop (List.mem_of_mem_filter he))
    rw [young_apply h.wf hreach hroom,
      young_apply h.wf' (h.clock.symm ▸ hreach) (h.evicted_apply hroom), hkept, hfresh,
      List.filter_append, hwithin]

open Classical in
theorem apply_first (h : Restricts slots c d) {op : Op} (hop : ¬ op.Within slots)
    (hreach : op.InReach c.clock)
    (hroom : (c.apply op).store.stats.evicted = c.store.stats.evicted) :
    Restricts slots (c.apply op) d where
  wf := h.wf.apply op
  wf' := h.wf'
  limits := by rw [apply_limits, h.limits]
  clock := by
    obtain ⟨p, hslot, -⟩ := Op.exists_slot_of_not_within hop
    rw [h.clock]
    cases op with
    | advance ns => cases hslot
    | _ => rfl
  young := by
    have hkept : (c.kept op).filter (·.Within slots) = c.young.filter (·.Within slots) := by
      rw [kept, List.filter_filter]
      refine List.filter_congr fun e _ => ?_
      by_cases he : e.Within slots
      · simp [he, he.keeps hop]
      · simp [he]
    have hfresh : (c.fresh op).filter (·.Within slots) = [] :=
      List.filter_eq_nil_iff.2 fun e he => by
        simpa using Entry.not_within_of_added hop (List.mem_of_mem_filter he)
    rw [young_apply h.wf hreach hroom, List.filter_append, hkept, hfresh, List.append_nil, h.young]

theorem response?_found (h : Restricts slots c d) {session : Bytes} {url : Url}
    (hslot : (session, url) ∈ slots) :
    (d.found session url).response? = (c.found session url).response? := by
  have hnodup : (c.young.map (·.key)).Nodup := h.wf.nodup.sublist (List.filter_sublist.map _)
  rw [Clocked.response?_found h.wf', Clocked.response?_found h.wf, h.young,
    Store.find?_key_filter hnodup]
  cases hfind : c.young.find? (·.key = Store.key session url) with
  | none => rfl
  | some e =>
    have hkey : e.key = Store.key session url := by simpa using List.find?_some hfind
    have hwithin : e.Within slots := ⟨(session, url), hslot, hkey⟩
    simp [Option.filter, hwithin]

theorem answer?_eq [DecidablePred (· ∈ slots)] (h : Restricts slots c d) (op : Op) :
    Moment.answer? slots ⟨op, d⟩ = Moment.answer? slots ⟨op, c⟩ := by
  cases op with
  | take session url =>
    by_cases hslot : (session, url) ∈ slots
    · simp only [Moment.answer?, if_pos hslot, h.response?_found hslot]
    · simp only [Moment.answer?, if_neg hslot]
  | _ => rfl

theorem refl_of_empty (slots : Set Slot) (limits : Limits) (start : Clock) :
    Restricts slots ⟨{ limits }, start⟩ ⟨{ limits }, start⟩ where
  wf := .fresh limits start
  wf' := .fresh limits start
  limits := rfl
  clock := rfl
  young := rfl

/-- When what is done in other slots is left out, nothing has to make room either, and look-ups hand
out the same. -/
theorem follow [DecidablePred (· ∈ slots)] (h : Restricts slots c d) (ops : List Op)
    (hreach : ∀ m ∈ c.moments ops, m.op.InReach m.state.clock)
    (hroom : (c.follow ops).store.stats.evicted = c.store.stats.evicted) :
    (d.follow (ops.filter (·.Within slots))).store.stats.evicted = d.store.stats.evicted ∧
      answers slots (d.moments (ops.filter (·.Within slots))) =
        answers slots (c.moments ops) := by
  induction ops generalizing c d with
  | nil => exact ⟨rfl, rfl⟩
  | cons op ops ih =>
    obtain ⟨hnow, hlater⟩ := List.forall_mem_cons.1 hreach
    have hfirst := c.evicted_le_apply op
    have hrest := (c.apply op).evicted_le_follow ops
    change ((c.apply op).follow ops).store.stats.evicted = _ at hroom
    -- the counter only ever grows, so nothing has to make room now or later
    have hroom₁ : (c.apply op).store.stats.evicted = c.store.stats.evicted := by omega
    have hroom₂ : ((c.apply op).follow ops).store.stats.evicted =
        (c.apply op).store.stats.evicted := by omega
    by_cases hop : op.Within slots
    · obtain ⟨hevicted, hanswers⟩ := ih (h.apply_both hop hnow hroom₁) hlater hroom₂
      have hfilter : (op :: ops).filter (·.Within slots) = op :: ops.filter (·.Within slots) :=
        List.filter_cons_of_pos (decide_eq_true hop)
      rw [hfilter]
      refine ⟨hevicted.trans (h.evicted_apply hroom₁), ?_⟩
      unfold answers at hanswers ⊢
      rw [moments, moments, List.filterMap_cons, List.filterMap_cons, h.answer?_eq, hanswers]
    · obtain ⟨hevicted, hanswers⟩ := ih (h.apply_first hop hnow hroom₁) hlater hroom₂
      have hfilter : (op :: ops).filter (·.Within slots) = ops.filter (·.Within slots) :=
        List.filter_cons_of_neg (by simpa using hop)
      rw [hfilter]
      refine ⟨hevicted, hanswers.trans ?_⟩
      exact (List.filterMap_cons_none (Moment.answer?_of_not_within hop)).symm

end Clocked.Restricts

end

/-- **What is done in other slots is not seen**: when nothing has to make room in a store that was
empty, and purges are for times that the clock reaches, the look-ups in some slots hand out what
they would hand out if nothing had been put into any other slot or looked up there, and nothing
would have to make room then either. -/
theorem others_unseen (limits : Limits) (start : Clock) (slots : Set Slot)
    [DecidablePred (· ∈ slots)] (ops : List Op)
    (hreach : ∀ m ∈ Clocked.moments ⟨{ limits }, start⟩ ops, m.op.InReach m.state.clock)
    (hroom : (Clocked.follow ⟨{ limits }, start⟩ ops).store.stats.evicted = 0) :
    (Clocked.follow ⟨{ limits }, start⟩ (ops.filter (·.Within slots))).store.stats.evicted = 0 ∧
      answers slots (Clocked.moments ⟨{ limits }, start⟩ (ops.filter (·.Within slots))) =
        answers slots (Clocked.moments ⟨{ limits }, start⟩ ops) :=
  (Clocked.Restricts.refl_of_empty slots limits start).follow ops hreach hroom

namespace Neighbours

def own : Set Slot := {p | p.1 = ascii "s1"}

instance : DecidablePred (· ∈ own) :=
  fun p => inferInstanceAs (Decidable (p.1 = ascii "s1"))

/-- The first page of a session has become too old when something is put in for another session, so
that it is dropped then and not when it is looked up. -/
def ops : List Op :=
  let page := Url.ofBytes (ascii "page")
  [.insert (ascii "s1") page {}, .advance 1000000, .insert (ascii "s2") page {},
    .insert (ascii "s1") .empty { body := ascii "text" }, .purge (-2000000),
    .take (ascii "s1") page, .take (ascii "s2") page, .take (ascii "s1") .empty]

end Neighbours

theorem others_unseen_neighbours :
    (Clocked.follow ⟨.tiny, {}⟩ Neighbours.ops).store.stats.evicted = 0 ∧
      answers Neighbours.own (Clocked.moments ⟨.tiny, {}⟩
        (Neighbours.ops.filter (·.Within Neighbours.own))) =
          [((ascii "s1", .ofBytes (ascii "page")), none),
            ((ascii "s1", .empty), some { body := ascii "text" })] := by
  have hroom : (Clocked.follow ⟨.tiny, {}⟩ Neighbours.ops).store.stats.evicted = 0 := by
    decide +kernel
  have hanswers : answers Neighbours.own (Clocked.moments ⟨.tiny, {}⟩ Neighbours.ops) =
      [((ascii "s1", .ofBytes (ascii "page")), none),
        ((ascii "s1", .empty), some { body := ascii "text" })] := by
    decide +kernel
  have hreach : ∀ m ∈ Clocked.moments ⟨.tiny, {}⟩ Neighbours.ops,
      m.op.InReach m.state.clock := by
    decide +kernel
  obtain ⟨-, hsame⟩ :=
    others_unseen Store.tiny.limits {} Neighbours.own Neighbours.ops hreach hroom
  exact ⟨hroom, hsame.trans hanswers⟩

/-- A purge for a time that the clock does not reach stops at the entry of another slot, which it
takes for young, and without that entry drops what it takes for old. -/
theorem others_seen_out_of_reach :
    let ops : List Op :=
      [.insert (ascii "s2") .empty {}, .advance 1000, .insert (ascii "s1") .empty {},
        .purge (-9223372036854776308), .take (ascii "s1") .empty]
    (Clocked.follow ⟨.tiny, {}⟩ ops).store.stats.evicted = 0 ∧
      answers Neighbours.own (Clocked.moments ⟨.tiny, {}⟩ ops) =
        [((ascii "s1", .empty), some {})] ∧
      answers Neighbours.own
          (Clocked.moments ⟨.tiny, {}⟩ (ops.filter (·.Within Neighbours.own))) =
        [((ascii "s1", .empty), none)] := by
  decide +kernel

end PageReply
