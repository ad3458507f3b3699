import Mathlib.Data.List.Perm.Basic
import PageReply.Proofs.Store.Expiry

/-!
# Where the responses have gone

A response that was put in is either still there or has gone in one of four ways: it was handed out,
it was too old, it had to make room, or another one was put in its place. The departures of a run
are the entries that have gone, in that order, each with its way. The counters of a store say how
many there are of each way but the last, which is not counted: it is told by the insertions that
find an entry that could still be handed out.
-/

namespace PageReply

/-- How an entry leaves a store. -/
inductive Fate where
  | served
  | expired
  | evicted
  /-- Another response was put in its place. -/
  | replaced
deriving DecidableEq, Repr

/-- What becomes of the entry that a look-up finds. -/
def Lookup.fate? : Lookup → Option Fate
  | .missing => none
  | .stale => some .expired
  | .hit _ => some .served

/-- The slot of a look-up. -/
def Op.asked? : Op → Option Slot
  | take session url => some (session, url)
  | insert _ _ _ | purge _ | advance _ => none

namespace Moment

/-- The response that is handed out. -/
def handedOut? (m : Moment) : Option Response :=
  m.op.asked?.bind fun p => (m.state.found p.1 p.2).response?

/-- A response is put in where there is one that could still be handed out. -/
def Replaces (m : Moment) : Prop :=
  ∃ p ∈ m.op.filled?, ∃ e ∈ m.state.store.entries,
    e.key = Store.key p.1 p.2 ∧ ¬ e.Expired m.state.store.limits.lifetime m.state.now

instance : DecidablePred Replaces := fun m =>
  inferInstanceAs (Decidable (∃ p ∈ m.op.filled?, _))

end Moment

/-- The entries that an operation removes. -/
def Clocked.gone (c : Clocked) : Op → List (Fate × Entry)
  | .insert session url _ =>
    (c.store.entries.takeWhile (·.Expired c.store.limits.lifetime c.now)).map (.expired, ·) ++
      ((c.store.purge c.now).entries.filter (·.key = Store.key session url)).map (.replaced, ·) ++
      (((c.store.purge c.now).erase (Store.key session url)).entries.take
        ((c.store.purge c.now).erase (Store.key session url)).excess).map (.evicted, ·)
  | .take session url =>
    (c.store.entries.filter (·.key = Store.key session url)).map fun e =>
      (if e.Expired c.store.limits.lifetime c.now then .expired else .served, e)
  | .purge offset =>
    (c.store.entries.takeWhile (·.Expired c.store.limits.lifetime (c.now + offset))).map
      (.expired, ·)
  | .advance _ => []

def departures (ms : List Moment) : List (Fate × Entry) :=
  ms.flatMap fun m => m.state.gone m.op

/-- The entries that were put in. -/
def arrivals (ms : List Moment) : List Entry :=
  ms.flatMap fun m => m.op.added m.state.now

/-- How many entries have gone in a way. -/
def tally (fate : Fate) (ds : List (Fate × Entry)) : Nat :=
  ds.countP (·.1 = fate)

section Tally

variable (fate : Fate) (ds ds' : List (Fate × Entry))

@[simp] theorem tally_append : tally fate (ds ++ ds') = tally fate ds + tally fate ds' :=
  List.countP_append

@[simp] theorem tally_map (way : Fate) (es : List Entry) :
    tally fate (es.map (way, ·)) = if way = fate then es.length else 0 := by
  rw [tally, List.countP_map]
  by_cases hway : way = fate
  · simp [hway, Function.comp_def]
  · simp [hway, Function.comp_def]

theorem length_eq_tally :
    ds.length = tally .served ds + tally .expired ds + tally .evicted ds + tally .replaced ds := by
  induction ds with
  | nil => rfl
  | cons d ds ih =>
    obtain ⟨way, e⟩ := d
    unfold tally at ih ⊢
    cases way <;> simp [ih] <;> omega

end Tally

/-! ## What one operation adds to the account -/

namespace Store

variable (s : Store)

theorem filter_append_erase (k : Bytes) :
    (s.entries.filter (·.key = k) ++ (s.erase k).entries).Perm s.entries := by
  have h := List.filter_append_perm (fun e : Entry => decide (e.key = k)) s.entries
  simpa [erase] using h

theorem take_excess_append_makeRoom :
    s.entries.take s.excess ++ s.makeRoom.entries = s.entries := by
  obtain ⟨front, hfront⟩ := evict_suffix s.limits.capacity s.entries
  have hexcess : s.excess = front.length := by
    have hlength := congrArg List.length hfront
    rw [List.length_append] at hlength
    rw [excess, size]
    omega
  calc s.entries.take s.excess ++ s.makeRoom.entries
      = (front ++ evict s.limits.capacity s.entries).take front.length ++
          evict s.limits.capacity s.entries := by rw [hfront, hexcess, makeRoom]
    _ = front ++ evict s.limits.capacity s.entries := by rw [List.take_left]
    _ = s.entries := hfront

theorem length_take_excess : (s.entries.take s.excess).length = s.excess := by
  rw [List.length_take, excess, size]
  omega

end Store

namespace Clocked

variable (c : Clocked) (op : Op)

/-- What was there and what is put in is still there or has gone. -/
theorem entries_apply_perm :
    (c.store.entries ++ op.added c.now).Perm
      ((c.apply op).store.entries ++ (c.gone op).map (·.2)) := by
  -- every entry is counted on both sides, stage by stage
  rw [List.perm_iff_count]
  intro e
  cases op with
  | insert session url response =>
    have hexpired := congrArg (List.count e) (c.store.takeWhile_append_purge c.now)
    have hreplaced :=
      ((c.store.purge c.now).filter_append_erase (Store.key session url)).count_eq e
    have hevicted := congrArg (List.count e)
      ((c.store.purge c.now).erase (Store.key session url)).take_excess_append_makeRoom
    have hentries : (c.apply (.insert session url response)).store.entries =
        ((c.store.purge c.now).erase (Store.key session url)).makeRoom.entries ++
          (Op.insert session url response).added c.now := rfl
    rw [hentries]
    simp only [gone, List.map_append, List.map_map, Function.comp_def, List.map_id',
      List.count_append] at hexpired hreplaced hevicted ⊢
    omega
  | take session url =>
    have htaken := (c.store.filter_append_erase (Store.key session url)).count_eq e
    have hentries : (c.apply (.take session url)).store.entries =
        (c.store.erase (Store.key session url)).entries := rfl
    rw [hentries]
    simp only [gone, Op.added, List.map_map, Function.comp_def, List.map_id', List.append_nil,
      List.count_append] at htaken ⊢
    omega
  | purge offset =>
    have hexpired := congrArg (List.count e) (c.store.takeWhile_append_purge (c.now + offset))
    have hentries : (c.apply (.purge offset)).store.entries =
        (c.store.purge (c.now + offset)).entries := rfl
    rw [hentries]
    simp only [gone, Op.added, List.map_map, Function.comp_def, List.map_id', List.append_nil,
      List.count_append] at hexpired ⊢
    omega
  | advance ns => rfl

theorem tally_gone_insert (fate : Fate) (session : Bytes) (url : Url) (response : Response) :
    tally fate (c.gone (.insert session url response)) =
      match fate with
      | .served => 0
      | .expired => c.store.purgeable c.now
      | .evicted => ((c.store.purge c.now).erase (Store.key session url)).excess
      | .replaced =>
        ((c.store.purge c.now).entries.filter (·.key = Store.key session url)).length := by
  rw [gone, tally_append, tally_append, tally_map, tally_map, tally_map, Store.length_take_excess]
  cases fate <;> simp [Store.purgeable]

theorem tally_gone_purge (fate : Fate) (offset : Int) :
    tally fate (c.gone (.purge offset)) =
      if .expired = fate then c.store.purgeable (c.now + offset) else 0 :=
  tally_map fate _ _

theorem asked_apply :
    (c.apply op).store.stats.served + (c.apply op).store.stats.misses =
      c.store.stats.served + c.store.stats.misses + if op.asked?.isSome then 1 else 0 := by
  cases op with
  | take session url =>
    have hstats : (c.apply (.take session url)).store.stats =
        c.store.stats.afterLookup (c.found session url) := rfl
    rw [hstats]
    cases c.found session url <;> simp only [Stats.afterLookup, Op.asked?, Option.isSome_some,
      if_true] <;> omega
  | _ => rfl

theorem stored_apply :
    (c.apply op).store.stats.stored =
      c.store.stats.stored + if op.filled?.isSome then 1 else 0 := by
  cases op with
  | take session url => exact Stats.stored_afterLookup _ _
  | _ => rfl

variable {c} (h : c.WF)

include h

theorem tally_gone_take (fate : Fate) (session : Bytes) (url : Url) :
    tally fate (c.gone (.take session url)) =
      if (c.found session url).fate? = some fate then 1 else 0 := by
  rw [gone, Store.filter_key_eq h.nodup, found, Store.take, Store.lookup]
  cases c.store.entries.find? (·.key = Store.key session url) with
  | none => rfl
  | some e =>
    by_cases hold : e.Expired c.store.limits.lifetime c.now
    · cases fate <;> simp [hold, tally, Lookup.fate?]
    · cases fate <;> simp [hold, tally, Lookup.fate?]

theorem counters_apply :
    (c.apply op).store.stats.served = c.store.stats.served + tally .served (c.gone op) ∧
      (c.apply op).store.stats.expired = c.store.stats.expired + tally .expired (c.gone op) ∧
        (c.apply op).store.stats.evicted =
          c.store.stats.evicted + tally .evicted (c.gone op) := by
  cases op with
  | insert session url response =>
    rw [tally_gone_insert, tally_gone_insert, tally_gone_insert]
    exact ⟨rfl, rfl, rfl⟩
  | take session url =>
    have hstats : (c.apply (.take session url)).store.stats =
        c.store.stats.afterLookup (c.found session url) := rfl
    rw [hstats, tally_gone_take h, tally_gone_take h, tally_gone_take h]
    cases c.found session url with
    | missing => exact ⟨rfl, rfl, rfl⟩
    | stale => exact ⟨rfl, rfl, rfl⟩
    | hit response => exact ⟨rfl, rfl, rfl⟩
  | purge offset =>
    rw [tally_gone_purge, tally_gone_purge, tally_gone_purge]
    exact ⟨rfl, rfl, rfl⟩
  | advance ns => exact ⟨rfl, rfl, rfl⟩

/-- What is handed out is what leaves the store as served. -/
theorem tally_served_gone :
    tally .served (c.gone op) = if (Moment.handedOut? ⟨op, c⟩).isSome then 1 else 0 := by
  cases op with
  | insert session url response => exact c.tally_gone_insert .served session url response
  | take session url =>
    have hanswer : Moment.handedOut? ⟨.take session url, c⟩ =
        (c.found session url).response? := rfl
    rw [hanswer, tally_gone_take h]
    cases c.found session url with
    | missing => rfl
    | stale => rfl
    | hit response => rfl
  | purge offset => exact c.tally_gone_purge .served offset
  | advance ns => rfl

/-- As the expired entries are gone by then, an insertion replaces an entry that could still be
handed out, and one at most. -/
theorem tally_replaced_gone :
    tally .replaced (c.gone op) = if Moment.Replaces ⟨op, c⟩ then 1 else 0 := by
  cases op with
  | insert session url response =>
    have hyoung : (c.store.purge c.now).entries = c.young :=
      Store.entries_purge h.ordered h.ageFits_now
    have hnodup : (c.young.map (·.key)).Nodup := h.nodup.sublist (List.filter_sublist.map _)
    have hreplaces : Moment.Replaces ⟨.insert session url response, c⟩ ↔
        (c.young.find? (·.key = Store.key session url)).isSome := by
      simp [Moment.Replaces, Op.filled?, young, and_comm]
    rw [tally_gone_insert, hyoung, Store.filter_key_eq hnodup, if_congr hreplaces rfl rfl]
    cases c.young.find? (·.key = Store.key session url) with
    | none => rfl
    | some e => rfl
  | take session url =>
    have hnone : ¬ Moment.Replaces ⟨.take session url, c⟩ := by simp [Moment.Replaces, Op.filled?]
    rw [if_neg hnone, tally_gone_take h]
    cases c.found session url with
    | missing => rfl
    | stale => rfl
    | hit response => rfl
  | purge offset => simp [tally_gone_purge, Moment.Replaces, Op.filled?]
  | advance ns => rfl

end Clocked

/-! ## The account of a run -/

/-- The counters of a store say what has happened in a run. -/
structure Clocked.Accounts (c : Clocked) (ms : List Moment) : Prop where
  stored : c.store.stats.stored = ms.countP (·.op.filled?.isSome)
  asked : c.store.stats.served + c.store.stats.misses = ms.countP (·.op.asked?.isSome)
  handedOut : c.store.stats.served = ms.countP (·.handedOut?.isSome)
  served : c.store.stats.served = tally .served (departures ms)
  expired : c.store.stats.expired = tally .expired (departures ms)
  evicted : c.store.stats.evicted = tally .evicted (departures ms)
  replaced : ms.countP (·.Replaces) = tally .replaced (departures ms)
  entries : (arrivals ms).Perm (c.store.entries ++ (departures ms).map (·.2))

open scoped List in
theorem Run.accounts {limits : Limits} {clock : Clock} {ms : List Moment} {c : Clocked}
    (h : Run ⟨{ limits }, clock⟩ ms c) : c.Accounts ms := by
  induction h with
  | nil => exact ⟨rfl, rfl, rfl, rfl, rfl, rfl, rfl, .refl _⟩
  | @snoc ms c run op ih =>
    have hwf : c.WF := run.wf (.fresh limits clock)
    obtain ⟨hserved, hexpired, hevicted⟩ := Clocked.counters_apply op hwf
    have hgone : departures (ms ++ [⟨op, c⟩]) = departures ms ++ c.gone op := by
      simp [departures]
    have harrived : arrivals (ms ++ [⟨op, c⟩]) = arrivals ms ++ op.added c.now := by
      simp [arrivals]
    refine ⟨?_, ?_, ?_, ?_, ?_, ?_, ?_, ?_⟩
    · rw [Clocked.stored_apply, ih.stored, List.countP_append, List.countP_singleton]
    · rw [Clocked.asked_apply, ih.asked, List.countP_append, List.countP_singleton]
    · rw [hserved, ih.handedOut, Clocked.tally_served_gone op hwf, List.countP_append,
        List.countP_singleton]
    · rw [hserved, ih.served, hgone, tally_append]
    · rw [hexpired, ih.expired, hgone, tally_append]
    · rw [hevicted, ih.evicted, hgone, tally_append]
    · rw [List.countP_append, List.countP_singleton, ih.replaced, hgone, tally_append,
        Clocked.tally_replaced_gone op hwf]
      simp
    · rw [harrived, hgone, List.map_append]
      calc arrivals ms ++ op.added c.now
        _ ~ c.store.entries ++ (departures ms).map (·.2) ++ op.added c.now :=
            ih.entries.append_right _
        _ ~ c.store.entries ++ op.added c.now ++ (departures ms).map (·.2) := by
            rw [List.append_assoc, List.append_assoc]
            exact List.perm_append_comm.append_left _
        _ ~ (c.apply op).store.entries ++ (c.gone op).map (·.2) ++ (departures ms).map (·.2) :=
            (c.entries_apply_perm op).append_right _
        _ ~ (c.apply op).store.entries ++
              ((departures ms).map (·.2) ++ (c.gone op).map (·.2)) := by
            rw [List.append_assoc]
            exact List.perm_append_comm.append_left _

def Stats.counters (s : Stats) : List Nat :=
  [s.stored, s.served, s.misses, s.expired, s.evicted]

theorem length_arrivals (ms : List Moment) :
    (arrivals ms).length = ms.countP (·.op.filled?.isSome) := by
  induction ms with
  | nil => rfl
  | cons m ms ih =>
    obtain ⟨op, c⟩ := m
    have harrived : arrivals (⟨op, c⟩ :: ms) = op.added c.now ++ arrivals ms := rfl
    rw [harrived, List.length_append, ih, List.countP_cons]
    cases op with
    | insert session url response =>
      simp only [Op.added, Op.filled?, List.length_singleton, Option.isSome_some, if_true]
      omega
    | _ => simp [Op.added, Op.filled?]

namespace Clocked.Accounts

variable {c : Clocked} {ms : List Moment} (h : c.Accounts ms)

include h

theorem stored_eq :
    c.store.stats.stored = c.store.size + c.store.stats.served + c.store.stats.expired +
      c.store.stats.evicted + ms.countP (·.Replaces) := by
  have hlength := h.entries.length_eq
  rw [length_arrivals, ← h.stored, List.length_append, List.length_map, length_eq_tally,
    ← h.served, ← h.expired, ← h.evicted, ← h.replaced] at hlength
  rw [Store.size]
  omega

/-- No counter is greater than the number of operations. -/
theorem le_length : ∀ n ∈ c.store.stats.counters, n ≤ ms.length := by
  have hstored := h.stored ▸ List.countP_le_length
  have hasked := h.asked ▸ List.countP_le_length
  have hall := h.stored_eq
  intro n hn
  simp only [Stats.counters, List.mem_cons, List.not_mem_nil, or_false] at hn
  omega

end Clocked.Accounts

/-- **Every response is accounted for.** The counters say how many responses were put in, how many
look-ups were made and how many of them handed something out; and each response that was put in is
still there or has gone in one way, the responses that gone in a way being as many as the counter of
it says. Only the responses in whose place others were put are not counted by the store. Counters of
64 bits are wide enough as long as fewer operations are made than they can count. -/
theorem responses_accounted {limits : Limits} {clock : Clock} {ms : List Moment} {c : Clocked}
    (h : Run ⟨{ limits }, clock⟩ ms c) :
    (c.store.stats.stored = ms.countP (·.op.filled?.isSome) ∧
      c.store.stats.served + c.store.stats.misses = ms.countP (·.op.asked?.isSome) ∧
      c.store.stats.served = ms.countP (·.handedOut?.isSome) ∧
      c.store.stats.stored = c.store.size + c.store.stats.served + c.store.stats.expired +
        c.store.stats.evicted + ms.countP (·.Replaces)) ∧
    ((arrivals ms).Perm (c.store.entries ++ (departures ms).map (·.2)) ∧
      tally .served (departures ms) = c.store.stats.served ∧
      tally .expired (departures ms) = c.store.stats.expired ∧
      tally .evicted (departures ms) = c.store.stats.evicted ∧
      tally .replaced (departures ms) = ms.countP (·.Replaces)) ∧
    (ms.length < UInt64.size → ∀ n ∈ c.store.stats.counters, n < UInt64.size) := by
  have haccounts := h.accounts
  refine ⟨⟨haccounts.stored, haccounts.asked, haccounts.handedOut, haccounts.stored_eq⟩,
    ⟨haccounts.entries, haccounts.served.symm, haccounts.expired.symm, haccounts.evicted.symm,
      haccounts.replaced.symm⟩, ?_⟩
  intro hfew n hn
  exact Nat.lt_of_le_of_lt (haccounts.le_length n hn) hfew

namespace Audit

def page : Url := .ofBytes (ascii "page")

/-- A page is replaced and then has to make room for two others, of which one is handed out and one
expires. -/
def ops : List Op :=
  [.insert (ascii "s1") page { body := ascii "old" }, .insert (ascii "s1") page {},
    .insert (ascii "s2") page {}, .insert (ascii "s3") page {}, .take (ascii "s2") page,
    .advance 1000000, .take (ascii "s3") page]

end Audit

theorem responses_accounted_audit :
    (departures (Clocked.moments ⟨.tiny, {}⟩ Audit.ops)).map (·.1) =
      [.replaced, .evicted, .served, .expired] ∧
    (Clocked.follow ⟨.tiny, {}⟩ Audit.ops).store.stats.counters = [4, 1, 1, 1, 1] ∧
    4 = (Clocked.follow ⟨.tiny, {}⟩ Audit.ops).store.size + 1 + 1 + 1 +
      (Clocked.moments ⟨.tiny, {}⟩ Audit.ops).countP (·.Replaces) ∧
    ∀ n ∈ (Clocked.follow ⟨.tiny, {}⟩ Audit.ops).store.stats.counters, n < UInt64.size := by
  have hrun : Run ⟨{ limits := Store.tiny.limits }, {}⟩ (Clocked.moments ⟨.tiny, {}⟩ Audit.ops)
      (Clocked.follow ⟨.tiny, {}⟩ Audit.ops) := Clocked.run ⟨.tiny, {}⟩ Audit.ops
  have hstats : (Clocked.follow ⟨.tiny, {}⟩ Audit.ops).store.stats = ⟨4, 1, 1, 1, 1⟩ := by
    decide +kernel
  obtain ⟨⟨-, -, -, hstored⟩, -, hwide⟩ := responses_accounted hrun
  rw [hstats] at hstored
  exact ⟨by decide +kernel, by rw [hstats]; rfl, hstored, hwide (by decide +kernel)⟩

end PageReply
