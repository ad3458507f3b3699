import PageReply.Proofs.Store.Invariant

/-!
# Where a response that is handed out comes from

Every entry of a store that was empty at the start of a run was put in by an insertion of the run,
and that insertion is the last operation of the run in its slot: a later one would have removed the
entry. A response that is handed out is therefore the last one put there, not taken since, and not
older than the store is to keep it.
-/

namespace PageReply

/-- The entry was put in by one of the moments, and no later one is about its slot. -/
def Entry.Latest (e : Entry) (ms : List Moment) : Prop :=
  ∃ (session : Bytes) (url : Url) (earlier later : List Moment) (b : Clocked),
    ms = earlier ++ ⟨.insert session url e.response, b⟩ :: later ∧
    (∀ m ∈ later, m.op.slot? ≠ some (session, url)) ∧
    e.key = Store.key session url ∧ e.storedAt = b.now

namespace Entry.Latest

variable {e : Entry} {ms : List Moment}

/-- An operation elsewhere does not replace an entry. -/
theorem snoc (h : e.Latest ms) {m : Moment}
    (hm : ∀ session url, m.op.slot? = some (session, url) → e.key ≠ Store.key session url) :
    e.Latest (ms ++ [m]) := by
  obtain ⟨session, url, earlier, later, b, rfl, hlater, hkey, hat⟩ := h
  refine ⟨session, url, earlier, later ++ [m], b, by simp, ?_, hkey, hat⟩
  intro n hn
  rcases List.mem_append.1 hn with hn | hn
  · exact hlater n hn
  · rw [List.mem_singleton.1 hn]
    exact fun hslot => hm session url hslot hkey

/-- What an insertion adds is the latest in its slot. -/
theorem of_added {op : Op} {b : Clocked} (he : e ∈ op.added b.now) :
    e.Latest (ms ++ [⟨op, b⟩]) := by
  cases op with
  | insert session url response =>
    rw [List.mem_singleton.1 he]
    exact ⟨session, url, ms, [], b, rfl, by simp, rfl, rfl⟩
  | _ => cases he

end Entry.Latest

theorem Run.latest {a c : Clocked} {ms : List Moment} (h : Run a ms c)
    (hempty : a.store.entries = []) : ∀ e ∈ c.store.entries, e.Latest ms := by
  induction h with
  | nil => simp [hempty]
  | @snoc ms b _ op ih =>
    intro e he
    rcases Clocked.mem_of_mem_apply he with ⟨hold, hslot⟩ | hnew
    · exact (ih e hold).snoc hslot
    · exact Entry.Latest.of_added hnew

/-- A look-up that hands a response out has found an entry that is young enough. -/
theorem Clocked.exists_entry_of_hit {c : Clocked} (h : c.WF) {session : Bytes} {url : Url}
    {response : Response} (hit : c.found session url = .hit response) :
    ∃ e ∈ c.store.entries, e.key = Store.key session url ∧ e.response = response ∧
      c.now - e.storedAt < c.store.limits.lifetime := by
  simp only [found, Store.take, Store.lookup] at hit
  split at hit
  · cases hit
  · next e hfind =>
    split at hit
    · cases hit
    · next hfresh =>
      have he := List.mem_of_find?_eq_some hfind
      have hyoung := (Entry.not_expired_iff (h.ageFits_now e he)).1 hfresh
      refine ⟨e, he, ?_, Lookup.hit.inj hit, hyoung⟩
      simpa using List.find?_some hfind

/-- A response that is handed out is the one put in by the last operation in its slot, and was put
in less than a timeout ago. -/
theorem Run.latest_of_hit {a c : Clocked} {ms : List Moment} (h : Run a ms c)
    (hempty : a.store.entries = []) {session : Bytes} {url : Url} {response : Response}
    (hit : c.found session url = .hit response) :
    ∃ (earlier later : List Moment) (b : Clocked),
      ms = earlier ++ ⟨.insert session url response, b⟩ :: later ∧
      (∀ m ∈ later, m.op.slot? ≠ some (session, url)) ∧
      c.now - b.now < a.store.limits.span := by
  have hwf : c.WF := h.wf (.of_entries_eq_nil hempty)
  obtain ⟨e, he, hkey, hresponse, hage⟩ := Clocked.exists_entry_of_hit hwf hit
  obtain ⟨s, u, earlier, later, b, hms, hlater, hkey', hat⟩ := h.latest hempty e he
  obtain ⟨rfl, rfl⟩ := Store.key_inj (hkey.symm.trans hkey')
  rw [hresponse] at hms
  rw [h.limits_eq, hat] at hage
  have hspan := Int.lt_of_lt_of_le hage a.store.limits.lifetime_le_span
  exact ⟨earlier, later, b, hms, hlater, hspan⟩

end PageReply
