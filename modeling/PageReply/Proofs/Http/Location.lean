import PageReply.Proofs.Http.History

/-!
# Where a redirect leads

A redirect that a message accepts names its URL in a field at the end. Nothing keeps a message from
accepting a field of the same name before, and whoever looks that name up finds the first. So the
client is sent to the URL of the redirect if no call before it has added such a field, and otherwise
to wherever the first of those fields says.
-/

namespace PageReply

/-- The field that a call adds by itself. -/
def Call.header? : Call → Option Header
  | header h => some h
  | status _ | write _ | redirect _ _ => none

theorem Call.header?_eq_some_iff {call : Call} {h : Header} :
    call.header? = some h ↔ call = header h := by
  cases call <;> simp [header?]

namespace Message

/-- Before it is redirected, a message has the fields that were added to it. -/
theorem History.headers_eq {ajax : Bool} {calls : List Call} {m : Message}
    (h : History ajax calls m) (hphase : m.phase ≠ .redirected) :
    m.headers = calls.filterMap Call.header? := by
  induction h with
  | new => rfl
  | snoc _ haccept ih =>
    obtain ⟨_, rfl, hbefore, rfl⟩ | ⟨_, rfl, hbefore, rfl⟩ | ⟨_, rfl, hbefore, rfl⟩ |
      ⟨_, _, _, rfl, -, -, -, rfl⟩ := accept_inv haccept
    · simpa [List.filterMap_cons, Call.header?] using ih hbefore
    · simpa [List.filterMap_cons, Call.header?] using ih hbefore
    · simpa [List.filterMap_cons, Call.header?] using ih hbefore
    · exact absurd rfl hphase

/-- A redirect is alone in telling where to go if nothing told it before, and only then. -/
theorem redirect_alone_iff {m after : Message} {url : Bytes} {status : Status}
    (h : m.redirect url status = .ok after) :
    after.header? after.locationName = some url.trim ∧
        (Header.values after.headers after.locationName).length = 1 ↔
      Header.values m.headers m.locationName = [] := by
  rw [values_redirect h, List.length_append, List.length_singleton, Nat.add_eq_right,
    List.length_eq_zero_iff]
  refine ⟨And.right, fun hnone => ⟨header?_locationName h ?_, hnone⟩⟩
  rw [header?, Header.find?_eq_head?_values, hnone, List.head?_nil]

/-- **When the client is sent where the redirect says.** After a redirect is accepted, the fields
of the name that tells where to go are those that were added before, and then the one of the
redirect. The client looks at the first. So it finds the URL, and no other field of that name is
there, if no accepted call has added one in any letter case, and only then. -/
theorem location_seen_iff {ajax : Bool} {deeds : List Deed} {url : Bytes} {status : Status}
    {after : Message}
    (h : (Deed.call (.redirect url status)).perform (life { ajax } deeds) = (.ok (), after)) :
    Header.values after.headers after.locationName =
      Header.values ((heard { ajax } deeds).filterMap Call.header?) after.locationName ++
        [url.trim] ∧
    after.header? after.locationName = some
      ((Header.find? ((heard { ajax } deeds).filterMap Call.header?) after.locationName).getD
        url.trim) ∧
    (after.header? after.locationName = some url.trim ∧
        (Header.values after.headers after.locationName).length = 1 ↔
      ∀ header, .header header ∈ heard { ajax } deeds →
        ¬ Bytes.EqFold header.name after.locationName) := by
  have hredirect : (life { ajax } deeds).redirect url status = .ok after := accept_of_performAll h
  obtain ⟨hphase, -, location, -, -, rfl⟩ := redirect_inv hredirect
  -- The message was no redirect before, so all its fields were added by calls.
  have hheaders : (life { ajax } deeds).headers =
      (heard { ajax } deeds).filterMap Call.header? :=
    (history_life ajax deeds).headers_eq (by simp [hphase])
  rw [redirect_alone_iff hredirect, values_redirect hredirect, header?_redirect hredirect, header?,
    hheaders]
  refine ⟨rfl, rfl, ?_⟩
  simp only [Header.values_eq_nil_iff, List.mem_filterMap, Call.header?_eq_some_iff,
    exists_eq_right]
  rfl

/-- A field of the name that tells a browser where to go. -/
def bookmark : Header where
  name := ascii "Location"
  value := ascii "/old"
  name_valid := by decide +kernel
  value_valid := by decide +kernel
  value_trimmed := by decide +kernel

/-- The redirect is accepted, but the client is sent where the other field says. -/
theorem location_unseen :
    ((Deed.call (.redirect (ascii "/new") .found)).perform
      (life {} [.call (.header bookmark)])).1 = .ok () ∧
    ((Deed.call (.redirect (ascii "/new") .found)).perform
      (life {} [.call (.header bookmark)])).2.header? (ascii "Location") = some (ascii "/old") ∧
    Header.values ((Deed.call (.redirect (ascii "/new") .found)).perform
      (life {} [.call (.header bookmark)])).2.headers (ascii "Location") =
        [ascii "/old", ascii "/new"] := by
  decide +kernel

/-- What is done to the message of a script before it is redirected: the field for browsers is
added, and a redirect to a URL of two lines is refused. -/
def misdirections : List Deed :=
  [.call (.header bookmark), .call (.redirect (ascii "a\nb") .found)]

/-- The message after it has been redirected. -/
def misdirected : Message :=
  ((Deed.call (.redirect (ascii " page ") .seeOther)).perform
    (life { ajax := true } misdirections)).2

theorem location_seen_iff_misdirections :
    (Deed.call (.redirect (ascii " page ") .seeOther)).perform
      (life { ajax := true } misdirections) = (.ok (), misdirected) ∧
    misdirected.header? (ascii "Ajax-Location") = some (ascii "page") ∧
    (Header.values misdirected.headers (ascii "Ajax-Location")).length = 1 := by
  have haccept : (Deed.call (.redirect (ascii " page ") .seeOther)).perform
      (life { ajax := true } misdirections) = (.ok (), misdirected) := by
    decide +kernel
  have hname : misdirected.locationName = ascii "Ajax-Location" := by decide +kernel
  have htrim : (ascii " page ").trim = ascii "page" := by decide +kernel
  have hheard : heard { ajax := true } misdirections = [.header bookmark] := by decide +kernel
  obtain ⟨-, -, hseen⟩ := location_seen_iff haccept
  rw [hname, htrim] at hseen
  refine ⟨haccept, hseen.2 fun header hmem => ?_⟩
  rw [hheard, List.mem_singleton, Call.header.injEq] at hmem
  rw [hmem]
  decide +kernel

end Message

end PageReply
