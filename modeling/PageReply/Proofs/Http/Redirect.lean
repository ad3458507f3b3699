import PageReply.Http.Message
import PageReply.Proofs.Http.Field

/-!
# Redirects of messages

What a message is after a redirect it accepted, and what the client reads from it.
-/

namespace PageReply

namespace Header

variable {hs ks : List Header} {name : Bytes}

/-- The values of the fields with the given name, in any letter case. -/
def values (headers : List Header) (name : Bytes) : List Bytes :=
  (headers.filter fun h => Bytes.EqFold h.name name).map (·.value)

theorem find?_eq_head?_values : find? hs name = (values hs name).head? := by
  rw [find?, values, List.head?_map, List.head?_filter]

theorem values_append : values (hs ++ ks) name = values hs name ++ values ks name := by
  simp only [values, List.filter_append, List.map_append]

theorem values_eq_nil_iff : values hs name = [] ↔ ∀ h ∈ hs, ¬ Bytes.EqFold h.name name := by
  simp [values]

end Header

namespace Message

variable {m after : Message} {url : Bytes} {status : Status}

theorem accept_of_performAll {call : Call} (h : Live.performAll [call] m = (.ok (), after)) :
    m.accept call = .ok after := by
  simp only [Live.performAll, Live.perform] at h
  cases haccept : m.accept call with
  | error fault => simp [haccept] at h
  | ok taken => simpa [haccept] using h

/-- A message that accepts a redirect has become nothing else before, and gets one field more. -/
theorem redirect_inv (h : m.redirect url status = .ok after) :
    m.phase = .pristine ∧ status.IsRedirect ∧
      ∃ location : Header, location.name = m.locationName ∧ location.value = url.trim ∧
        after =
          { m with
            phase := .redirected
            status := m.redirectStatus status
            headers := m.headers ++ [location] } := by
  unfold redirect at h
  cases hphase : m.phase with
  | writing => simp [hphase] at h
  | redirected => simp [hphase] at h
  | pristine =>
    simp only [hphase] at h
    split at h
    · next hstatus =>
      cases hparts : Header.ofParts m.locationName url with
      | error defect => simp [hparts] at h
      | ok location =>
        obtain ⟨hname, hvalue⟩ := Header.ofParts_eq_ok_iff.1 hparts
        simp only [hparts, Except.ok.injEq] at h
        exact ⟨rfl, hstatus, location, hname, hvalue, h.symm⟩
    · cases h

/-- A message that has become nothing yet refuses a redirect only for its URL. -/
theorem redirect_eq_error_iff {fault : Fault} (hphase : m.phase = .pristine)
    (hstatus : status.IsRedirect) :
    m.redirect url status = .error fault ↔
      fault = .header .value ∧ ¬ Header.ValidValue url := by
  have hname : Header.ValidName m.locationName := by
    rw [locationName]
    cases m.ajax <;> decide +kernel
  have hrefused {defect : Header.Defect} : Header.ofParts m.locationName url = .error defect ↔
      defect = .value ∧ ¬ Header.ValidValue url := by
    simp [Header.ofParts_eq_error_iff, hname]
  unfold redirect
  simp only [hphase, if_pos hstatus]
  cases hparts : Header.ofParts m.locationName url with
  | error defect =>
    obtain ⟨rfl, hvalue⟩ := hrefused.1 hparts
    simp [hvalue, eq_comm]
  | ok location =>
    have hvalue : Header.ValidValue url := (Header.exists_ofParts_iff.1 ⟨location, hparts⟩).2
    simp [hvalue]

/-- The fields that tell where to go after a redirect: those that were there, and its own. -/
theorem values_redirect (h : m.redirect url status = .ok after) :
    Header.values after.headers after.locationName =
      Header.values m.headers m.locationName ++ [url.trim] := by
  obtain ⟨-, -, location, hname, hvalue, rfl⟩ := redirect_inv h
  have hlast : Header.values [location] m.locationName = [url.trim] := by
    simp [Header.values, hname, hvalue, Bytes.EqFold.refl]
  change Header.values (m.headers ++ [location]) m.locationName = _
  rw [Header.values_append, hlast]

/-- The client reads the first field that tells where to go, which is that of the redirect if there
was none before. -/
theorem header?_redirect (h : m.redirect url status = .ok after) :
    after.header? after.locationName = some ((m.header? m.locationName).getD url.trim) := by
  rw [header?, header?, Header.find?_eq_head?_values, Header.find?_eq_head?_values,
    values_redirect h, List.head?_append, List.head?_singleton, Option.or_some]

/-- The client reads the URL of a redirect without the blanks at its ends, unless a field was given
the name of the location before. -/
theorem header?_locationName (h : m.redirect url status = .ok after)
    (hnone : m.header? m.locationName = none) :
    after.header? after.locationName = some url.trim := by
  rw [header?_redirect h, hnone, Option.getD_none]

end Message

end PageReply
