import PageReply.Proofs.Http.History

/-!
# What a message refuses

A message has a reason for every call that it refuses: it has been redirected, or it is to be
redirected although it has been written to, by a status that does not redirect, or to a URL that is
no field value. A redirect is looked at in this order, and the first reason counts. There is no
other reason, and a call that there is no reason against is accepted.

What is refused leaves the message as it was, also a response, which is several calls. So a message
that could not be redirected can still be written.
-/

namespace PageReply

namespace Message

variable {m : Message} {call : Call} {fault : Fault}

/-- What a message has against a call. -/
inductive Objects (m : Message) : Call → Fault → Prop
  | redirected (call : Call) (phase : m.phase = .redirected) :
      Objects m call (.alreadyRedirected call.kind)
  | written (url : Bytes) (status : Status) (phase : m.phase = .writing) :
      Objects m (.redirect url status) .bodyStarted
  | status (url : Bytes) {status : Status} (phase : m.phase = .pristine)
      (noRedirect : ¬ status.IsRedirect) : Objects m (.redirect url status) .notRedirectStatus
  | url {url : Bytes} {status : Status} (phase : m.phase = .pristine)
      (isRedirect : status.IsRedirect) (noValue : ¬ Header.ValidValue url.trim) :
      Objects m (.redirect url status) (.header .value)

/-- Before a message has been redirected it refuses nothing but redirects. -/
theorem exists_eq_redirect (hphase : m.phase ≠ .redirected) (h : m.accept call = .error fault) :
    ∃ url status, call = .redirect url status := by
  cases call with
  | redirect url status => exact ⟨url, status, rfl⟩
  | _ => simp [accept, hphase] at h

/-- A call is refused for what the message has against it, and only for that. -/
theorem accept_eq_error_iff : m.accept call = .error fault ↔ m.Objects call fault := by
  constructor
  · intro h
    cases hphase : m.phase with
    | redirected =>
      rw [accept_of_redirected hphase] at h
      cases h
      exact .redirected call hphase
    | writing =>
      obtain ⟨url, status, rfl⟩ := exists_eq_redirect (by simp [hphase]) h
      simp only [accept, redirect, hphase] at h
      cases h
      exact .written url status hphase
    | pristine =>
      obtain ⟨url, status, rfl⟩ := exists_eq_redirect (by simp [hphase]) h
      by_cases hstatus : status.IsRedirect
      · obtain ⟨rfl, hurl⟩ := (redirect_eq_error_iff hphase hstatus).1 h
        exact .url hphase hstatus (mt Header.validValue_trim_iff.1 hurl)
      · simp only [accept, redirect, hphase, if_neg hstatus] at h
        cases h
        exact .status url hphase hstatus
  · intro h
    cases h with
    | redirected call hphase => exact accept_of_redirected hphase call
    | written url status hphase => simp [accept, redirect, hphase]
    | status url hphase hstatus => simp [accept, redirect, hphase, hstatus]
    | url hphase hstatus hurl =>
      exact (redirect_eq_error_iff hphase hstatus).2 ⟨rfl, mt Header.validValue_trim_iff.2 hurl⟩

end Message

/-! ## Deeds -/

namespace Deed

variable {m : Message} {deed : Deed} {call : Call} {category : Fault.Category}

/-- Whether a deed is done, or else what kind of failure it is. -/
def verdict (deed : Deed) (m : Message) : Except Fault.Category Unit :=
  (deed.perform m).1.mapError Fault.category

theorem perform_call (call : Call) (m : Message) :
    (Deed.call call).perform m = Live.perform call m :=
  Live.performAll_singleton call m

theorem verdict_call_eq_error_iff : (Deed.call call).verdict m = .error category ↔
    ∃ fault, m.Objects call fault ∧ fault.category = category := by
  simp only [← Message.accept_eq_error_iff, verdict, perform_call, Live.perform]
  cases m.accept call <;> simp [Except.mapError]

theorem verdict_call_eq_ok_iff :
    (Deed.call call).verdict m = .ok () ↔ ∀ fault, ¬ m.Objects call fault := by
  simp only [← Message.accept_eq_error_iff, verdict, perform_call, Live.perform]
  cases m.accept call <;> simp [Except.mapError]

/-- A call of another kind than a redirect meets one objection only. -/
theorem verdict_call (hkind : call.kind ≠ .redirect) : (Deed.call call).verdict m =
    if m.phase = .redirected then .error .badState else .ok () := by
  split
  · next hphase => exact verdict_call_eq_error_iff.2 ⟨_, .redirected call hphase, rfl⟩
  · next hphase =>
    refine verdict_call_eq_ok_iff.2 fun fault hfault => ?_
    obtain ⟨url, status, rfl⟩ :=
      Message.exists_eq_redirect hphase (Message.accept_eq_error_iff.2 hfault)
    exact hkind rfl

section Redirect

variable {url : Bytes} {status : Status}

theorem verdict_redirect_eq_badState_iff :
    (Deed.call (.redirect url status)).verdict m = .error .badState ↔
      m.phase = .writing ∨ m.phase = .redirected := by
  rw [verdict_call_eq_error_iff]
  constructor
  · rintro ⟨fault, hfault, hcategory⟩
    cases hfault with
    | redirected _ hphase => exact .inr hphase
    | written _ _ hphase => exact .inl hphase
    | status _ _ _ => cases hcategory
    | url _ _ _ => cases hcategory
  · rintro (hphase | hphase)
    · exact ⟨_, .written url status hphase, rfl⟩
    · exact ⟨_, .redirected _ hphase, rfl⟩

theorem verdict_redirect_eq_badArgument_iff :
    (Deed.call (.redirect url status)).verdict m = .error .badArgument ↔
      m.phase = .pristine ∧ (¬ status.IsRedirect ∨ ¬ Header.ValidValue url.trim) := by
  rw [verdict_call_eq_error_iff]
  constructor
  · rintro ⟨fault, hfault, hcategory⟩
    cases hfault with
    | redirected _ _ => cases hcategory
    | written _ _ _ => cases hcategory
    | status _ hphase hstatus => exact ⟨hphase, .inl hstatus⟩
    | url hphase _ hurl => exact ⟨hphase, .inr hurl⟩
  · rintro ⟨hphase, hreason⟩
    by_cases hstatus : status.IsRedirect
    · exact ⟨_, .url hphase hstatus (hreason.resolve_left (not_not_intro hstatus)), rfl⟩
    · exact ⟨_, .status url hphase hstatus, rfl⟩

theorem verdict_redirect_eq_ok_iff :
    (Deed.call (.redirect url status)).verdict m = .ok () ↔
      m.phase = .pristine ∧ status.IsRedirect ∧ Header.ValidValue url.trim := by
  rw [verdict_call_eq_ok_iff]
  constructor
  · intro hnone
    have hphase : m.phase = .pristine := by
      cases hphase : m.phase with
      | pristine => rfl
      | writing => exact absurd (.written url status hphase) (hnone _)
      | redirected => exact absurd (.redirected _ hphase) (hnone _)
    have hstatus : status.IsRedirect := by
      by_contra hstatus
      exact hnone _ (.status url hphase hstatus)
    refine ⟨hphase, hstatus, ?_⟩
    by_contra hurl
    exact hnone _ (.url hphase hstatus hurl)
  · rintro ⟨hphase, hstatus, hurl⟩ fault hfault
    cases hfault with
    | redirected _ hother => cases hphase.symm.trans hother
    | written _ _ hother => cases hphase.symm.trans hother
    | status _ _ hnot => exact hnot hstatus
    | url _ _ hnot => exact hnot hurl

/-- A redirect that is done adds the field for its location and sets the status for it. -/
theorem perform_redirect (h : (Deed.call (.redirect url status)).verdict m = .ok ()) :
    ∃ location : Header, location.name = m.locationName ∧ location.value = url.trim ∧
      (Deed.call (.redirect url status)).perform m =
        (.ok (),
          { m with
            phase := .redirected
            status := m.redirectStatus status
            headers := m.headers ++ [location] }) := by
  simp only [verdict, perform_call, Live.perform] at h
  cases haccept : m.accept (.redirect url status) with
  | error fault => simp [haccept, Except.mapError] at h
  | ok after =>
    obtain ⟨-, -, location, hname, hvalue, rfl⟩ := Message.redirect_inv haccept
    refine ⟨location, hname, hvalue, ?_⟩
    simp only [perform_call, Live.perform, haccept]

end Redirect

/-- A response is refused by its first call, or not at all. -/
theorem verdict_replay (r : Response) : (Deed.replay r).verdict m =
    if m.phase = .redirected then .error .badState else .ok () := by
  split
  · next hphase =>
    rw [verdict, perform, calls, Message.performAll_calls_of_redirected hphase]
    rfl
  · next hphase =>
    rw [verdict, perform, calls, Message.performAll_calls hphase]
    rfl

/-- What is not done leaves nothing behind. -/
theorem perform_eq_self (h : deed.verdict m ≠ .ok ()) : (deed.perform m).2 = m := by
  rcases hperform : deed.perform m with ⟨fault | done, after⟩
  · cases deed with
    | call call => exact Message.eq_of_refused (perform_call call m ▸ hperform)
    | replay response => exact Message.eq_of_replay_refused hperform
  · rw [verdict, hperform] at h
    exact absurd rfl h

end Deed

namespace Message

/-- **A message refuses what it has to and is left as it was by it.** Status, fields and chunks are
refused after a redirect; a redirect is refused in a wrong state if the message has been written to
or redirected, and otherwise as a bad argument if its status does not redirect or its URL, without
the blanks at its ends, is no field value, and is otherwise done; a response is refused after a
redirect, and taken whole otherwise. What is refused changes nothing, so after a redirect that a new
message has refused it still takes any response whole. -/
theorem refuses_exactly (m : Message) :
    (∀ call : Call, call.kind ≠ .redirect →
      ((Deed.call call).verdict m = .error .badState ↔ m.phase = .redirected) ∧
      ((Deed.call call).verdict m = .ok () ↔ m.phase ≠ .redirected)) ∧
    (∀ url status,
      ((Deed.call (.redirect url status)).verdict m = .error .badState ↔
        m.phase = .writing ∨ m.phase = .redirected) ∧
      ((Deed.call (.redirect url status)).verdict m = .error .badArgument ↔
        m.phase = .pristine ∧ (¬ status.IsRedirect ∨ ¬ Header.ValidValue url.trim)) ∧
      ((Deed.call (.redirect url status)).verdict m = .ok () ↔
        m.phase = .pristine ∧ status.IsRedirect ∧ Header.ValidValue url.trim) ∧
      ((Deed.call (.redirect url status)).verdict m = .ok () →
        ∃ location : Header, location.name = m.locationName ∧ location.value = url.trim ∧
          (Deed.call (.redirect url status)).perform m =
            (.ok (),
              { m with
                phase := .redirected
                status := m.redirectStatus status
                headers := m.headers ++ [location] }))) ∧
    (∀ response : Response,
      ((Deed.replay response).verdict m = .error .badState ↔ m.phase = .redirected) ∧
      (m.phase ≠ .redirected → (Deed.replay response).perform m =
        (.ok (),
          { m with
            phase := .writing
            status := response.status
            headers := m.headers ++ response.headers
            body := m.body ++ response.body }))) ∧
    (∀ deed : Deed, deed.verdict m ≠ .ok () → (deed.perform m).2 = m) ∧
    ∀ url status (response : Response), m.phase = .pristine →
      (Deed.call (.redirect url status)).verdict m ≠ .ok () →
      (Deed.replay response).perform ((Deed.call (.redirect url status)).perform m).2 =
        (.ok (),
          { m with
            phase := .writing
            status := response.status
            headers := m.headers ++ response.headers
            body := m.body ++ response.body }) := by
  refine ⟨fun call hkind => ?_, fun url status => ⟨Deed.verdict_redirect_eq_badState_iff,
      Deed.verdict_redirect_eq_badArgument_iff, Deed.verdict_redirect_eq_ok_iff,
      Deed.perform_redirect⟩,
    fun response => ⟨?_, fun hphase => performAll_calls hphase response⟩,
    fun deed => Deed.perform_eq_self, fun url status response hphase hrefused => ?_⟩
  · rw [Deed.verdict_call hkind]
    by_cases hphase : m.phase = .redirected <;> simp [hphase]
  · rw [Deed.verdict_replay]
    by_cases hphase : m.phase = .redirected <;> simp [hphase]
  · rw [Deed.perform_eq_self hrefused]
    exact performAll_calls (by simp [hphase]) response

end Message

end PageReply
