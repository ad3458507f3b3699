import PageReply.Http.Message

/-!
# Messages take a response whole

A single call that a message refuses leaves it as it was. A response is several calls, but only the
first of them can be refused: a message that has become a redirect refuses it, and any other message
accepts them all. So a message has a response whole or not at all.
-/

namespace PageReply.Message

variable {m after : Message} {fault : Fault}

theorem eq_of_refused {call : Call} (h : Live.perform call m = (.error fault, after)) :
    after = m := by
  simp only [Live.perform] at h
  cases haccept : m.accept call with
  | ok next =>
    rw [haccept] at h
    cases h
  | error fault' =>
    rw [haccept] at h
    cases h
    rfl

theorem accept_of_redirected (hphase : m.phase = .redirected) (call : Call) :
    m.accept call = .error (.alreadyRedirected call.kind) := by
  cases call <;> simp [accept, redirect, hphase, Call.kind]

theorem kind_of_mem_calls {r : Response} {call : Call} (h : call ∈ r.calls) :
    call.kind ≠ .redirect := by
  simp only [Response.calls, List.cons_append, List.mem_cons, List.mem_append, List.mem_map,
    List.not_mem_nil, or_false] at h
  obtain rfl | ⟨header, -, rfl⟩ | rfl := h <;> simp [Call.kind]

theorem performAll_headers (hphase : m.phase ≠ .redirected) (headers : List Header) :
    Live.performAll (headers.map .header) m =
      (.ok (), { m with headers := m.headers ++ headers }) := by
  induction headers generalizing m with
  | nil => simp [Live.performAll]
  | cons header headers ih =>
    have hcall : Live.perform (.header header) m =
        (.ok (), { m with headers := m.headers ++ [header] }) := by
      simp only [Live.perform, accept, if_neg hphase]
    have hrest := ih (m := { m with headers := m.headers ++ [header] }) hphase
    rw [List.map_cons, Live.performAll, hcall]
    simp only [hrest, List.append_assoc, List.singleton_append]

/-- A message that is no redirect has the status of the response then, and the fields and the body
of the response after its own. -/
theorem performAll_calls (hphase : m.phase ≠ .redirected) (r : Response) :
    Live.performAll r.calls m =
      (.ok (),
        { m with
          phase := .writing
          status := r.status
          headers := m.headers ++ r.headers
          body := m.body ++ r.body }) := by
  have hstatus : Live.perform (.status r.status) m = (.ok (), { m with status := r.status }) := by
    simp only [Live.perform, accept, if_neg hphase]
  have hheaders := performAll_headers (m := { m with status := r.status }) hphase r.headers
  rw [Response.calls, List.cons_append, Live.performAll, hstatus]
  simp only [Live.performAll_append, hheaders, Live.performAll_singleton, Live.perform, accept,
    if_neg hphase]

/-- A redirect refuses a response for its first call, the status. -/
theorem performAll_calls_of_redirected (hphase : m.phase = .redirected) (r : Response) :
    Live.performAll r.calls m = (.error (.alreadyRedirected .status), m) := by
  have hfirst := accept_of_redirected hphase (.status r.status)
  simp only [Response.calls, List.cons_append, Live.performAll, Live.perform, hfirst]
  rfl

theorem eq_of_replay_refused {r : Response}
    (h : Live.performAll r.calls m = (.error fault, after)) : after = m := by
  by_cases hphase : m.phase = .redirected
  · rw [performAll_calls_of_redirected hphase] at h
    cases h
    rfl
  · rw [performAll_calls hphase] at h
    cases h

end PageReply.Message
