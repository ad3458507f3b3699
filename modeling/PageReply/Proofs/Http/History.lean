import Mathlib.Data.List.Basic
import PageReply.Proofs.Http.Redirect
import PageReply.Proofs.Http.Whole

/-!
# The history of a message

Whoever builds a message may go on after a refusal. What the message is then follows from the calls
that it accepted, in their order: its body is what was written, its fields are those that were
added, and its phase says whether it was written to, redirected, or neither. A redirect is accepted
only if nothing was written before, and is the last call that is accepted.
-/

namespace PageReply

namespace Live

variable {σ : Type} [Live σ]

/-- Of some calls those that are accepted: all before the first that is refused. -/
def accepted : List Call → σ → List Call
  | [], _ => []
  | call :: calls, live =>
    match perform call live with
    | (.ok (), after) => call :: accepted calls after
    | (.error _, _) => []

end Live

namespace Call

@[simp] theorem kind_status (s : Status) : (status s).kind = .status := rfl

@[simp] theorem kind_header (h : Header) : (header h).kind = .header := rfl

@[simp] theorem kind_write (chunk : Bytes) : (write chunk).kind = .write := rfl

@[simp] theorem kind_redirect (url : Bytes) (s : Status) : (redirect url s).kind = .redirect := rfl

/-- The bytes that a call adds to the body. -/
def chunk : Call → Bytes
  | write chunk => chunk
  | status _ | header _ | redirect _ _ => []

/-- The names and values of the fields that a call adds, if redirects go by the given name. -/
def fields (locationName : Bytes) : Call → List (Bytes × Bytes)
  | header h => [(h.name, h.value)]
  | redirect url _ => [(locationName, url.trim)]
  | status _ | write _ => []

end Call

namespace Message

variable {m after : Message} {call : Call}

/-- The names and values of the fields, in order. -/
def fields (m : Message) : List (Bytes × Bytes) :=
  m.headers.map fun h => (h.name, h.value)

/-- What an accepted call does to a message. -/
theorem accept_inv (h : m.accept call = .ok after) :
    (∃ status, call = .status status ∧ m.phase ≠ .redirected ∧ after = { m with status }) ∨
    (∃ header, call = .header header ∧ m.phase ≠ .redirected ∧
      after = { m with headers := m.headers ++ [header] }) ∨
    (∃ chunk, call = .write chunk ∧ m.phase ≠ .redirected ∧
      after = { m with phase := .writing, body := m.body ++ chunk }) ∨
    (∃ url status location, call = .redirect url status ∧ m.phase = .pristine ∧
      location.name = m.locationName ∧ location.value = url.trim ∧
      after =
        { m with
          phase := .redirected
          status := m.redirectStatus status
          headers := m.headers ++ [location] }) := by
  cases call with
  | status status =>
    rw [accept] at h
    split at h
    · cases h
    · next hphase => exact .inl ⟨status, rfl, hphase, (Except.ok.inj h).symm⟩
  | header header =>
    rw [accept] at h
    split at h
    · cases h
    · next hphase => exact .inr (.inl ⟨header, rfl, hphase, (Except.ok.inj h).symm⟩)
  | write chunk =>
    rw [accept] at h
    split at h
    · cases h
    · next hphase => exact .inr (.inr (.inl ⟨chunk, rfl, hphase, (Except.ok.inj h).symm⟩))
  | redirect url status =>
    obtain ⟨hphase, -, location, hname, hvalue, hafter⟩ := redirect_inv h
    exact .inr (.inr (.inr ⟨url, status, location, rfl, hphase, hname, hvalue, hafter⟩))

/-! ## Histories -/

/-- A message, and the calls that it accepted since it was new. -/
inductive History (ajax : Bool) : List Call → Message → Prop
  | new : History ajax [] { ajax }
  | snoc {calls : List Call} {m after : Message} {call : Call} (history : History ajax calls m)
    (accepted : m.accept call = .ok after) : History ajax (calls ++ [call]) after

namespace History

variable {ajax : Bool} {calls : List Call}

/-- Calls that are made go into the history as far as they are accepted. -/
theorem performAll (h : History ajax calls m) (more : List Call) :
    History ajax (calls ++ Live.accepted more m) (Live.performAll more m).2 := by
  induction more generalizing calls m with
  | nil => simpa [Live.accepted, Live.performAll] using h
  | cons call more ih =>
    cases haccept : m.accept call with
    | error fault => simpa [Live.accepted, Live.performAll, Live.perform, haccept] using h
    | ok after =>
      have hrest := ih (h.snoc haccept)
      simpa [Live.accepted, Live.performAll, Live.perform, haccept] using hrest

theorem ajax_eq (h : History ajax calls m) : m.ajax = ajax := by
  induction h with
  | new => rfl
  | snoc _ haccept ih =>
    obtain ⟨_, -, -, rfl⟩ | ⟨_, -, -, rfl⟩ | ⟨_, -, -, rfl⟩ | ⟨_, _, _, -, -, -, -, rfl⟩ :=
      accept_inv haccept <;> exact ih

/-- The body is what was written, in order. -/
theorem body_eq (h : History ajax calls m) : m.body = calls.flatMap Call.chunk := by
  induction h with
  | new => rfl
  | snoc _ haccept ih =>
    rw [List.flatMap_append, ← ih]
    obtain ⟨_, rfl, -, rfl⟩ | ⟨_, rfl, -, rfl⟩ | ⟨_, rfl, -, rfl⟩ | ⟨_, _, _, rfl, -, -, -, rfl⟩ :=
      accept_inv haccept <;> simp [Call.chunk]

/-- The fields are those that were added, in order, the location among them. -/
theorem fields_eq (h : History ajax calls m) :
    m.fields = calls.flatMap (Call.fields m.locationName) := by
  induction h with
  | new => rfl
  | snoc _ haccept ih =>
    obtain ⟨_, rfl, -, rfl⟩ | ⟨_, rfl, -, rfl⟩ | ⟨_, rfl, -, rfl⟩ |
      ⟨_, _, location, rfl, -, hname, hvalue, rfl⟩ := accept_inv haccept
    · simpa [fields, locationName, Call.fields] using ih
    · simpa [fields, locationName, Call.fields] using ih
    · simpa [fields, locationName, Call.fields] using ih
    · simpa [fields, locationName, Call.fields, hname, hvalue] using ih

/-- The phase tells what kinds of calls were accepted. -/
theorem phase_iff (h : History ajax calls m) :
    (m.phase = .writing ↔ .write ∈ calls.map Call.kind) ∧
      (m.phase = .redirected ↔ .redirect ∈ calls.map Call.kind) := by
  induction h with
  | new => simp
  | @snoc calls m after call _ haccept ih =>
    obtain ⟨_, rfl, -, rfl⟩ | ⟨_, rfl, -, rfl⟩ | ⟨_, rfl, hphase, rfl⟩ |
      ⟨_, _, _, rfl, hphase, -, -, rfl⟩ := accept_inv haccept
    · simpa using ih
    · simpa using ih
    · have hnone : .redirect ∉ calls.map Call.kind := fun hmem => hphase (ih.2.2 hmem)
      simpa using hnone
    · have hnone : .write ∉ calls.map Call.kind := by
        rw [← ih.1, hphase]
        decide
      simpa using hnone

theorem pristine_iff (h : History ajax calls m) :
    m.phase = .pristine ↔ .write ∉ calls.map Call.kind ∧ .redirect ∉ calls.map Call.kind := by
  rw [← h.phase_iff.1, ← h.phase_iff.2]
  cases m.phase <;> simp

/-- A redirect is the last call that is accepted, and nothing was written before it. -/
theorem eq_append_redirect (h : History ajax calls m) (hphase : m.phase = .redirected) :
    ∃ before url status, calls = before ++ [.redirect url status] ∧
      .write ∉ before.map Call.kind ∧ .redirect ∉ before.map Call.kind := by
  cases h with
  | new => cases hphase
  | @snoc before m _ call history haccept =>
    obtain ⟨_, -, hnot, rfl⟩ | ⟨_, -, hnot, rfl⟩ | ⟨_, -, hnot, rfl⟩ |
      ⟨url, status, _, rfl, hpristine, -, -, rfl⟩ := accept_inv haccept
    · exact absurd hphase hnot
    · exact absurd hphase hnot
    · cases hphase
    · obtain ⟨hwrite, hredirect⟩ := history.pristine_iff.1 hpristine
      exact ⟨before, url, status, rfl, hwrite, hredirect⟩

theorem count_redirect_le_one (h : History ajax calls m) :
    (calls.map Call.kind).count .redirect ≤ 1 := by
  by_cases hredirect : .redirect ∈ calls.map Call.kind
  · obtain ⟨before, url, status, rfl, -, hnone⟩ := h.eq_append_redirect (h.phase_iff.2.2 hredirect)
    rw [List.map_append, List.count_append, List.count_eq_zero_of_not_mem hnone]
    simp
  · rw [List.count_eq_zero_of_not_mem hredirect]
    exact Nat.zero_le 1

/-- Without a write there is no body. -/
theorem body_eq_nil (h : History ajax calls m) (hnone : .write ∉ calls.map Call.kind) :
    m.body = [] := by
  rw [h.body_eq, List.flatMap_eq_nil_iff]
  intro call hcall
  cases call with
  | write chunk => exact absurd (List.mem_map_of_mem hcall) hnone
  | _ => rfl

end History

end Message

/-! ## Lives -/

/-- Something that is done to a message in one go. -/
inductive Deed where
  | call (call : Call)
  | replay (response : Response)
deriving DecidableEq, Repr

namespace Deed

def calls : Deed → List Call
  | call c => [c]
  | replay response => response.calls

/-- Does it to a message, as far as the message accepts it. -/
def perform (deed : Deed) (m : Message) : Except Fault Unit × Message :=
  Live.performAll deed.calls m

/-- After a redirect nothing can be done any more. -/
theorem perform_of_redirected {m : Message} (hphase : m.phase = .redirected) (deed : Deed) :
    ∃ fault, deed.perform m = (.error fault, m) := by
  obtain ⟨first, rest, hcalls⟩ : ∃ first rest, deed.calls = first :: rest := by
    cases deed with
    | call c => exact ⟨c, [], rfl⟩
    | replay response => exact ⟨_, _, rfl⟩
  have hrefused := Message.accept_of_redirected hphase first
  exact ⟨.alreadyRedirected first.kind,
    by simp only [perform, hcalls, Live.performAll, Live.perform, hrefused]⟩

end Deed

namespace Message

/-- The message after some deeds, each of which may be refused. -/
def life (m : Message) (deeds : List Deed) : Message :=
  deeds.foldl (fun m deed => (deed.perform m).2) m

/-- The calls that a message accepts of some deeds. -/
def heard (m : Message) : List Deed → List Call
  | [] => []
  | deed :: deeds => Live.accepted deed.calls m ++ heard (deed.perform m).2 deeds

theorem life_append (m : Message) (deeds more : List Deed) :
    m.life (deeds ++ more) = (m.life deeds).life more :=
  List.foldl_append

theorem life_of_redirected {m : Message} (hphase : m.phase = .redirected) (deeds : List Deed) :
    m.life deeds = m := by
  induction deeds with
  | nil => rfl
  | cons deed deeds ih =>
    obtain ⟨fault, hrefused⟩ := deed.perform_of_redirected hphase
    rw [life, List.foldl_cons, hrefused]
    exact ih

/-- Every life is a history. -/
theorem History.life {ajax : Bool} {calls : List Call} {m : Message} (h : History ajax calls m)
    (deeds : List Deed) : History ajax (calls ++ m.heard deeds) (m.life deeds) := by
  induction deeds generalizing calls m with
  | nil => simpa [heard, Message.life] using h
  | cons deed deeds ih =>
    rw [heard, ← List.append_assoc]
    exact ih (h.performAll deed.calls)

theorem history_life (ajax : Bool) (deeds : List Deed) :
    History ajax (heard { ajax } deeds) (life { ajax } deeds) :=
  History.new.life deeds

/-- A redirect that is accepted is the end of a message. -/
theorem life_redirect {ajax : Bool} {before : List Deed} {url : Bytes} {status : Status}
    (haccept : ((Deed.call (.redirect url status)).perform (life { ajax } before)).1 = .ok ())
    (later : List Deed) :
    life { ajax } (before ++ .call (.redirect url status) :: later) =
        life { ajax } (before ++ [.call (.redirect url status)]) ∧
      (life { ajax } (before ++ [.call (.redirect url status)])).phase = .redirected ∧
      (life { ajax } (before ++ [.call (.redirect url status)])).fields =
        (life { ajax } before).fields ++ [(locationName { ajax }, url.trim)] := by
  have hajax := (history_life ajax before).ajax_eq
  rw [life_append, life_append]
  generalize life { ajax } before = m at haccept hajax ⊢
  have hperform : Live.performAll [.redirect url status] m =
      (.ok (), m.life [.call (.redirect url status)]) := Prod.ext haccept rfl
  have hredirect : m.redirect url status = .ok (m.life [.call (.redirect url status)]) :=
    accept_of_performAll hperform
  obtain ⟨-, -, location, hname, hvalue, hafter⟩ := redirect_inv hredirect
  have hphase : (m.life [.call (.redirect url status)]).phase = .redirected := by rw [hafter]
  refine ⟨life_of_redirected hphase later, hphase, ?_⟩
  rw [hafter]
  simp [fields, hname, hvalue, locationName, hajax]

/-- **A message is written to or redirected, never both**, whatever is done to it and whatever it
refuses. Once it has accepted a redirect it is what it is and refuses everything; and at any time
the calls that it accepted tell its phase, its body and its fields. -/
theorem written_or_redirected (ajax : Bool) (deeds : List Deed) :
    ((heard { ajax } deeds).map Call.kind).count .redirect ≤ 1 ∧
    (∀ before url status later, deeds = before ++ .call (.redirect url status) :: later →
      ((Deed.call (.redirect url status)).perform (life { ajax } before)).1 = .ok () →
        .write ∉ (heard { ajax } deeds).map Call.kind ∧
        (life { ajax } deeds).body = [] ∧
        (life { ajax } deeds).fields.getLast? = some (locationName { ajax }, url.trim) ∧
        life { ajax } deeds = life { ajax } (before ++ [.call (.redirect url status)]) ∧
        ∀ deed : Deed, ∃ fault,
          deed.perform (life { ajax } deeds) = (.error fault, life { ajax } deeds)) ∧
    ((life { ajax } deeds).phase = .writing ↔ .write ∈ (heard { ajax } deeds).map Call.kind) ∧
    ((life { ajax } deeds).phase = .pristine ↔
      .write ∉ (heard { ajax } deeds).map Call.kind ∧
        .redirect ∉ (heard { ajax } deeds).map Call.kind) ∧
    (life { ajax } deeds).body = (heard { ajax } deeds).flatMap Call.chunk ∧
    (life { ajax } deeds).fields =
      (heard { ajax } deeds).flatMap (Call.fields (locationName { ajax })) := by
  have history := history_life ajax deeds
  have hname : (life { ajax } deeds).locationName = locationName { ajax } := by
    simp [locationName, history.ajax_eq]
  refine ⟨history.count_redirect_le_one, ?_, history.phase_iff.1, history.pristine_iff,
    history.body_eq, hname ▸ history.fields_eq⟩
  rintro before url status later rfl haccept
  obtain ⟨hsame, hphase, hfields⟩ := life_redirect haccept later
  have hend : (life { ajax } (before ++ .call (.redirect url status) :: later)).phase =
      .redirected := hsame ▸ hphase
  obtain ⟨calls, _, _, hcalls, hwrite, -⟩ := history.eq_append_redirect hend
  have hnone : .write ∉ (heard { ajax }
      (before ++ .call (.redirect url status) :: later)).map Call.kind := by
    rw [hcalls]
    simpa using hwrite
  refine ⟨hnone, history.body_eq_nil hnone, ?_, hsame, Deed.perform_of_redirected hend⟩
  rw [hsame, hfields, List.getLast?_concat]

/-- A script is to be sent to a URL of two lines first, then to another one, then elsewhere again,
and at last gets a body. -/
def waverings : List Deed :=
  [.call (.status .seeOther), .call (.redirect (ascii "a\nb") .found),
    .call (.redirect (ascii " page ") .found), .call (.redirect (ascii "form") .seeOther),
    .replay { body := ascii "text" }]

theorem written_or_redirected_waverings :
    ((heard { ajax := true } waverings).map Call.kind).count .redirect ≤ 1 ∧
    (life { ajax := true } waverings).body = [] ∧
    (life { ajax := true } waverings).fields.getLast? =
      some (ascii "Ajax-Location", ascii "page") ∧
    ∀ deed : Deed, ∃ fault, deed.perform (life { ajax := true } waverings) =
      (.error fault, life { ajax := true } waverings) := by
  have haccept : ((Deed.call (.redirect (ascii " page ") .found)).perform (life { ajax := true }
      [.call (.status .seeOther), .call (.redirect (ascii "a\nb") .found)])).1 = .ok () := by
    decide +kernel
  obtain ⟨hcount, hredirect, -⟩ := written_or_redirected true waverings
  obtain ⟨-, hbody, hlast, -, hend⟩ := hredirect _ _ _ _ rfl haccept
  exact ⟨hcount, hbody, hlast, hend⟩

end Message

end PageReply
