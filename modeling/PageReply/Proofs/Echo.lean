import PageReply.Proofs.Answer.Calls
import PageReply.Proofs.Record

/-!
# Echoes

One piece of work echoes another when, started from exchanges that differ in their logs only, both
take the store through the same moments, give the same result and leave exchanges that again differ
in their logs only. Live responses and results need not be the same: two of them may be related
instead, as when they hold logs themselves. Echoes are put together the way the records of the work
are.
-/

namespace PageReply

variable {σ α β γ δ : Type}

/-! ## Related live responses and results -/

namespace Live

variable [Live σ]

/-- Related live responses accept and refuse the same calls, and stay related. -/
def Keeps (R : σ → σ → Prop) : Prop :=
  ∀ call s t, R s t →
    (perform call t).1 = (perform call s).1 ∧ R (perform call s).2 (perform call t).2

theorem keeps_eq : Keeps (Eq : σ → σ → Prop) := by
  rintro call s _ rfl
  exact ⟨rfl, rfl⟩

theorem Keeps.performAll {R : σ → σ → Prop} (h : Keeps R) (calls : List Call) {s t : σ}
    (hst : R s t) :
    (performAll calls t).1 = (performAll calls s).1 ∧
      R (performAll calls s).2 (performAll calls t).2 := by
  induction calls generalizing s t with
  | nil => exact ⟨rfl, hst⟩
  | cons call calls ih =>
    obtain ⟨hresult, hleft⟩ := h call s t hst
    rw [Live.performAll, Live.performAll]
    rcases hs : perform call s with ⟨result, s'⟩
    rcases ht : perform call t with ⟨result', t'⟩
    rw [hs, ht] at hresult hleft
    cases hresult
    cases result with
    | error fault => exact ⟨rfl, hleft⟩
    | ok _ => exact ih hleft

/-- Of related live responses both hear the same calls. -/
theorem Keeps.made_eq {R : σ → σ → Prop} (h : Keeps R) (calls : List Call) {s t : σ}
    (hst : R s t) : made calls t = made calls s := by
  have htapped : Keeps fun s t : Tapped σ => t.calls = s.calls ∧ R s.live t.live := by
    rintro call s t ⟨hcalls, hst⟩
    obtain ⟨hresult, hleft⟩ := h call s.live t.live hst
    exact ⟨hresult, congrArg (· ++ [call]) hcalls, hleft⟩
  obtain ⟨-, hmade, -⟩ := htapped.performAll calls (s := ⟨s, []⟩) (t := ⟨t, []⟩) ⟨rfl, hst⟩
  simpa only [performAll_tapped, List.nil_append] using hmade

end Live

/-- Work ends with the same fault, or with related results. -/
inductive Ends (S : α → β → Prop) : Except Fault α → Except Fault β → Prop
  | ok {a : α} {b : β} (h : S a b) : Ends S (.ok a) (.ok b)
  | error (fault : Fault) : Ends S (.error fault) (.error fault)

theorem Ends.refl (result : Except Fault α) : Ends Eq result result := by
  cases result with
  | ok a => exact .ok rfl
  | error fault => exact .error fault

theorem Ends.eq {p q : Except Fault α} (h : Ends Eq p q) : q = p := by
  cases h with
  | ok h => rw [h]
  | error => rfl

/-- Nothing differs but the log, and the live responses are related. -/
def Exchange.Matches (R : σ → σ → Prop) (x y : Exchange σ) : Prop :=
  ∃ live log, R x.live live ∧ y = { x with live, log }

namespace Record

/-! ## Echoes of work -/

section

variable (R : σ → σ → Prop) (S : α → β → Prop) {work : StateM (Exchange σ) α}
  {other : StateM (Exchange σ) β} (r : Record work) (r' : Record other)

/-- The second work, from the second exchange, echoes the first work from the first exchange. -/
def EchoesAt (x y : Exchange σ) : Prop :=
  r'.moments y = r.moments x ∧ S (work.run x).1 (other.run y).1 ∧
    (work.run x).2.Matches R (other.run y).2

/-- The second work echoes the first. -/
def Echoes : Prop :=
  ∀ x y, x.Matches R y → EchoesAt R S r r' x y

end

variable {R : σ → σ → Prop}

theorem Echoes.andThen {S : α → β → Prop} {T : γ → δ → Prop} {work : StateM (Exchange σ) α}
    {other : StateM (Exchange σ) β} {next : α → StateM (Exchange σ) γ}
    {more : β → StateM (Exchange σ) δ} {first : Record work} {first' : Record other}
    {rest : ∀ a, Record (next a)} {rest' : ∀ b, Record (more b)} (h : Echoes R S first first')
    (hrest : ∀ a b, S a b → Echoes R T (rest a) (rest' b)) :
    Echoes R T (first.andThen rest) (first'.andThen rest') := by
  intro x y hxy
  obtain ⟨hmoments, hresult, hleft⟩ := h x y hxy
  obtain ⟨hmore, hresult, hleft⟩ := hrest _ _ hresult _ _ hleft
  exact ⟨congrArg₂ (· ++ ·) hmoments hmore, hresult, hleft⟩

section Work

variable {work : ExchangeM σ α} {other : ExchangeM σ β} {next : α → ExchangeM σ γ}
  {more : β → ExchangeM σ δ} {S : α → β → Prop} {T : γ → δ → Prop} {first : Record work.run}
  {first' : Record other.run} {rest : ∀ a, Record (next a).run} {rest' : ∀ b, Record (more b).run}

theorem EchoesAt.bind {x y : Exchange σ} (h : EchoesAt R (Ends S) first first' x y)
    (hrest : ∀ a b x' y', work.run x = (.ok a, x') → other.run y = (.ok b, y') → S a b →
      x'.Matches R y' → EchoesAt R (Ends T) (rest a) (rest' b) x' y') :
    EchoesAt R (Ends T) (first.bind rest) (first'.bind rest') x y := by
  obtain ⟨hmoments, hresult, hleft⟩ := h
  change _ ∧ Ends T ((work >>= next).run x).1 ((other >>= more).run y).1 ∧
    ((work >>= next).run x).2.Matches R ((other >>= more).run y).2
  change Ends S (work.run x).1 (other.run y).1 at hresult
  change (work.run x).2.Matches R (other.run y).2 at hleft
  simp only [Record.bind, hmoments, Exchange.run_bind]
  rcases hwork : work.run x with ⟨result, x'⟩
  rcases hother : other.run y with ⟨result', y'⟩
  rw [hwork, hother] at hresult hleft
  cases hresult with
  | error fault => exact ⟨rfl, .error fault, hleft⟩
  | ok hab =>
    obtain ⟨hmore, hresult, hleft⟩ := hrest _ _ x' y' hwork hother hab hleft
    exact ⟨congrArg (first.moments x ++ ·) hmore, hresult, hleft⟩

theorem Echoes.bind (h : Echoes R (Ends S) first first')
    (hrest : ∀ a b, S a b → Echoes R (Ends T) (rest a) (rest' b)) :
    Echoes R (Ends T) (first.bind rest) (first'.bind rest') :=
  fun x y hxy => (h x y hxy).bind fun a b x' y' _ _ hab hleft => hrest a b hab x' y' hleft

/-- When the first parts have the same result, whatever it is. -/
theorem Echoes.bindEq {other : ExchangeM σ α} {more : α → ExchangeM σ δ}
    {first' : Record other.run} {rest' : ∀ a, Record (more a).run}
    (h : Echoes R (Ends Eq) first first')
    (hrest : ∀ a, Echoes R (Ends T) (rest a) (rest' a)) :
    Echoes R (Ends T) (first.bind rest) (first'.bind rest') :=
  h.bind fun a _ hab => hab ▸ hrest a

end Work

section Choice

variable {p q : Prop} [Decidable p] [Decidable q] {work work' : ExchangeM σ α}
  {other other' : ExchangeM σ β} {T : Except Fault α → Except Fault β → Prop}
  {yes : Record work.run} {no : Record work'.run} {yes' : Record other.run}
  {no' : Record other'.run}

theorem Echoes.ite (h : q ↔ p) (hyes : Echoes R T yes yes') (hno : Echoes R T no no') :
    Echoes R T (Record.ite (p := p) yes no) (Record.ite (p := q) yes' no') := by
  intro x y hxy
  by_cases hp : p
  · simpa only [EchoesAt, Record.ite, if_pos hp, if_pos (h.2 hp)] using hyes x y hxy
  · simpa only [EchoesAt, Record.ite, if_neg hp, if_neg (mt h.1 hp)] using hno x y hxy

/-- Whether a note is made before the work is heard in the log only. -/
theorem Echoes.remark (h : Echoes R T yes yes') (e e' : Event) :
    Echoes R T (Record.ite (p := p) yes ((note e).bind fun _ => yes))
      (Record.ite (p := q) yes' ((note e').bind fun _ => yes')) := by
  rintro x _ ⟨live, log, hlive, rfl⟩
  have hlogs (heard heard' : List Event) :=
    h { x with log := heard } { x with live, log := heard' } ⟨live, heard', hlive, rfl⟩
  by_cases hp : p <;> by_cases hq : q
  · simp only [EchoesAt, Record.ite, if_pos hp, if_pos hq]
    exact hlogs x.log log
  · simp only [EchoesAt, Record.ite, if_pos hp, if_neg hq]
    exact hlogs x.log (log ++ [e'])
  · simp only [EchoesAt, Record.ite, if_neg hp, if_pos hq]
    exact hlogs (x.log ++ [e]) log
  · simp only [EchoesAt, Record.ite, if_neg hp, if_neg hq]
    exact hlogs (x.log ++ [e]) (log ++ [e'])

end Choice

/-! ## Echoes of single steps -/

theorem echoes_pure {S : α → β → Prop} {a : α} {b : β} (h : S a b) :
    Echoes R (Ends S) (pure a : Record (Pure.pure a : ExchangeM σ α).run) (pure b) :=
  fun _ _ hxy => ⟨rfl, .ok h, hxy⟩

theorem echoes_get : Echoes R (Ends (Exchange.Matches R)) get get :=
  fun _ _ hxy => ⟨rfl, .ok hxy, hxy⟩

theorem echoes_take (session : Bytes) (url : Url) :
    Echoes R (Ends Eq) (take session url) (take session url) := by
  rintro x _ ⟨live, log, hlive, rfl⟩
  exact ⟨rfl, .ok rfl, live, _, hlive, rfl⟩

theorem echoes_insert (session : Bytes) (url : Url) (response : Response) :
    Echoes R (Ends Eq) (insert session url response) (insert session url response) := by
  rintro x _ ⟨live, log, hlive, rfl⟩
  exact ⟨rfl, .ok rfl, live, _, hlive, rfl⟩

theorem echoes_purge (offset : Int) : Echoes R (Ends Eq) (purge offset) (purge offset) := by
  rintro x _ ⟨live, log, hlive, rfl⟩
  exact ⟨rfl, .ok rfl, live, _, hlive, rfl⟩

theorem echoes_advance (ns : Nat) : Echoes R (Ends Eq) (advance ns) (advance ns) := by
  rintro x _ ⟨live, log, hlive, rfl⟩
  exact ⟨rfl, .ok rfl, live, _, hlive, rfl⟩

theorem echoes_note (e e' : Event) : Echoes R (Ends Eq) (note e) (note e') := by
  rintro x _ ⟨live, log, hlive, rfl⟩
  exact ⟨rfl, .ok rfl, live, _, hlive, rfl⟩

theorem echoes_send [Live σ] (hR : Live.Keeps R) {calls calls' : List Call}
    (hcalls : calls' = calls) : Echoes R (Ends Eq) (send calls) (send calls') := by
  subst hcalls
  rintro x _ ⟨live, log, hlive, rfl⟩
  obtain ⟨hresult, hleft⟩ := hR.performAll calls' hlive
  refine ⟨rfl, ?_, _, log, hleft, rfl⟩
  change Ends Eq (Live.performAll calls' x.live).1 (Live.performAll calls' live).1
  rw [hresult]
  exact .refl _

end Record

end PageReply
