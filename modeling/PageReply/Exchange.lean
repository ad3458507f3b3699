import PageReply.Live
import PageReply.Store.Basic

/-!
# Exchanges

An exchange is a request being answered: the store that all requests share, the clock, what is known
of the request, its live response, and the log. Whoever renders the page works on the same exchange
and may change any part of it. A fault ends the work and keeps what was done before it.
-/

namespace PageReply

/-- A request being answered, with a live response of type `σ`. -/
structure Exchange (σ : Type) where
  store : Store
  clock : Clock
  request : Request
  live : σ
  log : List Event := []

/-- Work on an exchange that may end with a fault. -/
abbrev ExchangeM (σ : Type) := ExceptT Fault (StateM (Exchange σ))

/-- Renders the page for a URL, or gives nothing when someone else has taken over the answer. -/
abbrev Renderer (σ : Type) := Url → ExchangeM σ (Option Response)

namespace Exchange

variable {σ : Type}

/-- The time. -/
abbrev now (x : Exchange σ) : Int :=
  x.clock.time

def note (e : Event) : ExchangeM σ Unit :=
  modify fun x => { x with log := x.log ++ [e] }

def take (session : Bytes) (url : Url) : ExchangeM σ (Option Response) := do
  let x ← get
  let (found, store) := x.store.take x.now session url
  set { x with store }
  note (found.event url)
  return found.response?

def insert (session : Bytes) (url : Url) (response : Response) : ExchangeM σ Unit :=
  modify fun x =>
    { x with
      store := x.store.insert x.now session url response
      log := x.log ++ x.store.insertEvents x.now (Store.key session url) }

/-- Drops what has expired at a given distance from now, and says how many that were. -/
def purge (offset : Int) : ExchangeM σ Nat :=
  modifyGet fun x =>
    (x.store.purgeable (x.now + offset),
      { x with
        store := x.store.purge (x.now + offset)
        log := x.log ++ x.store.purgeEvents (x.now + offset) })

def advance (ns : Nat) : ExchangeM σ Unit :=
  modify fun x => { x with clock := x.clock.advance ns }

/-- Performs calls on the live response, which keeps what it took before a refusal. -/
def send [Live σ] (calls : List Call) : ExchangeM σ Unit :=
  ExceptT.mk do
    let x ← get
    let (outcome, live) := Live.performAll calls x.live
    set { x with live }
    return outcome

/-- Settings that can be used. -/
def usable (config : Config) : ExchangeM σ { c : Config // c.Valid } :=
  match config.usable with
  | .ok valid => return valid
  | .error refusal => do
    refusal.log.forM note
    throw refusal.fault

/-! ## What each piece of work gives and leaves -/

variable {α β : Type} (x : Exchange σ)

theorem run_bind (work : ExchangeM σ α) (next : α → ExchangeM σ β) :
    (work >>= next).run x =
      match work.run x with
      | (.ok a, y) => (next a).run y
      | (.error fault, y) => (.error fault, y) := by
  change (match work.run x with | (r, y) => ExceptT.bindCont next r y) = _
  rcases work.run x with ⟨r, y⟩
  cases r <;> rfl

@[simp] theorem run_pure (a : α) : (pure a : ExchangeM σ α).run x = (.ok a, x) := rfl

@[simp] theorem run_throw (fault : Fault) :
    (throw fault : ExchangeM σ α).run x = (.error fault, x) := rfl

@[simp] theorem run_get : (get : ExchangeM σ (Exchange σ)).run x = (.ok x, x) := rfl

@[simp] theorem run_note (e : Event) :
    (note e).run x = (.ok (), { x with log := x.log ++ [e] }) := rfl

@[simp] theorem run_take (session : Bytes) (url : Url) :
    (take session url).run x =
      (.ok (x.store.take x.now session url).1.response?,
        { x with
          store := (x.store.take x.now session url).2
          log := x.log ++ [(x.store.take x.now session url).1.event url] }) := rfl

@[simp] theorem run_insert (session : Bytes) (url : Url) (response : Response) :
    (insert session url response).run x =
      (.ok (),
        { x with
          store := x.store.insert x.now session url response
          log := x.log ++ x.store.insertEvents x.now (Store.key session url) }) := rfl

@[simp] theorem run_purge (offset : Int) :
    (purge offset).run x =
      (.ok (x.store.purgeable (x.now + offset)),
        { x with
          store := x.store.purge (x.now + offset)
          log := x.log ++ x.store.purgeEvents (x.now + offset) }) := rfl

@[simp] theorem run_advance (ns : Nat) :
    (advance ns).run x = (.ok (), { x with clock := x.clock.advance ns }) := rfl

@[simp] theorem run_send [Live σ] (calls : List Call) :
    (send calls).run x =
      ((Live.performAll calls x.live).1, { x with live := (Live.performAll calls x.live).2 }) := rfl

end Exchange

end PageReply
