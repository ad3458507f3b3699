import PageReply.Answer
import PageReply.Proofs.Store.Run

/-!
# Records of work

A record of work on an exchange tells, for each exchange the work may start from, through which
moments it takes the store and the time. Records are put together the way the work is, so what a
record says follows from the work alone: answering a request has a record whenever rendering its
page has one, whatever else the render does.
-/

namespace PageReply

variable {σ α β γ : Type}

def Exchange.clocked (x : Exchange σ) : Clocked :=
  ⟨x.store, x.clock⟩

/-- A look-up gives back the response that it finds. -/
theorem Exchange.take_of_hit {x : Exchange σ} {session : Bytes} {url : Url} {response : Response}
    (hit : x.clocked.found session url = .hit response) :
    ((Exchange.take session url).run x).1 = .ok (some response) := by
  have hlookup : (x.store.take x.now session url).1 = .hit response := hit
  rw [run_take, hlookup]
  rfl

/-- What work does to the store and the time. -/
structure Record (work : StateM (Exchange σ) β) where
  moments : Exchange σ → List Moment
  run : ∀ x, Run x.clocked (moments x) (work.run x).2.clocked

namespace Record

/-- Work that leaves the store and the time alone. -/
def quiet {work : StateM (Exchange σ) β} (h : ∀ x, (work.run x).2.clocked = x.clocked) :
    Record work where
  moments _ := []
  run x := by
    rw [h x]
    exact .nil

/-- Work that is one operation. -/
def single {work : StateM (Exchange σ) β} (op : Exchange σ → Op)
    (h : ∀ x, (work.run x).2.clocked = x.clocked.apply (op x)) : Record work where
  moments x := [⟨op x, x.clocked⟩]
  run x := by
    rw [h x]
    exact .single x.clocked (op x)

def andThen {work : StateM (Exchange σ) α} {next : α → StateM (Exchange σ) β} (first : Record work)
    (rest : ∀ a, Record (next a)) : Record (work >>= next) where
  moments x := first.moments x ++ (rest (work.run x).1).moments (work.run x).2
  run x := (first.run x).append ((rest (work.run x).1).run (work.run x).2)

def bind {work : ExchangeM σ α} {next : α → ExchangeM σ β} (first : Record work.run)
    (rest : ∀ a, Record (next a).run) : Record (work >>= next).run where
  moments x := first.moments x ++
    match work.run x with
    | (.ok a, y) => (rest a).moments y
    | (.error _, _) => []
  run x := by
    have hfirst := first.run x
    have hbind := Exchange.run_bind x work next
    change Run _ _ ((work >>= next).run x).2.clocked
    change Run _ _ (work.run x).2.clocked at hfirst
    rw [hbind]
    rcases hwork : work.run x with ⟨_ | a, y⟩
    · rw [hwork] at hfirst
      simpa using hfirst
    · rw [hwork] at hfirst
      exact hfirst.append ((rest a).run y)

def ite {p : Prop} [Decidable p] {work other : ExchangeM σ α} (yes : Record work.run)
    (no : Record other.run) : Record (if p then work else other).run where
  moments x := if p then yes.moments x else no.moments x
  run x := by
    by_cases hp : p
    · simpa only [if_pos hp] using yes.run x
    · simpa only [if_neg hp] using no.run x

variable [Live σ]

def note (e : Event) : Record (Exchange.note e : ExchangeM σ Unit).run :=
  quiet fun _ => rfl

def send (calls : List Call) : Record (Exchange.send calls : ExchangeM σ Unit).run :=
  quiet fun _ => rfl

def take (session : Bytes) (url : Url) :
    Record (Exchange.take session url : ExchangeM σ (Option Response)).run :=
  single (fun _ => .take session url) fun _ => rfl

def insert (session : Bytes) (url : Url) (response : Response) :
    Record (Exchange.insert session url response : ExchangeM σ Unit).run :=
  single (fun _ => .insert session url response) fun _ => rfl

def purge (offset : Int) : Record (Exchange.purge offset : ExchangeM σ Nat).run :=
  single (fun _ => .purge offset) fun _ => rfl

def advance (ns : Nat) : Record (Exchange.advance ns : ExchangeM σ Unit).run :=
  single (fun _ => .advance ns) fun _ => rfl

def pure (a : α) : Record (Pure.pure a : ExchangeM σ α).run :=
  quiet fun _ => rfl

def get : Record (MonadState.get : ExchangeM σ (Exchange σ)).run :=
  quiet fun _ => rfl

variable {render : Renderer σ} (page : ∀ url, Record (render url).run)

def writePage (url : Url) : Record (Handler.writePage render url).run :=
  (page url).bind fun
    | none => (note (.takenOver url)).bind fun _ => pure _
    | some response => (send response.calls).bind fun _ => pure _

def bufferPage (h : Handler) (current target : Url) :
    Record (h.bufferPage render current target).run :=
  (page target).bind fun
    | none => (note (.takenOver target)).bind fun _ => pure _
    | some response =>
      ite ((send response.calls).bind fun _ => pure _)
        ((send [.redirect target.text h.config.val.redirectStatus]).bind fun _ =>
          get.bind fun x => (insert x.request.session target response).bind fun _ => pure _)

def act (h : Handler) (request : Request) : Record (h.act render request).run :=
  (note _).bind fun _ =>
    match (Facts.ofRequest request h.config.val h.policy).action
        (request.target = request.current) with
    | .write => writePage page request.current
    | .redirect => (send [.redirect request.target.text h.config.val.redirectStatus]).bind fun _ =>
      pure _
    | .buffer =>
      let answered :=
        ite (writePage page request.current) (bufferPage page h request.current request.target)
      ite answered ((note .fallback).bind fun _ => answered)

def answer (h : Handler) : Record (h.answer render).run :=
  get.bind fun x => (take x.request.session x.request.target).bind fun
    | some response =>
      (note (.replaying x.request.target)).bind fun _ => (send response.calls).bind fun _ => pure _
    | none => act page h x.request

end Record

end PageReply
