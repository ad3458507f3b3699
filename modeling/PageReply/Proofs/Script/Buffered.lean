import PageReply.Proofs.Script.Record
import PageReply.Proofs.Store.Provenance
import PageReply.Proofs.Store.Retention

/-!
# What scripts get out of a store

The two laws of the store for all that a script does, its nested steps and the requests it answers
included. A look-up hands out only what the last operation in its slot put there, and only for a
time. It does hand that out, unless a purge or insertions in too many other slots came between.
-/

namespace PageReply.Script

theorem Opening.store_eq {opening : Opening} {store : Store} (h : opening.store = .ok store) :
    store = { limits := store.limits } := by
  cases opening with
  | limits timeout capacity =>
    simp only [Opening.store] at h
    split at h
    · cases h
      rfl
    · cases h
  | config c =>
    simp only [Opening.store] at h
    cases hc : c.usable with
    | error refusal =>
      rw [hc] at h
      cases h
    | ok valid =>
      rw [hc] at h
      cases h
      rfl

namespace Detour

/-- A form is submitted, and its redirect is followed some time later. The page of another session
is buffered and taken while that of the first is rendered, and is buffered twice more before the
first is asked for. -/
def steps : List Step :=
  let s1 := ascii "s1"
  let s2 := ascii "s2"
  let page := Url.ofBytes (ascii "page")
  [.visit { request := { current := .ofBytes (ascii "form"), target := page, session := s1 } }
      [.insert s2 page {}, .advance 10, .take s2 page],
    .insert s2 page {}, .advance 100, .insert s2 page {}, .purge (-50),
    .visit { request := { current := page, target := page, session := s1 } } []]

def moments : List Moment :=
  (recordAll steps).moments { store := .tiny, clock := {}, request := {}, live := {} }

def stateAt (place : Nat) : Clocked :=
  ((moments[place]?).map (·.state)).getD ⟨.tiny, {}⟩

end Detour

/-- **Only what was put in last is handed out**: whatever a script does to a store that was just
opened, a look-up of it that hands a response out gives it back, and finds the last operation before
it in its slot to be an insertion of that response, less than a timeout ago. -/
theorem hit_is_latest_insert {opening : Opening} {store : Store} (hopen : opening.store = .ok store)
    (clock : Clock) (request : Request) (live : Stage) (steps : List Step)
    {before after : List Moment} {session : Bytes} {url : Url} {response : Response} {c : Clocked}
    (hmoments : (recordAll steps).moments { store, clock, request, live } =
      before ++ ⟨.take session url, c⟩ :: after)
    (hit : c.found session url = .hit response) :
    (∀ {σ : Type} (x : Exchange σ), x.clocked = c →
      ((Exchange.take session url).run x).1 = .ok (some response)) ∧
    ∃ (earlier later : List Moment) (b : Clocked),
      before = earlier ++ ⟨.insert session url response, b⟩ :: later ∧
      (∀ m ∈ later, m.op.slot? ≠ some (session, url)) ∧
      c.now - b.now < store.limits.span := by
  have hrun := (recordAll steps).run { store, clock, request, live }
  rw [hmoments] at hrun
  have hempty : store.entries = [] := by rw [Opening.store_eq hopen]
  exact ⟨fun x hx => Exchange.take_of_hit (hx ▸ hit), hrun.at_moment.1.latest_of_hit hempty hit⟩

theorem hit_is_latest_insert_detour :
    (Detour.stateAt 9).found (ascii "s1") (.ofBytes (ascii "page")) =
      .hit (standIn (.ofBytes (ascii "page"))) ∧
    ∃ (earlier later : List Moment) (b : Clocked),
      Detour.moments.take 9 = earlier ++ ⟨.insert (ascii "s1") (.ofBytes (ascii "page"))
        (standIn (.ofBytes (ascii "page"))), b⟩ :: later ∧
      (∀ m ∈ later, m.op.slot? ≠ some (ascii "s1", .ofBytes (ascii "page"))) ∧
      (Detour.stateAt 9).now - b.now < Store.tiny.limits.span := by
  have hopen : (Opening.limits 1 2).store = .ok .tiny := rfl
  have hmoments : (recordAll Detour.steps).moments
      { store := .tiny, clock := {}, request := {}, live := {} } =
      Detour.moments.take 9 ++
        ⟨.take (ascii "s1") (.ofBytes (ascii "page")), Detour.stateAt 9⟩ :: [] := by
    decide +kernel
  have hit : (Detour.stateAt 9).found (ascii "s1") (.ofBytes (ascii "page")) =
      .hit (standIn (.ofBytes (ascii "page"))) := by
    decide +kernel
  exact ⟨hit, (hit_is_latest_insert hopen {} {} {} Detour.steps hmoments hit).2⟩

/-- **Nothing is lost early**, if the timeout is one that 64 bits can tell: a response that a script
put in is found by the next look-up of its slot, which gives it back, if that comes within the
timeout, no purge in between is for a time at which the response is too old, and fewer other slots
than the store has room for are filled in between. -/
theorem insert_is_hit_in_time (x : Exchange Stage) (hfits : x.store.limits.Fits)
    (steps : List Step) {before between after : List Moment} {session : Bytes} {url : Url}
    {response : Response} {c d : Clocked}
    (hmoments : (recordAll steps).moments x =
      before ++ ⟨.insert session url response, c⟩ :: between ++ ⟨.take session url, d⟩ :: after)
    (hquiet : ∀ m ∈ between, m.op.slot? ≠ some (session, url))
    (hage : d.now - c.now < x.store.limits.span)
    (hpurge : ∀ m ∈ between, m.Spares x.store.limits.span c.now)
    (hroom : (filledBy between).card < x.store.limits.capacity) :
    d.found session url = .hit response ∧
    ∀ {σ : Type} (y : Exchange σ), y.clocked = d →
      ((Exchange.take session url).run y).1 = .ok (some response) := by
  have hrun := (recordAll steps).run x
  rw [hmoments] at hrun
  obtain ⟨hbefore, hbetween⟩ := hrun.at_moment.1.at_moment
  have hlimits : c.store.limits = x.store.limits := hbefore.limits_eq
  rw [← hlimits] at hfits hage hpurge hroom
  have hit := hbetween.hit_of_insert hfits hquiet hage hpurge hroom
  exact ⟨hit, fun y hy => Exchange.take_of_hit (hy ▸ hit)⟩

theorem insert_is_hit_in_time_detour :
    (filledBy ((Detour.moments.drop 5).take 4)).card < 2 ∧
    (Detour.stateAt 9).found (ascii "s1") (.ofBytes (ascii "page")) =
      .hit (standIn (.ofBytes (ascii "page"))) := by
  have hfits : Store.tiny.limits.Fits := by decide
  have hmoments : (recordAll Detour.steps).moments
      { store := .tiny, clock := {}, request := {}, live := {} } =
      Detour.moments.take 4 ++ ⟨.insert (ascii "s1") (.ofBytes (ascii "page"))
        (standIn (.ofBytes (ascii "page"))), Detour.stateAt 4⟩ :: (Detour.moments.drop 5).take 4 ++
        ⟨.take (ascii "s1") (.ofBytes (ascii "page")), Detour.stateAt 9⟩ :: [] := by
    decide +kernel
  have hroom : (filledBy ((Detour.moments.drop 5).take 4)).card < 2 := by decide +kernel
  have hquiet : ∀ m ∈ (Detour.moments.drop 5).take 4,
      m.op.slot? ≠ some (ascii "s1", .ofBytes (ascii "page")) := by
    decide +kernel
  have hage : (Detour.stateAt 9).now - (Detour.stateAt 4).now < Store.tiny.limits.span := by
    decide +kernel
  have hpurge : ∀ m ∈ (Detour.moments.drop 5).take 4,
      m.Spares Store.tiny.limits.span (Detour.stateAt 4).now := by
    decide +kernel
  exact ⟨hroom,
    (insert_is_hit_in_time _ hfits Detour.steps hmoments hquiet hage hpurge hroom).1⟩

namespace Lost

/-- A response is put in and looked up at once. -/
def steps : List Step :=
  [.insert (ascii "s1") (.ofBytes (ascii "page")) {},
    .take (ascii "s1") (.ofBytes (ascii "page"))]

def idle : Exchange Stage where
  store := .overlong
  clock := {}
  request := {}
  live := {}

end Lost

/-- With a timeout of more than 292 years a response is lost at once. -/
theorem insert_lost_at_once :
    (Opening.limits 9223372036855 2).store = .ok Lost.idle.store ∧
    (recordAll Lost.steps).moments Lost.idle =
      [] ++ ⟨.insert (ascii "s1") (.ofBytes (ascii "page")) {}, Lost.idle.clocked⟩ :: [] ++
        ⟨.take (ascii "s1") (.ofBytes (ascii "page")),
          Lost.idle.clocked.apply (.insert (ascii "s1") (.ofBytes (ascii "page")) {})⟩ :: [] ∧
    (Lost.idle.clocked.apply (.insert (ascii "s1") (.ofBytes (ascii "page")) {})).now -
      Lost.idle.clocked.now < Lost.idle.store.limits.span ∧
    (Lost.idle.clocked.apply (.insert (ascii "s1") (.ofBytes (ascii "page")) {})).found
      (ascii "s1") (.ofBytes (ascii "page")) = .stale :=
  ⟨rfl, by decide +kernel, by decide +kernel, by decide +kernel⟩

end PageReply.Script
