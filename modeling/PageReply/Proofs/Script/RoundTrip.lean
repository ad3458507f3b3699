import PageReply.Proofs.Answer.FollowUp
import PageReply.Proofs.Answer.Renders
import PageReply.Proofs.Script.Record

/-!
# The round trip of a buffered page

A page that was buffered waits for the request that its redirect asks for, whatever else is done to
the store and whatever other requests are answered in the meantime, as long as they leave it room
and time. When that request comes, it gets the page as it was rendered, without another render, and
it gets it once. Nothing else about the request matters, nor the handler that answers it.
-/

namespace PageReply

open Exchange

variable {σ τ : Type}

/-- What happens between the answer that buffered a page and some later time lets the page wait: it
leaves the slot of the page alone, fills fewer slots than the store has room for, is over before the
page is too old, and purges for no time at which the page is too old. The timeout is one that 64
bits can tell. -/
structure Meanwhile (y : Exchange σ) (url : Url) (ms : List Moment) (later : Clocked) :
    Prop where
  fits : y.store.limits.Fits
  elsewhere : ∀ m ∈ ms, m.op.slot? ≠ some (y.request.session, url)
  room : (filledBy ms).card < y.store.limits.capacity
  intime : later.now - y.now < y.store.limits.span
  purges : ∀ m ∈ ms, m.Spares y.store.limits.span y.now

/-- A session asks for a page. -/
structure Asks (session : Bytes) (url : Url) (c : Clocked) (next : Exchange τ) : Prop where
  clocked : next.clocked = c
  session : next.request.session = session
  target : next.request.target = url

theorem Asks.found {session : Bytes} {url : Url} {c : Clocked} {next : Exchange τ}
    (h : Asks session url c next) : Handler.found next = c.found session url := by
  rw [Handler.found, Clocked.found, h.session, h.target, ← h.clocked]
  rfl

section

variable [Live σ] {h : Handler} {render : Renderer σ} {x y : Exchange σ}

/-- The last thing that a buffered redirect does to the store is to put the page in. -/
theorem exists_insert_of_bufferedRedirect
    (hrun : (h.answer render).run x = (.ok .bufferedRedirect, y)) :
    ∃ response after,
      Renders render x.request.target
        { x with store := (x.store.take x.now x.request.session x.request.target).2 }
        (some response) after ∧
      y.request.session = after.request.session ∧ y.now = after.now ∧
      y.clocked = after.clocked.apply (.insert y.request.session x.request.target response) := by
  obtain ⟨-, response, after, live, hrender, -, hleft⟩ := Handler.bufferedRedirect_course hrun
  rw [hleft]
  exact ⟨response, after, ⟨_, hrender⟩, rfl, rfl, rfl⟩

end

/-- A page that was put in is found by the next request for it. -/
theorem Meanwhile.found {y : Exchange σ} {before : Clocked} {url : Url} {response : Response}
    {ms : List Moment} {c : Clocked} (h : Meanwhile y url ms c)
    (hput : y.clocked = before.apply (.insert y.request.session url response))
    (hrun : Run y.clocked ms c) : c.found y.request.session url = .hit response := by
  have hstart : before.now = y.now := (congrArg Clocked.now hput).symm
  have hlimits : before.store.limits = y.store.limits :=
    (congrArg (·.store.limits) hput).symm
  rw [hput] at hrun
  refine hrun.hit_of_insert ?_ h.elsewhere ?_ ?_ ?_
  · rw [hlimits]
    exact h.fits
  · rw [hstart, hlimits]
    exact h.intime
  · rw [hstart, hlimits]
    exact h.purges
  · rw [hlimits]
    exact h.room

/-- What was handed out for a request is not handed out for the next one. -/
theorem answer_again_ne_bufferedWrite [Live τ] {next : Exchange σ} {session : Bytes} {url : Url}
    {clock : Clock} {store : Store} {c : Clocked} (hnext : Asks session url c next)
    (hstore : store = (next.store.take next.now next.request.session next.request.target).2)
    (h : Handler) (render : Renderer τ) {further : Exchange τ}
    (hfurther : Asks session url ⟨store, clock⟩ further) :
    ((h.answer render).run further).1 ≠ .ok .bufferedWrite := by
  have hgone : ∀ e ∈ further.store.entries,
      e.key ≠ Store.key further.request.session further.request.target := by
    intro e he
    have hleft : further.store = store := congrArg Clocked.store hfurther.clocked
    rw [hleft, hstore, hnext.session, hnext.target] at he
    rw [hfurther.session, hfurther.target]
    simpa using (List.mem_filter.1 he).2
  exact fun hagain => answer_ne_bufferedWrite h render hgone _ (Prod.ext hagain rfl)

/-- **A buffered page makes the round trip**: whatever work is done after the answer that buffered
it, if the work lets the page wait, the next request of the session for the page gets the page as it
was rendered, and nothing but the page, from any handler and whatever else is known of the request;
and the request after that does not get it again. -/
theorem round_trip [Live σ] {h : Handler} {render : Renderer σ} {x y : Exchange σ}
    (hrun : (h.answer render).run x = (.ok .bufferedRedirect, y)) :
    ∃ response after,
      Renders render x.request.target
        { x with store := (x.store.take x.now x.request.session x.request.target).2 }
        (some response) after ∧
      y.request.session = after.request.session ∧ y.now = after.now ∧
      ∀ {ρ β : Type} {work : StateM (Exchange ρ) β} (record : Record work) {w : Exchange ρ},
        w.clocked = y.clocked →
        Meanwhile y x.request.target (record.moments w) (work.run w).2.clocked →
        ∀ {τ : Type} [Live τ] (h' : Handler) (render' : Renderer τ) {next : Exchange τ} {live : τ},
          Asks y.request.session x.request.target (work.run w).2.clocked next →
          Live.performAll (replay response) next.live = (.ok (), live) →
            h'.renders render' next = [] ∧ h'.calls render' next = replay response ∧
            ∃ z, (h'.answer render').run next = (.ok .bufferedWrite, z) ∧ z.live = live ∧
              ∀ {υ : Type} [Live υ] (h'' : Handler) (render'' : Renderer υ) (clock : Clock)
                {further : Exchange υ},
                Asks y.request.session x.request.target ⟨z.store, clock⟩ further →
                  ((h''.answer render'').run further).1 ≠ .ok .bufferedWrite := by
  obtain ⟨response, after, hrendered, hsession, hnow, hput⟩ :=
    exists_insert_of_bufferedRedirect hrun
  refine ⟨response, after, hrendered, hsession, hnow, ?_⟩
  intro ρ β work record w hw hmeanwhile τ _ h' render' next live hnext hsend
  have hwork : Run y.clocked (record.moments w) (work.run w).2.clocked := hw ▸ record.run w
  have hit : Handler.found next = .hit response := by
    rw [hnext.found]
    exact hmeanwhile.found hput hwork
  obtain ⟨hrenders, hcalls, z, hend, hlive, hstore⟩ :=
    h'.answer_of_hit render' hit hsend
  refine ⟨hrenders, hcalls, z, hend, hlive, ?_⟩
  intro υ _ h'' render'' clock further hfurther
  exact answer_again_ne_bufferedWrite hnext hstore h'' render'' hfurther

namespace Interlude

def page : Url := .ofBytes (ascii "page")

/-- A render that moves the request to another session. -/
def render : Renderer Transcript := fun _ => do
  modify fun x => { x with request.session := ascii "s1" }
  return some { body := ascii "text" }

/-- A form that leads to the page. -/
def form : Exchange Transcript where
  store := .tiny
  clock := {}
  request := { current := .ofBytes (ascii "form"), target := page, session := ascii "s0" }
  live := {}

def redirected : Exchange Transcript :=
  ((Handler.plain.answer render).run form).2

/-- Another session gets the same page, which is stored and taken for it while it is rendered, and
then stored twice more. -/
def steps : List Script.Step :=
  let s2 := ascii "s2"
  [.visit { request := { target := page, session := s2, current := .ofBytes (ascii "form") } }
      [.insert s2 page {}, .advance 10, .take s2 page],
    .insert s2 page {}, .purge (-50), .advance 100]

def begun : Exchange Script.Stage where
  store := redirected.store
  clock := redirected.clock
  request := {}
  live := {}

def moments : List Moment :=
  (Script.recordAll steps).moments begun

def later : Clocked :=
  ((Script.runAll steps).run begun).2.clocked

/-- A script asks for the page. -/
def next (c : Clocked) : Exchange Message where
  store := c.store
  clock := c.clock
  request := { target := page, session := ascii "s1", ajax := true }
  live := {}

def always : Handler := { Handler.plain with policy := .alwaysRedirect }

def broken : Renderer Message := fun _ => throw .bodyStarted

theorem meanwhile : Meanwhile redirected page moments later where
  fits := by decide +kernel
  elsewhere := by decide +kernel
  room := by decide +kernel
  intime := by decide +kernel
  purges := by decide +kernel

end Interlude

theorem round_trip_interlude :
    ∃ z, (Interlude.always.answer Interlude.broken).run (Interlude.next Interlude.later) =
        (.ok .bufferedWrite, z) ∧
      z.live.body = ascii "text" ∧
      Interlude.always.calls Interlude.broken (Interlude.next Interlude.later) =
        [.status .ok, .write (ascii "text")] ∧
      ((Interlude.always.answer Interlude.broken).run
        (Interlude.next ⟨z.store, Interlude.later.clock⟩)).1 ≠ .ok .bufferedWrite := by
  have hrun : (Handler.plain.answer Interlude.render).run Interlude.form =
      (.ok .bufferedRedirect, Interlude.redirected) :=
    Prod.ext (by decide +kernel) rfl
  obtain ⟨response, after, ⟨log, hrender⟩, hsession, -, hnext⟩ := round_trip hrun
  cases hrender
  have hasks (c : Clocked) : Asks Interlude.redirected.request.session
      Interlude.form.request.target c (Interlude.next c) :=
    ⟨rfl, hsession.symm, rfl⟩
  have hbegun : Interlude.begun.clocked = Interlude.redirected.clocked := rfl
  obtain ⟨-, hcalls, z, hend, hlive, hagain⟩ :=
    hnext (Script.recordAll Interlude.steps) hbegun Interlude.meanwhile
      Interlude.always Interlude.broken (hasks Interlude.later) rfl
  refine ⟨z, hend, by rw [hlive]; rfl, hcalls, ?_⟩
  exact hagain Interlude.always Interlude.broken Interlude.later.clock (hasks _)

namespace Interlude

/-- A store for the page that keeps nothing. -/
def overlong : Exchange Transcript := { form with store := .overlong }

def lost : Clocked :=
  ((Handler.plain.answer render).run overlong).2.clocked

/-- The session that has the page asks for it. -/
def again : Exchange Transcript where
  store := lost.store
  clock := lost.clock
  request := { form.request with session := ascii "s1" }
  live := {}

end Interlude

/-- With a timeout of more than 292 years the page is gone at once. The next request has it rendered
once more. -/
theorem round_trip_lost_at_once :
    ((Handler.plain.answer Interlude.render).run Interlude.overlong).1 = .ok .bufferedRedirect ∧
    Interlude.again.now - Interlude.overlong.now < Interlude.overlong.store.limits.span ∧
    Interlude.lost.found (ascii "s1") Interlude.page = .stale ∧
    ((Handler.plain.answer Interlude.render).run Interlude.again).1 = .ok .bufferedRedirect ∧
    Handler.plain.renders Interlude.render Interlude.again = [Interlude.page] :=
  ⟨by decide +kernel, by decide +kernel, by decide +kernel, by decide +kernel, by decide +kernel⟩

end PageReply
