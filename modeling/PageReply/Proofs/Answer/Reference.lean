import PageReply.Proofs.Answer.Run
import PageReply.Proofs.Record
import PageReply.Proofs.Store.Invariant

/-!
# What an answer is

`Answered` says, case by case, what it is to answer a request: which entry is handed out, which rule
decides, for which URL the page is rendered, which calls the live response gets from the handler
itself, and what is put in. It refers to settings and requests directly and knows nothing of facts
and actions. Every answer that does not end with a fault is one of its cases, for every store that
can be reached and for any render, even one that changes the store, the live response or the
request.

The log is left open.
-/

namespace PageReply

/-! ## The rules -/

section Rules

variable (c : Config) (p : Policy) (r : Request)

/-- Why a page is written at once. -/
inductive WriteRule : Prop
  | neverRedirect (policy : p = .neverRedirect)
  | onePass (plain : r.ajax = false) (strategy : c.strategy = .onePass)
    (policy : p ≠ .alwaysRedirect)
  | displayed (plain : r.ajax = false) (same : r.target = r.current)
    (stateful : r.stateless = false) (old : r.newInstance = false)
  | followed (same : r.target = r.current) (strategy : c.strategy = .redirectToRender)
  | keepUrl (keep : r.keepUrl = true)

/-- Why a client is redirected before anything is rendered. -/
inductive RedirectRule : Prop
  | alwaysRedirect (policy : p = .alwaysRedirect)
  | redirectToRender (strategy : c.strategy = .redirectToRender)
  | script (ajax : r.ajax = true) (same : r.target = r.current)
  | newInstance (differ : r.target ≠ r.current) (new : r.newInstance = true)
  | temporary (differ : r.target ≠ r.current) (session : r.temporarySession = true)
    (stateless : r.stateless = true)

theorem writes_iff :
    (Facts.ofRequest r c p).Writes (r.target = r.current) ↔ WriteRule c p r := by
  constructor
  · rintro (h | ⟨hajax, hone, hp⟩ | ⟨hajax, hsame, hstateless, hnew⟩ | ⟨hsame, hrender⟩ | h)
    · exact .neverRedirect h
    · exact .onePass (Bool.eq_false_iff.2 hajax) (of_decide_eq_true hone) hp
    · exact .displayed (Bool.eq_false_iff.2 hajax) (of_decide_eq_true hsame)
        (Bool.eq_false_iff.2 hstateless) (Bool.eq_false_iff.2 hnew)
    · exact .followed (of_decide_eq_true hsame) (of_decide_eq_true hrender)
    · exact .keepUrl h
  · intro h
    simp only [Facts.Writes, Facts.ofRequest, decide_eq_true_eq]
    cases h <;> simp_all

theorem redirects_iff :
    (Facts.ofRequest r c p).Redirects (r.target = r.current) ↔ RedirectRule c p r := by
  constructor
  · rintro (h | h | ⟨hajax, hsame⟩ | ⟨hdiffer, hnew | ⟨htemporary, hstateless⟩⟩)
    · exact .alwaysRedirect h
    · exact .redirectToRender (of_decide_eq_true h)
    · exact .script hajax (of_decide_eq_true hsame)
    · exact .newInstance (by simpa using hdiffer) hnew
    · exact .temporary (by simpa using hdiffer) htemporary hstateless
  · intro h
    simp only [Facts.Redirects, Facts.ofRequest, decide_eq_true_eq]
    cases h <;> simp_all

/-- The page is rendered for the URL that the client displays. -/
def RendersCurrent : Prop :=
  WriteRule c p r ∨
    (¬ WriteRule c p r ∧ ¬ RedirectRule c p r ∧ r.stateless = true ∧ c.redirectStateless = false)

end Rules

/-! ## Look-ups -/

namespace Store

/-- A look-up under a key hands out the response of an entry, which leaves the store. -/
structure HandsOut (s : Store) (now : Int) (k : Bytes) (e : Entry) (s' : Store) : Prop where
  held : e ∈ s.entries
  key : e.key = k
  young : now - e.storedAt < s.limits.lifetime
  left : s' =
    { s with
      entries := s.entries.filter (·.key ≠ k)
      stats.served := s.stats.served + 1 }

/-- A look-up under a key hands out nothing. What the store has under the key is too old, and leaves
it. -/
structure Misses (s : Store) (now : Int) (k : Bytes) (s' : Store) : Prop where
  old : ∀ e ∈ s.entries, e.key = k → s.limits.lifetime ≤ now - e.storedAt
  left : s' =
    { s with
      entries := s.entries.filter (·.key ≠ k)
      stats.expired := s.stats.expired + if k ∈ s.entries.map (·.key) then 1 else 0
      stats.misses := s.stats.misses + 1 }

variable {s s' : Store} {now : Int} {session : Bytes} {url : Url}

theorem exists_mem_of_take {response : Response}
    (h : s.take now session url = (.hit response, s')) :
    ∃ e ∈ s.entries, e.key = key session url ∧ ¬ e.Expired s.limits.lifetime now ∧
      e.response = response := by
  unfold take lookup at h
  cases hfind : s.entries.find? (·.key = key session url) with
  | none => simp [hfind] at h
  | some e =>
    by_cases hexpired : e.Expired s.limits.lifetime now
    · simp [hfind, hexpired] at h
    · simp only [hfind, if_neg hexpired, Prod.mk.injEq, Lookup.hit.injEq] at h
      refine ⟨e, List.mem_of_find?_eq_some hfind, ?_, hexpired, h.1⟩
      simpa using List.find?_some hfind

theorem handsOut_of_take (hages : ∀ e ∈ s.entries, e.AgeFits now) {response : Response}
    (h : s.take now session url = (.hit response, s')) :
    ∃ e, s.HandsOut now (key session url) e s' ∧ e.response = response := by
  obtain ⟨e, he, hkey, hexpired, hresponse⟩ := exists_mem_of_take h
  have hyoung := (Entry.not_expired_iff (hages e he)).1 hexpired
  have hfound : s.lookup now (key session url) = .hit response := congrArg Prod.fst h
  have hleft : s' = (s.take now session url).2 := (congrArg Prod.snd h).symm
  refine ⟨e, ⟨he, hkey, hyoung, ?_⟩, hresponse⟩
  rw [hleft, take, hfound]
  rfl

theorem misses_of_take (hages : ∀ e ∈ s.entries, e.AgeFits now)
    (hnodup : (s.entries.map (·.key)).Nodup) {found : Lookup}
    (hfound : found.response? = none) (h : s.take now session url = (found, s')) :
    s.Misses now (key session url) s' := by
  unfold take lookup at h
  cases hfind : s.entries.find? (·.key = key session url) with
  | none =>
    have hnone : ∀ e ∈ s.entries, e.key ≠ key session url := by
      simpa using List.find?_eq_none.1 hfind
    have hkeys : key session url ∉ s.entries.map (·.key) := by simpa using hnone
    simp only [hfind, Prod.mk.injEq] at h
    refine ⟨fun e he hkey => absurd hkey (hnone e he), ?_⟩
    rw [if_neg hkeys, ← h.2]
    rfl
  | some e =>
    have he := List.mem_of_find?_eq_some hfind
    have hkey : e.key = key session url := by simpa using List.find?_some hfind
    have hkeys : key session url ∈ s.entries.map (·.key) := List.mem_map.2 ⟨e, he, hkey⟩
    by_cases hexpired : e.Expired s.limits.lifetime now
    · simp only [hfind, if_pos hexpired, Prod.mk.injEq] at h
      refine ⟨fun e' he' hkey' => ?_, ?_⟩
      · rw [List.inj_on_of_nodup_map hnodup he' he (hkey'.trans hkey.symm)]
        exact (Entry.expired_iff (hages e he)).1 hexpired
      · rw [if_pos hkeys, ← h.2]
        rfl
    · simp only [hfind, if_neg hexpired, Prod.mk.injEq] at h
      rw [← h.1] at hfound
      cases hfound

end Store

/-! ## Answers -/

variable {σ : Type} [Live σ]

namespace Exchange

def Sends (calls : List Call) (x y : Exchange σ) : Prop :=
  Live.performAll calls x.live = (.ok (), y.live) ∧ y = { x with live := y.live, log := y.log }

/-- The page for a URL is rendered. -/
def Renders (render : Renderer σ) (url : Url) (x : Exchange σ) (result : Option Response)
    (y : Exchange σ) : Prop :=
  ∃ log, (render url).run { x with log } = (.ok result, y)

end Exchange

open Exchange

def replay (response : Response) : List Call :=
  [.status response.status] ++ response.headers.map .header ++ [.write response.body]

section Answers

variable (h : Handler) (render : Renderer σ) (x : Exchange σ)

/-- What it is to answer a request for which nothing is buffered. -/
inductive Decided : Outcome → Exchange σ → Prop
  | written {response : Response} {y z : Exchange σ}
    (here : RendersCurrent h.config.val h.policy x.request)
    (rendered : Renders render x.request.current x (some response) y)
    (sent : Sends (replay response) y z) :
    Decided .written z
  | aborted {y : Exchange σ} (log : List Event)
    (here : RendersCurrent h.config.val h.policy x.request)
    (rendered : Renders render x.request.current x none y) :
    Decided .aborted { y with log }
  /-- Nothing is rendered. -/
  | redirected {y : Exchange σ}
    (here : ¬ RendersCurrent h.config.val h.policy x.request)
    (rule : RedirectRule h.config.val h.policy x.request)
    (sent : Sends [.redirect x.request.target.text h.config.val.redirectStatus] x y) :
    Decided .redirected y
  | targetWritten {response : Response} {y z : Exchange σ}
    (here : ¬ RendersCurrent h.config.val h.policy x.request)
    (norule : ¬ RedirectRule h.config.val h.policy x.request)
    (rendered : Renders render x.request.target x (some response) y)
    (same : x.request.current = x.request.target)
    (sent : Sends (replay response) y z) :
    Decided .written z
  | targetAborted {y : Exchange σ} (log : List Event)
    (here : ¬ RendersCurrent h.config.val h.policy x.request)
    (norule : ¬ RedirectRule h.config.val h.policy x.request)
    (rendered : Renders render x.request.target x none y) :
    Decided .aborted { y with log }
  /-- The response is put in for the session that is there after the render. -/
  | bufferedRedirect {response : Response} {y z : Exchange σ} (log : List Event)
    (here : ¬ RendersCurrent h.config.val h.policy x.request)
    (norule : ¬ RedirectRule h.config.val h.policy x.request)
    (rendered : Renders render x.request.target x (some response) y)
    (differ : x.request.current ≠ x.request.target)
    (sent : Sends [.redirect x.request.target.text h.config.val.redirectStatus] y z) :
    Decided .bufferedRedirect
      { z with
        store := y.store.insert y.now y.request.session x.request.target response
        log }

/-- What it is to answer a request. -/
inductive Answered : Outcome → Exchange σ → Prop
  /-- The response is there already; nothing is decided and nothing rendered. -/
  | bufferedWrite {e : Entry} {store : Store} {y : Exchange σ}
    (hit : x.store.HandsOut x.now (Store.key x.request.session x.request.target) e store)
    (sent : Sends (replay e.response) { x with store } y) :
    Answered .bufferedWrite y
  | decided {store : Store} {outcome : Outcome} {y : Exchange σ}
    (miss : x.store.Misses x.now (Store.key x.request.session x.request.target) store)
    (decided : Decided h render { x with store } outcome y) :
    Answered outcome y

end Answers

section

variable {h : Handler} {render : Renderer σ} {x y : Exchange σ} {outcome : Outcome}

theorem sends_inv {calls : List Call} {sent : Outcome}
    (hrun : (match Live.performAll calls x.live with
      | (.ok (), live) => (.ok sent, { x with live })
      | (.error fault, live) => (.error fault, { x with live }) :
        Except Fault Outcome × Exchange σ) = (.ok outcome, y)) :
    outcome = sent ∧ Sends calls x y := by
  rcases hsend : Live.performAll calls x.live with ⟨_ | _, live⟩
  · rw [hsend] at hrun
    cases hrun
  · rw [hsend] at hrun
    cases hrun
    exact ⟨rfl, hsend, rfl⟩

theorem writePage_inv {url : Url} (hrun : (Handler.writePage render url).run x = (.ok outcome, y)) :
    (outcome = .aborted ∧ ∃ z, (render url).run x = (.ok none, z) ∧ y = { z with log := y.log }) ∨
    (outcome = .written ∧ ∃ response z, (render url).run x = (.ok (some response), z) ∧
      Sends (replay response) z y) := by
  rw [Handler.run_writePage] at hrun
  rcases hrender : (render url).run x with ⟨_ | _ | response, z⟩
  · rw [hrender] at hrun
    cases hrun
  · rw [hrender] at hrun
    cases hrun
    exact .inl ⟨rfl, z, rfl, rfl⟩
  · simp only [hrender] at hrun
    obtain ⟨rfl, hsent⟩ := sends_inv hrun
    exact .inr ⟨rfl, response, z, rfl, hsent⟩

theorem bufferPage_inv {current target : Url}
    (hrun : (h.bufferPage render current target).run x = (.ok outcome, y)) :
    (outcome = .aborted ∧
      ∃ z, (render target).run x = (.ok none, z) ∧ y = { z with log := y.log }) ∨
    (outcome = .written ∧ current = target ∧
      ∃ response z, (render target).run x = (.ok (some response), z) ∧
        Sends (replay response) z y) ∨
    (outcome = .bufferedRedirect ∧ current ≠ target ∧
      ∃ response z w, (render target).run x = (.ok (some response), z) ∧
        Sends [.redirect target.text h.config.val.redirectStatus] z w ∧
        y =
          { w with
            store := z.store.insert z.now z.request.session target response
            log := y.log }) := by
  rw [Handler.run_bufferPage] at hrun
  rcases hrender : (render target).run x with ⟨_ | _ | response, z⟩
  · rw [hrender] at hrun
    cases hrun
  · rw [hrender] at hrun
    cases hrun
    exact .inl ⟨rfl, z, rfl, rfl⟩
  · simp only [hrender] at hrun
    by_cases hsame : current = target
    · rw [if_pos hsame] at hrun
      obtain ⟨rfl, hsent⟩ := sends_inv hrun
      exact .inr (.inl ⟨rfl, hsame, response, z, rfl, hsent⟩)
    · rw [if_neg hsame] at hrun
      rcases hsend : Live.performAll [.redirect target.text h.config.val.redirectStatus] z.live with
        ⟨_ | _, live⟩
      · rw [hsend] at hrun
        cases hrun
      · rw [hsend] at hrun
        cases hrun
        exact .inr (.inr ⟨rfl, hsame, response, z, { z with live }, rfl, ⟨hsend, rfl⟩, rfl⟩)

theorem action_cases (h : Handler) (request : Request) :
    (h.action request = .write ∧ WriteRule h.config.val h.policy request) ∨
    (h.action request = .redirect ∧ ¬ WriteRule h.config.val h.policy request ∧
      RedirectRule h.config.val h.policy request) ∨
    (h.action request = .buffer ∧ ¬ WriteRule h.config.val h.policy request ∧
      ¬ RedirectRule h.config.val h.policy request) := by
  rw [Handler.action, Handler.facts, Facts.action, ← writes_iff, ← redirects_iff]
  split
  · next hwrites => exact .inl ⟨rfl, hwrites⟩
  · next hwrites =>
    split
    · next hredirects => exact .inr (.inl ⟨rfl, hwrites, hredirects⟩)
    · next hredirects => exact .inr (.inr ⟨rfl, hwrites, hredirects⟩)

theorem decided_of_writePage (hhere : RendersCurrent h.config.val h.policy x.request)
    {log : List Event}
    (hrun : (Handler.writePage render x.request.current).run { x with log } = (.ok outcome, y)) :
    Decided h render x outcome y := by
  obtain ⟨rfl, z, hrender, hleft⟩ | ⟨rfl, response, z, hrender, hsent⟩ := writePage_inv hrun
  · rw [hleft]
    exact .aborted y.log hhere ⟨log, hrender⟩
  · exact .written hhere ⟨log, hrender⟩ hsent

theorem decided_of_bufferPage (hhere : ¬ RendersCurrent h.config.val h.policy x.request)
    (hnorule : ¬ RedirectRule h.config.val h.policy x.request) {log : List Event}
    (hrun : (h.bufferPage render x.request.current x.request.target).run { x with log } =
      (.ok outcome, y)) :
    Decided h render x outcome y := by
  obtain ⟨rfl, z, hrender, hleft⟩ | ⟨rfl, hsame, response, z, hrender, hsent⟩ |
    ⟨rfl, hdiffer, response, z, w, hrender, hsent, hleft⟩ := bufferPage_inv hrun
  · rw [hleft]
    exact .targetAborted y.log hhere hnorule ⟨log, hrender⟩
  · exact .targetWritten hhere hnorule ⟨log, hrender⟩ hsame hsent
  · rw [hleft]
    exact .bufferedRedirect y.log hhere hnorule ⟨log, hrender⟩ hdiffer hsent

theorem decided_of_act {log : List Event}
    (hrun : (h.act render x.request).run { x with log } = (.ok outcome, y)) :
    Decided h render x outcome y := by
  rw [Handler.run_act] at hrun
  obtain ⟨haction, hwrite⟩ | ⟨haction, hwrite, hredirect⟩ | ⟨haction, hwrite, hredirect⟩ :=
    action_cases h x.request
  · rw [haction] at hrun
    exact decided_of_writePage (.inl hwrite) hrun
  · rw [haction] at hrun
    have hhere : ¬ RendersCurrent h.config.val h.policy x.request := by
      rintro (hrule | ⟨-, hnorule, -, -⟩)
      · exact hwrite hrule
      · exact hnorule hredirect
    obtain ⟨rfl, hsent⟩ := sends_inv
      (x := { x with log := log ++ h.decisionLog x.request }) hrun
    exact .redirected hhere hredirect hsent
  · simp only [haction] at hrun
    by_cases hdirect : (h.facts x.request).stateless ∧ ¬ (h.facts x.request).redirectStateless
    · rw [if_pos hdirect] at hrun
      have hhere : RendersCurrent h.config.val h.policy x.request :=
        .inr ⟨hwrite, hredirect, hdirect.1, Bool.eq_false_iff.2 hdirect.2⟩
      exact decided_of_writePage hhere hrun
    · rw [if_neg hdirect] at hrun
      have hhere : ¬ RendersCurrent h.config.val h.policy x.request := by
        rintro (hrule | ⟨-, -, hstateless, hnever⟩)
        · exact hwrite hrule
        · exact hdirect ⟨hstateless, Bool.eq_false_iff.1 hnever⟩
      exact decided_of_bufferPage hhere hredirect hrun

/-- An answer hands out what the look-up finds, or else it is a decision. -/
theorem answer_inv (hrun : (h.answer render).run x = (.ok outcome, y)) :
    ∃ found store, x.store.take x.now x.request.session x.request.target = (found, store) ∧
      ((∃ response, found = .hit response ∧ outcome = .bufferedWrite ∧
        Sends (replay response) { x with store } y) ∨
      (found.response? = none ∧ Decided h render { x with store } outcome y)) := by
  rw [Handler.run_answer] at hrun
  rcases htake : x.store.take x.now x.request.session x.request.target with
    ⟨_ | _ | response, store⟩
  · rw [htake] at hrun
    exact ⟨_, _, rfl, .inr ⟨rfl, decided_of_act hrun⟩⟩
  · rw [htake] at hrun
    exact ⟨_, _, rfl, .inr ⟨rfl, decided_of_act hrun⟩⟩
  · rw [htake] at hrun
    obtain ⟨rfl, hsent⟩ := sends_inv
      (x := { x with
        store
        log := x.log ++ [.served x.request.target response.size, .replaying x.request.target] })
      hrun
    exact ⟨_, _, rfl, .inl ⟨response, rfl, rfl, hsent⟩⟩

/-- **Every answer that does not end with a fault is as described.** -/
theorem answered_of_run (hreach : x.clocked.Reachable)
    (hrun : (h.answer render).run x = (.ok outcome, y)) : Answered h render x outcome y := by
  have hages : ∀ e ∈ x.store.entries, e.AgeFits x.now := hreach.wf.ageFits_now
  obtain ⟨found, store, htake, ⟨response, rfl, rfl, hsent⟩ | ⟨hfound, hdecided⟩⟩ := answer_inv hrun
  · obtain ⟨e, hit, rfl⟩ := Store.handsOut_of_take hages htake
    exact .bufferedWrite hit hsent
  · exact .decided (Store.misses_of_take hages hreach.wf.nodup hfound htake) hdecided

end

/-- The handler one gets without any settings. -/
def Handler.plain : Handler where
  config := ⟨{}, by decide, by decide, by decide⟩

namespace Move

/-- A render that moves the request to another session and displays another page. -/
def render : Renderer Transcript := fun _ => do
  modify fun x => { x with request.session := ascii "s2", request.current := .empty }
  return some { body := ascii "text" }

/-- The response that is buffered for the page has just become too old. -/
def exchange : Exchange Transcript where
  store := Store.tiny.insert 0 (ascii "s1") (.ofBytes (ascii "page")) {}
  clock := Clock.advance {} 1000000
  request :=
    { current := .ofBytes (ascii "form")
      target := .ofBytes (ascii "page")
      session := ascii "s1" }
  live := {}

theorem reachable : exchange.clocked.Reachable := by
  have hrun : exchange.clocked = Clocked.follow ⟨.tiny, {}⟩
      [.insert (ascii "s1") (.ofBytes (ascii "page")) {}, .advance 1000000] := by
    decide +kernel
  rw [hrun]
  exact Clocked.reachable_follow Store.tiny.limits {} _

end Move

theorem answered_of_run_move :
    ∃ y, (Handler.plain.answer Move.render).run Move.exchange = (.ok .bufferedRedirect, y) ∧
      Answered Handler.plain Move.render Move.exchange .bufferedRedirect y ∧
      y.store.entries.map (·.key) = [Store.key (ascii "s2") (.ofBytes (ascii "page"))] := by
  have hrun : (Handler.plain.answer Move.render).run Move.exchange =
      (.ok .bufferedRedirect, ((Handler.plain.answer Move.render).run Move.exchange).2) :=
    Prod.ext (by decide +kernel) rfl
  exact ⟨_, hrun, answered_of_run Move.reachable hrun, by decide +kernel⟩

end PageReply
