import PageReply.Answer

/-!
# Answering, stage by stage

What each stage of answering a request gives and leaves, whatever the live response refuses and
whatever the render does. A stage is opened here once; what is said of answers elsewhere is derived
from these equations.
-/

namespace PageReply

variable {σ : Type}

namespace Exchange

theorem run_ite {β : Type} (x : Exchange σ) {p : Prop} [Decidable p] (work other : ExchangeM σ β) :
    (if p then work else other).run x = if p then work.run x else other.run x := by
  split <;> rfl

theorem run_note_bind {β : Type} (x : Exchange σ) (e : Event) (next : Unit → ExchangeM σ β) :
    (note e >>= next).run x = (next ()).run { x with log := x.log ++ [e] } := by
  rw [run_bind, run_note]

theorem run_send_bind [Live σ] {β : Type} (x : Exchange σ) (calls : List Call)
    (next : Unit → ExchangeM σ β) :
    (send calls >>= next).run x =
      match Live.performAll calls x.live with
      | (.ok (), live) => (next ()).run { x with live }
      | (.error fault, live) => (.error fault, { x with live }) := by
  rw [run_bind, run_send]
  rcases Live.performAll calls x.live with ⟨_ | _, live⟩ <;> rfl

end Exchange

namespace Handler

variable [Live σ] (h : Handler) (render : Renderer σ) (x : Exchange σ)

theorem run_writePage (url : Url) :
    (writePage render url).run x =
      match (render url).run x with
      | (.ok none, y) => (.ok .aborted, { y with log := y.log ++ [.takenOver url] })
      | (.ok (some response), y) =>
        match Live.performAll response.calls y.live with
        | (.ok (), live) => (.ok .written, { y with live })
        | (.error fault, live) => (.error fault, { y with live })
      | (.error fault, y) => (.error fault, y) := by
  unfold writePage
  rw [Exchange.run_bind]
  rcases (render url).run x with ⟨_ | _ | response, y⟩
  · rfl
  · rfl
  · exact Exchange.run_send_bind y response.calls _

theorem run_redirect_bind {β : Type} (url : Url) (next : Unit → ExchangeM σ β) :
    (h.redirect url >>= next).run x =
      match Live.performAll [.redirect url.text h.config.val.redirectStatus] x.live with
      | (.ok (), live) => (next ()).run { x with live }
      | (.error fault, live) => (.error fault, { x with live }) :=
  Exchange.run_send_bind x _ next

/-- The response is put in under the session that is there after the render. -/
theorem run_bufferPage (current target : Url) :
    (h.bufferPage render current target).run x =
      match (render target).run x with
      | (.ok none, y) => (.ok .aborted, { y with log := y.log ++ [.takenOver target] })
      | (.ok (some response), y) =>
        if current = target then
          match Live.performAll response.calls y.live with
          | (.ok (), live) => (.ok .written, { y with live })
          | (.error fault, live) => (.error fault, { y with live })
        else
          match Live.performAll [.redirect target.text h.config.val.redirectStatus] y.live with
          | (.ok (), live) =>
            (.ok .bufferedRedirect,
              { y with
                live
                store := y.store.insert y.now y.request.session target response
                log := y.log ++
                  y.store.insertEvents y.now (Store.key y.request.session target) })
          | (.error fault, live) => (.error fault, { y with live })
      | (.error fault, y) => (.error fault, y) := by
  unfold bufferPage
  rw [Exchange.run_bind]
  rcases (render target).run x with ⟨_ | _ | response, y⟩
  · rfl
  · rfl
  · by_cases hsame : current = target
    · simp only [if_pos hsame]
      exact Exchange.run_send_bind y response.calls _
    · simp only [if_neg hsame]
      rw [run_redirect_bind]
      rcases Live.performAll _ y.live with ⟨_ | _, live⟩ <;> rfl

def facts (request : Request) : Facts :=
  Facts.ofRequest request h.config.val h.policy

/-- What a handler does about a request for which nothing is buffered. -/
def action (request : Request) : Action :=
  (h.facts request).action (request.target = request.current)

/-- What is logged about the decision before it is acted on. -/
def decisionLog (request : Request) : List Event :=
  .decided request.current request.target (h.facts request) (h.action request) ::
    match h.action request with
    | .write | .redirect => []
    | .buffer => if (h.facts request).redirectToBuffer then [] else [.fallback]

theorem run_act (request : Request) :
    (h.act render request).run x =
      match h.action request with
      | .write =>
        (writePage render request.current).run { x with log := x.log ++ h.decisionLog request }
      | .redirect =>
        match
          Live.performAll [.redirect request.target.text h.config.val.redirectStatus] x.live with
        | (.ok (), live) =>
          (.ok .redirected, { x with live, log := x.log ++ h.decisionLog request })
        | (.error fault, live) =>
          (.error fault, { x with live, log := x.log ++ h.decisionLog request })
      | .buffer =>
        if (h.facts request).stateless ∧ ¬ (h.facts request).redirectStateless then
          (writePage render request.current).run { x with log := x.log ++ h.decisionLog request }
        else
          (h.bufferPage render request.current request.target).run
            { x with log := x.log ++ h.decisionLog request } := by
  have hfacts : Facts.ofRequest request h.config.val h.policy = h.facts request := rfl
  have haction :
      (h.facts request).action (request.target = request.current) = h.action request := rfl
  unfold act decisionLog
  simp only [Exchange.run_note_bind, hfacts, haction]
  cases h.action request with
  | write => rfl
  | redirect => exact h.run_redirect_bind _ _ _
  | buffer =>
    by_cases hbuffer : (h.facts request).redirectToBuffer
    · simp only [if_pos hbuffer, Exchange.run_ite]
    · simp only [if_neg hbuffer, Exchange.run_note_bind, Exchange.run_ite, List.append_assoc,
        List.singleton_append]

theorem run_answer :
    (h.answer render).run x =
      match x.store.take x.now x.request.session x.request.target with
      | (.hit response, store) =>
        match Live.performAll response.calls x.live with
        | (.ok (), live) =>
          (.ok .bufferedWrite,
            { x with
              live
              store
              log := x.log ++ [.served x.request.target response.size,
                .replaying x.request.target] })
        | (.error fault, live) =>
          (.error fault,
            { x with
              live
              store
              log := x.log ++ [.served x.request.target response.size,
                .replaying x.request.target] })
      | (found, store) =>
        (h.act render x.request).run
          { x with store, log := x.log ++ [found.event x.request.target] } := by
  unfold answer
  rw [Exchange.run_bind, Exchange.run_get]
  simp only [Exchange.run_bind, Exchange.run_take]
  rcases x.store.take x.now x.request.session x.request.target with ⟨_ | _ | response, store⟩
  · rfl
  · rfl
  · simp only [Lookup.response?, Lookup.event, Exchange.run_note_bind, Exchange.run_send_bind,
      List.append_assoc, List.singleton_append]
    rcases Live.performAll response.calls x.live with ⟨_ | _, live⟩ <;> rfl

/-- A response that waits is sent, whatever the handler and whoever would render the page. -/
theorem run_answer_of_hit {response : Response} {store : Store} {live : σ}
    (htake : x.store.take x.now x.request.session x.request.target = (.hit response, store))
    (hsend : Live.performAll response.calls x.live = (.ok (), live)) :
    (h.answer render).run x =
      (.ok .bufferedWrite,
        { x with
          live
          store
          log := x.log ++ [.served x.request.target response.size,
            .replaying x.request.target] }) := by
  rw [run_answer, htake]
  simp only [hsend]

end Handler

end PageReply
