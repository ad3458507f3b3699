import PageReply.Fault

/-!
# Live responses

A live response takes calls one at a time and may refuse any of them. It can change even when it
refuses, so performing a call gives the outcome and the response after it.

A `Transcript` is a live response that writes down every call and sends nothing. It can be told to
fail on one kind of call; the call is written down all the same.
-/

namespace PageReply

class Live (σ : Type) where
  perform : Call → σ → Except Fault Unit × σ

namespace Live

variable {σ : Type} [Live σ]

/-- Performs calls in order, up to the first that is refused. -/
def performAll : List Call → σ → Except Fault Unit × σ
  | [], live => (.ok (), live)
  | call :: calls, live =>
    match perform call live with
    | (.ok (), after) => performAll calls after
    | (.error fault, after) => (.error fault, after)

theorem performAll_singleton (call : Call) (live : σ) :
    performAll [call] live = perform call live := by
  rw [performAll]
  rcases perform call live with ⟨_ | _, after⟩ <;> rfl

theorem performAll_append (calls more : List Call) (live : σ) :
    performAll (calls ++ more) live =
      match performAll calls live with
      | (.ok (), after) => performAll more after
      | (.error fault, after) => (.error fault, after) := by
  induction calls generalizing live with
  | nil => rfl
  | cons call calls ih =>
    rw [List.cons_append, performAll, performAll]
    rcases perform call live with ⟨_ | _, after⟩
    · rfl
    · exact ih after

end Live

/-- The calls on a live response, in order. -/
structure Transcript where
  calls : List Call := []
  /-- The kind of call that fails. -/
  failOn : Option Call.Kind := none
deriving DecidableEq, Repr

instance : Live Transcript where
  perform call t :=
    let after := { t with calls := t.calls ++ [call] }
    if t.failOn = some call.kind then (.error (.refused call.kind), after) else (.ok (), after)

end PageReply
