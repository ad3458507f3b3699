import PageReply.Answer
import PageReply.Script.Channel

/-!
# Steps

A script is a list of steps: work on the store, the passing of time, and requests to answer. The
page of a request is rendered by a script, too, which can do all that a script can, answer other
requests included, and besides touch the live response and change the request it is run for.
-/

namespace PageReply.Script

/-- Where a request is answered. -/
inductive Outlet where
  | message (ajax : Bool)
  | transcript (failOn : Option Call.Kind)
  /-- On the channel of the request that was begun last, or on a new transcript if there is none. -/
  | previous
deriving DecidableEq, Repr

/-- How a render ends, after its steps. -/
inductive Ending where
  /-- With a response, or with a stand-in page that names the URL. -/
  | page (draft : Option Draft)
  /-- Someone else takes over the answer. -/
  | takeover
  | failure (fault : Fault)
deriving DecidableEq, Repr

/-- A request to answer. -/
structure Visit where
  request : Request
  policy : Policy := .autoRedirect
  config : Config := {}
  outlet : Outlet := .transcript none
  ending : Ending := .page none
deriving DecidableEq, Repr

/-- A step of a script. -/
inductive Step where
  | insert (session : Bytes) (url : Url) (draft : Draft)
  | take (session : Bytes) (url : Url)
  /-- Drops what has expired at a distance from now, in nanoseconds. -/
  | purge (offset : Int)
  | advance (ns : Nat)
  /-- Answers a request; its page, if it is rendered, runs the steps. -/
  | visit (v : Visit) (during : List Step)
  /-- Touches the live response of the request being rendered. -/
  | touch (t : Touch)
  | change (c : Request.Change)

/-- What a step gives, when the requests it answers report each of their steps by a `ρ`. -/
inductive Result (ρ : Type) where
  | done
  | failed (fault : Fault)
  | taken (response : Option Response)
  | purged (count : Nat)
  | seen (value : Option Bytes)
  /-- How a request was answered: its outcome, the URLs its page was rendered for, its channel after
  the step, and the reports of the steps of the render. -/
  | visited (outcome : Except Fault Outcome) (renders : List Url) (channel : Channel)
    (during : List ρ)

/-- The report of a step: its result, and the store after it. -/
inductive Report where
  | mk (result : Result Report) (size : Nat) (stats : Stats) (log : List Event)

end PageReply.Script
