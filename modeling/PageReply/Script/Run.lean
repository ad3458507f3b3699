import PageReply.Script.Step

/-!
# Running scripts

Every step is run to its end and reported; no fault of one step stops the next. Channels are kept in
the order they were opened, as two requests can share one. A request that is answered while another
is rendered gets a request and a channel of its own, and both are put back afterwards.
-/

namespace PageReply.Script

/-- The channels of a script, and what its current request has done. -/
structure Stage where
  /-- All channels opened so far. -/
  channels : List Channel := []
  /-- The channel of the request being answered, by its place in `channels`. -/
  current : Nat := 0
  /-- The channel of the request that was begun last. -/
  latest : Option Nat := none
  /-- The URLs that the page was rendered for. -/
  renders : List Url := []
  /-- The reports of the steps of the render. -/
  during : List Report := []

namespace Stage

/-- The channel of the request being answered; outside of all requests, an empty transcript. -/
def channel (s : Stage) : Channel :=
  (s.channels[s.current]?).getD (.transcript {})

/-- Lets something happen to the current channel. -/
def onChannel {α : Type} (s : Stage) (f : Channel → α × Channel) : α × Stage :=
  ((f s.channel).1, { s with channels := s.channels.set s.current (f s.channel).2 })

instance : Live Stage where
  perform call s := s.onChannel (Live.perform call)

def enterAt (s : Stage) (place : Nat) : Stage :=
  { s with current := place, latest := some place, renders := [], during := [] }

def enterOn (s : Stage) (channel : Channel) : Stage :=
  { s with channels := s.channels ++ [channel] }.enterAt s.channels.length

def enter (s : Stage) : Outlet → Stage
  | .message ajax => s.enterOn (.message { ajax })
  | .transcript failOn => s.enterOn (.transcript { failOn })
  | .previous =>
    match s.latest with
    | some place => s.enterAt place
    | none => s.enterOn (.transcript {})

/-- The stage as a request leaves it, for the request around it to go on. -/
def leave (s outer : Stage) : Stage :=
  { s with current := outer.current, renders := outer.renders, during := outer.during }

end Stage

open Exchange

/-- The page of a script that says nothing about it. -/
def standIn (url : Url) : Response :=
  { body := ascii "<html>" ++ url.text ++ ascii "</html>" }

/-- A response whose fields are checked on the spot. -/
def built (draft : Draft) : ExchangeM Stage Response :=
  match draft.build with
  | .ok response => return response
  | .error defect => throw (.header defect)

def Ending.finish (ending : Ending) (url : Url) : ExchangeM Stage (Option Response) :=
  match ending with
  | .page none => return some (standIn url)
  | .page (some draft) => some <$> built draft
  | .takeover => return none
  | .failure fault => throw fault

/-- Renders a page: its steps first, then its ending. -/
def Visit.render (v : Visit) (during : StateM (Exchange Stage) (List Report)) : Renderer Stage :=
  fun url => do
    modify fun x => { x with live.renders := x.live.renders ++ [url] }
    let reports ← during
    modify fun x => { x with live.during := x.live.during ++ reports }
    v.ending.finish url

/-- Answers a request within the exchange of another one, if there is another. -/
def Visit.answer (v : Visit) (during : StateM (Exchange Stage) (List Report)) :
    ExchangeM Stage (Result Report) :=
  ExceptT.mk do
    let outer ← get
    set { outer with request := v.request, live := outer.live.enter v.outlet }
    let outcome ← ExceptT.run do
      let config ← usable v.config
      Handler.answer { config, policy := v.policy } (v.render during)
    let x ← get
    set { x with request := outer.request, live := x.live.leave outer.live }
    return .ok (.visited outcome x.live.renders x.live.channel x.live.during)

/-- Touches the live response of the request being rendered. -/
def Touch.run (t : Touch) : ExchangeM Stage (Result Report) :=
  ExceptT.mk do
    let x ← get
    let (outcome, live) := x.live.onChannel t.apply
    set { x with live }
    return outcome.map .seen

/-- Runs a step and reports it. What it logs is in its report and nowhere else. -/
def reported (work : ExchangeM Stage (Result Report)) : StateM (Exchange Stage) Report := do
  let outer ← get
  set { outer with log := [] }
  let outcome ← work.run
  let x ← get
  set { x with log := outer.log }
  let result := match outcome with
    | .ok result => result
    | .error fault => .failed fault
  return .mk result x.store.size x.store.stats x.log

mutual

def Step.run : Step → StateM (Exchange Stage) Report
  | .insert session url draft => reported do
    let response ← built draft
    insert session url response
    return .done
  | .take session url => reported do return .taken (← take session url)
  | .purge offset => reported do return .purged (← purge offset)
  | .advance ns => reported do
    advance ns
    return .done
  | .visit v during => reported (v.answer (runAll during))
  | .touch t => reported t.run
  | .change c => reported do
    modify fun x => { x with request := c.apply x.request }
    return .done

def runAll : List Step → StateM (Exchange Stage) (List Report)
  | [] => return []
  | step :: steps => do
    let report ← step.run
    let reports ← runAll steps
    return report :: reports

end

/-- What a store is opened with. -/
inductive Opening where
  /-- A timeout in milliseconds and a capacity. -/
  | limits (timeout : Int) (capacity : Nat)
  /-- The limits in settings, all of which are checked. -/
  | config (c : Config)
deriving DecidableEq, Repr

/-- Opens an empty store. Unusable settings are logged; unusable limits are only refused. -/
def Opening.store : Opening → Except Refusal Store
  | .limits timeout capacity =>
    match Limits.ofParts timeout capacity with
    | .ok found => .ok { limits := found }
    | .error defect => .error { fault := .limits defect }
  | .config c => do
    let valid ← c.usable
    return { limits := .ofConfig valid }

/-- Opens a store and runs steps on it, with a clock that begins at the given time. -/
def run (opening : Opening) (start : Int) (steps : List Step) :
    Except Refusal (List Report) := do
  let store ← opening.store
  let idle : Exchange Stage :=
    { store, clock := { start }, request := {}, live := {} }
  return ((runAll steps).run idle).1

end PageReply.Script
