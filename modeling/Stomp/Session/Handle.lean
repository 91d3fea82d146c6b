import Stomp.Session.Task
import Stomp.Text.Quoted

/-!
# Sessions

A session belongs to its owner, who starts and stops it, queues frames and takes
what arrived.  The transport and the handlers are either with the session or
with its one task; a task that died takes them along.
-/

namespace Stomp

/-- What a task needs to run: leave to call the transport, and the handlers. -/
structure Parts where
  handlers : Handlers

inductive Tenure where
  | held
  /-- The owner waits for the task to stop. -/
  | stopping
  | released
  deriving DecidableEq, Repr

structure Session where
  config : Config
  now : Instant := 0
  phase : Phase := .idle
  parts : Option Parts
  active : Option Task := none
  tenure : Tenure := .held

abbrev Stepped := Session × List Entry

namespace Session

def ofConfig (config : Config) (handlers : Handlers) : Except Rejection Session := do
  config.validate
  return { config, parts := some ⟨handlers⟩ }

def display (session : Session) : String :=
  "SessionHandle \x7b url: " ++ Quoted.quote session.config.url.text ++ ", state: "
    ++ session.phase.title ++ ", active: " ++ toString session.active.isSome ++ " \x7d"

def isBusy (session : Session) : Bool := session.active.any (!·.hasEnded)

def nextTimer? (session : Session) : Option Instant :=
  (session.active.elim [] Task.timers).min?

def entry (session : Session) (effect : Effect) : Entry :=
  ⟨session.now, session.phase, effect⟩

def enter (session : Session) (phase : Phase) : Stepped :=
  ({ session with phase }, [session.entry (.enter phase)])

/-! ## Starting and stopping -/

/-- Take back what a task that ended by itself had; a dead one leaves nothing behind. -/
def collect (session : Session) : Stepped :=
  match session.active with
  | none => (session, [])
  | some task =>
      match task.point with
      | .finished =>
          ({ session with active := none, parts := some ⟨task.handlers⟩ }, [])
      | .died => { session with active := none }.enter .idle
      | _ => (session, [])

/-- Give up a task that ended by itself, with all it had. -/
def forfeit (session : Session) : Stepped :=
  if session.active.any Task.hasEnded then ({ session with active := none }, [])
  else (session, [])

/-- Start a task unless one is there or the transport is gone. -/
def spawn (stepped : Stepped) : Stepped :=
  let (session, collected) := stepped
  match session.active, session.parts with
  | none, some parts =>
      let (session, entered) := session.enter .connecting
      ({ session with parts := none, active := some { handlers := parts.handlers } },
        collected ++ entered)
  | _, _ => (session, collected)

def activate (session : Session) : Stepped := spawn session.collect

/--
Activate at the end of the owner's turn.  Nothing more is handed to the owner in
this turn, not even what a task that ended has left.
-/
def activateLate (session : Session) : Stepped := spawn session.forfeit

def deactivate (session : Session) : Stepped :=
  match session.active with
  | none => (session, [])
  | some task =>
      ({ session with active := some { task with cancelled := true }, tenure := .stopping }, [])

def reclaim? (session : Session) : Option Stepped :=
  match session.active with
  | none => none
  | some task =>
      if task.hasEnded then
        let parts := if task.point = .finished then some ⟨task.handlers⟩ else session.parts
        some ({ session with active := none, parts, tenure := .held }.enter .idle)
      else none

/-- Let go of the session; its task is cancelled and its queues have no other end. -/
def release (session : Session) : Stepped :=
  ({ session with
      tenure := .released
      active := session.active.map fun task =>
        { task with cancelled := true, attended := false } }, [])

/-! ## Queues -/

def send (session : Session) (frame : Frame) : Stepped :=
  let answered answer := session.entry (.answeredSend frame answer)
  match session.active with
  | none => (session, [answered .refused])
  | some task =>
      if task.hasEnded then (session, [answered .refused])
      else if Task.outboundCapacity ≤ task.outbound.length then (session, [answered .full])
      else
        ({ session with
            active := some { task with outbound := task.outbound ++ [frame] } },
          [answered .queued])

def next (session : Session) : Stepped :=
  let answered answer := session.entry (.answeredNext answer)
  match session.active with
  | none => (session, [answered .ended])
  | some task =>
      match task.inbound with
      | frame :: rest =>
          ({ session with active := some { task with inbound := rest } },
            [answered (.frame frame)])
      | [] => (session, [answered (if task.hasEnded then .ended else .pending)])

end Session

/-! ## Steps -/

inductive Request where
  | activate
  | activateLate
  | deactivate
  | release
  | send (frame : Frame)
  | next
  deriving DecidableEq, Repr

inductive Input where
  | request (request : Request)
  /-- The task that was asked to stop is collected. -/
  | reclaim
  | elapse (duration : Duration)
  | branch (branch : Branch)
  | outcome (outcome : Outcome)

namespace Session

def request (session : Session) : Request → Stepped
  | .activate => session.activate
  | .activateLate => session.activateLate
  | .deactivate => session.deactivate
  | .release => session.release
  | .send frame => session.send frame
  | .next => session.next

def advance? (session : Session) (step : Progress → Option Progress) : Option Stepped := do
  let task ← session.active
  let p ← step { now := session.now, phase := session.phase, task }
  return ({ session with phase := p.phase, active := some p.task }, p.log)

def step? (session : Session) : Input → Option Stepped
  | .request request =>
      if session.tenure = .held then some (session.request request) else none
  | .reclaim => if session.tenure = .stopping then session.reclaim? else none
  | .elapse duration => some ({ session with now := session.now + duration }, [])
  | .branch branch => session.advance? (·.branch? session.config branch)
  | .outcome outcome => session.advance? (·.outcome? session.config outcome)

/-- A run: every input has to be possible where it comes. -/
def run? (session : Session) : List Input → Option Stepped
  | [] => some (session, [])
  | input :: inputs => do
      let (session, log) ← session.step? input
      let (session, more) ← session.run? inputs
      return (session, log ++ more)

end Session

end Stomp
