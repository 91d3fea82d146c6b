import Stomp.Session.Handle
import Stomp.Simulation.Broker

/-!
# Rehearsing a session

A session, a scripted broker and a clock that moves only while the owner sleeps.
The task runs until nothing is left to do without time passing; of several things
that are ready, the first in a fixed order is taken.
-/

namespace Stomp.Simulation

structure Rig where
  session : Session
  broker : Broker
  reply : Option Outcome := none
  /-- What happened, the latest first. -/
  log : List Entry := []
  turn : Nat := 0

namespace Rig

/-- Cost of a turn in which the owner does not let the task run. -/
def fullTurn : Nat := 128

/-! ## Making steps -/

def answerCalls (rig : Rig) (entries : List Entry) : Rig :=
  entries.foldl
    (fun rig entry =>
      match entry.effect with
      | .call call =>
          let (broker, reply) := rig.broker.answer call
          { rig with broker, reply }
      | _ => rig)
    rig

/-- Make a step; an input that is not possible changes nothing. -/
def apply (rig : Rig) (input : Input) : Rig :=
  match rig.session.step? input with
  | none => rig
  | some (session, entries) =>
      { rig with session, log := entries.reverse ++ rig.log }.answerCalls entries

def isListening (rig : Rig) : Bool := rig.session.active.any Task.isListening

def branchInput? (rig : Rig) (branches : List Branch) : Option Input :=
  (branches.find? fun branch => (rig.session.step? (.branch branch)).isSome).map .branch

/-- Branches that come before events of the transport, and those that come after. -/
def earlyBranches : List Branch := [.start, .cancel, .dial, .take, .timeout]

def lateBranches : List Branch := [.beat, .watchdog, .resume]

def advanceLate? (rig : Rig) : Option Rig :=
  (rig.branchInput? lateBranches).map rig.apply

def advanceListening? (rig : Rig) : Option Rig :=
  match rig.broker.deliver with
  | (broker, some outcome) => some ({ rig with broker }.apply (.outcome outcome))
  | (broker, none) => { rig with broker }.advanceLate?

def advance? (rig : Rig) : Option Rig :=
  match rig.reply with
  | some outcome => some ({ rig with reply := none }.apply (.outcome outcome))
  | none =>
      match rig.branchInput? earlyBranches with
      | some input => some (rig.apply input)
      | none => if rig.isListening then rig.advanceListening? else rig.advanceLate?

def advanceMany (rig : Rig) : Nat → Rig
  | 0 => rig
  | count + 1 =>
      match rig.advance? with
      | none => rig
      | some rig => rig.advanceMany count

def stepBound (rig : Rig) : Nat :=
  64 + 4 * ((rig.session.active.elim 0 (·.outbound.length)) + rig.broker.backlog)

/-- Run the task until nothing is left to do, which also starts a new turn for the owner. -/
def settle (rig : Rig) : Rig :=
  { rig.advanceMany rig.stepBound with turn := fullTurn }

/-! ## The clock -/

def elapse (rig : Rig) (duration : Duration) : Rig := rig.apply (.elapse duration)

def sleepFor (rig : Rig) (left : Duration) : Nat → Rig
  | 0 => rig.elapse left
  | fuel + 1 =>
      match rig.session.nextTimer? with
      | none => rig.elapse left
      | some timer =>
          let wait := timer - rig.session.now
          if left < wait then rig.elapse left
          else (rig.elapse wait).settle.sleepFor (left - wait) fuel

def sleep (rig : Rig) (duration : Duration) : Rig :=
  (rig.settle.sleepFor duration (duration + 1)).settle

/-! ## The owner -/

def sendAnswer? (entry : Entry) : Option SendAnswer :=
  match entry.effect with
  | .answeredSend _ answer => some answer
  | _ => none

def nextAnswer? (entry : Entry) : Option NextAnswer :=
  match entry.effect with
  | .answeredNext answer => some answer
  | _ => none

def spend (rig : Rig) (cost : Nat) : Rig := { rig with turn := rig.turn - cost }

/-- Start the session; an owner at the end of the turn gets nothing from a task that ended. -/
def activate (rig : Rig) : Rig :=
  let cost := if rig.session.active.any Task.hasEnded then 1 else 0
  (rig.apply (.request (if rig.turn = 0 then .activateLate else .activate))).spend cost

def sendOnce (rig : Rig) (frame : Frame) : Rig × SendAnswer :=
  if rig.session.active.isSome && rig.turn == 0 then (rig, .full)
  else
    let cost := if rig.session.active.isSome then 1 else 0
    let rig := rig.apply (.request (.send frame))
    let answer := (rig.log.head?.bind sendAnswer?).getD .refused
    (if answer = .full then rig else rig.spend cost, answer)

def send (rig : Rig) (frame : Frame) : Nat → Rig × List SendAnswer
  | 0 => (rig, [])
  | count + 1 =>
      let (rig, answer) := rig.sendOnce frame
      let (rig, answers) := rig.send frame count
      (rig, answer :: answers)

def nextOnce (rig : Rig) : Rig × NextAnswer :=
  if rig.session.active.isSome && rig.turn < 2 then (rig.spend 1, .pending)
  else
    let isActive := rig.session.active.isSome
    let rig := rig.apply (.request .next)
    let answer := (rig.log.head?.bind nextAnswer?).getD .ended
    let cost := if !isActive then 0 else if answer = .pending then 1 else 2
    (rig.spend cost, answer)

def next (rig : Rig) : Nat → Rig × List NextAnswer
  | 0 => (rig, [])
  | count + 1 =>
      match rig.nextOnce with
      | (rig, .frame frame) =>
          let (rig, answers) := rig.next count
          (rig, .frame frame :: answers)
      | (rig, answer) => (rig, [answer])

/-- An owner that has to wait for the task to stop goes on in a turn of its own. -/
def deactivate (rig : Rig) : Rig :=
  let waits := rig.turn == 0 || rig.session.isBusy
  let rig := rig.apply (.request .deactivate)
  if rig.session.tenure = .stopping then
    ((if waits then rig.settle else rig).apply .reclaim).spend 1
  else rig

end Rig

/-! ## Scripts -/

structure MannerChange where
  opening : Option Opening := none
  writing : Option (List (String × Mishap)) := none
  closing : Option (Option Panic) := none
  replies : Option (List BrokerEvent) := none

def Manner.change (manner : Manner) (change : MannerChange) : Manner where
  opening := change.opening.getD manner.opening
  writing := change.writing.getD manner.writing
  closing := change.closing.getD manner.closing
  replies := change.replies.getD manner.replies

inductive Action where
  | activate
  | deactivate
  | release
  | display
  | send (frame : Frame) (count : Nat)
  | next (count : Nat)
  | sleep (duration : Duration)
  | push (events : List BrokerEvent)
  | change (change : MannerChange)

inductive Answer where
  | nothing
  | released
  | text (text : String)
  | sent (answers : List SendAnswer)
  | taken (answers : List NextAnswer)

namespace Rig

def performHeld (rig : Rig) : Action → Rig × Answer
  | .activate => (rig.activate, .nothing)
  | .deactivate => (rig.deactivate, .nothing)
  | .release => (rig.apply (.request .release), .nothing)
  | .display => (rig, .text rig.session.display)
  | .send frame count => (rig.send frame count).map id .sent
  | .next count => (rig.next count).map id .taken
  | _ => (rig, .nothing)

def perform (rig : Rig) : Action → Rig × Answer
  | .sleep duration => (rig.sleep duration, .nothing)
  | .push events =>
      ({ rig with broker := { rig.broker with events := rig.broker.events ++ events } },
        .nothing)
  | .change change =>
      ({ rig with
          broker := { rig.broker with manner := rig.broker.manner.change change } },
        .nothing)
  | action =>
      if rig.session.tenure = .released then (rig, .released) else rig.performHeld action

structure Observation where
  answer : Answer
  phase : Phase
  log : List Entry

def observe (rig : Rig) (action : Action) (settles : Bool) : Rig × Observation :=
  let (rig, answer) := { rig with log := [] }.perform action
  let rig := if settles then rig.settle else rig
  (rig, ⟨answer, rig.session.phase, rig.log.reverse⟩)

def rehearse (rig : Rig) : List (Action × Bool) → List Observation
  | [] => []
  | (action, settles) :: actions =>
      let (rig, observation) := rig.observe action settles
      observation :: rig.rehearse actions

end Rig

def Rig.ofSession (session : Session) (manner : Manner) : Rig where
  session := session
  broker := { manner, codec := ⟨session.config.completesFrames⟩ }
  turn := Rig.fullTurn

end Stomp.Simulation
