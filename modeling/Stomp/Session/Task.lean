import Stomp.Session.Basic

/-!
# The session task

A task runs one activation: it opens the transport, greets the broker, waits for
CONNECTED, keeps the connection alive, and starts over after a failure.  Between
two steps it stands at a `Point`, where it waits for the transport, for a timer
or for its owner.  Where several things are ready, any of them may be taken, so
a step is chosen from outside: by a `Branch` that is ready, or by the `Outcome`
of what the task waits for.
-/

namespace Stomp

/-! ## Where a task stands -/

structure Link where
  info : ConnectedInfo
  lastSent : Instant
  lastReceived : Instant
  deriving DecidableEq, Repr

namespace Link

def beatDue? (link : Link) : Option Instant :=
  link.info.outgoing.map (link.lastSent + ·)

def grace? (link : Link) : Option Duration := link.info.incoming.map (· * 2)

def silentAt? (link : Link) : Option Instant :=
  link.grace?.map (link.lastReceived + ·)

end Link

/-- Why the transport is being closed, which decides what follows. -/
inductive Ending where
  | refused (fault : Fault)
  | lost (close : CloseInfo)
  | shutdown
  | panicked (fault : Fault) (wasConnected : Bool)
  deriving DecidableEq, Repr

inductive Point where
  | ready
  | dialing
  | opening
  /-- Writing CONNECT. -/
  | greeting
  /-- Waiting for CONNECTED. -/
  | awaiting (deadline : Option Instant)
  | linked (link : Link)
  /-- Writing a queued frame or a heartbeat. -/
  | writing (link : Link)
  /-- Writing DISCONNECT. -/
  | parting
  | closing (ending : Ending)
  | pausing (wake : Instant)
  | finished
  /-- Ended by a panic that nothing could contain. -/
  | died
  deriving DecidableEq, Repr

structure Task where
  point : Point := .ready
  cancelled : Bool := false
  /-- Whether anyone holds the other ends of the queues. -/
  attended : Bool := true
  outbound : List Frame := []
  inbound : List Frame := []
  handlers : Handlers

namespace Task

def outboundCapacity : Nat := 32

def inboundCapacity : Nat := 256

def hasEnded (task : Task) : Bool :=
  match task.point with
  | .finished | .died => true
  | _ => false

def isListening (task : Task) : Bool :=
  match task.point with
  | .awaiting _ | .linked _ => true
  | _ => false

def timers (task : Task) : List Instant :=
  match task.point with
  | .awaiting deadline => deadline.toList
  | .linked link => link.beatDue?.toList ++ link.silentAt?.toList
  | .pausing wake => [wake]
  | _ => []

end Task

/-! ## Recording progress -/

structure Progress where
  now : Instant
  phase : Phase
  task : Task
  log : List Entry := []

namespace Progress

def note (p : Progress) (effect : Effect) : Progress :=
  { p with log := p.log ++ [⟨p.now, p.phase, effect⟩] }

def enter (p : Progress) (phase : Phase) : Progress :=
  { p.note (.enter phase) with phase }

def call (p : Progress) (call : Call) : Progress := p.note (.call call)

def report (p : Progress) (report : Report) : Progress :=
  let (handlers, heard) := p.task.handlers.hear report
  { p.note (.report report heard) with task := { p.task with handlers } }

def goto (p : Progress) (point : Point) : Progress :=
  { p with task := { p.task with point } }

/-! ## Leaving a connection -/

def close (p : Progress) (ending : Ending) : Progress :=
  (p.call .close).goto (.closing ending)

def disconnectFrame : Frame := { command := "DISCONNECT" }

def shutDown (p : Progress) (live : Bool) : Progress :=
  let p := p.enter .disconnecting
  if live then (p.call (.send (.frame disconnectFrame))).goto .parting
  else p.close .shutdown

def leave (p : Progress) (close : CloseInfo) : Progress :=
  (p.enter .disconnecting).close (.lost close)

/-- A connection lost to a fault; the fault is reported before the loss. -/
def lose (p : Progress) (fault : Fault) : Progress :=
  (p.report (.failed fault)).leave (.failed fault.message)

def panicFault (panic : Panic) : Fault :=
  .transport s!"session task panicked: {panic.message}"

/-- A panic of the transport ends the task like a lost connection without another attempt. -/
def recover (p : Progress) (panic : Panic) : Progress :=
  let wasConnected := p.phase == .connected
  (p.enter .disconnecting).close (.panicked (panicFault panic) wasConnected)

/-! ## Attempts -/

def begin (p : Progress) : Progress := (p.enter .connecting).goto .dialing

def pause (p : Progress) (config : Config) : Progress :=
  p.goto (.pausing (p.now + config.reconnectDelay))

def proceed (p : Progress) (config : Config) : Ending → Progress
  | .refused fault =>
      let p := p.report (.failed fault)
      if config.reconnects then p.pause config else (p.enter .idle).goto .finished
  | .lost close =>
      let p := (p.report (.disconnected close)).enter .idle
      if config.reconnects then (p.enter .connecting).pause config else p.goto .finished
  | .shutdown => ((p.report (.disconnected .deactivated)).enter .idle).goto .finished
  | .panicked fault wasConnected =>
      let p := p.report (.failed fault)
      let p := if wasConnected then p.report (.disconnected (.failed fault.message)) else p
      (p.enter .idle).goto .finished

/-! ## Waiting for CONNECTED -/

def unansweredFault (limit : Duration) : Fault :=
  .handshakeFailure s!"no CONNECTED frame within {Duration.text limit}"

def versionFault (frame : Frame) : Fault :=
  .handshakeFailure
    ("broker selected unsupported STOMP version " ++ (frame.header? "version").getD "1.0")

def closedFault (close : CloseInfo) : Fault :=
  .handshakeFailure s!"connection closed before CONNECTED ({close.text})"

def connect (p : Progress) (info : ConnectedInfo) : Progress :=
  ((p.enter .connected).report (.connected info)).goto (.linked ⟨info, p.now, p.now⟩)

/-- Before CONNECTED, heartbeats and frames other than CONNECTED and ERROR do not count. -/
def hearAwaiting (p : Progress) (config : Config) : Event → Progress
  | .item .heartbeat => p
  | .item (.frame frame) =>
      if frame.isConnected then
        match ConnectedInfo.ofFrame? frame config.heartbeat.text with
        | some info => p.connect info
        | none => p.close (.refused (versionFault frame))
      else if frame.isError then
        p.close (.refused (.protocol (ServerError.ofFrame frame)))
      else p
  | .failed fault => p.close (.refused fault)
  | .closed close => p.close (.refused (closedFault close))

/-! ## Connected -/

def silenceFault (link : Link) : Fault :=
  .transport s!"no data from broker within {Duration.text (link.grace?.getD 0)}"

/-- Queue a frame for the owner unless the queue is full or nobody will read it. -/
def deliver (p : Progress) (frame : Frame) : Progress :=
  if p.task.attended && p.task.inbound.length < Task.inboundCapacity then
    { p with task := { p.task with inbound := p.task.inbound ++ [frame] } }
  else p

def write (p : Progress) (link : Link) (item : Wire.Item) : Progress :=
  (p.call (.send item)).goto (.writing link)

def hearLinked (p : Progress) (link : Link) (event : Event) : Progress :=
  let p := p.goto (.linked { link with lastReceived := p.now })
  match event with
  | .item .heartbeat => p
  | .item (.frame frame) =>
      if frame.isError then p.report (.failed (.protocol (ServerError.ofFrame frame)))
      else p.deliver frame
  | .failed fault => p.lose fault
  | .closed close => p.leave close

end Progress

/-! ## Steps -/

inductive Branch where
  | start
  | dial
  | cancel
  /-- Take the next queued frame, or notice that there will be none. -/
  | take
  | timeout
  | beat
  | watchdog
  | resume
  deriving DecidableEq, Repr

namespace Progress

def isDue (p : Progress) (time : Option Instant) : Bool := time.any (· ≤ p.now)

def takeOutbound? (p : Progress) (link : Link) : Option Progress :=
  match p.task.outbound with
  | frame :: rest =>
      some ({ p with task := { p.task with outbound := rest } }.write link (.frame frame))
  | [] => if p.task.attended then none else some (p.shutDown true)

def branch? (p : Progress) (config : Config) (branch : Branch) : Option Progress :=
  match p.task.point, branch with
  | .ready, .start => some p.begin
  | .dialing, .dial => some ((p.call (.connect config.url)).goto .opening)
  | .dialing, .cancel => if p.task.cancelled then some (p.shutDown false) else none
  | .opening, .cancel => if p.task.cancelled then some (p.shutDown false) else none
  | .awaiting _, .cancel => if p.task.cancelled then some (p.shutDown false) else none
  | .linked _, .cancel => if p.task.cancelled then some (p.shutDown true) else none
  | .pausing _, .cancel => if p.task.cancelled then some (p.shutDown false) else none
  | .awaiting deadline, .timeout =>
      if p.isDue deadline then
        some (p.close (.refused (unansweredFault config.handshakeTimeout)))
      else none
  | .linked link, .take => p.takeOutbound? link
  | .linked link, .beat =>
      if p.isDue link.beatDue? then some (p.write link .heartbeat) else none
  | .linked link, .watchdog =>
      if p.isDue link.silentAt? then some (p.lose (silenceFault link)) else none
  | .pausing wake, .resume => if p.isDue wake then some p.begin else none
  | _, _ => none

def deadline? (p : Progress) (config : Config) : Option Instant :=
  if config.handshakeTimeout = 0 then none else some (p.now + config.handshakeTimeout)

/-- A panic is contained, except one while closing after another. -/
def panic? (p : Progress) (panic : Panic) : Option Progress :=
  match p.task.point with
  | .opening | .greeting | .awaiting _ | .linked _ | .writing _ | .parting =>
      some (p.recover panic)
  | .closing (.panicked _ _) => some (p.goto .died)
  | .closing _ => some (p.recover panic)
  | .ready | .dialing | .pausing _ | .finished | .died => none

def outcome? (p : Progress) (config : Config) (outcome : Outcome) : Option Progress :=
  match p.task.point, outcome with
  | .opening, .opened (.ok _) =>
      some ((p.call (.send (.frame config.connectFrame))).goto .greeting)
  | .opening, .opened (.error fault) => some (p.close (.refused fault))
  | .greeting, .sent (.ok _) => some (p.goto (.awaiting (p.deadline? config)))
  | .greeting, .sent (.error fault) => some (p.close (.refused fault))
  | .awaiting _, .event event => some (p.hearAwaiting config event)
  | .linked link, .event event => some (p.hearLinked link event)
  | .writing link, .sent (.ok _) => some (p.goto (.linked { link with lastSent := p.now }))
  | .writing _, .sent (.error fault) => some (p.lose fault)
  | .parting, .sent _ => some (p.close .shutdown)
  | .closing ending, .closed => some (p.proceed config ending)
  | _, .panicked panic => p.panic? panic
  | _, _ => none

end Progress

end Stomp
