import Stomp.Proofs.Session.Pairing

/-!
# What handlers hear

A run of a session is that of a session without handlers, heard by the handlers that it
has (`Session.run?_of_ofConfig`).  So handlers do not influence a session: whatever they
do, the run is the same but for what they did (`Session.unmoved_by_handlers`).
-/

namespace Stomp

/-! ## Logs and their hearers -/

/-- An effect, whatever a handler did about it. -/
def Effect.muted : Effect → Effect
  | .report told _ => .report told none
  | effect => effect

def Entry.muted (entry : Entry) : Entry := { entry with effect := entry.effect.muted }

inductive Role where
  | onConnect
  | onDisconnect
  | onError
  deriving DecidableEq, Repr

def Report.role : Report → Role
  | .connected _ => .onConnect
  | .disconnected _ => .onDisconnect
  | .failed _ => .onError

def reportsFor (role : Role) (log : List Entry) : List (Instant × Phase × Report) :=
  log.filterMap fun entry =>
    match entry.effect with
    | .report report _ =>
        if report.role = role then some (entry.time, entry.phase, report) else none
    | _ => none

def Entry.isHeard (entry : Entry) : Bool :=
  match entry.effect with
  | .report _ heard => heard.isSome
  | _ => false

/-- The calls of a handler in a log. -/
def callsOf (role : Role) (log : List Entry) : List (Instant × Phase × Report) :=
  reportsFor role (log.filter Entry.isHeard)

namespace Handlers

def fills (handlers : Handlers) : Role → Bool
  | .onConnect => handlers.onConnect.isSome
  | .onDisconnect => handlers.onDisconnect.isSome
  | .onError => handlers.onError.isSome

@[simp] def notice (handlers : Handlers) : Effect → Handlers × Effect
  | .report report _ => ((handlers.hear report).1, .report report (handlers.hear report).2)
  | effect => (handlers, effect)

@[simp] def after (handlers : Handlers) : List Entry → Handlers
  | [] => handlers
  | entry :: log => (handlers.notice entry.effect).1.after log

/-- A log as it is with these handlers. -/
@[simp] def rehear (handlers : Handlers) : List Entry → List Entry
  | [] => []
  | entry :: log =>
      { entry with effect := (handlers.notice entry.effect).2 } ::
        (handlers.notice entry.effect).1.rehear log

variable (handlers : Handlers)

theorem after_append (first last : List Entry) :
    handlers.after (first ++ last) = (handlers.after first).after last := by
  induction first generalizing handlers with
  | nil => rfl
  | cons entry first ih => exact ih _

theorem rehear_append (first last : List Entry) :
    handlers.rehear (first ++ last) =
      handlers.rehear first ++ (handlers.after first).rehear last := by
  induction first generalizing handlers with
  | nil => rfl
  | cons entry first ih => simp only [List.cons_append, rehear, after, ih]

theorem notice_notice (others : Handlers) (effect : Effect) :
    handlers.notice (others.notice effect).2 = handlers.notice effect := by
  cases effect <;> rfl

theorem after_rehear (others : Handlers) (log : List Entry) :
    handlers.after (others.rehear log) = handlers.after log := by
  induction log generalizing handlers others with
  | nil => rfl
  | cons entry log ih => simp only [rehear, after, notice_notice, ih]

theorem muted_notice (effect : Effect) : (handlers.notice effect).2.muted = effect.muted := by
  cases effect <;> rfl

theorem muted_rehear (log : List Entry) :
    (handlers.rehear log).map Entry.muted = log.map Entry.muted := by
  induction log generalizing handlers with
  | nil => rfl
  | cons entry log ih => simp only [rehear, List.map_cons, ih, Entry.muted, muted_notice]

theorem after_nobody (log : List Entry) : ({} : Handlers).after log = {} := by
  induction log with
  | nil => rfl
  | cons entry log ih =>
      have hnotice : (({} : Handlers).notice entry.effect).1 = {} := by
        cases entry.effect with
        | report report heard => cases report <;> rfl
        | _ => rfl
      rw [after, hnotice, ih]

theorem fills_hear (report : Report) (role : Role) :
    (handlers.hear report).1.fills role = handlers.fills role := by
  have hkeeps (handler : Option Handler) : (hearWith handler).1.isSome = handler.isSome := by
    cases handler <;> rfl
  cases report <;> cases role <;> simp [hear, fills, hkeeps]

theorem fills_notice (effect : Effect) (role : Role) :
    (handlers.notice effect).1.fills role = handlers.fills role := by
  cases effect with
  | report report heard => exact handlers.fills_hear report role
  | _ => rfl

theorem isSome_hear (report : Report) :
    (handlers.hear report).2.isSome = handlers.fills report.role := by
  have hheard (handler : Option Handler) : (hearWith handler).2.isSome = handler.isSome := by
    cases handler <;> rfl
  cases report <;> simp [hear, fills, Report.role, hheard]

theorem callsOf_rehear (role : Role) (log : List Entry) :
    callsOf role (handlers.rehear log) =
      if handlers.fills role then reportsFor role log else [] := by
  induction log generalizing handlers with
  | nil => simp [callsOf, reportsFor]
  | cons entry log ih =>
      have hrest := ih (handlers.notice entry.effect).1
      rw [fills_notice] at hrest
      obtain ⟨time, phase, effect⟩ := entry
      simp only [callsOf, rehear, reportsFor] at hrest ⊢
      cases effect with
      | report report heard =>
          have hheard := handlers.isSome_hear report
          by_cases hrole : report.role = role
          · subst hrole
            cases hfills : handlers.fills report.role <;> simp_all [Entry.isHeard]
          · cases hreaction : (handlers.hear report).2 <;>
              simp_all [Entry.isHeard, List.filter_cons]
      | _ => simpa [Entry.isHeard] using hrest

theorem reportsFor_rehear (role : Role) (log : List Entry) :
    reportsFor role (handlers.rehear log) = reportsFor role log := by
  induction log generalizing handlers with
  | nil => rfl
  | cons entry log ih =>
      have hrest := ih (handlers.notice entry.effect).1
      obtain ⟨time, phase, effect⟩ := entry
      simp only [reportsFor, rehear] at hrest ⊢
      cases effect with
      | report report heard => simp_all [List.filterMap_cons]
      | _ => simpa using hrest

end Handlers

/-! ## Moves of the task -/

namespace Task

def withHandlers (handlers : Handlers) (task : Task) : Task := { task with handlers }

variable (handlers : Handlers) (task : Task)

@[simp] theorem withHandlers_point : (task.withHandlers handlers).point = task.point := rfl

@[simp] theorem withHandlers_hasEnded :
    (task.withHandlers handlers).hasEnded = task.hasEnded := rfl

@[simp] theorem withHandlers_inbound : (task.withHandlers handlers).inbound = task.inbound := rfl

@[simp] theorem withHandlers_outbound :
    (task.withHandlers handlers).outbound = task.outbound := rfl

@[simp] theorem withHandlers_handlers : (task.withHandlers handlers).handlers = handlers := rfl

end Task

namespace Progress

def heardBy (handlers : Handlers) (p : Progress) : Progress :=
  { p with
      task := p.task.withHandlers (handlers.after p.log)
      log := handlers.rehear p.log }

variable (handlers : Handlers) (p : Progress) (config : Config)

@[simp] theorem heardBy_now : (p.heardBy handlers).now = p.now := rfl

@[simp] theorem heardBy_phase : (p.heardBy handlers).phase = p.phase := rfl

@[simp] theorem heardBy_point : (p.heardBy handlers).task.point = p.task.point := rfl

@[simp] theorem heardBy_goto (point : Point) :
    (p.goto point).heardBy handlers = (p.heardBy handlers).goto point := rfl

@[simp] theorem heardBy_enter (phase : Phase) :
    (p.enter phase).heardBy handlers = (p.heardBy handlers).enter phase := by
  simp [heardBy, enter, note, Handlers.after_append, Handlers.rehear_append]

@[simp] theorem heardBy_call (call : Call) :
    (p.call call).heardBy handlers = (p.heardBy handlers).call call := by
  simp [heardBy, Progress.call, note, Handlers.after_append, Handlers.rehear_append]

@[simp] theorem heardBy_report (report : Report) :
    (p.report report).heardBy handlers = (p.heardBy handlers).report report := by
  simp [heardBy, Progress.report, note, Handlers.after_append, Handlers.rehear_append,
    Task.withHandlers]

@[simp] theorem heardBy_close (ending : Ending) :
    (p.close ending).heardBy handlers = (p.heardBy handlers).close ending := by
  simp [close]

@[simp] theorem heardBy_shutDown (live : Bool) :
    (p.shutDown live).heardBy handlers = (p.heardBy handlers).shutDown live := by
  cases live <;> simp [shutDown]

@[simp] theorem heardBy_leave (close : CloseInfo) :
    (p.leave close).heardBy handlers = (p.heardBy handlers).leave close := by
  simp [leave]

@[simp] theorem heardBy_lose (fault : Fault) :
    (p.lose fault).heardBy handlers = (p.heardBy handlers).lose fault := by
  simp [lose]

@[simp] theorem heardBy_recover (panic : Panic) :
    (p.recover panic).heardBy handlers = (p.heardBy handlers).recover panic := by
  simp [recover]

@[simp] theorem heardBy_begin : p.begin.heardBy handlers = (p.heardBy handlers).begin := by
  simp [Progress.begin]

@[simp] theorem heardBy_pause :
    (p.pause config).heardBy handlers = (p.heardBy handlers).pause config := by
  simp [pause]

@[simp] theorem heardBy_connect (info : ConnectedInfo) :
    (p.connect info).heardBy handlers = (p.heardBy handlers).connect info := by
  simp [connect]

@[simp] theorem heardBy_write (link : Link) (item : Wire.Item) :
    (p.write link item).heardBy handlers = (p.heardBy handlers).write link item := by
  simp [write]

@[simp] theorem heardBy_proceed (ending : Ending) :
    (p.proceed config ending).heardBy handlers = (p.heardBy handlers).proceed config ending := by
  cases ending with
  | refused fault => by_cases hagain : config.reconnects = true <;> simp [proceed, hagain]
  | lost close => by_cases hagain : config.reconnects = true <;> simp [proceed, hagain]
  | shutdown => simp [proceed]
  | panicked fault wasConnected => cases wasConnected <;> simp [proceed]

@[simp] theorem heardBy_deliver (frame : Frame) :
    (p.deliver frame).heardBy handlers = (p.heardBy handlers).deliver frame := by
  have hroom : ((p.heardBy handlers).task.attended &&
      decide ((p.heardBy handlers).task.inbound.length < Task.inboundCapacity)) =
        (p.task.attended && decide (p.task.inbound.length < Task.inboundCapacity)) := rfl
  unfold deliver
  rw [hroom]
  split <;> rfl

@[simp] theorem heardBy_hearAwaiting (event : Event) :
    (p.hearAwaiting config event).heardBy handlers =
      (p.heardBy handlers).hearAwaiting config event := by
  cases event with
  | item item =>
      cases item with
      | heartbeat => rfl
      | frame frame =>
          simp only [hearAwaiting]
          split
          · split <;> simp
          · split <;> simp
  | failed fault => simp [hearAwaiting]
  | closed close => simp [hearAwaiting]

@[simp] theorem heardBy_hearLinked (link : Link) (event : Event) :
    (p.hearLinked link event).heardBy handlers = (p.heardBy handlers).hearLinked link event := by
  cases event with
  | item item =>
      cases item with
      | heartbeat => rfl
      | frame frame =>
          simp only [hearLinked]
          split <;> simp
  | failed fault => simp [hearLinked]
  | closed close => simp [hearLinked]

theorem takeOutbound?_heardBy (link : Link) :
    (p.heardBy handlers).takeOutbound? link =
      (p.takeOutbound? link).map (·.heardBy handlers) := by
  have hqueue : (p.heardBy handlers).task.outbound = p.task.outbound := rfl
  have hattended : (p.heardBy handlers).task.attended = p.task.attended := rfl
  unfold takeOutbound?
  rw [hqueue, hattended]
  split
  · rw [Option.map_some, heardBy_write]
    rfl
  · split <;> simp

theorem branch?_heardBy (branch : Branch) :
    (p.heardBy handlers).branch? config branch =
      (p.branch? config branch).map (·.heardBy handlers) := by
  have hdue (time : Option Instant) : (p.heardBy handlers).isDue time = p.isDue time := rfl
  have hcancelled : (p.heardBy handlers).task.cancelled = p.task.cancelled := rfl
  cases hpoint : p.task.point <;> cases branch <;>
    simp only [branch?, heardBy_point, hpoint, hdue, hcancelled, takeOutbound?_heardBy,
      Option.map_none, Option.map_some, heardBy_begin, heardBy_goto, heardBy_call] <;>
    split <;> simp

theorem panic?_heardBy (panic : Panic) :
    (p.heardBy handlers).panic? panic = (p.panic? panic).map (·.heardBy handlers) := by
  unfold panic?
  rw [heardBy_point]
  split <;> simp

theorem outcome?_heardBy (outcome : Outcome) :
    (p.heardBy handlers).outcome? config outcome =
      (p.outcome? config outcome).map (·.heardBy handlers) := by
  have hdeadline : (p.heardBy handlers).deadline? config = p.deadline? config := rfl
  unfold outcome?
  rw [heardBy_point]
  split <;> simp [panic?_heardBy, hdeadline]

end Progress

/-! ## Steps of the session -/

namespace Session

def withHandlers (handlers : Handlers) (session : Session) : Session :=
  { session with
      parts := session.parts.map fun _ => ⟨handlers⟩
      active := session.active.map (·.withHandlers handlers) }

def reheard (handlers : Handlers) (stepped : Stepped) : Stepped :=
  (stepped.1.withHandlers (handlers.after stepped.2), handlers.rehear stepped.2)

variable (handlers : Handlers) {session : Session}

theorem withHandlers_withHandlers (others : Handlers) (session : Session) :
    (session.withHandlers others).withHandlers handlers = session.withHandlers handlers := by
  simp [withHandlers, Task.withHandlers, Function.comp_def]

theorem collect_withHandlers :
    (session.withHandlers handlers).collect = reheard handlers session.collect := by
  cases hactive : session.active with
  | none => simp [collect, withHandlers, hactive, reheard]
  | some task =>
      cases hpoint : task.point <;>
        simp [collect, withHandlers, hactive, hpoint, reheard, enter, entry]

theorem forfeit_withHandlers :
    (session.withHandlers handlers).forfeit = reheard handlers session.forfeit := by
  cases hactive : session.active with
  | none => simp [forfeit, withHandlers, hactive, reheard]
  | some task =>
      by_cases hended : task.hasEnded = true <;>
        simp [forfeit, withHandlers, hactive, hended, reheard]

theorem spawn_reheard (stepped : Stepped) :
    spawn (reheard handlers stepped) = reheard handlers (spawn stepped) := by
  obtain ⟨session, log⟩ := stepped
  cases hactive : session.active with
  | some task => simp [spawn, reheard, withHandlers, hactive]
  | none =>
      cases hparts : session.parts with
      | none => simp [spawn, reheard, withHandlers, hactive, hparts]
      | some parts =>
          simp [spawn, reheard, withHandlers, hactive, hparts, enter, entry,
            Handlers.after_append, Handlers.rehear_append, Task.withHandlers]

theorem send_withHandlers (frame : Frame) :
    (session.withHandlers handlers).send frame = reheard handlers (session.send frame) := by
  cases hactive : session.active with
  | none => simp [send, withHandlers, hactive, reheard, entry]
  | some task =>
      by_cases hended : task.hasEnded = true
      · simp [send, withHandlers, hactive, hended, reheard, entry]
      by_cases hfull : Task.outboundCapacity ≤ task.outbound.length
      · simp [send, withHandlers, hactive, hended, hfull, reheard, entry]
      · simp [send, withHandlers, hactive, hended, hfull, reheard, entry]
        rfl

theorem next_withHandlers :
    (session.withHandlers handlers).next = reheard handlers session.next := by
  cases hactive : session.active with
  | none => simp [next, withHandlers, hactive, reheard, entry]
  | some task =>
      cases hinbound : task.inbound with
      | nil =>
          by_cases hended : task.hasEnded = true <;>
            simp [next, withHandlers, hactive, hinbound, hended, reheard, entry]
      | cons frame rest =>
          simp [next, withHandlers, hactive, hinbound, reheard, entry, Task.withHandlers]

theorem request_withHandlers (request : Request) :
    (session.withHandlers handlers).request request =
      reheard handlers (session.request request) := by
  cases request with
  | activate =>
      rw [Session.request, activate, collect_withHandlers, spawn_reheard]
      rfl
  | activateLate =>
      rw [Session.request, activateLate, forfeit_withHandlers, spawn_reheard]
      rfl
  | deactivate =>
      cases hactive : session.active <;>
        simp [Session.request, deactivate, withHandlers, hactive, reheard, Task.withHandlers]
  | release =>
      cases hactive : session.active <;>
        simp [Session.request, release, withHandlers, hactive, reheard, Task.withHandlers]
  | send frame => exact send_withHandlers handlers frame
  | next => exact next_withHandlers handlers

theorem reclaim?_withHandlers :
    (session.withHandlers handlers).reclaim? = session.reclaim?.map (reheard handlers) := by
  cases hactive : session.active with
  | none => simp [reclaim?, withHandlers, hactive]
  | some task =>
      by_cases hended : task.hasEnded = true
      · by_cases hpoint : task.point = .finished <;>
          simp [reclaim?, withHandlers, hactive, hended, hpoint, reheard, enter, entry]
      · simp [reclaim?, withHandlers, hactive, hended]

theorem advance?_withHandlers (hlent : session.Lent) (step : Progress → Option Progress)
    (hstep : ∀ p : Progress,
      step (p.heardBy handlers) = (step p).map (Progress.heardBy handlers)) :
    (session.withHandlers handlers).advance? step =
      (session.advance? step).map (reheard handlers) := by
  cases hactive : session.active with
  | none => simp [advance?, withHandlers, hactive]
  | some task =>
      have hparts := hlent.parts_eq hactive
      have hheard : step ⟨session.now, session.phase, task.withHandlers handlers, []⟩ =
          (step ⟨session.now, session.phase, task, []⟩).map (Progress.heardBy handlers) :=
        hstep ⟨session.now, session.phase, task, []⟩
      cases hmoved : step ⟨session.now, session.phase, task, []⟩ with
      | none => simp [advance?, withHandlers, hactive, hheard, hmoved]
      | some p =>
          simp [advance?, withHandlers, hactive, hparts, hheard, hmoved, reheard,
            Progress.heardBy]

theorem step?_withHandlers (hlent : session.Lent) (input : Input) :
    (session.withHandlers handlers).step? input = (session.step? input).map (reheard handlers) := by
  have htenure : (session.withHandlers handlers).tenure = session.tenure := rfl
  cases input with
  | request request =>
      simp only [step?, htenure, request_withHandlers]
      split <;> rfl
  | reclaim =>
      simp only [step?, htenure, reclaim?_withHandlers]
      split <;> rfl
  | elapse duration => rfl
  | branch branch =>
      exact advance?_withHandlers handlers hlent (·.branch? session.config branch) fun p =>
        p.branch?_heardBy handlers session.config branch
  | outcome outcome =>
      exact advance?_withHandlers handlers hlent (·.outcome? session.config outcome) fun p =>
        p.outcome?_heardBy handlers session.config outcome

/-! ## Runs -/

theorem run?_withHandlers (hlent : session.Lent) (inputs : List Input) :
    (session.withHandlers handlers).run? inputs =
      (session.run? inputs).map (reheard handlers) := by
  induction inputs generalizing session handlers with
  | nil => rfl
  | cons input inputs ih =>
      simp only [run?, step?_withHandlers handlers hlent]
      cases hstep : session.step? input with
      | none => rfl
      | some stepped =>
          obtain ⟨next, log⟩ := stepped
          have hrest := ih (handlers.after log) ((step?_steps hstep).lent hlent)
          simp only [Option.map_some, reheard, Option.bind_eq_bind, Option.bind_some, hrest]
          cases next.run? inputs with
          | none => rfl
          | some stepped => simp [reheard, Handlers.after_append, Handlers.rehear_append]

theorem ofConfig_withHandlers (others : Handlers) {config : Config} {start : Session}
    (hstart : ofConfig config handlers = .ok start) :
    ofConfig config others = .ok ((fresh config).withHandlers others) := by
  unfold ofConfig at hstart ⊢
  cases hvalid : config.validate with
  | error rejection => simp [hvalid, bind, Except.bind] at hstart
  | ok checked => rfl

/-- Every run is that of a session without handlers, with what the handlers do added. -/
theorem run?_of_ofConfig {config : Config} {start : Session}
    (hstart : ofConfig config handlers = .ok start) (inputs : List Input) :
    start.run? inputs = ((fresh config).run? inputs).map (reheard handlers) := by
  obtain rfl := ofConfig_eq_ok hstart
  have hlent : (fresh config).Lent := .of_none rfl
  exact run?_withHandlers handlers hlent inputs

variable {handlers} {config : Config} {start : Session} {inputs : List Input} {log : List Entry}

theorem withHandlers_of_run? (hstart : ofConfig config handlers = .ok start)
    (hrun : start.run? inputs = some (session, log)) :
    session.withHandlers (handlers.after log) = session := by
  rw [run?_of_ofConfig handlers hstart] at hrun
  obtain ⟨⟨base, unheard⟩, -, heq⟩ := Option.map_eq_some_iff.mp hrun
  obtain ⟨rfl, rfl⟩ := Prod.mk.inj heq
  rw [withHandlers_withHandlers, Handlers.after_rehear]

theorem callsOf_of_run? (hstart : ofConfig config handlers = .ok start)
    (hrun : start.run? inputs = some (session, log)) (role : Role) :
    callsOf role log = if handlers.fills role then reportsFor role log else [] := by
  rw [run?_of_ofConfig handlers hstart] at hrun
  obtain ⟨⟨base, unheard⟩, -, heq⟩ := Option.map_eq_some_iff.mp hrun
  obtain ⟨rfl, rfl⟩ := Prod.mk.inj heq
  rw [Handlers.callsOf_rehear, Handlers.reportsFor_rehear]

/--
A run with other handlers is possible whenever it is with these, leads to the same
session but for its handlers, and brings about the same at the same times and in the
same phases, but for what handlers do.  A handler that there is in both runs, or in
neither, is called alike in both.
-/
theorem unmoved_by_handlers (others : Handlers) (hstart : ofConfig config handlers = .ok start)
    (hrun : start.run? inputs = some (session, log)) :
    ∃ second other more, ofConfig config others = .ok second ∧
      second.run? inputs = some (other, more) ∧
      other.withHandlers {} = session.withHandlers {} ∧
      more.map Entry.muted = log.map Entry.muted ∧
      ∀ role, others.fills role = handlers.fills role → callsOf role more = callsOf role log := by
  have hsecond := ofConfig_withHandlers handlers others hstart
  rw [run?_of_ofConfig handlers hstart] at hrun
  obtain ⟨⟨base, unheard⟩, hbase, heq⟩ := Option.map_eq_some_iff.mp hrun
  obtain ⟨rfl, rfl⟩ := Prod.mk.inj heq
  have hother : ((fresh config).withHandlers others).run? inputs =
      some (base.withHandlers (others.after unheard), others.rehear unheard) := by
    rw [run?_of_ofConfig others hsecond, hbase]
    rfl
  refine ⟨_, _, _, hsecond, hother, ?_, ?_, ?_⟩
  · rw [withHandlers_withHandlers, withHandlers_withHandlers]
  · rw [Handlers.muted_rehear, Handlers.muted_rehear]
  · intro role hfills
    rw [Handlers.callsOf_rehear, Handlers.callsOf_rehear, hfills]

def failing : Handlers :=
  ⟨some (.steady .panics), some (.steady .panics), some (.steady .panics)⟩

theorem unmoved_by_failing :
    ∃ start session log second other more, ofConfig plainConfig failing = .ok start ∧
      start.run? contained = some (session, log) ∧
      (log.filter fun entry => entry.effect ≠ entry.effect.muted).length = 3 ∧
      ofConfig plainConfig { failing with onError := none } = .ok second ∧
      second.run? contained = some (other, more) ∧
      other.withHandlers {} = session.withHandlers {} ∧
      more.map Entry.muted = log.map Entry.muted ∧
      callsOf .onDisconnect more = callsOf .onDisconnect log ∧
      (callsOf .onDisconnect log).length = 1 := by
  have hstart : ofConfig plainConfig failing = .ok ((fresh plainConfig).withHandlers failing) := rfl
  have hrun : (((fresh plainConfig).withHandlers failing).run? contained).map (fun stepped =>
      ((stepped.2.filter fun entry => entry.effect ≠ entry.effect.muted).length,
        (callsOf .onDisconnect stepped.2).length)) = some (3, 1) := by
    decide +kernel
  obtain ⟨⟨session, log⟩, hrun, hcounts⟩ := Option.map_eq_some_iff.mp hrun
  obtain ⟨hheard, hcalled⟩ := Prod.mk.inj hcounts
  obtain ⟨second, other, more, hsecond, hother, hsame, hlog, hcalls⟩ :=
    unmoved_by_handlers { failing with onError := none } hstart hrun
  exact ⟨_, session, log, second, other, more, hstart, hrun, hheard, hsecond, hother, hsame, hlog,
    hcalls .onDisconnect rfl, hcalled⟩

end Session

end Stomp
