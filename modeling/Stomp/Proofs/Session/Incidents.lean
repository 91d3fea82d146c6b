import Mathlib.Data.List.Induction
import Stomp.Proofs.Session.Activations
import Stomp.Proofs.Session.Discipline

/-!
# Incidents of an activation

What happens to an activation, told by its causes: attempts and what became of them,
connections and how they were lost, and the stop.  The calls and reports of an
activation are those that its incidents entail, in their order
(`Session.recounted_of_run?`).
-/

namespace Stomp

/-! ## Deeds -/

/-- What others notice of a session: a call to the transport, or a report to the owner. -/
inductive Deed where
  | call (call : Call)
  | report (report : Report)
  deriving DecidableEq, Repr

def Deed.call? : Deed → Option Call
  | call made => some made
  | report _ => none

@[simp] def Entry.deed? : Entry → Option Deed
  | ⟨_, _, .call call⟩ => some (.call call)
  | ⟨_, _, .report report _⟩ => some (.report report)
  | _ => none

/-! ## Incidents -/

inductive Incident where
  | dialed (url : Url)
  /-- The transport is open and CONNECT is written. -/
  | greeted (frame : Frame)
  /-- The attempt to connect failed. -/
  | refused (fault : Fault)
  | connected (info : ConnectedInfo)
  | wrote (item : Wire.Item)
  /-- The broker sent ERROR while the session was connected. -/
  | complained (error : ServerError)
  /-- The connection was lost to a fault. -/
  | broken (fault : Fault)
  /-- The connection was closed by the other side. -/
  | closed (close : CloseInfo)
  /-- The session took its owner's wish to stop, in some phase. -/
  | yielded (phase : Phase)
  deriving DecidableEq, Repr

namespace Incident

def deeds : Incident → List Deed
  | .dialed url => [.call (.connect url)]
  | .greeted frame => [.call (.send (.frame frame))]
  | .refused fault => [.call .close, .report (.failed fault)]
  | .connected info => [.report (.connected info)]
  | .wrote item => [.call (.send item)]
  | .complained error => [.report (.failed (.protocol error))]
  | .broken fault =>
      [.report (.failed fault), .call .close, .report (.disconnected (.failed fault.message))]
  | .closed close => [.call .close, .report (.disconnected close)]
  | .yielded phase =>
      (if phase = .connected then [.call (.send (.frame Progress.disconnectFrame))] else []) ++
        [.call .close, .report (.disconnected .deactivated)]

def isSetback : Incident → Bool
  | .refused _ | .broken _ | .closed _ => true
  | _ => false

def isDial : Incident → Bool
  | .dialed _ => true
  | _ => false

def isYield : Incident → Bool
  | .yielded _ => true
  | _ => false

theorem countP_flatMap {kind : Deed → Bool} {cause : Incident → Bool} {incidents : List Incident}
    (h : ∀ incident ∈ incidents, incident.deeds.countP kind = (cause incident).toNat) :
    (incidents.flatMap deeds).countP kind = incidents.countP cause := by
  induction incidents with
  | nil => rfl
  | cons incident incidents ih =>
      have hrest := ih fun other hmem => h other (List.mem_cons_of_mem incident hmem)
      rw [List.flatMap_cons, List.countP_append, h incident List.mem_cons_self, hrest,
        List.countP_cons]
      cases cause incident <;> simp [Nat.add_comm]

end Incident

/-- What an event tells a session that waits for CONNECTED. -/
def Event.answer? (config : Config) : Event → Option Incident
  | .item .heartbeat => none
  | .item (.frame frame) =>
      if frame.isConnected then
        match ConnectedInfo.ofFrame? frame config.heartbeat.text with
        | some info => some (.connected info)
        | none => some (.refused (Progress.versionFault frame))
      else if frame.isError then some (.refused (.protocol (ServerError.ofFrame frame)))
      else none
  | .failed fault => some (.refused fault)
  | .closed close => some (.refused (Progress.closedFault close))

def Event.news? : Event → Option Incident
  | .item .heartbeat => none
  | .item (.frame frame) =>
      if frame.isError then some (.complained (ServerError.ofFrame frame)) else none
  | .failed fault => some (.broken fault)
  | .closed close => some (.closed close)

theorem Event.of_answer? {config : Config} {event : Event} {incident : Incident}
    (h : event.answer? config = some incident) :
    (∃ info, incident = .connected info) ∨ ∃ fault, incident = .refused fault := by
  cases event with
  | failed fault => exact .inr ⟨fault, (Option.some.inj h).symm⟩
  | closed close => exact .inr ⟨_, (Option.some.inj h).symm⟩
  | item item =>
      cases item with
      | heartbeat => simp [answer?] at h
      | frame frame =>
          simp only [answer?] at h
          split at h
          · split at h
            · exact .inl ⟨_, (Option.some.inj h).symm⟩
            · exact .inr ⟨_, (Option.some.inj h).symm⟩
          · split at h
            · exact .inr ⟨_, (Option.some.inj h).symm⟩
            · simp at h

theorem Event.of_news? {event : Event} {incident : Incident} (h : event.news? = some incident) :
    (∃ error, incident = .complained error) ∨ (∃ fault, incident = .broken fault) ∨
      ∃ close, incident = .closed close := by
  cases event with
  | failed fault => exact .inr (.inl ⟨fault, (Option.some.inj h).symm⟩)
  | closed close => exact .inr (.inr ⟨close, (Option.some.inj h).symm⟩)
  | item item =>
      cases item with
      | heartbeat => simp [news?] at h
      | frame frame =>
          simp only [news?] at h
          split at h
          · exact .inl ⟨_, (Option.some.inj h).symm⟩
          · simp at h

/-- What an input is to a task that takes it. -/
def Task.incident? (task : Task) (config : Config) (phase : Phase) (input : Input) :
    Option Incident :=
  match task.point, input with
  | .dialing, .branch .dial => some (.dialed config.url)
  | .opening, .outcome (.opened (.ok _)) => some (.greeted config.connectFrame)
  | .opening, .outcome (.opened (.error fault)) => some (.refused fault)
  | .greeting, .outcome (.sent (.error fault)) => some (.refused fault)
  | .awaiting _, .branch .timeout =>
      some (.refused (Progress.unansweredFault config.handshakeTimeout))
  | .awaiting _, .outcome (.event event) => event.answer? config
  | .linked _, .branch .take =>
      match task.outbound with
      | frame :: _ => some (.wrote (.frame frame))
      | [] => some (.yielded phase)
  | .linked _, .branch .beat => some (.wrote .heartbeat)
  | .linked link, .branch .watchdog => some (.broken (Progress.silenceFault link))
  | .linked _, .outcome (.event event) => event.news?
  | .writing _, .outcome (.sent (.error fault)) => some (.broken fault)
  | _, .branch .cancel => some (.yielded phase)
  | _, _ => none

/-! ## The course of an activation -/

inductive Stage where
  /-- Before an attempt to connect. -/
  | apart
  | dialed
  | greeted
  | connected
  /-- Nothing more will happen. -/
  | over
  deriving DecidableEq, Repr

def Stage.afterSetback (config : Config) : Stage := if config.reconnects then .apart else .over

namespace Incident

def leadsTo (config : Config) : Incident → Stage
  | .dialed _ => .dialed
  | .greeted _ => .greeted
  | .connected _ | .wrote _ | .complained _ => .connected
  | .refused _ | .broken _ | .closed _ => .afterSetback config
  | .yielded _ => .over

def MayHappen (config : Config) : Incident → Stage → Prop
  | .dialed url, .apart => url = config.url
  | .greeted frame, .dialed => frame = config.connectFrame
  | .refused _, .dialed | .refused _, .greeted => True
  | .connected _, .greeted => True
  | .wrote _, .connected | .complained _, .connected => True
  | .broken _, .connected | .closed _, .connected => True
  | .yielded phase, .connected => phase = .connected
  | .yielded phase, .apart | .yielded phase, .dialed | .yielded phase, .greeted =>
      phase = .connecting
  | _, _ => False

theorem not_mayHappen_over (config : Config) (incident : Incident) :
    ¬ incident.MayHappen config .over := by
  cases incident <;> exact not_false

end Incident

/-- Incidents in an order in which they may happen, and the stage to which they lead. -/
inductive Course (config : Config) : List Incident → Stage → Prop
  | nil : Course config [] .apart
  | snoc {incidents : List Incident} {stage : Stage} {incident : Incident}
      (h : Course config incidents stage) (hmay : incident.MayHappen config stage) :
      Course config (incidents ++ [incident]) (incident.leadsTo config)

namespace Course

variable {config : Config} {incidents : List Incident} {incident : Incident} {stage : Stage}

theorem goes_on (h : Course config incidents stage) (hstage : stage ≠ .over) :
    ∀ incident ∈ incidents, incident.leadsTo config ≠ .over := by
  induction h with
  | nil => simp
  | @snoc before middle last hbefore hmay ih =>
      have hmiddle : middle ≠ .over := by
        rintro rfl
        exact last.not_mayHappen_over config hmay
      intro incident hmem
      rcases List.mem_append.mp hmem with hmem | hmem
      · exact ih hmiddle incident hmem
      · rwa [List.mem_singleton.mp hmem]

theorem of_snoc (h : Course config (incidents ++ [incident]) stage) :
    stage = incident.leadsTo config ∧ (∀ other ∈ incidents, other.leadsTo config ≠ .over) ∧
      ∃ before, Course config incidents before ∧ incident.MayHappen config before := by
  generalize heq : incidents ++ [incident] = whole at h
  cases h with
  | nil => simp at heq
  | @snoc before middle last hbefore hmay =>
      obtain ⟨rfl, hlast⟩ := List.append_inj' heq rfl
      obtain rfl := List.singleton_inj.mp hlast
      refine ⟨rfl, hbefore.goes_on ?_, middle, hbefore, hmay⟩
      rintro rfl
      exact incident.not_mayHappen_over config hmay

theorem of_over (h : Course config incidents .over) :
    ∃ front last, incidents = front ++ [last] ∧
      (last.isYield = true ∨ last.isSetback = true ∧ config.reconnects = false) := by
  generalize hstage : Stage.over = stage at h
  cases h with
  | nil => cases hstage
  | @snoc front middle last hfront hmay =>
      refine ⟨front, last, rfl, ?_⟩
      cases last <;> simp [Incident.leadsTo, Stage.afterSetback] at hstage <;>
        simp_all [Incident.isYield, Incident.isSetback]

end Course

/-! ## Points of a course -/

/-- What remains to be done about the last incident. -/
def Ending.owed : Ending → List Deed
  | .refused fault => [.report (.failed fault)]
  | .lost close => [.report (.disconnected close)]
  | .shutdown => [.report (.disconnected .deactivated)]
  | .panicked fault wasConnected =>
      .report (.failed fault) ::
        if wasConnected then [.report (.disconnected (.failed fault.message))] else []

def Point.owed : Point → List Deed
  | .parting => [.call .close, .report (.disconnected .deactivated)]
  | .closing ending => ending.owed
  | _ => []

def Ending.stage (config : Config) : Ending → Stage
  | .refused _ | .lost _ => .afterSetback config
  | .shutdown | .panicked _ _ => .over

def Point.stage (config : Config) : Point → Stage
  | .ready | .dialing | .pausing _ => .apart
  | .opening => .dialed
  | .greeting | .awaiting _ => .greeted
  | .linked _ | .writing _ => .connected
  | .closing ending => ending.stage config
  | .parting | .finished | .died => .over

/-- Which points go with the last incident, as long as the transport does not panic. -/
def Point.Suits : Point → Option Incident → Prop
  | .ready, last => last = none
  | .parting, last => last.any Incident.isYield = true
  | .died, _ => False
  | _, _ => True

def Input.isPanic : Input → Bool
  | .outcome (.panicked _) => true
  | _ => false

namespace Progress

/-- A move does what its incident entails, which may have happened where it comes from. -/
structure Tells (config : Config) (p : Progress) (incident? : Option Incident) (p' : Progress) :
    Prop where
  deeds_eq : seen Entry.deed? p'.log ++ p'.task.point.owed =
    p.task.point.owed ++ incident?.elim [] Incident.deeds
  stage_eq : p'.task.point.stage config =
    incident?.elim (p.task.point.stage config) (Incident.leadsTo config)
  may : ∀ incident ∈ incident?, incident.MayHappen config (p.task.point.stage config)
  suits : ∀ last, p.task.point.Suits last → p'.task.point.Suits (incident?.or last)

variable {config : Config} {p p' : Progress}

attribute [local simp] Point.owed Ending.owed Point.stage Ending.stage Stage.afterSetback
  Point.Suits Incident.deeds Incident.leadsTo Incident.MayHappen

theorem tells_nothing (hlog : p.log = []) : p.Tells config none p :=
  ⟨by simp [hlog], rfl, by simp, fun _ h => h⟩

theorem tells_proceed {ending : Ending} (hlog : p.log = [])
    (hpoint : p.task.point = .closing ending) : p.Tells config none (p.proceed config ending) := by
  cases ending with
  | panicked fault wasConnected =>
      cases wasConnected <;> constructor <;> simp [proceed, hpoint, hlog]
  | shutdown => constructor <;> simp [proceed, hpoint, hlog]
  | refused fault =>
      cases hagain : config.reconnects <;> constructor <;>
        simp [proceed, pause, hagain, hpoint, hlog]
  | lost close =>
      cases hagain : config.reconnects <;> constructor <;>
        simp [proceed, pause, hagain, hpoint, hlog]

theorem tells_refused (hlog : p.log = [])
    (hpoint : p.task.point = .opening ∨ p.task.point = .greeting ∨
      ∃ deadline, p.task.point = .awaiting deadline) (fault : Fault) :
    p.Tells config (some (.refused fault)) (p.close (.refused fault)) := by
  rcases hpoint with hpoint | hpoint | ⟨deadline, hpoint⟩ <;> constructor <;>
    simp [close, hpoint, hlog]

theorem tells_hearAwaiting {deadline : Option Instant} (hlog : p.log = [])
    (hpoint : p.task.point = .awaiting deadline) (event : Event) :
    p.Tells config (event.answer? config) (p.hearAwaiting config event) := by
  have hrefused (fault : Fault) :
      p.Tells config (some (.refused fault)) (p.close (.refused fault)) :=
    tells_refused hlog (.inr (.inr ⟨deadline, hpoint⟩)) fault
  unfold hearAwaiting
  cases event with
  | failed fault => exact hrefused fault
  | closed close => exact hrefused _
  | item item =>
      cases item with
      | heartbeat => exact tells_nothing hlog
      | frame frame =>
          simp only [Event.answer?]
          split
          · cases ConnectedInfo.ofFrame? frame config.heartbeat.text with
            | some info => constructor <;> simp [connect, hpoint, hlog]
            | none => exact hrefused _
          · split
            · exact hrefused _
            · exact tells_nothing hlog

theorem tells_lose {link : Link} (hlog : p.log = [])
    (hpoint : p.task.point = .linked link ∨ p.task.point = .writing link) (fault : Fault) :
    p.Tells config (some (.broken fault)) (p.lose fault) := by
  rcases hpoint with hpoint | hpoint <;> constructor <;> simp [lose, leave, close, hpoint, hlog]

theorem tells_hearLinked {link : Link} (hlog : p.log = []) (hpoint : p.task.point = .linked link)
    (event : Event) : p.Tells config event.news? (p.hearLinked link event) := by
  unfold hearLinked
  cases event with
  | failed fault => constructor <;> simp [lose, leave, close, hpoint, hlog, Event.news?]
  | closed close => constructor <;> simp [leave, Progress.close, hpoint, hlog, Event.news?]
  | item item =>
      cases item with
      | heartbeat => constructor <;> simp [hpoint, hlog, Event.news?]
      | frame frame =>
          simp only [Event.news?]
          split <;> constructor <;> simp [hpoint, hlog]

theorem tells_shutDown (hlog : p.log = []) (howed : p.task.point.owed = []) {live : Bool}
    (hphase : p.phase = if live then .connected else .connecting)
    (hmay : (Incident.yielded p.phase).MayHappen config (p.task.point.stage config)) :
    p.Tells config (some (.yielded p.phase)) (p.shutDown live) := by
  refine ⟨?_, ?_, by simpa using hmay, ?_⟩ <;> cases live <;>
    simp_all [shutDown, close, Incident.isYield]

theorem Moves.tells {input : Input} (h : Moves config p input p') (hlog : p.log = [])
    (hphase : p.phase = p.task.point.phase) (hcalm : input.isPanic = false) :
    p.Tells config (p.task.incident? config p.phase input) p' := by
  cases h with
  | abandon hpoint hcancelled =>
      have hyields : p.task.incident? config p.phase (.branch .cancel) =
          some (.yielded p.phase) := by
        rcases hpoint with hpoint | hpoint | ⟨deadline, hpoint⟩ | ⟨wake, hpoint⟩ <;>
          simp [Task.incident?, hpoint]
      rw [hyields]
      rcases hpoint with hpoint | hpoint | ⟨deadline, hpoint⟩ | ⟨wake, hpoint⟩ <;>
        rw [hpoint] at hphase <;>
        exact tells_shutDown hlog (by simp [hpoint]) hphase (by simp [hpoint, hphase, Point.phase])
  | part hpoint hcancelled =>
      rw [hpoint] at hphase
      simp only [Task.incident?, hpoint]
      exact tells_shutDown hlog (by simp [hpoint]) hphase (by simp [hpoint, hphase, Point.phase])
  | unattended hpoint hqueue hattended =>
      rw [hpoint] at hphase
      simp only [Task.incident?, hpoint, hqueue]
      exact tells_shutDown hlog (by simp [hpoint]) hphase (by simp [hpoint, hphase, Point.phase])
  | watchdog hpoint hdue =>
      simp only [Task.incident?, hpoint]
      exact tells_lose hlog (.inl hpoint) _
  | unwritten hpoint =>
      simp only [Task.incident?, hpoint]
      exact tells_lose hlog (.inr hpoint) _
  | timeout hpoint hdue =>
      simp only [Task.incident?, hpoint]
      exact tells_refused hlog (.inr (.inr ⟨_, hpoint⟩)) _
  | unopened hpoint =>
      simp only [Task.incident?, hpoint]
      exact tells_refused hlog (.inl hpoint) _
  | ungreeted hpoint =>
      simp only [Task.incident?, hpoint]
      exact tells_refused hlog (.inr (.inl hpoint)) _
  | answer hpoint =>
      simp only [Task.incident?, hpoint]
      exact tells_hearAwaiting hlog hpoint _
  | hear hpoint =>
      simp only [Task.incident?, hpoint]
      exact tells_hearLinked hlog hpoint _
  | closed hpoint =>
      simp only [Task.incident?, hpoint]
      exact tells_proceed hlog hpoint
  | panic hpoint => simp [Input.isPanic] at hcalm
  | death hpoint => simp [Input.isPanic] at hcalm
  | take hpoint hqueue =>
      constructor <;> simp [write, Task.incident?, hpoint, hqueue, hlog]
  | start hpoint | dial hpoint | beat hpoint hdue | resume hpoint hdue | opened hpoint
  | greeted hpoint | written hpoint | parted hpoint =>
      constructor <;> simp [Progress.begin, write, close, Task.incident?, hpoint, hlog]

end Progress

/-! ## Incidents of a run -/

namespace Session

variable {session next : Session} {log more : List Entry} {input : Input}

def incident? (session : Session) (input : Input) : Option Incident :=
  session.active.bind fun task => task.incident? session.config session.phase input

/-- What happened to the latest activation. -/
def incidents (session : Session) (inputs : List Input) : List Incident :=
  session.observe
    (fun seen before input stepped =>
      if begins input stepped.2 then [] else seen ++ (before.incident? input).toList)
    [] inputs

def owed (session : Session) : List Deed := session.point?.elim [] Point.owed

theorem owed_of_active {task : Task} (hactive : session.active = some task) :
    session.owed = task.point.owed := by
  simp [owed, point?_of_active hactive]

theorem Quiet.deeds_eq (h : session.Quiet (next, more)) : seen Entry.deed? more = [] :=
  h.seen_eq_nil (fun _ _ _ _ => rfl) fun _ _ _ => rfl

theorem Turns.deeds_eq (h : session.Turns input (next, more)) : seen Entry.deed? more = [] :=
  h.seen_eq_nil fun _ _ _ => rfl

theorem incident?_of_rest (hmove : input.isMove = false) : session.incident? input = none := by
  cases hactive : session.active with
  | none => simp [incident?, hactive]
  | some task =>
      cases input with
      | branch branch => exact absurd hmove Bool.noConfusion
      | outcome outcome => exact absurd hmove Bool.noConfusion
      | _ => simp [incident?, hactive, Task.incident?]

structure Recounted (config : Config) (session : Session) (chronicle : Chronicle)
    (incidents : List Incident) : Prop where
  deeds_eq : seen Entry.deed? chronicle.current ++ session.owed = incidents.flatMap Incident.deeds
  course : ∃ stage, Course config incidents stage ∧
    (∀ point, session.point? = some point → point.stage config = stage) ∧
    (session.active = none → stage = .over ∨ chronicle.earlier = [] ∧ incidents = [])
  suits : ∀ point, session.point? = some point → point.Suits incidents.getLast?
  idle : session.isBusy = false → session.phase = .idle

theorem incidents_snoc {start : Session} {inputs : List Input}
    (hrun : start.run? inputs = some (session, log))
    (hstep : session.step? input = some (next, more)) :
    start.incidents (inputs ++ [input]) =
      if begins input more then []
      else start.incidents inputs ++ (session.incident? input).toList :=
  observe_snoc _ _ hrun hstep

/-- In its latest activation a run came to an incident, from a session as it was then. -/
def ComesTo (start : Session) (inputs : List Input) (middle : Session) (incident : Incident) :
    Prop :=
  ∃ before input after made, inputs = before ++ input :: after ∧
    start.run? before = some (middle, made) ∧ middle.incident? input = some incident ∧
    (start.chronicle before).earlier = (start.chronicle inputs).earlier

theorem ComesTo.of_snoc {start middle : Session} {inputs : List Input} {incident : Incident}
    (h : start.ComesTo inputs middle incident) (hrun : start.run? inputs = some (session, log))
    (hstep : session.step? input = some (next, more)) (hbegins : begins input more = false) :
    start.ComesTo (inputs ++ [input]) middle incident := by
  obtain ⟨before, cause, after, made, rfl, hmiddle, hcause, hsame⟩ := h
  refine ⟨before, cause, after ++ [input], made, by simp, hmiddle, hcause, ?_⟩
  rw [chronicle_snoc hrun hstep, Chronicle.note, hbegins]
  exact hsame

theorem comesTo_of_mem_incidents {start : Session} {inputs : List Input} {incident : Incident}
    (hrun : start.run? inputs = some (session, log)) (hmem : incident ∈ start.incidents inputs) :
    ∃ middle, start.ComesTo inputs middle incident := by
  refine run?_induction (motive := fun inputs _ _ => incident ∈ start.incidents inputs →
    ∃ middle, start.ComesTo inputs middle incident) ?_ ?_ hrun hmem
  · exact fun hmem => absurd hmem List.not_mem_nil
  · intro inputs input session next log more hbefore ih hstep hmem
    rw [incidents_snoc hbefore hstep] at hmem
    split at hmem
    · exact absurd hmem List.not_mem_nil
    · rename_i hbegins
      rw [Bool.not_eq_true] at hbegins
      rcases List.mem_append.mp hmem with hmem | hmem
      · obtain ⟨middle, hmiddle⟩ := ih hmem
        exact ⟨middle, hmiddle.of_snoc hbefore hstep hbegins⟩
      · refine ⟨session, inputs, input, [], log, rfl, hbefore, Option.mem_toList.mp hmem, ?_⟩
        rw [chronicle_snoc hbefore hstep, Chronicle.note, hbegins]
        rfl

theorem Quiet.isBusy_eq (h : session.Quiet (next, more)) : next.isBusy = session.isBusy := by
  have hsame : next.point? = session.point? := h.point_eq
  cases hactive : session.active <;> cases hnext : next.active <;>
    simp_all [point?, isBusy, Task.hasEnded]

theorem Recounted.quiet {config : Config} {chronicle : Chronicle} {incidents : List Incident}
    (h : Recounted config session chronicle incidents) (hquiet : session.Quiet (next, more)) :
    Recounted config next { chronicle with current := chronicle.current ++ more } incidents := by
  obtain ⟨hdeeds, ⟨stage, hcourse, hpoint, hnone⟩, hsuits, hidle⟩ := h
  have hsame : next.point? = session.point? := hquiet.point_eq
  have hphase : next.phase = session.phase := hquiet.phase_eq
  constructor
  · rw [seen_append, hquiet.deeds_eq, List.append_nil, owed, hsame]
    exact hdeeds
  · refine ⟨stage, hcourse, fun point hat => hpoint point (by rw [← hsame, hat]), fun hgone => ?_⟩
    rw [← point?_eq_none, hsame, point?_eq_none] at hgone
    exact hnone hgone
  · exact fun point hat => hsuits point (by rw [← hsame, hat])
  · intro hrest
    rw [hquiet.isBusy_eq] at hrest
    rw [hphase, hidle hrest]

theorem stage_of_rest (config : Config) {point : Point} (hrest : session.isBusy = false)
    (hpoint : session.point? = some point) : point.stage config = .over ∧ point.owed = [] := by
  obtain ⟨task, hactive, rfl⟩ := Option.map_eq_some_iff.mp hpoint
  rw [isBusy_of_active hactive, Bool.not_eq_false'] at hrest
  rcases hasEnded_cases hrest with hended | hended <;>
    simp [hended, Point.stage, Point.owed]

theorem owed_of_rest (hrest : session.isBusy = false) : session.owed = [] := by
  cases hat : session.point? with
  | none => simp [owed, hat]
  | some point => simp [owed, hat, (stage_of_rest session.config hrest hat).2]

theorem Recounted.of_rest {config : Config} {chronicle : Chronicle} {incidents : List Incident}
    (h : Recounted config session chronicle incidents) (hrest : session.isBusy = false)
    (hbegun : chronicle.earlier ≠ []) :
    seen Entry.deed? chronicle.current = incidents.flatMap Incident.deeds ∧
      Course config incidents .over := by
  obtain ⟨hdeeds, ⟨stage, hcourse, hpoint, hnone⟩, -, -⟩ := h
  have hover : stage = .over := by
    cases hat : session.point? with
    | none => exact (hnone (point?_eq_none.mp hat)).resolve_right fun hnever => hbegun hnever.1
    | some point => rw [← hpoint point hat, (stage_of_rest config hrest hat).1]
  rw [owed_of_rest hrest, List.append_nil] at hdeeds
  exact ⟨hdeeds, hover ▸ hcourse⟩

theorem Recounted.turn {config : Config} {chronicle : Chronicle} {incidents : List Incident}
    (h : Recounted config session chronicle incidents) (hturns : session.Turns input (next, more)) :
    Recounted config next (chronicle.note input more)
      (if begins input more then [] else incidents) := by
  obtain ⟨hdeeds, ⟨stage, hcourse, hpoint, hnone⟩, -, hidle⟩ := h
  rcases hturns.point?_eq with ⟨hbegins, hnowhere⟩ | ⟨hbegins, hready⟩
  · simp only [Chronicle.note, hbegins, Bool.false_eq_true, if_false]
    constructor
    · rw [owed_of_rest hturns.rest, List.append_nil] at hdeeds
      simp [hturns.deeds_eq, owed, hnowhere, hdeeds]
    · refine ⟨stage, hcourse, by simp [hnowhere], fun _ => ?_⟩
      cases hat : session.point? with
      | none => exact hnone (point?_eq_none.mp hat)
      | some point =>
          rw [← hpoint point hat]
          exact .inl (stage_of_rest config hturns.rest hat).1
    · simp [hnowhere]
    · intro _
      rcases hturns.phase_eq (point?_eq_none.mp hnowhere) with hphase | hphase
      · exact hphase
      · exact hphase.trans (hidle hturns.rest)
  · simp only [Chronicle.note, hbegins, if_true]
    constructor
    · simp [hturns.deeds_eq, owed, hready, Point.owed]
    · refine ⟨.apart, .nil, ?_, fun hgone => by simp [point?, hgone] at hready⟩
      intro point hat
      obtain rfl := Option.some.inj (hready.symm.trans hat)
      rfl
    · intro point hat
      obtain rfl := Option.some.inj (hready.symm.trans hat)
      rfl
    · intro hrest
      have hover := (stage_of_rest config hrest hready).1
      simp [Point.stage] at hover

theorem Recounted.move {config : Config} {chronicle : Chronicle} {incidents : List Incident}
    (h : Recounted config session chronicle incidents) {task : Task} {p : Progress}
    (hactive : session.active = some task) {incident? : Option Incident}
    (htells : Progress.Tells config ⟨session.now, session.phase, task, []⟩ incident? p)
    (hphase : p.phase = p.task.point.phase) :
    Recounted config { session with phase := p.phase, active := some p.task }
      { chronicle with current := chronicle.current ++ p.log } (incidents ++ incident?.toList) := by
  obtain ⟨hdeeds, ⟨stage, hcourse, hpoint, -⟩, hsuits, -⟩ := h
  obtain ⟨hmore, hstage, hmay, hnext⟩ := htells
  have hat : task.point.stage config = stage := hpoint _ (point?_of_active hactive)
  have hsuits' := hnext _ (hsuits _ (point?_of_active hactive))
  rw [owed_of_active hactive] at hdeeds
  constructor
  · rw [owed_of_active rfl, seen_append, List.append_assoc, hmore, ← List.append_assoc, hdeeds]
    cases incident? <;> simp
  · refine ⟨p.task.point.stage config, ?_, fun point hpoint => ?_, fun hnone => ?_⟩
    · rw [hstage]
      cases incident? with
      | none => simpa [hat] using hcourse
      | some incident => exact hcourse.snoc (hat ▸ hmay incident rfl)
    · rw [← Option.some.inj ((point?_of_active rfl).symm.trans hpoint)]
    · exact absurd hnone (Option.some_ne_none _)
  · intro point hpoint
    obtain rfl := Option.some.inj ((point?_of_active rfl).symm.trans hpoint)
    rw [List.getLast?_append]
    cases incident? <;> simpa using hsuits'
  · intro hrest
    rw [isBusy_of_active rfl, Bool.not_eq_false'] at hrest
    rcases hasEnded_cases hrest with hended | hended
    · rw [hphase, hended]
      rfl
    · rw [hended] at hsuits'
      exact hsuits'.elim

theorem recounted_of_run? {config : Config} {handlers : Handlers} {start : Session}
    {inputs : List Input} (hstart : ofConfig config handlers = .ok start)
    (hrun : start.run? inputs = some (session, log))
    (hcalm : ∀ input ∈ inputs, input.isPanic = false) :
    Recounted config session (start.chronicle inputs) (start.incidents inputs) := by
  refine run?_induction (motive := fun inputs session _ =>
    (∀ input ∈ inputs, input.isPanic = false) →
      Recounted config session (start.chronicle inputs) (start.incidents inputs)) ?_ ?_ hrun hcalm
  · obtain rfl := ofConfig_eq_ok hstart
    exact fun _ => ⟨rfl, ⟨.apart, .nil, by simp [point?], fun _ => .inr ⟨rfl, rfl⟩⟩,
      by simp [point?], fun _ => rfl⟩
  · intro inputs input session next log more hbefore ih hstep hcalm
    -- incidents come with moves of the task only; other steps log answers and phases
    have h := ih fun other hmem => hcalm other (List.mem_append_left _ hmem)
    have hdisciplined := disciplined_of_run? hstart hbefore
    rw [chronicle_snoc hbefore hstep, incidents_snoc hbefore hstep]
    rcases (step?_steps hstep).ways with
      ⟨hquiet, hmove⟩ | ⟨hturns, hmove⟩ | ⟨hbegins, task, p, hactive, hmoves, rfl, rfl⟩
    · rw [Chronicle.note, hquiet.not_begins, incident?_of_rest hmove]
      simpa using h.quiet hquiet
    · rw [incident?_of_rest hmove]
      simpa using h.turn hturns
    · have hphase := phase_of_active hdisciplined.phase_eq hactive
      have hmoved := hmoves.tells rfl hphase (hcalm input (by simp))
      rw [hdisciplined.config_eq] at hmoved
      have hnews : session.incident? input = task.incident? config session.phase input := by
        simp [incident?, hactive, hdisciplined.config_eq]
      simp only [Chronicle.note, hbegins, hnews, Bool.false_eq_true, if_false]
      exact h.move hactive hmoved (hmoves.arrived ⟨rfl, hphase⟩).phase_eq

end Session

end Stomp
