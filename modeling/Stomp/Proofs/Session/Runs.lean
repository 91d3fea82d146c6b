import Stomp.Proofs.Session.Moves

/-!
# Runs of a session

A session starts without a task.  What its steps preserve holds after every run
(`Session.run?_induction`).
-/

namespace Stomp

def Entry.IsAnswer (entry : Entry) : Prop :=
  match entry.effect with
  | .answeredSend _ _ | .answeredNext _ => True
  | _ => False

def Input.isMove : Input → Bool
  | .branch _ | .outcome _ => true
  | _ => false

theorem Progress.Moves.isMove {config : Config} {p p' : Progress} {input : Input}
    (h : Moves config p input p') : input.isMove = true := by
  cases h <;> rfl

namespace Session

variable {session next : Session} {log more : List Entry}

/-! ## Steps of the task -/

theorem advance?_eq_some {step : Progress → Option Progress}
    (h : session.advance? step = some (next, more)) :
    ∃ task p, session.active = some task ∧
      step { now := session.now, phase := session.phase, task } = some p ∧
      next = { session with phase := p.phase, active := some p.task } ∧ more = p.log := by
  simp only [advance?, Option.bind_eq_bind, Option.bind_eq_some_iff, Option.pure_def,
    Option.some.injEq, Prod.mk.injEq] at h
  obtain ⟨task, hactive, p, hstep, rfl, rfl⟩ := h
  exact ⟨task, p, hactive, hstep, rfl, rfl⟩

theorem step?_branch {branch : Branch} {task : Task} {p : Progress}
    (hactive : session.active = some task)
    (hbranch : Progress.branch? ⟨session.now, session.phase, task, []⟩ session.config branch =
      some p) :
    session.step? (.branch branch) =
      some ({ session with phase := p.phase, active := some p.task }, p.log) := by
  simp [step?, advance?, hactive, hbranch]

theorem step?_outcome {outcome : Outcome} {task : Task} {p : Progress}
    (hactive : session.active = some task)
    (houtcome : Progress.outcome? ⟨session.now, session.phase, task, []⟩ session.config outcome =
      some p) :
    session.step? (.outcome outcome) =
      some ({ session with phase := p.phase, active := some p.task }, p.log) := by
  simp [step?, advance?, hactive, houtcome]

inductive Steps (session : Session) : Input → Session → List Entry → Prop
  | request {request : Request} (hheld : session.tenure = .held) :
      Steps session (.request request) (session.request request).1 (session.request request).2
  | reclaim {next : Session} {more : List Entry} (hstopping : session.tenure = .stopping)
      (hreclaim : session.reclaim? = some (next, more)) : Steps session .reclaim next more
  | elapse (duration : Duration) :
      Steps session (.elapse duration) { session with now := session.now + duration } []
  | move {input : Input} {task : Task} {p : Progress} (hactive : session.active = some task)
      (hmoves : Progress.Moves session.config ⟨session.now, session.phase, task, []⟩ input p) :
      Steps session input { session with phase := p.phase, active := some p.task } p.log

theorem step?_steps {input : Input} (h : session.step? input = some (next, more)) :
    session.Steps input next more := by
  cases input with
  | request request =>
      simp only [step?, Option.ite_none_right_eq_some, Option.some.injEq] at h
      obtain ⟨hheld, hrequest⟩ := h
      obtain ⟨rfl, rfl⟩ := Prod.mk.inj (hrequest.symm.trans (Prod.eta _).symm)
      exact .request hheld
  | reclaim =>
      simp only [step?, Option.ite_none_right_eq_some] at h
      exact .reclaim h.1 h.2
  | elapse duration =>
      obtain ⟨rfl, rfl⟩ := Prod.mk.inj (Option.some.inj h)
      exact .elapse duration
  | branch branch =>
      rw [step?] at h
      obtain ⟨task, p, hactive, hbranch, rfl, rfl⟩ := advance?_eq_some h
      exact .move hactive (Progress.branch?_moves hbranch)
  | outcome outcome =>
      rw [step?] at h
      obtain ⟨task, p, hactive, houtcome, rfl, rfl⟩ := advance?_eq_some h
      exact .move hactive (Progress.outcome?_moves houtcome)

/-! ## Requests -/

theorem collect_cases (session : Session) :
    session.collect = (session, []) ∨
      (∃ task, session.active = some task ∧ task.point = .finished ∧
        session.collect = ({ session with active := none, parts := some ⟨task.handlers⟩ }, [])) ∨
      ∃ task, session.active = some task ∧ task.point = .died ∧
        session.collect =
          ({ session with active := none, phase := .idle }, [session.entry (.enter .idle)]) := by
  unfold collect
  split
  · exact .inl rfl
  · rename_i task hactive
    split
    · rename_i hpoint
      exact .inr (.inl ⟨task, hactive, hpoint, rfl⟩)
    · rename_i hpoint
      exact .inr (.inr ⟨task, hactive, hpoint, rfl⟩)
    · exact .inl rfl

theorem forfeit_cases (session : Session) :
    session.forfeit = (session, []) ∨
      ∃ task, session.active = some task ∧ task.hasEnded = true ∧
        session.forfeit = ({ session with active := none }, []) := by
  unfold forfeit
  split
  · rename_i hended
    obtain ⟨task, hactive, hended⟩ := (Option.any_eq_true _ _).mp hended
    exact .inr ⟨task, hactive, hended, rfl⟩
  · exact .inl rfl

theorem spawn_cases (stepped : Stepped) :
    spawn stepped = stepped ∨
      ∃ parts : Parts, stepped.1.active = none ∧ stepped.1.parts = some parts ∧
        spawn stepped =
          ({ stepped.1 with
              phase := .connecting
              parts := none
              active := some { handlers := parts.handlers } },
            stepped.2 ++ [stepped.1.entry (.enter .connecting)]) := by
  obtain ⟨session, log⟩ := stepped
  unfold spawn
  simp only
  split
  · rename_i parts hactive hparts
    exact .inr ⟨parts, hactive, hparts, rfl⟩
  · exact .inl rfl

theorem send_cases (session : Session) (frame : Frame) :
    (∃ answer, answer ≠ .queued ∧
      session.send frame = (session, [session.entry (.answeredSend frame answer)])) ∨
    ∃ task, session.active = some task ∧
      session.send frame =
        ({ session with active := some { task with outbound := task.outbound ++ [frame] } },
          [session.entry (.answeredSend frame .queued)]) := by
  unfold send
  split
  · exact .inl ⟨.refused, by decide, rfl⟩
  · rename_i task hactive
    split
    · exact .inl ⟨.refused, by decide, rfl⟩
    split
    · exact .inl ⟨.full, by decide, rfl⟩
    · exact .inr ⟨task, hactive, rfl⟩

theorem next_cases (session : Session) :
    (∃ answer, session.next = (session, [session.entry (.answeredNext answer)])) ∨
    ∃ task frame rest, session.active = some task ∧ task.inbound = frame :: rest ∧
      session.next =
        ({ session with active := some { task with inbound := rest } },
          [session.entry (.answeredNext (.frame frame))]) := by
  unfold next
  split
  · exact .inl ⟨.ended, rfl⟩
  · rename_i task hactive
    split
    · rename_i frame rest hinbound
      exact .inr ⟨task, frame, rest, hactive, hinbound, rfl⟩
    · exact .inl ⟨_, rfl⟩

theorem hasEnded_cases {task : Task} (h : task.hasEnded = true) :
    task.point = .finished ∨ task.point = .died := by
  unfold Task.hasEnded at h
  split at h
  · rename_i hpoint
    exact .inl hpoint
  · rename_i hpoint
    exact .inr hpoint
  · exact absurd h Bool.false_ne_true

theorem reclaim?_eq_some {stepped : Stepped} (h : session.reclaim? = some stepped) :
    ∃ task, session.active = some task ∧ task.hasEnded = true ∧
      stepped =
        ({ session with
            active := none
            parts := if task.point = .finished then some ⟨task.handlers⟩ else session.parts
            tenure := .held
            phase := .idle },
          [session.entry (.enter .idle)]) := by
  unfold reclaim? at h
  cases hactive : session.active with
  | none => simp [hactive] at h
  | some task =>
      simp only [hactive, Option.ite_none_right_eq_some, Option.some.injEq] at h
      obtain ⟨hended, rfl⟩ := h
      exact ⟨task, rfl, hended, rfl⟩

/-! ## Quiet steps -/

def point? (session : Session) : Option Point := session.active.map (·.point)

theorem point?_of_active {task : Task} (hactive : session.active = some task) :
    session.point? = some task.point := by
  rw [point?, hactive, Option.map_some]

theorem point?_eq_none : session.point? = none ↔ session.active = none := Option.map_eq_none_iff

/-- A step by which the task moves nowhere and the owner at most gets an answer. -/
structure Quiet (session : Session) (stepped : Stepped) : Prop where
  config_eq : stepped.1.config = session.config
  phase_eq : stepped.1.phase = session.phase
  parts_eq : stepped.1.parts = session.parts
  point_eq : stepped.1.point? = session.point?
  answers : ∀ entry ∈ stepped.2, entry.phase = session.phase ∧ entry.IsAnswer

theorem Quiet.silent (hconfig : next.config = session.config) (hphase : next.phase = session.phase)
    (hparts : next.parts = session.parts) (hpoint : next.point? = session.point?) :
    session.Quiet (next, []) :=
  ⟨hconfig, hphase, hparts, hpoint, fun _ hmem => absurd hmem List.not_mem_nil⟩

theorem answers_entry {effect : Effect} (h : (session.entry effect).IsAnswer) :
    ∀ entry ∈ [session.entry effect], entry.phase = session.phase ∧ entry.IsAnswer := by
  intro entry hmem
  rw [List.mem_singleton.mp hmem]
  exact ⟨rfl, h⟩

theorem elapse_quiet (duration : Duration) :
    session.Quiet ({ session with now := session.now + duration }, []) :=
  .silent rfl rfl rfl rfl

theorem deactivate_quiet : session.Quiet session.deactivate := by
  unfold deactivate
  cases hactive : session.active with
  | none => exact .silent rfl rfl rfl rfl
  | some task => exact .silent rfl rfl rfl (point?_of_active hactive).symm

theorem release_quiet : session.Quiet session.release := by
  refine .silent rfl rfl rfl ?_
  simp only [point?]
  cases session.active <;> rfl

theorem send_quiet (frame : Frame) : session.Quiet (session.send frame) := by
  rcases session.send_cases frame with ⟨answer, -, heq⟩ | ⟨task, hactive, heq⟩
  · rw [heq]
    exact ⟨rfl, rfl, rfl, rfl, answers_entry trivial⟩
  · rw [heq]
    exact ⟨rfl, rfl, rfl, (point?_of_active hactive).symm, answers_entry trivial⟩

theorem next_quiet : session.Quiet session.next := by
  rcases session.next_cases with ⟨answer, heq⟩ | ⟨task, frame, rest, hactive, -, heq⟩
  · rw [heq]
    exact ⟨rfl, rfl, rfl, rfl, answers_entry trivial⟩
  · rw [heq]
    exact ⟨rfl, rfl, rfl, (point?_of_active hactive).symm, answers_entry trivial⟩

theorem collect_of_busy {task : Task} (hactive : session.active = some task)
    (hbusy : task.hasEnded = false) : session.collect = (session, []) := by
  unfold Task.hasEnded at hbusy
  rcases session.collect_cases with heq | ⟨other, hother, hpoint, -⟩ | ⟨other, hother, hpoint, -⟩
  · exact heq
  · obtain rfl := Option.some.inj (hactive.symm.trans hother)
    simp [hpoint] at hbusy
  · obtain rfl := Option.some.inj (hactive.symm.trans hother)
    simp [hpoint] at hbusy

theorem forfeit_of_busy {task : Task} (hactive : session.active = some task)
    (hbusy : task.hasEnded = false) : session.forfeit = (session, []) := by
  rcases session.forfeit_cases with heq | ⟨other, hother, hended, -⟩
  · exact heq
  · obtain rfl := Option.some.inj (hactive.symm.trans hother)
    simp [hended] at hbusy

theorem spawn_of_active {task : Task} (hactive : session.active = some task) :
    spawn (session, log) = (session, log) := by
  rcases spawn_cases (session, log) with heq | ⟨parts, hnone, -⟩
  · exact heq
  · rw [hactive] at hnone
    exact absurd hnone (Option.some_ne_none task)

theorem activate_of_busy {task : Task} (hactive : session.active = some task)
    (hbusy : task.hasEnded = false) :
    session.activate = (session, []) ∧ session.activateLate = (session, []) := by
  rw [activate, activateLate, collect_of_busy hactive hbusy, forfeit_of_busy hactive hbusy]
  exact ⟨spawn_of_active hactive, spawn_of_active hactive⟩

theorem request_quiet {task : Task} (hactive : session.active = some task)
    (hbusy : task.hasEnded = false) (request : Request) :
    session.Quiet (session.request request) := by
  cases request with
  | activate =>
      rw [Session.request, (activate_of_busy hactive hbusy).1]
      exact .silent rfl rfl rfl rfl
  | activateLate =>
      rw [Session.request, (activate_of_busy hactive hbusy).2]
      exact .silent rfl rfl rfl rfl
  | deactivate => exact deactivate_quiet
  | release => exact release_quiet
  | send frame => exact send_quiet frame
  | next => exact next_quiet

/-! ## Turnovers -/

theorem isBusy_of_active {task : Task} (hactive : session.active = some task) :
    session.isBusy = !task.hasEnded := by
  rw [isBusy, hactive, Option.any_some]

theorem active_of_isBusy (hbusy : session.isBusy = true) :
    ∃ task, session.active = some task ∧ task.hasEnded = false := by
  obtain ⟨task, hactive, hunended⟩ := (Option.any_eq_true _ _).mp hbusy
  exact ⟨task, hactive, by simpa using hunended⟩

theorem isBusy_of_none (hactive : session.active = none) : session.isBusy = false := by
  rw [isBusy, hactive, Option.any_none]

/-- A step by which a task that has ended is given back or up, or another one is started. -/
structure Turnover (session : Session) (stepped : Stepped) : Prop where
  rest : session.isBusy = false
  config_eq : stepped.1.config = session.config
  point_eq : stepped.1.point? = none ∨ stepped.1.point? = some .ready
  origin : stepped.1.parts.isSome = true ∨ stepped.1.point? = some .ready →
    session.parts.isSome = true ∨ session.point? = some .finished
  enters : ∀ entry ∈ stepped.2, ∃ phase, entry.effect = .enter phase ∧
    (phase = .idle ∨ phase = .connecting)

theorem enters_idle (session : Session) :
    ∀ entry ∈ [session.entry (.enter .idle)], ∃ phase, entry.effect = .enter phase ∧
      (phase = .idle ∨ phase = .connecting) := by
  intro entry hmem
  rw [List.mem_singleton.mp hmem]
  exact ⟨.idle, rfl, .inl rfl⟩

theorem Turnover.spawn {stepped : Stepped} (h : session.Turnover stepped) :
    session.Turnover (spawn stepped) := by
  rcases spawn_cases stepped with heq | ⟨parts, hactive, hparts, heq⟩
  · rw [heq]
    exact h
  · rw [heq]
    refine ⟨h.rest, h.config_eq, .inr rfl, fun _ => h.origin (.inl (by rw [hparts]; rfl)), ?_⟩
    intro entry hmem
    rcases List.mem_append.mp hmem with hmem | hmem
    · exact h.enters entry hmem
    · rw [List.mem_singleton.mp hmem]
      exact ⟨.connecting, rfl, .inr rfl⟩

theorem spawn_cases_of_self (session : Session) :
    session.Quiet (spawn (session, [])) ∨ session.Turnover (spawn (session, [])) := by
  rcases spawn_cases (session, []) with heq | ⟨parts, hactive, hparts, -⟩
  · rw [heq]
    exact .inl (.silent rfl rfl rfl rfl)
  · have hempty : session.Turnover (session, []) := by
      refine ⟨isBusy_of_none hactive, rfl, .inl ?_, fun _ => .inl (by rw [hparts]; rfl),
        fun _ hmem => absurd hmem List.not_mem_nil⟩
      rw [point?, hactive]
      rfl
    exact .inr hempty.spawn

theorem activate_cases (session : Session) :
    session.Quiet session.activate ∨ session.Turnover session.activate := by
  rw [activate]
  rcases session.collect_cases with
    heq | ⟨task, hactive, hpoint, heq⟩ | ⟨task, hactive, hpoint, heq⟩
  · rw [heq]
    exact session.spawn_cases_of_self
  · have hrest : session.isBusy = false := by
      simp [isBusy_of_active hactive, Task.hasEnded, hpoint]
    have hfinished : session.point? = some .finished := by rw [point?_of_active hactive, hpoint]
    rw [heq]
    exact .inr (Turnover.spawn ⟨hrest, rfl, .inl rfl, fun _ => .inr hfinished,
      fun _ hmem => absurd hmem List.not_mem_nil⟩)
  · have hrest : session.isBusy = false := by
      simp [isBusy_of_active hactive, Task.hasEnded, hpoint]
    rw [heq]
    refine .inr (Turnover.spawn ⟨hrest, rfl, .inl rfl, ?_, session.enters_idle⟩)
    exact Or.imp_right fun hready => absurd hready (Option.some_ne_none _).symm

theorem activateLate_cases (session : Session) :
    session.Quiet session.activateLate ∨ session.Turnover session.activateLate := by
  rw [activateLate]
  rcases session.forfeit_cases with heq | ⟨task, hactive, hended, heq⟩
  · rw [heq]
    exact session.spawn_cases_of_self
  · have hrest : session.isBusy = false := by rw [isBusy_of_active hactive, hended]; rfl
    rw [heq]
    refine .inr (Turnover.spawn ⟨hrest, rfl, .inl rfl, ?_,
      fun _ hmem => absurd hmem List.not_mem_nil⟩)
    exact Or.imp_right fun hready => absurd hready (Option.some_ne_none _).symm

theorem request_cases (session : Session) (request : Request) :
    session.Quiet (session.request request) ∨ session.Turnover (session.request request) := by
  cases request with
  | activate => exact session.activate_cases
  | activateLate => exact session.activateLate_cases
  | deactivate => exact .inl deactivate_quiet
  | release => exact .inl release_quiet
  | send frame => exact .inl (send_quiet frame)
  | next => exact .inl next_quiet

theorem reclaim?_turnover {stepped : Stepped} (h : session.reclaim? = some stepped) :
    session.Turnover stepped := by
  obtain ⟨task, hactive, hended, rfl⟩ := reclaim?_eq_some h
  have hrest : session.isBusy = false := by rw [isBusy_of_active hactive, hended]; rfl
  refine ⟨hrest, rfl, .inl rfl, ?_, session.enters_idle⟩
  rintro (hparts | hready)
  · by_cases hpoint : task.point = .finished
    · exact .inr (by rw [point?_of_active hactive, hpoint])
    · simp only [hpoint, if_false] at hparts
      exact .inl hparts
  · exact absurd hready (Option.some_ne_none _).symm

/-- In a step nothing happens to the task, or it makes way for another one, or it moves. -/
theorem Steps.kinds {input : Input} (h : session.Steps input next more) :
    session.Quiet (next, more) ∧ input.isMove = false ∨
      session.Turnover (next, more) ∧ input.isMove = false ∨
      ∃ task p, session.active = some task ∧
        Progress.Moves session.config ⟨session.now, session.phase, task, []⟩ input p ∧
        next = { session with phase := p.phase, active := some p.task } ∧ more = p.log := by
  cases h with
  | request hheld =>
      rcases session.request_cases _ with hquiet | hturnover
      · exact .inl ⟨hquiet, rfl⟩
      · exact .inr (.inl ⟨hturnover, rfl⟩)
  | reclaim hstopping hreclaim => exact .inr (.inl ⟨reclaim?_turnover hreclaim, rfl⟩)
  | elapse duration => exact .inl ⟨elapse_quiet duration, rfl⟩
  | @move _ task p hactive hmoves => exact .inr (.inr ⟨task, p, hactive, hmoves, rfl, rfl⟩)

theorem spawn_owner (stepped : Stepped) :
    (spawn stepped).1.now = stepped.1.now ∧ (spawn stepped).1.tenure = stepped.1.tenure := by
  rcases spawn_cases stepped with heq | ⟨parts, -, -, heq⟩
  · rw [heq]
    exact ⟨rfl, rfl⟩
  · rw [heq]
    exact ⟨rfl, rfl⟩

theorem activate_owner (session : Session) :
    session.activate.1.now = session.now ∧ session.activate.1.tenure = session.tenure := by
  rw [activate, (spawn_owner _).1, (spawn_owner _).2]
  rcases session.collect_cases with heq | ⟨task, -, -, heq⟩ | ⟨task, -, -, heq⟩
  · rw [heq]
    exact ⟨rfl, rfl⟩
  · rw [heq]
    exact ⟨rfl, rfl⟩
  · rw [heq]
    exact ⟨rfl, rfl⟩

theorem activateLate_owner (session : Session) :
    session.activateLate.1.now = session.now ∧
      session.activateLate.1.tenure = session.tenure := by
  rw [activateLate, (spawn_owner _).1, (spawn_owner _).2]
  rcases session.forfeit_cases with heq | ⟨task, -, -, heq⟩
  · rw [heq]
    exact ⟨rfl, rfl⟩
  · rw [heq]
    exact ⟨rfl, rfl⟩

/-! ## Runs -/

def plainConfig : Config where
  url := ⟨"ws://broker/", "ws", some "broker"⟩
  userId := "user"
  heartbeat := ⟨0, 0⟩
  reconnectDelay := 0
  completesFrames := false
  versions := Version.all
  host := none
  connectHeaders := []
  handshakeTimeout := 0

def stubbornConfig : Config := { plainConfig with reconnectDelay := 5 }

def fresh (config : Config) : Session := { config, parts := some ⟨{}⟩ }

def connecting : List Input :=
  [.request .activate, .branch .start, .branch .dial, .outcome (.opened (.ok ())),
    .outcome (.sent (.ok ())),
    .outcome (.event (.item (.frame { command := "CONNECTED" })))]

theorem ofConfig_eq_ok {config : Config} {handlers : Handlers}
    (h : ofConfig config handlers = .ok session) :
    session = { config, parts := some ⟨handlers⟩ } := by
  unfold ofConfig at h
  cases hvalid : config.validate with
  | error rejection => simp [hvalid, bind, Except.bind] at h
  | ok checked =>
      simp only [hvalid, bind, Except.bind, pure, Except.pure, Except.ok.injEq] at h
      exact h.symm

theorem run?_cons_eq_some {start : Session} {input : Input} {inputs : List Input}
    (h : start.run? (input :: inputs) = some (session, log)) :
    ∃ middle first rest, start.step? input = some (middle, first) ∧
      middle.run? inputs = some (session, rest) ∧ log = first ++ rest := by
  simp only [run?, Option.bind_eq_bind, Option.bind_eq_some_iff, Option.pure_def,
    Option.some.injEq, Prod.mk.injEq] at h
  obtain ⟨⟨middle, first⟩, hfirst, ⟨last, rest⟩, hrest, rfl, rfl⟩ := h
  exact ⟨middle, first, rest, hfirst, hrest, rfl⟩

theorem run?_snoc {start : Session} {inputs : List Input} {input : Input}
    (hrun : start.run? inputs = some (session, log))
    (hstep : session.step? input = some (next, more)) :
    start.run? (inputs ++ [input]) = some (next, log ++ more) := by
  induction inputs generalizing start log with
  | nil =>
      obtain ⟨rfl, rfl⟩ := Prod.mk.inj (Option.some.inj hrun)
      simp [run?, hstep]
  | cons first inputs ih =>
      obtain ⟨middle, made, rest, hfirst, hrest, rfl⟩ := run?_cons_eq_some hrun
      simp [run?, hfirst, ih hrest]

theorem run?_append {start middle : Session} {inputs later : List Input}
    (hrun : start.run? inputs = some (middle, log))
    (hlater : middle.run? later = some (session, more)) :
    start.run? (inputs ++ later) = some (session, log ++ more) := by
  induction inputs generalizing start log with
  | nil =>
      obtain ⟨rfl, rfl⟩ := Prod.mk.inj (Option.some.inj hrun)
      exact hlater
  | cons input inputs ih =>
      obtain ⟨next, made, rest, hfirst, hrest, rfl⟩ := run?_cons_eq_some hrun
      simp [run?, hfirst, ih hrest]

/-- What holds at first and is kept by each step holds after every run. -/
theorem run?_induction {start : Session} {motive : List Input → Session → List Entry → Prop}
    (hstart : motive [] start [])
    (hstep : ∀ {inputs : List Input} {input : Input} {session next : Session}
      {log more : List Entry}, start.run? inputs = some (session, log) →
      motive inputs session log → session.step? input = some (next, more) →
      motive (inputs ++ [input]) next (log ++ more))
    {inputs : List Input} (hrun : start.run? inputs = some (session, log)) :
    motive inputs session log := by
  have hfrom (before inputs : List Input) (middle : Session) (made : List Entry)
      (hbefore : start.run? before = some (middle, made)) (hmiddle : motive before middle made)
      {log : List Entry} (hrun : middle.run? inputs = some (session, log)) :
      motive (before ++ inputs) session (made ++ log) := by
    induction inputs generalizing before middle made log with
    | nil =>
        obtain ⟨rfl, rfl⟩ := Prod.mk.inj (Option.some.inj hrun)
        rwa [List.append_nil, List.append_nil]
    | cons input inputs ih =>
        obtain ⟨next, first, rest, hfirst, hrest, rfl⟩ := run?_cons_eq_some hrun
        have hnext := ih (before ++ [input]) next (made ++ first) (run?_snoc hbefore hfirst)
          (hstep hbefore hmiddle hfirst) hrest
        rwa [List.append_assoc, List.append_assoc] at hnext
  exact hfrom [] inputs start [] rfl hstart hrun

/-! ## Observers -/

/-- What an observer makes of a run, from each step with the session before it. -/
def observe {α : Type} (note : α → Session → Input → Stepped → α) (session : Session) (seen : α) :
    List Input → α
  | [] => seen
  | input :: inputs =>
      match session.step? input with
      | none => seen
      | some stepped => stepped.1.observe note (note seen session input stepped) inputs

theorem observe_snoc {α : Type} (note : α → Session → Input → Stepped → α) {start : Session}
    (seen : α) {inputs : List Input} {input : Input}
    (hrun : start.run? inputs = some (session, log))
    (hstep : session.step? input = some (next, more)) :
    start.observe note seen (inputs ++ [input]) =
      note (start.observe note seen inputs) session input (next, more) := by
  induction inputs generalizing start seen log with
  | nil =>
      obtain ⟨rfl, rfl⟩ := Prod.mk.inj (Option.some.inj hrun)
      simp [observe, hstep]
  | cons first inputs ih =>
      obtain ⟨middle, made, rest, hfirst, hrest, rfl⟩ := run?_cons_eq_some hrun
      simp only [List.cons_append, observe, hfirst]
      exact ih _ hrest

end Session

end Stomp
