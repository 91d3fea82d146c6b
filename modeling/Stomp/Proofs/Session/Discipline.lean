import Stomp.Proofs.Session.Outbound

/-!
# Discipline of a session

Along every run the phase changes only in the ways of `Phase.mayBecome`, and
everything that happens may happen in its phase (`Session.discipline`).
-/

namespace Stomp

namespace Session

variable {session : Session}

/-! ## Phases -/

structure InOrder (session : Session) (stepped : Stepped) : Prop where
  config_eq : stepped.1.config = session.config
  orderly : Orderly session.config session.phase stepped.2 stepped.1.phase
  phase_eq : stepped.1.phase = stepped.1.standing

theorem phase_of_active (hphase : session.phase = session.standing) {task : Task}
    (hactive : session.active = some task) : session.phase = task.point.phase := by
  rw [hphase, standing, hactive]
  rfl

theorem standing_eq (session : Session) :
    session.standing = session.point?.elim session.rest Point.phase := by
  rw [standing, point?]
  cases session.active <;> rfl

theorem rest_of_parts {parts : Parts} (hparts : session.parts = some parts) :
    session.rest = .idle := by
  simp [rest, hparts]

def Lent (session : Session) : Prop := session.active.isSome = true → session.parts = none

theorem Lent.parts_eq (h : session.Lent) {task : Task} (hactive : session.active = some task) :
    session.parts = none :=
  h (by rw [hactive]; rfl)

theorem Lent.of_none (hactive : session.active = none) : session.Lent := by
  intro hsome
  rw [hactive] at hsome
  exact absurd hsome Bool.false_ne_true

theorem Quiet.lent {stepped : Stepped} (h : session.Quiet stepped) (hlent : session.Lent) :
    stepped.1.Lent := by
  intro hsome
  rw [h.parts_eq]
  refine hlent ?_
  rwa [← Option.isSome_map (f := Task.point), ← point?, ← h.point_eq, point?, Option.isSome_map]

theorem Quiet.inOrder {stepped : Stepped} (h : session.Quiet stepped)
    (hphase : session.phase = session.standing) : session.InOrder stepped where
  config_eq := h.config_eq
  orderly := by
    rw [h.phase_eq]
    exact orderly_of_answers h.answers
  phase_eq := by
    rw [h.phase_eq, hphase, standing_eq, standing_eq, h.point_eq, rest, rest, h.phase_eq,
      h.parts_eq]

theorem collect_lent (hlent : session.Lent) : session.collect.1.Lent := by
  rcases session.collect_cases with heq | ⟨task, -, -, heq⟩ | ⟨task, -, -, heq⟩
  · rw [heq]
    exact hlent
  · rw [heq]
    exact .of_none rfl
  · rw [heq]
    exact .of_none rfl

theorem forfeit_lent (hlent : session.Lent) : session.forfeit.1.Lent := by
  rcases session.forfeit_cases with heq | ⟨task, -, -, heq⟩
  · rw [heq]
    exact hlent
  · rw [heq]
    exact .of_none rfl

theorem spawn_lent {stepped : Stepped} (hlent : stepped.1.Lent) : (spawn stepped).1.Lent := by
  rcases spawn_cases stepped with heq | ⟨parts, -, -, heq⟩
  · rw [heq]
    exact hlent
  · rw [heq]
    exact fun _ => rfl

theorem request_lent (hlent : session.Lent) (request : Request) :
    (session.request request).1.Lent := by
  cases request with
  | activate => exact spawn_lent (collect_lent hlent)
  | activateLate => exact spawn_lent (forfeit_lent hlent)
  | deactivate => exact deactivate_quiet.lent hlent
  | release => exact release_quiet.lent hlent
  | send frame => exact (send_quiet frame).lent hlent
  | next => exact next_quiet.lent hlent

theorem Steps.lent {input : Input} {next : Session} {more : List Entry}
    (h : session.Steps input next more) (hlent : session.Lent) : next.Lent := by
  cases h with
  | request hheld => exact request_lent hlent _
  | reclaim hstopping hreclaim =>
      obtain ⟨task, -, -, heq⟩ := reclaim?_eq_some hreclaim
      obtain ⟨rfl, -⟩ := Prod.mk.inj heq
      exact .of_none rfl
  | elapse duration => exact hlent
  | move hactive hmoves => exact fun _ => hlent.parts_eq hactive

theorem collect_inOrder (hphase : session.phase = session.standing) :
    session.InOrder session.collect := by
  rcases session.collect_cases with
    heq | ⟨task, hactive, hpoint, heq⟩ | ⟨task, hactive, hpoint, heq⟩
  · rw [heq]
    exact ⟨rfl, rfl, hphase⟩
  · have hidle : session.phase = .idle := by
      rw [phase_of_active hphase hactive, hpoint]
      rfl
    rw [heq]
    exact ⟨rfl, rfl, hidle⟩
  · have hdying : session.phase = .disconnecting := by
      rw [phase_of_active hphase hactive, hpoint]
      rfl
    rw [heq]
    refine ⟨rfl, ⟨rfl, .inr ?_, rfl⟩, ?_⟩
    · rw [hdying]
      rfl
    · simp [standing, rest]

theorem forfeit_inOrder (hphase : session.phase = session.standing) (hlent : session.Lent) :
    session.InOrder session.forfeit := by
  rcases session.forfeit_cases with heq | ⟨task, hactive, hended, heq⟩
  · rw [heq]
    exact ⟨rfl, rfl, hphase⟩
  · have hnow := phase_of_active hphase hactive
    rw [heq]
    refine ⟨rfl, rfl, ?_⟩
    rcases hasEnded_cases hended with hpoint | hpoint
    · rw [hpoint] at hnow
      simp [standing, rest, hnow, Point.phase]
    · rw [hpoint] at hnow
      simp [standing, rest, hnow, hlent.parts_eq hactive, Point.phase]

theorem InOrder.spawn {stepped : Stepped} (h : session.InOrder stepped) :
    session.InOrder (spawn stepped) := by
  rcases spawn_cases stepped with heq | ⟨parts, hactive, hparts, heq⟩
  · rw [heq]
    exact h
  · have hidle : stepped.1.phase = .idle := by
      rw [h.phase_eq, standing, hactive]
      exact rest_of_parts hparts
    rw [heq]
    refine ⟨h.config_eq, h.orderly.append ⟨rfl, .inr ?_, rfl⟩, rfl⟩
    rw [hidle]
    rfl

theorem request_inOrder (hphase : session.phase = session.standing) (hlent : session.Lent)
    (request : Request) : session.InOrder (session.request request) := by
  cases request with
  | activate => exact (collect_inOrder hphase).spawn
  | activateLate => exact (forfeit_inOrder hphase hlent).spawn
  | deactivate => exact deactivate_quiet.inOrder hphase
  | release => exact release_quiet.inOrder hphase
  | send frame => exact (send_quiet frame).inOrder hphase
  | next => exact next_quiet.inOrder hphase

theorem reclaim?_inOrder (hphase : session.phase = session.standing) {stepped : Stepped}
    (h : session.reclaim? = some stepped) : session.InOrder stepped := by
  obtain ⟨task, hactive, hended, rfl⟩ := reclaim?_eq_some h
  have hnow := phase_of_active hphase hactive
  refine ⟨rfl, ⟨rfl, ?_, rfl⟩, ?_⟩
  · rcases hasEnded_cases hended with hpoint | hpoint
    · rw [hpoint] at hnow
      exact .inl hnow
    · rw [hpoint] at hnow
      exact .inr (by rw [hnow]; rfl)
  · simp [standing, rest]

theorem Steps.inOrder {input : Input} {next : Session} {more : List Entry}
    (h : session.Steps input next more) (hphase : session.phase = session.standing)
    (hlent : session.Lent) : session.InOrder (next, more) := by
  cases h with
  | request hheld => exact request_inOrder hphase hlent _
  | reclaim hstopping hreclaim => exact reclaim?_inOrder hphase hreclaim
  | elapse duration => exact (elapse_quiet duration).inOrder hphase
  | @move _ task p hactive hmoves =>
      have harrived := hmoves.arrived ⟨rfl, phase_of_active hphase hactive⟩
      exact ⟨rfl, harrived.inOrder, harrived.phase_eq⟩

/-! ## The queue -/

def outbound (session : Session) : List Frame := session.active.elim [] (·.outbound)

/--
What a step does to the frames queued for the broker: it writes some from the front
while connected and adds some at the end, or gives them up with a task that has
ended.
-/
def QueueStep (session : Session) (stepped : Stepped) : Prop :=
  session.outbound ++ seen Entry.queued? stepped.2 =
    seen Entry.drawn? stepped.2 ++ stepped.1.outbound ∨
    stepped.1.outbound = [] ∧ ∀ entry ∈ stepped.2, ∀ call, entry.effect ≠ .call call

theorem outbound_of_active {task : Task} (hactive : session.active = some task) :
    session.outbound = task.outbound := by
  rw [outbound, hactive]
  rfl

def KeepsQueue (session : Session) (stepped : Stepped) : Prop :=
  session.outbound ++ seen Entry.queued? stepped.2 =
    seen Entry.drawn? stepped.2 ++ stepped.1.outbound

theorem deactivate_keepsQueue : session.KeepsQueue session.deactivate := by
  unfold deactivate
  cases hactive : session.active with
  | none => exact List.append_nil _
  | some task => simp [KeepsQueue, outbound, hactive]

theorem release_keepsQueue : session.KeepsQueue session.release := by
  cases hactive : session.active <;> simp [KeepsQueue, release, outbound, hactive]

theorem send_keepsQueue (frame : Frame) : session.KeepsQueue (session.send frame) := by
  rcases session.send_cases frame with ⟨answer, hanswer, heq⟩ | ⟨task, hactive, heq⟩
  · have hnone : seen Entry.queued? [session.entry (.answeredSend frame answer)] = [] := by
      cases answer with
      | queued => exact absurd rfl hanswer
      | full => rfl
      | refused => rfl
    rw [heq, KeepsQueue, hnone, List.append_nil]
    rfl
  · rw [heq, KeepsQueue, outbound_of_active hactive]
    rfl

theorem next_keepsQueue : session.KeepsQueue session.next := by
  rcases session.next_cases with ⟨answer, heq⟩ | ⟨task, frame, rest, hactive, -, heq⟩
  · rw [heq]
    exact List.append_nil _
  · rw [heq, KeepsQueue, outbound_of_active hactive]
    exact List.append_nil _

theorem collect_queueStep : session.QueueStep session.collect := by
  rcases session.collect_cases with heq | ⟨task, -, -, heq⟩ | ⟨task, -, -, heq⟩
  · rw [heq]
    exact .inl (List.append_nil _)
  · rw [heq]
    exact .inr ⟨rfl, by simp⟩
  · rw [heq]
    exact .inr ⟨rfl, by simp [entry]⟩

theorem forfeit_queueStep : session.QueueStep session.forfeit := by
  rcases session.forfeit_cases with heq | ⟨task, -, -, heq⟩
  · rw [heq]
    exact .inl (List.append_nil _)
  · rw [heq]
    exact .inr ⟨rfl, by simp⟩

theorem collect_silent : ∀ entry ∈ session.collect.2, ∀ call, entry.effect ≠ .call call := by
  rcases session.collect_cases with heq | ⟨task, -, -, heq⟩ | ⟨task, -, -, heq⟩
  · simp [heq]
  · simp [heq]
  · simp [heq, entry]

theorem forfeit_silent : ∀ entry ∈ session.forfeit.2, ∀ call, entry.effect ≠ .call call := by
  rcases session.forfeit_cases with heq | ⟨task, -, -, heq⟩
  · simp [heq]
  · simp [heq]

theorem QueueStep.spawn {stepped : Stepped} (h : session.QueueStep stepped)
    (hsilent : ∀ entry ∈ stepped.2, ∀ call, entry.effect ≠ .call call) :
    session.QueueStep (spawn stepped) := by
  rcases spawn_cases stepped with heq | ⟨parts, -, -, heq⟩
  · rw [heq]
    exact h
  · rw [heq]
    refine .inr ⟨rfl, ?_⟩
    intro made hmem
    rcases List.mem_append.mp hmem with hmem | hmem
    · exact hsilent made hmem
    · rw [List.mem_singleton.mp hmem]
      exact fun _ => Effect.noConfusion

theorem request_queueStep (request : Request) : session.QueueStep (session.request request) := by
  cases request with
  | activate => exact collect_queueStep.spawn collect_silent
  | activateLate => exact forfeit_queueStep.spawn forfeit_silent
  | deactivate => exact .inl deactivate_keepsQueue
  | release => exact .inl release_keepsQueue
  | send frame => exact .inl (send_keepsQueue frame)
  | next => exact .inl next_keepsQueue

theorem reclaim?_queueStep {stepped : Stepped} (h : session.reclaim? = some stepped) :
    session.QueueStep stepped := by
  obtain ⟨task, -, -, rfl⟩ := reclaim?_eq_some h
  exact .inr ⟨rfl, by simp [entry]⟩

theorem move_keepsQueue (hphase : session.phase = session.standing) {input : Input} {task : Task}
    {p : Progress} (hactive : session.active = some task)
    (hmoves : Progress.Moves session.config ⟨session.now, session.phase, task, []⟩ input p) :
    session.KeepsQueue ({ session with phase := p.phase, active := some p.task }, p.log) := by
  have hdraws := hmoves.draws rfl (phase_of_active hphase hactive)
  rw [KeepsQueue, hdraws.queued_eq, List.append_nil, outbound_of_active hactive]
  exact hdraws.queue_eq

theorem Steps.queueStep {input : Input} {next : Session} {more : List Entry}
    (h : session.Steps input next more) (hphase : session.phase = session.standing) :
    session.QueueStep (next, more) := by
  cases h with
  | request hheld => exact request_queueStep _
  | reclaim hstopping hreclaim => exact reclaim?_queueStep hreclaim
  | elapse duration => exact .inl (List.append_nil _)
  | move hactive hmoves => exact .inl (move_keepsQueue hphase hactive hmoves)

/-! ## Runs -/

structure Disciplined (config : Config) (session : Session) (log : List Entry) : Prop where
  config_eq : session.config = config
  orderly : Orderly config .idle log session.phase
  phase_eq : session.phase = session.standing
  lent : session.Lent

theorem disciplined_of_run? {config : Config} {handlers : Handlers} {start : Session}
    {inputs : List Input} {log : List Entry} (hstart : ofConfig config handlers = .ok start)
    (hrun : start.run? inputs = some (session, log)) : Disciplined config session log := by
  obtain rfl := ofConfig_eq_ok hstart
  have hnew : Disciplined config { config, parts := some ⟨handlers⟩ } [] :=
    ⟨rfl, rfl, rfl, .of_none rfl⟩
  refine run?_induction (motive := fun _ => Disciplined config) hnew ?_ hrun
  intro inputs input session next log more _ h hstep
  have hnext := (step?_steps hstep).inOrder h.phase_eq h.lent
  have horderly := hnext.orderly
  rw [h.config_eq] at horderly
  exact ⟨hnext.config_eq.trans h.config_eq, h.orderly.append horderly, hnext.phase_eq,
    (step?_steps hstep).lent h.lent⟩

/--
Along every run each entry of the log is in order, the task stands at a point of
the session's phase, and the next step takes from the queue what it writes in
Connected and nothing else.
-/
theorem discipline {config : Config} {handlers : Handlers} {start : Session}
    {inputs : List Input} {log : List Entry} (hstart : ofConfig config handlers = .ok start)
    (hrun : start.run? inputs = some (session, log)) :
    Orderly config .idle log session.phase ∧ session.phase = session.standing ∧
      ∀ input stepped, session.step? input = some stepped → session.QueueStep stepped := by
  have h := disciplined_of_run? hstart hrun
  refine ⟨h.orderly, h.phase_eq, ?_⟩
  intro input stepped hstep
  exact (step?_steps hstep).queueStep h.phase_eq

def visit : List Input :=
  connecting ++
    [.request (.send { command := "SEND" }), .branch .take, .outcome (.sent (.ok ())),
      .request .deactivate, .branch .cancel, .outcome (.sent (.ok ())), .outcome .closed, .reclaim]

theorem discipline_visit :
    ∃ start session log, ofConfig plainConfig {} = .ok start ∧
      start.run? visit = some (session, log) ∧
      log.map Entry.next =
        [.connecting, .connecting, .connecting, .connecting, .connected, .connected, .connected,
          .connected, .disconnecting, .disconnecting, .disconnecting, .disconnecting, .idle,
          .idle] ∧
      Orderly plainConfig .idle log session.phase ∧ session.phase = session.standing ∧
      ∀ input stepped, session.step? input = some stepped → session.QueueStep stepped := by
  have hphases : ((Session.run? { config := plainConfig, parts := some ⟨{}⟩ } visit).map
      fun stepped => stepped.2.map Entry.next) =
        some [.connecting, .connecting, .connecting, .connecting, .connected, .connected,
          .connected, .connected, .disconnecting, .disconnecting, .disconnecting, .disconnecting,
          .idle, .idle] := by
    decide +kernel
  obtain ⟨⟨session, log⟩, hrun, hlog⟩ := Option.map_eq_some_iff.mp hphases
  exact ⟨_, session, log, rfl, hrun, hlog, discipline rfl hrun⟩

end Session

end Stomp
