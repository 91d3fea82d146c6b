import Stomp.Proofs.Session.Runs

/-!
# Activations

The log of a run falls into what came before the first activation and one part for
each (`Session.chronicle`).
-/

namespace Stomp

def Input.isActivation : Input → Bool
  | .request .activate | .request .activateLate => true
  | _ => false

namespace Session

variable {session next : Session} {log more : List Entry}

/-- Whether a step starts a task, which shows in the phase that its owner sees at once. -/
def begins (input : Input) (made : List Entry) : Bool :=
  input.isActivation && made.any (·.effect = .enter .connecting)

theorem not_isActivation_of_moves {config : Config} {p p' : Progress} {input : Input}
    (h : Progress.Moves config p input p') : input.isActivation = false := by
  cases h <;> rfl

theorem not_begins {input : Input} {made : List Entry}
    (h : ∀ entry ∈ made, entry.effect ≠ .enter .connecting) : begins input made = false := by
  have hnone : (made.any (·.effect = .enter .connecting)) = false :=
    List.any_eq_false.mpr fun entry hmem => by simpa using h entry hmem
  rw [begins, hnone, Bool.and_false]

/-! ## Where an activation begins -/

/-- A task that has ended is given back or up, and another one is started or not. -/
structure Turns (session : Session) (input : Input) (stepped : Stepped) : Prop where
  rest : session.isBusy = false
  active_eq : begins input stepped.2 = false ∧ stepped.1.active = none ∨
    begins input stepped.2 = true ∧ ∃ handlers, stepped.1.active = some { handlers }
  phase_eq : stepped.1.active = none →
    stepped.1.phase = .idle ∨ stepped.1.phase = session.phase
  enters : ∀ entry ∈ stepped.2, ∃ phase, entry.effect = .enter phase

theorem Turns.point?_eq {input : Input} (h : session.Turns input (next, more)) :
    begins input more = false ∧ next.point? = none ∨
      begins input more = true ∧ next.point? = some .ready := by
  rcases h.active_eq with ⟨hbegins, hgone⟩ | ⟨hbegins, handlers, hnew⟩
  · exact .inl ⟨hbegins, point?_eq_none.mpr hgone⟩
  · exact .inr ⟨hbegins, point?_of_active hnew⟩

theorem Quiet.not_begins {stepped : Stepped} (h : session.Quiet stepped) (input : Input) :
    begins input stepped.2 = false := by
  refine Session.not_begins fun entry hmem heffect => ?_
  have hanswer := (h.answers entry hmem).2
  rw [Entry.IsAnswer, heffect] at hanswer
  exact hanswer

theorem spawn_turns {stepped : Stepped} {input : Input} (hrest : session.isBusy = false)
    (hnone : stepped.1.active = none)
    (hphase : stepped.1.phase = .idle ∨ stepped.1.phase = session.phase)
    (hidle : ∀ entry ∈ stepped.2, entry.effect = .enter .idle)
    (hactivation : input.isActivation = true) : session.Turns input (spawn stepped) := by
  rcases spawn_cases stepped with heq | ⟨parts, -, -, heq⟩
  · rw [heq]
    refine ⟨hrest, .inl ⟨?_, hnone⟩, fun _ => hphase,
      fun entry hmem => ⟨.idle, hidle entry hmem⟩⟩
    exact Session.not_begins fun entry hmem => by simp [hidle entry hmem]
  · rw [heq]
    refine ⟨hrest, .inr ⟨by simp [begins, hactivation, entry], _, rfl⟩,
      fun hgone => absurd hgone (Option.some_ne_none _), ?_⟩
    intro entry hmem
    rcases List.mem_append.mp hmem with hmem | hmem
    · exact ⟨.idle, hidle entry hmem⟩
    · rw [List.mem_singleton.mp hmem]
      exact ⟨.connecting, rfl⟩

theorem spawn_self_or_turns {input : Input} (hactivation : input.isActivation = true) :
    spawn (session, []) = (session, []) ∨ session.Turns input (spawn (session, [])) := by
  cases hactive : session.active with
  | some task => exact .inl (spawn_of_active hactive)
  | none =>
      have hrest := isBusy_of_none hactive
      exact .inr (spawn_turns hrest hactive (.inr rfl) (by simp) hactivation)

theorem isBusy_of_hasEnded {task : Task} (hactive : session.active = some task)
    (hended : task.hasEnded = true) : session.isBusy = false := by
  simp [isBusy_of_active hactive, hended]

theorem activate_self_or_turns :
    session.activate = (session, []) ∨ session.Turns (.request .activate) session.activate := by
  rw [activate]
  rcases session.collect_cases with
    heq | ⟨task, hactive, hpoint, heq⟩ | ⟨task, hactive, hpoint, heq⟩
  · rw [heq]
    exact spawn_self_or_turns rfl
  · have hended : task.hasEnded = true := by simp [Task.hasEnded, hpoint]
    rw [heq]
    exact .inr (spawn_turns (isBusy_of_hasEnded hactive hended) rfl (.inr rfl) (by simp) rfl)
  · have hended : task.hasEnded = true := by simp [Task.hasEnded, hpoint]
    rw [heq]
    have hrest := isBusy_of_hasEnded hactive hended
    exact .inr (spawn_turns hrest rfl (.inl rfl) (by simp [entry]) rfl)

theorem activateLate_self_or_turns :
    session.activateLate = (session, []) ∨
      session.Turns (.request .activateLate) session.activateLate := by
  rw [activateLate]
  rcases session.forfeit_cases with heq | ⟨task, hactive, hended, heq⟩
  · rw [heq]
    exact spawn_self_or_turns rfl
  · rw [heq]
    exact .inr (spawn_turns (isBusy_of_hasEnded hactive hended) rfl (.inr rfl) (by simp) rfl)

theorem reclaim?_turns {stepped : Stepped} (h : session.reclaim? = some stepped) :
    session.Turns .reclaim stepped := by
  obtain ⟨task, hactive, hended, rfl⟩ := reclaim?_eq_some h
  exact ⟨isBusy_of_hasEnded hactive hended, .inl ⟨rfl, rfl⟩, fun _ => .inl rfl,
    by simp [entry]⟩

/-- A step leaves the task where it is, makes room for another one, or is a move of it. -/
theorem Steps.ways {input : Input} (h : session.Steps input next more) :
    session.Quiet (next, more) ∧ input.isMove = false ∨
      session.Turns input (next, more) ∧ input.isMove = false ∨
      begins input more = false ∧ ∃ task p, session.active = some task ∧
        Progress.Moves session.config ⟨session.now, session.phase, task, []⟩ input p ∧
        next = { session with phase := p.phase, active := some p.task } ∧ more = p.log := by
  cases h with
  | @request request hheld =>
      cases request with
      | activate =>
          rcases session.activate_self_or_turns with heq | hturns
          · rw [Session.request, heq]
            exact .inl ⟨.silent rfl rfl rfl rfl, rfl⟩
          · exact .inr (.inl ⟨hturns, rfl⟩)
      | activateLate =>
          rcases session.activateLate_self_or_turns with heq | hturns
          · rw [Session.request, heq]
            exact .inl ⟨.silent rfl rfl rfl rfl, rfl⟩
          · exact .inr (.inl ⟨hturns, rfl⟩)
      | deactivate => exact .inl ⟨deactivate_quiet, rfl⟩
      | release => exact .inl ⟨release_quiet, rfl⟩
      | send frame => exact .inl ⟨send_quiet frame, rfl⟩
      | next => exact .inl ⟨next_quiet, rfl⟩
  | reclaim hstopping hreclaim => exact .inr (.inl ⟨reclaim?_turns hreclaim, rfl⟩)
  | elapse duration => exact .inl ⟨elapse_quiet duration, rfl⟩
  | @move _ task p hactive hmoves =>
      refine .inr (.inr ⟨?_, task, p, hactive, hmoves, rfl, rfl⟩)
      rw [begins, not_isActivation_of_moves hmoves, Bool.false_and]

/-! ## Chronicles -/

/-- The log of the latest activation, after those of earlier ones. -/
structure Chronicle where
  earlier : List (List Entry) := []
  current : List Entry := []

def Chronicle.parts (chronicle : Chronicle) : List (List Entry) :=
  chronicle.earlier ++ [chronicle.current]

def Chronicle.note (chronicle : Chronicle) (input : Input) (made : List Entry) : Chronicle :=
  if begins input made then ⟨chronicle.parts, made⟩
  else { chronicle with current := chronicle.current ++ made }

def chronicle (session : Session) (inputs : List Input) : Chronicle :=
  session.observe (fun chronicle _ input stepped => chronicle.note input stepped.2) {} inputs

theorem Chronicle.flatten_note (chronicle : Chronicle) (input : Input) (made : List Entry) :
    (chronicle.note input made).parts.flatten = chronicle.parts.flatten ++ made := by
  unfold note
  split
  · simp [parts]
  · simp [parts]

theorem chronicle_snoc {start : Session} {inputs : List Input} {input : Input}
    (hrun : start.run? inputs = some (session, log))
    (hstep : session.step? input = some (next, more)) :
    start.chronicle (inputs ++ [input]) = (start.chronicle inputs).note input more :=
  observe_snoc _ _ hrun hstep

theorem chronicle_flatten {start : Session} {inputs : List Input}
    (hrun : start.run? inputs = some (session, log)) :
    (start.chronicle inputs).parts.flatten = log := by
  refine run?_induction (motive := fun inputs _ log => (start.chronicle inputs).parts.flatten = log)
    rfl ?_ hrun
  intro inputs input session next log more hbefore h hstep
  rw [chronicle_snoc hbefore hstep, Chronicle.flatten_note, h]

end Session

end Stomp
