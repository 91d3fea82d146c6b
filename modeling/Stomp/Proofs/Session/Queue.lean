import Stomp.Proofs.Session.Activations
import Stomp.Proofs.Session.Discipline

/-!
# The queue of an activation

In every activation the frames that are written are the first of those that were
queued in it, and what is left stays queued (`Session.outbound_in_order`).
-/

namespace Stomp

namespace Session

variable {session next : Session} {log more : List Entry}

/-! ## The queue in a step -/

structure Carries (session : Session) (stepped : Stepped) : Prop where
  queue_eq : session.KeepsQueue stepped
  active_eq : stepped.1.active.isSome = session.active.isSome
  drawn_eq : session.active = none → seen Entry.drawn? stepped.2 = []

structure Clears (stepped : Stepped) : Prop where
  queued_eq : seen Entry.queued? stepped.2 = []
  drawn_eq : seen Entry.drawn? stepped.2 = []
  outbound_eq : stepped.1.outbound = []

/-- The queue goes on, or it is given up with its task, or one begins with a new task. -/
def Passes (session : Session) (input : Input) (stepped : Stepped) : Prop :=
  session.Carries stepped ∧ begins input stepped.2 = false ∨
    Clears stepped ∧ (begins input stepped.2 = true ∨ stepped.1.active = none)

theorem Carries.refl (session : Session) : session.Carries (session, []) :=
  ⟨List.append_nil _, rfl, fun _ => rfl⟩

theorem isSome_active (session : Session) : session.active.isSome = session.point?.isSome := by
  rw [point?, Option.isSome_map]

theorem Quiet.carries {stepped : Stepped} (h : session.Quiet stepped)
    (hkeeps : session.KeepsQueue stepped) : session.Carries stepped where
  queue_eq := hkeeps
  active_eq := by rw [isSome_active, isSome_active, h.point_eq]
  drawn_eq _ := h.seen_eq_nil (fun _ _ _ _ => rfl) fun _ _ _ => rfl

theorem Clears.spawn {stepped : Stepped} (h : Clears stepped) (hnone : stepped.1.active = none)
    {input : Input} (hactivation : input.isActivation = true) :
    session.Passes input (spawn stepped) := by
  refine .inr ?_
  rcases spawn_cases stepped with heq | ⟨parts, -, -, heq⟩
  · rw [heq]
    exact ⟨h, .inr hnone⟩
  · rw [heq]
    refine ⟨⟨?_, ?_, rfl⟩, .inl ?_⟩
    · rw [seen_append, h.queued_eq]
      rfl
    · rw [seen_append, h.drawn_eq]
      rfl
    · simp [begins, hactivation, entry]

theorem spawn_passes {input : Input} (hactivation : input.isActivation = true) :
    session.Passes input (spawn (session, [])) := by
  cases hactive : session.active with
  | none =>
      have hclears : Clears (session, []) := ⟨rfl, rfl, by rw [outbound, hactive]; rfl⟩
      exact hclears.spawn hactive hactivation
  | some task =>
      rw [spawn_of_active hactive]
      exact .inl ⟨.refl session, Bool.and_false _⟩

theorem activate_passes : session.Passes (.request .activate) session.activate := by
  rw [activate]
  rcases session.collect_cases with heq | ⟨task, -, -, heq⟩ | ⟨task, -, -, heq⟩
  · rw [heq]
    exact spawn_passes rfl
  · rw [heq]
    exact Clears.spawn ⟨rfl, rfl, rfl⟩ rfl rfl
  · rw [heq]
    exact Clears.spawn ⟨rfl, rfl, rfl⟩ rfl rfl

theorem activateLate_passes : session.Passes (.request .activateLate) session.activateLate := by
  rw [activateLate]
  rcases session.forfeit_cases with heq | ⟨task, -, -, heq⟩
  · rw [heq]
    exact spawn_passes rfl
  · rw [heq]
    exact Clears.spawn ⟨rfl, rfl, rfl⟩ rfl rfl

theorem request_passes (request : Request) :
    session.Passes (.request request) (session.request request) := by
  cases request with
  | activate => exact activate_passes
  | activateLate => exact activateLate_passes
  | deactivate => exact .inl ⟨deactivate_quiet.carries deactivate_keepsQueue, rfl⟩
  | release => exact .inl ⟨release_quiet.carries release_keepsQueue, rfl⟩
  | send frame => exact .inl ⟨(send_quiet frame).carries (send_keepsQueue frame), rfl⟩
  | next => exact .inl ⟨next_quiet.carries next_keepsQueue, rfl⟩

theorem Steps.passes {input : Input} (h : session.Steps input next more)
    (hphase : session.phase = session.standing) : session.Passes input (next, more) := by
  cases h with
  | request hheld => exact request_passes _
  | reclaim hstopping hreclaim =>
      obtain ⟨task, -, -, heq⟩ := reclaim?_eq_some hreclaim
      rw [heq]
      exact .inr ⟨⟨rfl, rfl, rfl⟩, .inr rfl⟩
  | elapse duration => exact .inl ⟨⟨List.append_nil _, rfl, fun _ => rfl⟩, rfl⟩
  | @move _ task p hactive hmoves =>
      have hbegins : begins input p.log = false := by
        rw [begins, not_isActivation_of_moves hmoves, Bool.false_and]
      refine .inl ⟨⟨move_keepsQueue hphase hactive hmoves, ?_, ?_⟩, hbegins⟩
      · rw [hactive]
        rfl
      · intro hnone
        rw [hactive] at hnone
        exact absurd hnone (Option.some_ne_none _)

/-! ## The queue in a run -/

/--
The frames queued in an activation are those that were written, those that are left
and those that were given up with its task.
-/
def Accounts (session : Session) (current : List Entry) : Prop :=
  ∃ lost, seen Entry.queued? current = seen Entry.drawn? current ++ (session.outbound ++ lost) ∧
    (session.active.isSome = true → lost = [])

theorem outbound_of_none (hactive : session.active = none) : session.outbound = [] := by
  rw [outbound, hactive]
  rfl

theorem Accounts.first_drawn {current : List Entry} (h : session.Accounts current) :
    seen Entry.drawn? current <+: seen Entry.queued? current := by
  obtain ⟨lost, hqueued, -⟩ := h
  exact ⟨session.outbound ++ lost, hqueued.symm⟩

theorem Carries.accounts {current : List Entry} (hcarries : session.Carries (next, more))
    (h : session.Accounts current) : next.Accounts (current ++ more) := by
  obtain ⟨lost, hqueued, hlost⟩ := h
  have hqueue : session.outbound ++ seen Entry.queued? more =
      seen Entry.drawn? more ++ next.outbound :=
    hcarries.queue_eq
  have hsome : next.active.isSome = session.active.isSome := hcarries.active_eq
  refine ⟨lost, ?_, fun hactive => hlost (by rw [← hsome]; exact hactive)⟩
  rw [seen_append, seen_append, hqueued]
  cases hactive : session.active with
  | some task =>
      obtain rfl := hlost (by rw [hactive]; rfl)
      simp [hqueue]
  | none =>
      have hnone : next.active = none := by
        rw [← Option.isNone_iff_eq_none, ← Option.not_isSome, hsome, hactive]
        rfl
      rw [outbound_of_none hactive, hcarries.drawn_eq hactive, outbound_of_none hnone] at hqueue
      have hqueuedMore : seen Entry.queued? more = [] := hqueue
      have hdrawnMore : seen Entry.drawn? more = [] := hcarries.drawn_eq hactive
      simp [outbound_of_none hactive, outbound_of_none hnone, hqueuedMore, hdrawnMore]

theorem Accounts.step {current : List Entry} {input : Input} (h : session.Accounts current)
    (hpasses : session.Passes input (next, more)) (hbegins : begins input more = false) :
    next.Accounts (current ++ more) := by
  rcases hpasses with ⟨hcarries, -⟩ | ⟨hclears, hbegun | hnone⟩
  · exact hcarries.accounts h
  · rw [hbegun] at hbegins
    exact absurd hbegins Bool.noConfusion
  · obtain ⟨lost, hqueued, -⟩ := h
    refine ⟨session.outbound ++ lost, ?_, fun hsome => ?_⟩
    · rw [seen_append, seen_append, hclears.queued_eq, hclears.drawn_eq,
        hclears.outbound_eq, hqueued]
      simp
    · rw [hnone] at hsome
      exact absurd hsome Bool.false_ne_true

theorem Passes.accounts {input : Input} (h : session.Passes input (next, more))
    (hbegins : begins input more = true) : next.Accounts more := by
  rcases h with ⟨-, hnot⟩ | ⟨hclears, -⟩
  · rw [hbegins] at hnot
    exact absurd hnot Bool.noConfusion
  · refine ⟨[], ?_, fun _ => rfl⟩
    rw [hclears.queued_eq, hclears.drawn_eq, hclears.outbound_eq]
    rfl

structure InTurn (session : Session) (chronicle : Chronicle) : Prop where
  earlier : ∀ part ∈ chronicle.earlier, seen Entry.drawn? part <+: seen Entry.queued? part
  current : session.Accounts chronicle.current

theorem InTurn.step {chronicle : Chronicle} {input : Input} (h : session.InTurn chronicle)
    (hpasses : session.Passes input (next, more)) : next.InTurn (chronicle.note input more) := by
  unfold Chronicle.note
  cases hbegins : begins input more with
  | false => exact ⟨h.earlier, h.current.step hpasses hbegins⟩
  | true =>
      refine ⟨?_, hpasses.accounts hbegins⟩
      intro part hmem
      rcases List.mem_append.mp hmem with hmem | hmem
      · exact h.earlier part hmem
      · rw [List.mem_singleton.mp hmem]
        exact h.current.first_drawn

theorem inTurn_of_run? {config : Config} {handlers : Handlers} {start : Session}
    {inputs : List Input} (hstart : ofConfig config handlers = .ok start)
    (hrun : start.run? inputs = some (session, log)) : session.InTurn (start.chronicle inputs) := by
  have hnew : start.InTurn {} := by
    obtain rfl := ofConfig_eq_ok hstart
    exact ⟨fun _ hmem => absurd hmem List.not_mem_nil, [], rfl, fun _ => rfl⟩
  refine run?_induction (motive := fun inputs session _ => session.InTurn (start.chronicle inputs))
    hnew ?_ hrun
  intro inputs input session next log more hbefore h hstep
  rw [chronicle_snoc hbefore hstep]
  exact h.step ((step?_steps hstep).passes (disciplined_of_run? hstart hbefore).phase_eq)

/-! ## Frames of the session itself -/

theorem drawn?_or_own {config : Config} {entry : Entry} {frame : Frame}
    (hallowed : entry.effect.Allowed config entry.phase)
    (hsent : entry.effect = .call (.send (.frame frame))) :
    entry.drawn? = some frame ∨
      entry.phase = .connecting ∧ frame = config.connectFrame ∨
      entry.phase = .disconnecting ∧ frame = Progress.disconnectFrame := by
  obtain ⟨time, phase, effect⟩ := entry
  obtain rfl : effect = .call (.send (.frame frame)) := hsent
  cases phase with
  | idle => exact absurd hallowed not_false
  | connecting => exact .inr (.inl ⟨rfl, Wire.Item.frame.inj hallowed⟩)
  | connected => exact .inl rfl
  | disconnecting => exact .inr (.inr ⟨rfl, Wire.Item.frame.inj hallowed⟩)

theorem take_of_linked {link : Link} {frame : Frame} {rest : List Frame}
    (hphase : session.phase = session.standing) (hpoint : session.point? = some (.linked link))
    (hqueue : session.outbound = frame :: rest) :
    ∃ next, session.step? (.branch .take) =
      some (next, [⟨session.now, .connected, .call (.send (.frame frame))⟩]) ∧
      next.outbound = rest := by
  obtain ⟨task, hactive, hat⟩ := Option.map_eq_some_iff.mp hpoint
  have hnow : session.phase = .connected := by
    rw [phase_of_active hphase hactive, hat]
    rfl
  rw [outbound_of_active hactive] at hqueue
  have htake : Progress.branch? ⟨session.now, session.phase, task, []⟩ session.config .take =
      some (Progress.write ⟨session.now, session.phase, { task with outbound := rest }, []⟩ link
        (.frame frame)) := by
    simp [Progress.branch?, Progress.takeOutbound?, hat, hqueue]
  refine ⟨_, (step?_branch hactive htake).trans (congrArg some (Prod.ext rfl ?_)), rfl⟩
  rw [← hnow]
  rfl

/--
In every activation the frames that are written are the first of those that were
queued in it, in their order and each once, over all its connections.  Those not yet
written wait as long as the task is there, and while it is connected the first of
them may be written next.  Other frames that are written are the session's own.
-/
theorem outbound_in_order {config : Config} {handlers : Handlers} {start : Session}
    {inputs : List Input} (hstart : ofConfig config handlers = .ok start)
    (hrun : start.run? inputs = some (session, log)) :
    (start.chronicle inputs).parts.flatten = log ∧
    (∀ part ∈ (start.chronicle inputs).parts, seen Entry.drawn? part <+: seen Entry.queued? part) ∧
    (session.active.isSome = true →
      seen Entry.queued? (start.chronicle inputs).current =
        seen Entry.drawn? (start.chronicle inputs).current ++ session.outbound) ∧
    (∀ link frame rest, session.point? = some (.linked link) → session.outbound = frame :: rest →
      ∃ next, session.step? (.branch .take) =
        some (next, [⟨session.now, .connected, .call (.send (.frame frame))⟩]) ∧
        next.outbound = rest) ∧
    ∀ entry ∈ log, ∀ frame, entry.effect = .call (.send (.frame frame)) →
      entry.drawn? = some frame ∨
        entry.phase = .connecting ∧ frame = config.connectFrame ∨
        entry.phase = .disconnecting ∧ frame = Progress.disconnectFrame := by
  have hinTurn := inTurn_of_run? hstart hrun
  have hdisciplined := disciplined_of_run? hstart hrun
  refine ⟨chronicle_flatten hrun, ?_, ?_, ?_, ?_⟩
  · intro part hmem
    rcases List.mem_append.mp hmem with hmem | hmem
    · exact hinTurn.earlier part hmem
    · rw [List.mem_singleton.mp hmem]
      exact hinTurn.current.first_drawn
  · intro hactive
    obtain ⟨lost, hqueued, hlost⟩ := hinTurn.current
    rw [hqueued, hlost hactive, List.append_nil]
  · intro link frame rest hpoint hqueue
    exact take_of_linked hdisciplined.phase_eq hpoint hqueue
  · intro entry hmem frame hsent
    exact drawn?_or_own (hdisciplined.orderly.allowed entry hmem) hsent

def interrupted : List Input :=
  .request .activate :: .request (.send { command := "A" }) :: connecting.tail ++
    [.branch .take, .outcome (.sent (.error .notConnected)), .outcome .closed,
      .request (.send { command := "B" }), .elapse 5, .branch .resume] ++
    connecting.tail.tail ++
    [.branch .take, .outcome (.sent (.ok ())), .request .deactivate, .branch .cancel,
      .outcome (.sent (.ok ())), .outcome .closed, .reclaim] ++
    connecting ++
    [.request (.send { command := "C" }), .request (.send { command := "D" }), .branch .take]

theorem outbound_in_order_interrupted :
    ∃ start session log, ofConfig stubbornConfig {} = .ok start ∧
      start.run? interrupted = some (session, log) ∧
      (start.chronicle interrupted).parts.map (seen Entry.drawn?) =
        [[], [{ command := "A" }, { command := "B" }], [{ command := "C" }]] ∧
      session.outbound = [{ command := "D" }] ∧
      ∀ part ∈ (start.chronicle interrupted).parts,
        seen Entry.drawn? part <+: seen Entry.queued? part := by
  have hstart : ofConfig stubbornConfig {} = .ok (fresh stubbornConfig) := rfl
  have hrun : (((fresh stubbornConfig).run? interrupted).map fun stepped => stepped.1.outbound) =
      some [{ command := "D" }] := by
    decide +kernel
  have hdrawn : ((fresh stubbornConfig).chronicle interrupted).parts.map (seen Entry.drawn?) =
      [[], [{ command := "A" }, { command := "B" }], [{ command := "C" }]] := by
    decide +kernel
  obtain ⟨⟨session, log⟩, hrun, hleft⟩ := Option.map_eq_some_iff.mp hrun
  obtain ⟨-, hfirst, -⟩ := outbound_in_order hstart hrun
  exact ⟨fresh stubbornConfig, session, log, hstart, hrun, hdrawn, hleft, hfirst⟩

end Session

end Stomp
