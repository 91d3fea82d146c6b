import Stomp.Proofs.Session.Delivery

/-!
# What the owner is handed

The frames that the owner takes were received while the session was connected, and none
of them is an ERROR.  A CONNECTED frame that comes when the session is already connected
is handed out like any other (`Session.hands_out_received`).
-/

namespace Stomp

namespace Session

variable {session next : Session} {log more : List Entry} {input : Input} {frame : Frame}

/-- A frame was received in the course of a run, at a moment when the session was connected. -/
def ReceivedIn (start : Session) (inputs : List Input) (frame : Frame) : Prop :=
  ∃ before after middle made, inputs = before ++ .outcome (.event (.item (.frame frame))) :: after ∧
    start.run? before = some (middle, made) ∧ middle.phase = .connected

theorem ReceivedIn.append {start : Session} {inputs : List Input}
    (h : start.ReceivedIn inputs frame) (later : List Input) :
    start.ReceivedIn (inputs ++ later) frame := by
  obtain ⟨before, after, middle, made, rfl, hmiddle, hconnected⟩ := h
  exact ⟨before, after ++ later, middle, made, by simp, hmiddle, hconnected⟩

/-! ## Where queued frames come from -/

theorem of_arrival? {phase : Phase} (h : input.arrival? phase = some frame) :
    input = .outcome (.event (.item (.frame frame))) ∧ phase = .connected ∧
      frame.isError = false := by
  unfold Input.arrival? at h
  split at h
  · rename_i other
    split at h
    · rename_i hcondition
      obtain rfl := Option.some.inj h
      simp only [Bool.and_eq_true, decide_eq_true_eq, Bool.not_eq_true'] at hcondition
      exact ⟨rfl, hcondition⟩
    · exact absurd h (Option.some_ne_none frame).symm
  · exact absurd h (Option.some_ne_none frame).symm

theorem Turns.inbound_eq {stepped : Stepped} (h : session.Turns input stepped) :
    stepped.1.inbound = [] := by
  rcases h.active_eq with ⟨-, hgone⟩ | ⟨-, handlers, hnew⟩
  · simp [inbound, hgone]
  · simp [inbound, hnew]

theorem request_inbound (request : Request) :
    ∀ frame ∈ (session.request request).1.inbound, frame ∈ session.inbound := by
  intro frame hmem
  cases request with
  | activate =>
      rcases session.activate_self_or_turns with heq | hturns
      · rwa [Session.request, heq] at hmem
      · rw [Session.request, hturns.inbound_eq] at hmem
        exact absurd hmem List.not_mem_nil
  | activateLate =>
      rcases session.activateLate_self_or_turns with heq | hturns
      · rwa [Session.request, heq] at hmem
      · rw [Session.request, hturns.inbound_eq] at hmem
        exact absurd hmem List.not_mem_nil
  | deactivate =>
      rw [Session.request, deactivate] at hmem
      cases hactive : session.active with
      | none => simpa [hactive] using hmem
      | some task => simpa [inbound, hactive] using hmem
  | release =>
      cases hactive : session.active with
      | none => simp [Session.request, release, inbound, hactive] at hmem
      | some task => simpa [Session.request, release, inbound, hactive] using hmem
  | send sent =>
      rw [Session.request] at hmem
      rcases session.send_cases sent with ⟨answer, -, heq⟩ | ⟨task, hactive, heq⟩
      · rwa [heq] at hmem
      · rw [heq] at hmem
        simpa [inbound, hactive] using hmem
  | next =>
      rw [Session.request] at hmem
      rcases session.next_cases with ⟨answer, heq⟩ | ⟨task, first, rest, hactive, hqueue, heq⟩
      · rwa [heq] at hmem
      · rw [heq] at hmem
        have hrest : frame ∈ rest := by simpa [inbound] using hmem
        simp [inbound, hactive, hqueue, hrest]

theorem mem_received {task : Task} {other : Frame} (h : frame ∈ Progress.received task other) :
    frame ∈ task.inbound ∨ frame = other := by
  unfold Progress.received at h
  split at h
  · simpa using h
  · exact .inl h

theorem Steps.inbound (h : session.Steps input next more)
    (hphase : session.phase = session.standing) (hmem : frame ∈ next.inbound) :
    frame ∈ session.inbound ∨ input.arrival? session.phase = some frame := by
  cases h with
  | request hheld => exact .inl (request_inbound _ frame hmem)
  | reclaim hstopping hreclaim =>
      rw [(reclaim?_turns hreclaim).inbound_eq] at hmem
      exact absurd hmem List.not_mem_nil
  | elapse duration => exact .inl hmem
  | @move _ task p hactive hmoves =>
      have hqueue := (hmoves.task (phase_of_active hphase hactive)).1
      have hmem : frame ∈ p.task.inbound := hmem
      rw [hqueue] at hmem
      have hhere : session.inbound = task.inbound := by simp [Session.inbound, hactive]
      rw [hhere]
      cases harrival : input.arrival? session.phase with
      | none => exact .inl (by simpa [harrival] using hmem)
      | some arrived =>
          rw [harrival, Option.elim_some] at hmem
          exact (mem_received hmem).imp_right fun heq => by rw [heq]

theorem receivedIn_of_run? {config : Config} {handlers : Handlers} {start : Session}
    {inputs : List Input} (hstart : ofConfig config handlers = .ok start)
    (hrun : start.run? inputs = some (session, log)) :
    ∀ frame ∈ session.inbound, frame.isError = false ∧ start.ReceivedIn inputs frame := by
  refine run?_induction (motive := fun inputs session _ =>
    ∀ frame ∈ session.inbound, frame.isError = false ∧ start.ReceivedIn inputs frame) ?_ ?_ hrun
  · obtain rfl := ofConfig_eq_ok hstart
    exact fun frame hmem => absurd hmem List.not_mem_nil
  · intro inputs input session next log more hbefore ih hstep frame hmem
    have hphase := (disciplined_of_run? hstart hbefore).phase_eq
    rcases (step?_steps hstep).inbound hphase hmem with hqueued | harrival
    · obtain ⟨herror, hreceived⟩ := ih frame hqueued
      exact ⟨herror, hreceived.append [input]⟩
    · obtain ⟨rfl, hconnected, herror⟩ := of_arrival? harrival
      exact ⟨herror, inputs, [], session, log, rfl, hbefore, hconnected⟩

/-! ## From the queue to the owner -/

theorem queues_received {link : Link} {task : Task} (hactive : session.active = some task)
    (hpoint : task.point = .linked link) (hattended : task.attended = true)
    (hroom : task.inbound.length < Task.inboundCapacity) (herror : frame.isError = false) :
    ∃ next, session.step? (.outcome (.event (.item (.frame frame)))) = some (next, []) ∧
      next.inbound = task.inbound ++ [frame] ∧ next.tenure = session.tenure := by
  let p : Progress := ⟨session.now, session.phase, task, []⟩
  have hheard : p.outcome? session.config (.event (.item (.frame frame))) =
      some ((p.goto (.linked { link with lastReceived := p.now })).deliver frame) := by
    simp [p, Progress.outcome?, hpoint, Progress.hearLinked, herror]
  have hqueued : (p.goto (.linked { link with lastReceived := p.now })).deliver frame =
      { p with task :=
        { task with
          point := .linked { link with lastReceived := p.now }
          inbound := task.inbound ++ [frame] } } := by
    simp [p, Progress.deliver, Progress.goto, hattended, hroom]
  rw [hqueued] at hheard
  exact ⟨_, step?_outcome hactive hheard, rfl, rfl⟩

theorem takes_queued {rest : List Frame} (hheld : session.tenure = .held)
    (hqueue : session.inbound = frame :: rest) :
    ∃ next, session.step? (.request .next) =
        some (next, [session.entry (.answeredNext (.frame frame))]) ∧
      next.inbound = rest ∧ next.tenure = .held := by
  obtain ⟨task, hactive, hinbound⟩ := active_of_inbound hqueue
  have hnext : session.step? (.request .next) = some session.next := by
    simp [step?, hheld, Session.request]
  rw [next_of_inbound hactive hinbound] at hnext
  exact ⟨_, hnext, rfl, hheld⟩

theorem hands_out_queued {front rest : List Frame} (hheld : session.tenure = .held)
    (hqueue : session.inbound = front ++ frame :: rest) :
    ∃ middle made next, session.run? (List.replicate front.length (.request .next)) =
        some (middle, made) ∧
      middle.step? (.request .next) =
        some (next, [middle.entry (.answeredNext (.frame frame))]) := by
  induction front generalizing session with
  | nil =>
      obtain ⟨next, hstep, -⟩ := takes_queued hheld hqueue
      exact ⟨session, [], next, rfl, hstep⟩
  | cons first front ih =>
      obtain ⟨next, hstep, hrest, hheld'⟩ := takes_queued hheld hqueue
      obtain ⟨middle, made, last, hrun, hlast⟩ := ih hheld' hrest
      refine ⟨middle, session.entry (.answeredNext (.frame first)) :: made, last, ?_, hlast⟩
      simp [List.replicate_succ, run?, hstep, hrun]

theorem mem_inbound_of_next (hstep : session.step? (.request .next) =
      some (next, [session.entry (.answeredNext (.frame frame))])) : frame ∈ session.inbound := by
  simp only [step?, Option.ite_none_right_eq_some, Option.some.injEq, Session.request] at hstep
  cases hqueue : session.inbound with
  | nil =>
      obtain ⟨answer, heq, hanswer⟩ := next_of_empty hqueue
      have hsame : answer = .frame frame := by simpa [heq, entry] using (congrArg Prod.snd hstep.2)
      exact absurd hsame (hanswer frame)
  | cons first rest =>
      obtain ⟨task, hactive, hinbound⟩ := active_of_inbound hqueue
      have hsame : first = frame := by
        simpa [next_of_inbound hactive hinbound, entry] using (congrArg Prod.snd hstep.2)
      simp [hsame]

/--
What the owner is handed at any moment of a run was received while the session was
connected, and is no ERROR.  Whatever else the broker sends in Connected is handed out
after the frames that wait already, if there is room for it, also a CONNECTED frame.
-/
theorem hands_out_received {config : Config} {handlers : Handlers} {start : Session}
    {inputs : List Input} (hstart : ofConfig config handlers = .ok start)
    (hrun : start.run? inputs = some (session, log)) :
    (∀ frame next, session.step? (.request .next) =
        some (next, [session.entry (.answeredNext (.frame frame))]) →
      frame.command ≠ "ERROR" ∧ start.ReceivedIn inputs frame) ∧
    (∀ link frame, session.point? = some (.linked link) → session.tenure = .held →
      session.inbound.length < Task.inboundCapacity → frame.command ≠ "ERROR" →
      ∃ middle made next,
        session.run? (.outcome (.event (.item (.frame frame))) ::
          List.replicate session.inbound.length (.request .next)) = some (middle, made) ∧
        middle.step? (.request .next) =
          some (next, [middle.entry (.answeredNext (.frame frame))])) := by
  constructor
  · intro frame next hstep
    obtain ⟨herror, hreceived⟩ :=
      receivedIn_of_run? hstart hrun frame (mem_inbound_of_next hstep)
    exact ⟨by simpa [Frame.isError] using herror, hreceived⟩
  · intro link frame hpoint hheld hroom hcommand
    obtain ⟨task, hactive, hat⟩ := Option.map_eq_some_iff.mp hpoint
    have hqueue : session.inbound = task.inbound := by simp [inbound, hactive]
    have hattended : task.attended = true := by
      rw [(delivers_of_run? hstart hrun).attended task hactive, hheld]
      exact Tenure.noConfusion
    have herror : frame.isError = false := by simpa [Frame.isError] using hcommand
    rw [hqueue] at hroom ⊢
    obtain ⟨queued, hstep, hinbound, htenure⟩ :=
      queues_received hactive hat hattended hroom herror
    obtain ⟨middle, made, next, hrun, hnext⟩ :=
      hands_out_queued (htenure.trans hheld) hinbound
    exact ⟨middle, made, next, by simp [run?, hstep, hrun], hnext⟩

def secondWelcome : Frame := { command := "CONNECTED", headers := [("version", "1.1")] }

theorem hands_out_secondWelcome :
    ∃ start session middle next log made, ofConfig plainConfig {} = .ok start ∧
      start.run? connecting = some (session, log) ∧
      session.run? [.outcome (.event (.item (.frame secondWelcome)))] = some (middle, made) ∧
      middle.step? (.request .next) =
        some (next, [middle.entry (.answeredNext (.frame secondWelcome))]) ∧
      start.ReceivedIn (connecting ++ [.outcome (.event (.item (.frame secondWelcome)))])
        secondWelcome := by
  have hstart : ofConfig plainConfig {} = .ok (fresh plainConfig) := rfl
  have hruns : ((fresh plainConfig).run? connecting).map (fun stepped =>
      (stepped.1.point?, stepped.1.tenure, stepped.1.inbound)) =
      some (some (.linked ⟨⟨.v10, none, none, none, none, { command := "CONNECTED" }⟩, 0, 0⟩),
        .held, []) := by
    decide +kernel
  obtain ⟨⟨session, log⟩, hrun, hstate⟩ := Option.map_eq_some_iff.mp hruns
  simp only [Prod.mk.injEq] at hstate
  obtain ⟨hpoint, hheld, hempty⟩ := hstate
  obtain ⟨-, hqueues⟩ := hands_out_received hstart hrun
  obtain ⟨middle, made, next, hmiddle, hnext⟩ :=
    hqueues _ secondWelcome hpoint hheld (by simp [hempty, Task.inboundCapacity]) (by decide)
  rw [hempty] at hmiddle
  obtain ⟨hreceived, -⟩ := hands_out_received hstart (run?_append hrun hmiddle)
  exact ⟨fresh plainConfig, session, middle, next, log, made, hstart, hrun, hmiddle, hnext,
    (hreceived secondWelcome next hnext).2⟩

end Session

end Stomp
