import Stomp.Proofs.Session.Incidents

/-!
# Frames for the owner

What the owner takes in an activation, followed by what is still queued, are the frames
that the broker sent while the session was connected, in their order and each once,
but for those that found the queue full (`Session.delivers_in_order`).
-/

namespace Stomp

/-! ## The mailbox of an activation -/

/-- The frames that an activation let in, and those that its owner took, each in their order. -/
structure Mailbox where
  admitted : List Frame := []
  taken : List Frame := []
  deriving DecidableEq, Repr

namespace Mailbox

def isFull (mailbox : Mailbox) : Bool :=
  mailbox.taken.length + Task.inboundCapacity ≤ mailbox.admitted.length

def arrive (mailbox : Mailbox) (frame : Frame) : Mailbox :=
  if mailbox.isFull then mailbox
  else { mailbox with admitted := mailbox.admitted ++ [frame] }

def take (mailbox : Mailbox) (frame : Frame) : Mailbox :=
  { mailbox with taken := mailbox.taken ++ [frame] }

/-- What was taken are the first of those that were let in, and the others wait in a queue. -/
def Holds (mailbox : Mailbox) (queue : List Frame) : Prop :=
  mailbox.taken ++ queue = mailbox.admitted

variable {mailbox : Mailbox} {frame : Frame} {queue : List Frame}

theorem Holds.isFull_eq (h : mailbox.Holds queue) :
    mailbox.isFull = decide (Task.inboundCapacity ≤ queue.length) := by
  have hlength : mailbox.admitted.length = mailbox.taken.length + queue.length := by
    rw [← h, List.length_append]
  simp [isFull, hlength]

theorem Holds.arrive (h : mailbox.Holds queue) (frame : Frame) :
    (mailbox.arrive frame).Holds
      (if queue.length < Task.inboundCapacity then queue ++ [frame] else queue) := by
  rw [Mailbox.arrive, h.isFull_eq]
  by_cases hroom : queue.length < Task.inboundCapacity
  · have hadmitted : mailbox.taken ++ queue = mailbox.admitted := h
    simp [Holds, hroom, ← hadmitted, Nat.not_le.mpr hroom]
  · simpa [hroom, Nat.not_lt.mp hroom] using h

theorem Holds.take (h : mailbox.Holds (frame :: queue)) : (mailbox.take frame).Holds queue := by
  simpa [Holds, Mailbox.take] using h

theorem Holds.first_taken (h : mailbox.Holds queue) : mailbox.taken <+: mailbox.admitted :=
  ⟨queue, h⟩

theorem first_taken_arrive (h : mailbox.taken <+: mailbox.admitted) (frame : Frame) :
    (mailbox.arrive frame).taken <+: (mailbox.arrive frame).admitted := by
  unfold arrive
  split
  · exact h
  · exact h.trans (List.prefix_append _ _)

end Mailbox

def Input.arrival? (phase : Phase) : Input → Option Frame
  | .outcome (.event (.item (.frame frame))) =>
      if phase = .connected && !frame.isError then some frame else none
  | _ => none

def Entry.taken? (entry : Entry) : Option Frame :=
  match entry.effect with
  | .answeredNext (.frame frame) => some frame
  | _ => none

/-! ## Moves of the task -/

namespace Progress

variable {config : Config} {p p' : Progress} {input : Input}

theorem proceed_task (ending : Ending) :
    (p.proceed config ending).task.inbound = p.task.inbound ∧
      (p.proceed config ending).task.attended = p.task.attended := by
  cases ending with
  | shutdown => exact ⟨rfl, rfl⟩
  | panicked fault wasConnected => cases wasConnected <;> exact ⟨rfl, rfl⟩
  | _ =>
      cases hagain : config.reconnects <;>
        simp [proceed, hagain, pause, goto, enter, report, note]

theorem hearAwaiting_task (event : Event) :
    (p.hearAwaiting config event).task.inbound = p.task.inbound ∧
      (p.hearAwaiting config event).task.attended = p.task.attended := by
  rcases p.hearAwaiting_cases config event with heq | ⟨info, heq⟩ | ⟨fault, heq⟩ <;>
    rw [heq] <;> exact ⟨rfl, rfl⟩

def received (task : Task) (frame : Frame) : List Frame :=
  if task.attended && task.inbound.length < Task.inboundCapacity then task.inbound ++ [frame]
  else task.inbound

theorem deliver_task (p : Progress) (frame : Frame) :
    (p.deliver frame).task.inbound = received p.task frame ∧
      (p.deliver frame).task.attended = p.task.attended := by
  unfold deliver received
  split <;> exact ⟨rfl, rfl⟩

theorem hearLinked_task (link : Link) (event : Event) (hphase : p.phase = .connected) :
    (p.hearLinked link event).task.inbound =
        ((Input.outcome (.event event)).arrival? p.phase).elim p.task.inbound
          (received p.task) ∧
      (p.hearLinked link event).task.attended = p.task.attended := by
  cases event with
  | item item =>
      cases item with
      | heartbeat => exact ⟨rfl, rfl⟩
      | frame frame =>
          cases herror : frame.isError with
          | true => simp [hearLinked, herror, Input.arrival?, report, goto, note]
          | false =>
              simp only [hearLinked, herror, Input.arrival?, hphase]
              exact deliver_task (p.goto _) frame
  | _ => exact ⟨rfl, rfl⟩

theorem Moves.task (h : Moves config p input p') (hphase : p.phase = p.task.point.phase) :
    p'.task.inbound = (input.arrival? p.phase).elim p.task.inbound (received p.task) ∧
      p'.task.attended = p.task.attended := by
  cases h with
  | closed hpoint => exact proceed_task _
  | @answer deadline event hpoint =>
      have hconnecting : p.phase ≠ .connected := by simp [hphase, hpoint, Point.phase]
      have hnone : (Input.outcome (.event event)).arrival? p.phase = none := by
        unfold Input.arrival?
        split <;> simp [hconnecting]
      rw [hnone]
      exact hearAwaiting_task event
  | hear hpoint => exact hearLinked_task _ _ (by rw [hphase, hpoint]; rfl)
  | _ => exact ⟨rfl, rfl⟩

end Progress

/-! ## Steps of a session -/

def Input.taken? (made : List Entry) : Input → Option Frame
  | .request .next => made.findSome? Entry.taken?
  | _ => none

def Mailbox.note (mailbox : Mailbox) (before : Session) (input : Input) (stepped : Stepped) :
    Mailbox :=
  if Session.begins input stepped.2 then {}
  else
    let mailbox := (input.arrival? before.phase).elim mailbox mailbox.arrive
    (input.taken? stepped.2).elim mailbox mailbox.take

namespace Session

def inbound (session : Session) : List Frame := session.active.elim [] (·.inbound)

def mailbox (session : Session) (inputs : List Input) : Mailbox :=
  session.observe Mailbox.note {} inputs

variable {session next : Session} {log more : List Entry} {input : Input} {box : Mailbox}

/-- As long as someone may read it, the queue holds what was let in and not taken. -/
structure Delivers (session : Session) (box : Mailbox) : Prop where
  first : box.taken <+: box.admitted
  holds : ∀ task, session.active = some task → task.attended = true → box.Holds task.inbound
  attended : ∀ task, session.active = some task →
    (task.attended = true ↔ session.tenure ≠ .released)

theorem note_of_rest (hbegins : begins input more = false)
    (harrival : input.arrival? session.phase = none) (htaken : input.taken? more = none) :
    box.note session input (next, more) = box := by
  simp [Mailbox.note, hbegins, harrival, htaken]

theorem Delivers.of_none (h : session.Delivers box) (hnone : next.active = none) :
    next.Delivers box :=
  ⟨h.first, by simp [hnone], by simp [hnone]⟩

theorem Turns.delivers (h : session.Turns input (next, more))
    (harrival : input.arrival? session.phase = none) (htaken : input.taken? more = none)
    (htenure : next.tenure = .held) (hdelivers : session.Delivers box) :
    next.Delivers (box.note session input (next, more)) := by
  rcases h.active_eq with ⟨hbegins, hgone⟩ | ⟨hbegins, handlers, hnew⟩
  · rw [note_of_rest hbegins harrival htaken]
    exact hdelivers.of_none hgone
  · have hempty : box.note session input (next, more) = {} := by
      simp only [Mailbox.note, hbegins, if_true]
    have hnew : next.active = some { handlers } := hnew
    rw [hempty]
    refine ⟨List.prefix_rfl, ?_, ?_⟩ <;> intro task hactive <;>
      obtain rfl := Option.some.inj (hnew.symm.trans hactive)
    · exact fun _ => rfl
    · simp [htenure]

theorem active_of_inbound {frame : Frame} {rest : List Frame}
    (hinbound : session.inbound = frame :: rest) :
    ∃ task, session.active = some task ∧ task.inbound = frame :: rest := by
  cases hactive : session.active with
  | none => simp [inbound, hactive] at hinbound
  | some task => exact ⟨task, rfl, by simpa [inbound, hactive] using hinbound⟩

theorem next_of_inbound {frame : Frame} {rest : List Frame} {task : Task}
    (hactive : session.active = some task) (hinbound : task.inbound = frame :: rest) :
    session.next = ({ session with active := some { task with inbound := rest } },
      [session.entry (.answeredNext (.frame frame))]) := by
  simp [Session.next, hactive, hinbound]

theorem next_of_empty (hempty : session.inbound = []) :
    ∃ answer, session.next = (session, [session.entry (.answeredNext answer)]) ∧
      ∀ frame, answer ≠ .frame frame := by
  cases hactive : session.active with
  | none => exact ⟨.ended, by simp [Session.next, hactive], by simp⟩
  | some task =>
      have hinbound : task.inbound = [] := by simpa [inbound, hactive] using hempty
      refine ⟨if task.hasEnded then .ended else .pending, ?_, ?_⟩
      · simp [Session.next, hactive, hinbound]
      · intro frame
        split <;> simp

theorem next_delivers (hheld : session.tenure = .held) (hdelivers : session.Delivers box) :
    session.next.1.Delivers (box.note session (.request .next) session.next) := by
  cases hinbound : session.inbound with
  | nil =>
      obtain ⟨answer, heq, hanswer⟩ := next_of_empty hinbound
      have htaken : (Input.request .next).taken? [session.entry (.answeredNext answer)] = none := by
        cases answer with
        | frame frame => exact absurd rfl (hanswer frame)
        | _ => rfl
      rw [heq, note_of_rest rfl rfl htaken]
      exact hdelivers
  | cons frame rest =>
      obtain ⟨task, hactive, hqueue⟩ := active_of_inbound hinbound
      have hattended : task.attended = true := by simp [hdelivers.attended task hactive, hheld]
      have hholds := hdelivers.holds task hactive hattended
      rw [hqueue] at hholds
      rw [next_of_inbound hactive hqueue]
      have hnote : box.note session (.request .next)
          ({ session with active := some { task with inbound := rest } },
            [session.entry (.answeredNext (.frame frame))]) = box.take frame := by
        simp [Mailbox.note, begins, Input.isActivation, Input.arrival?, Input.taken?,
          Entry.taken?, entry]
      rw [hnote]
      refine ⟨hholds.take.first_taken, ?_, ?_⟩ <;> intro other hother <;>
        obtain rfl := Option.some.inj hother
      · exact fun _ => hholds.take
      · exact hdelivers.attended task hactive

theorem request_delivers (hheld : session.tenure = .held) (hdelivers : session.Delivers box)
    (request : Request) : (session.request request).1.Delivers
      (box.note session (.request request) (session.request request)) := by
  have hself (input : Input) (harrival : input.arrival? session.phase = none)
      (htaken : input.taken? [] = none) :
      session.Delivers (box.note session input (session, [])) := by
    rw [note_of_rest (by simp [begins]) harrival htaken]
    exact hdelivers
  cases request with
  | activate =>
      rcases session.activate_self_or_turns with heq | hturns
      · rw [Session.request, heq]
        exact hself _ rfl rfl
      · exact hturns.delivers rfl rfl (session.activate_owner.2.trans hheld) hdelivers
  | activateLate =>
      rcases session.activateLate_self_or_turns with heq | hturns
      · rw [Session.request, heq]
        exact hself _ rfl rfl
      · exact hturns.delivers rfl rfl (session.activateLate_owner.2.trans hheld) hdelivers
  | deactivate =>
      rw [Session.request, deactivate]
      cases hactive : session.active with
      | none => exact hself _ rfl rfl
      | some task =>
          rw [note_of_rest rfl rfl rfl]
          refine ⟨hdelivers.first, ?_, ?_⟩ <;> intro other hother <;>
            obtain rfl := Option.some.inj hother
          · exact hdelivers.holds task hactive
          · simpa [hheld] using hdelivers.attended task hactive
  | release =>
      rw [Session.request, release, note_of_rest rfl rfl rfl]
      refine ⟨hdelivers.first, ?_, ?_⟩ <;> intro other hother <;>
        obtain ⟨task, -, rfl⟩ := Option.map_eq_some_iff.mp hother
      · simp
      · simp
  | send frame =>
      rw [Session.request]
      rcases session.send_cases frame with ⟨answer, -, heq⟩ | ⟨task, hactive, heq⟩
      · rw [heq, note_of_rest rfl rfl rfl]
        exact hdelivers
      · rw [heq, note_of_rest rfl rfl rfl]
        refine ⟨hdelivers.first, ?_, ?_⟩ <;> intro other hother <;>
          obtain rfl := Option.some.inj hother
        · exact hdelivers.holds task hactive
        · exact hdelivers.attended task hactive
  | next => exact next_delivers hheld hdelivers

theorem move_delivers {task : Task} {p : Progress} (hactive : session.active = some task)
    (hphase : session.phase = task.point.phase) (hdelivers : session.Delivers box)
    (hmoves : Progress.Moves session.config ⟨session.now, session.phase, task, []⟩ input p) :
    Delivers { session with phase := p.phase, active := some p.task }
      (box.note session input
        ({ session with phase := p.phase, active := some p.task }, p.log)) := by
  obtain ⟨hinbound, hattended⟩ := hmoves.task hphase
  have hbegins : begins input p.log = false := by
    rw [begins, not_isActivation_of_moves hmoves, Bool.false_and]
  have htaken : input.taken? p.log = none := by cases hmoves <;> rfl
  cases harrival : input.arrival? session.phase with
  | none =>
      rw [note_of_rest hbegins harrival htaken]
      rw [harrival, Option.elim_none] at hinbound
      refine ⟨hdelivers.first, ?_, ?_⟩ <;> intro other hother <;>
        obtain rfl := Option.some.inj hother
      · rw [hinbound, hattended]
        exact hdelivers.holds task hactive
      · rw [hattended]
        exact hdelivers.attended task hactive
  | some frame =>
      have hnote : box.note session input
          ({ session with phase := p.phase, active := some p.task }, p.log) = box.arrive frame := by
        simp [Mailbox.note, hbegins, harrival, htaken]
      rw [hnote]
      rw [harrival, Option.elim_some] at hinbound
      refine ⟨Mailbox.first_taken_arrive hdelivers.first frame, ?_, ?_⟩ <;> intro other hother <;>
        obtain rfl := Option.some.inj hother
      · rw [hinbound, hattended]
        intro hattended
        have hread : task.attended = true := hattended
        have hholds := (hdelivers.holds task hactive hread).arrive frame
        simpa [Progress.received, hread] using hholds
      · rw [hattended]
        exact hdelivers.attended task hactive

theorem Steps.delivers (h : session.Steps input next more)
    (hphase : session.phase = session.standing) (hdelivers : session.Delivers box) :
    next.Delivers (box.note session input (next, more)) := by
  cases h with
  | request hheld => exact request_delivers hheld hdelivers _
  | reclaim hstopping hreclaim =>
      have hturns := reclaim?_turns hreclaim
      obtain ⟨task, -, -, heq⟩ := reclaim?_eq_some hreclaim
      obtain ⟨rfl, rfl⟩ := Prod.mk.inj heq
      exact hturns.delivers rfl rfl rfl hdelivers
  | elapse duration =>
      rw [note_of_rest rfl rfl rfl]
      exact ⟨hdelivers.first, hdelivers.holds, hdelivers.attended⟩
  | move hactive hmoves =>
      exact move_delivers hactive (phase_of_active hphase hactive) hdelivers hmoves

theorem delivers_of_run? {config : Config} {handlers : Handlers} {start : Session}
    {inputs : List Input} (hstart : ofConfig config handlers = .ok start)
    (hrun : start.run? inputs = some (session, log)) :
    session.Delivers (start.mailbox inputs) := by
  have hnew : start.Delivers {} := by
    obtain rfl := ofConfig_eq_ok hstart
    exact ⟨List.prefix_rfl, by simp, by simp⟩
  refine run?_induction (motive := fun inputs session _ => session.Delivers (start.mailbox inputs))
    hnew ?_ hrun
  intro inputs input session next log more hbefore h hstep
  rw [mailbox, observe_snoc _ _ hbefore hstep]
  exact (step?_steps hstep).delivers (disciplined_of_run? hstart hbefore).phase_eq h

/-! ## Answers and complaints -/

theorem complaint_of_connected {frame : Frame} (hphase : session.phase = session.standing)
    (hconnected : session.phase = .connected) (herror : frame.isError = true)
    (hsteps : session.Steps (.outcome (.event (.item (.frame frame)))) next more) :
    seen Entry.deed? more = [.report (.failed (.protocol (ServerError.ofFrame frame)))] ∧
      next.phase = .connected ∧ next.inbound = session.inbound := by
  cases hsteps with
  | @move _ task p hactive hmoves =>
      have hnow := phase_of_active hphase hactive
      cases hmoves with
      | answer hpoint =>
          have hat : task.point = .awaiting _ := hpoint
          simp [hnow, hat, Point.phase] at hconnected
      | hear hpoint =>
          simp only [Progress.hearLinked, herror, if_true]
          exact ⟨by simp, hconnected, by simp [inbound, hactive, Progress.report, Progress.goto,
            Progress.note]⟩

/--
Of an activation at any moment of a run, and also after its task has ended: the frames
that its owner took are the first of those that were let in, and the others are in the
queue until that is given up, with the first of them for the owner to take.  An ERROR
frame is reported instead, and leaves the session connected.
-/
theorem delivers_in_order {config : Config} {handlers : Handlers} {start : Session}
    {inputs : List Input} (hstart : ofConfig config handlers = .ok start)
    (hrun : start.run? inputs = some (session, log)) :
    (start.mailbox inputs).taken <+: (start.mailbox inputs).admitted ∧
    (session.active.isSome = true → session.tenure ≠ .released →
      (start.mailbox inputs).taken ++ session.inbound = (start.mailbox inputs).admitted) ∧
    (∀ frame rest, session.tenure = .held → session.inbound = frame :: rest →
      ∃ next, session.step? (.request .next) =
        some (next, [session.entry (.answeredNext (.frame frame))]) ∧ next.inbound = rest) ∧
    (∀ frame next more, session.phase = .connected → frame.isError = true →
      session.step? (.outcome (.event (.item (.frame frame)))) = some (next, more) →
      seen Entry.deed? more = [.report (.failed (.protocol (ServerError.ofFrame frame)))] ∧
        next.phase = .connected ∧ next.inbound = session.inbound) := by
  have hdelivers := delivers_of_run? hstart hrun
  refine ⟨hdelivers.first, ?_, ?_, ?_⟩
  · intro hsome hkept
    obtain ⟨task, hactive⟩ := Option.isSome_iff_exists.mp hsome
    have hqueue : session.inbound = task.inbound := by simp [inbound, hactive]
    rw [hqueue]
    exact hdelivers.holds task hactive ((hdelivers.attended task hactive).mpr hkept)
  · intro frame rest hheld hinbound
    obtain ⟨task, hactive, hqueue⟩ := active_of_inbound hinbound
    have hnext : session.step? (.request .next) = some session.next := by
      simp [step?, hheld, Session.request]
    rw [next_of_inbound hactive hqueue] at hnext
    exact ⟨_, hnext, rfl⟩
  · intro frame next more hconnected herror hstep
    exact complaint_of_connected (disciplined_of_run? hstart hrun).phase_eq hconnected herror
      (step?_steps hstep)

def flooded : List Input :=
  connecting ++
    List.replicate 257 (.outcome (.event (.item (.frame { command := "MESSAGE" })))) ++
    [.outcome (.event (.closed (.remote none ""))), .outcome .closed, .request .next]

theorem delivers_in_order_when_flooded :
    ∃ start session log, ofConfig plainConfig {} = .ok start ∧
      start.run? flooded = some (session, log) ∧ session.isBusy = false ∧
      (start.mailbox flooded).admitted.length = 256 ∧
      (start.mailbox flooded).taken.length = 1 ∧
      (start.mailbox flooded).taken ++ session.inbound = (start.mailbox flooded).admitted := by
  have hstart : ofConfig plainConfig {} = .ok (fresh plainConfig) := rfl
  have hrun : (((fresh plainConfig).run? flooded).map fun stepped =>
      (stepped.1.active.map Task.hasEnded, stepped.1.tenure)) = some (some true, .held) := by
    decide +kernel
  have hbox : (((fresh plainConfig).mailbox flooded).admitted.length,
      ((fresh plainConfig).mailbox flooded).taken.length) = (256, 1) := by
    decide +kernel
  obtain ⟨⟨session, log⟩, hrun, hresult⟩ := Option.map_eq_some_iff.mp hrun
  obtain ⟨hended, htenure⟩ := Prod.mk.inj hresult
  obtain ⟨task, hactive, hended⟩ := Option.map_eq_some_iff.mp hended
  obtain ⟨hadmitted, htaken⟩ := Prod.mk.inj hbox
  have hactive : session.active = some task := hactive
  have hkept : session.tenure ≠ .released := by simp_all
  obtain ⟨-, hqueue, -⟩ := delivers_in_order hstart hrun
  exact ⟨fresh plainConfig, session, log, hstart, hrun, isBusy_of_hasEnded hactive hended,
    hadmitted, htaken, hqueue (by simp [hactive]) hkept⟩

end Session

end Stomp
