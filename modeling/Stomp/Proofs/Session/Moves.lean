import Stomp.Session.Handle

/-!
# Moves of a task

Everything that a task can do in one step, each way with the point it leaves and
what makes it possible (`Progress.branch?_moves`, `Progress.outcome?_moves`).
-/

namespace Stomp

def Point.containsPanic : Point → Bool
  | .opening | .greeting | .awaiting _ | .linked _ | .writing _ | .parting => true
  | .closing (.panicked _ _) => false
  | .closing _ => true
  | .ready | .dialing | .pausing _ | .finished | .died => false

namespace Progress

@[simp] theorem note_log (p : Progress) (effect : Effect) :
    (p.note effect).log = p.log ++ [⟨p.now, p.phase, effect⟩] := rfl

@[simp] theorem call_log (p : Progress) (call : Call) :
    (p.call call).log = p.log ++ [⟨p.now, p.phase, .call call⟩] := rfl

@[simp] theorem goto_log (p : Progress) (point : Point) : (p.goto point).log = p.log := rfl

@[simp] theorem enter_log (p : Progress) (phase : Phase) :
    (p.enter phase).log = p.log ++ [⟨p.now, p.phase, .enter phase⟩] := rfl

@[simp] theorem report_log (p : Progress) (report : Report) :
    (p.report report).log =
      p.log ++ [⟨p.now, p.phase, .report report (p.task.handlers.hear report).2⟩] := rfl

@[simp] theorem deliver_log (p : Progress) (frame : Frame) : (p.deliver frame).log = p.log := by
  unfold deliver
  split <;> rfl

@[simp] theorem close_log (p : Progress) (ending : Ending) :
    (p.close ending).log = p.log ++ [⟨p.now, p.phase, .call .close⟩] := rfl

@[simp] theorem write_log (p : Progress) (link : Link) (item : Wire.Item) :
    (p.write link item).log = p.log ++ [⟨p.now, p.phase, .call (.send item)⟩] := rfl

@[simp] theorem begin_log (p : Progress) :
    p.begin.log = p.log ++ [⟨p.now, p.phase, .enter .connecting⟩] := rfl

@[simp] theorem leave_log (p : Progress) (close : CloseInfo) :
    (p.leave close).log =
      p.log ++ [⟨p.now, p.phase, .enter .disconnecting⟩, ⟨p.now, .disconnecting, .call .close⟩] :=
  List.append_assoc ..

@[simp] theorem lose_log (p : Progress) (fault : Fault) :
    (p.lose fault).log = (p.report (.failed fault)).log ++
      [⟨p.now, p.phase, .enter .disconnecting⟩, ⟨p.now, .disconnecting, .call .close⟩] :=
  List.append_assoc ..

@[simp] theorem recover_log (p : Progress) (panic : Panic) :
    (p.recover panic).log =
      p.log ++ [⟨p.now, p.phase, .enter .disconnecting⟩, ⟨p.now, .disconnecting, .call .close⟩] :=
  List.append_assoc ..

@[simp] theorem shutDown_log (p : Progress) (live : Bool) :
    (p.shutDown live).log = p.log ++ [⟨p.now, p.phase, .enter .disconnecting⟩,
      ⟨p.now, .disconnecting,
        .call (if live then .send (.frame disconnectFrame) else .close)⟩] := by
  cases live with
  | true => exact List.append_assoc ..
  | false => exact List.append_assoc ..

@[simp] theorem connect_log (p : Progress) (info : ConnectedInfo) :
    (p.connect info).log = p.log ++ [⟨p.now, p.phase, .enter .connected⟩,
      ⟨p.now, .connected,
        .report (.connected info) (p.task.handlers.hear (.connected info)).2⟩] :=
  List.append_assoc ..

@[simp] theorem goto_point (p : Progress) (point : Point) : (p.goto point).task.point = point := rfl

@[simp] theorem close_point (p : Progress) (ending : Ending) :
    (p.close ending).task.point = .closing ending := rfl

@[simp] theorem leave_point (p : Progress) (close : CloseInfo) :
    (p.leave close).task.point = .closing (.lost close) := rfl

@[simp] theorem lose_point (p : Progress) (fault : Fault) :
    (p.lose fault).task.point = .closing (.lost (.failed fault.message)) := rfl

@[simp] theorem begin_point (p : Progress) : p.begin.task.point = .dialing := rfl

@[simp] theorem connect_point (p : Progress) (info : ConnectedInfo) :
    (p.connect info).task.point = .linked ⟨info, p.now, p.now⟩ := rfl

@[simp] theorem write_point (p : Progress) (link : Link) (item : Wire.Item) :
    (p.write link item).task.point = .writing link := rfl

@[simp] theorem recover_point (p : Progress) (panic : Panic) :
    (p.recover panic).task.point =
      .closing (.panicked (panicFault panic) (p.phase == .connected)) := rfl

@[simp] theorem report_point (p : Progress) (report : Report) :
    (p.report report).task.point = p.task.point := rfl

@[simp] theorem deliver_point (p : Progress) (frame : Frame) :
    (p.deliver frame).task.point = p.task.point := by
  unfold deliver
  split <;> rfl

theorem proceed_point (p : Progress) (config : Config) (ending : Ending) :
    (p.proceed config ending).task.point = .finished ∨
      ∃ wake, (p.proceed config ending).task.point = .pausing wake := by
  cases ending with
  | refused fault => by_cases h : config.reconnects = true <;> simp [proceed, pause, h]
  | lost close => by_cases h : config.reconnects = true <;> simp [proceed, pause, h]
  | shutdown => exact .inl rfl
  | panicked fault wasConnected => exact .inl rfl

/-! ## Ways on -/

/-- One step of a task, with the input that caused it. -/
inductive Moves (config : Config) (p : Progress) : Input → Progress → Prop
  | start (hpoint : p.task.point = .ready) : Moves config p (.branch .start) p.begin
  | dial (hpoint : p.task.point = .dialing) :
      Moves config p (.branch .dial) ((p.call (.connect config.url)).goto .opening)
  | abandon (hpoint : p.task.point = .dialing ∨ p.task.point = .opening ∨
        (∃ deadline, p.task.point = .awaiting deadline) ∨ ∃ wake, p.task.point = .pausing wake)
      (hcancelled : p.task.cancelled = true) :
      Moves config p (.branch .cancel) (p.shutDown false)
  | part {link : Link} (hpoint : p.task.point = .linked link)
      (hcancelled : p.task.cancelled = true) :
      Moves config p (.branch .cancel) (p.shutDown true)
  | timeout {deadline : Option Instant} (hpoint : p.task.point = .awaiting deadline)
      (hdue : p.isDue deadline = true) :
      Moves config p (.branch .timeout)
        (p.close (.refused (unansweredFault config.handshakeTimeout)))
  | take {link : Link} {frame : Frame} {rest : List Frame}
      (hpoint : p.task.point = .linked link) (hqueue : p.task.outbound = frame :: rest) :
      Moves config p (.branch .take)
        ({ p with task := { p.task with outbound := rest } }.write link (.frame frame))
  | unattended {link : Link} (hpoint : p.task.point = .linked link)
      (hqueue : p.task.outbound = []) (hattended : p.task.attended = false) :
      Moves config p (.branch .take) (p.shutDown true)
  | beat {link : Link} (hpoint : p.task.point = .linked link)
      (hdue : p.isDue link.beatDue? = true) :
      Moves config p (.branch .beat) (p.write link .heartbeat)
  | watchdog {link : Link} (hpoint : p.task.point = .linked link)
      (hdue : p.isDue link.silentAt? = true) :
      Moves config p (.branch .watchdog) (p.lose (silenceFault link))
  | resume {wake : Instant} (hpoint : p.task.point = .pausing wake)
      (hdue : p.isDue wake = true) : Moves config p (.branch .resume) p.begin
  | opened (hpoint : p.task.point = .opening) :
      Moves config p (.outcome (.opened (.ok ())))
        ((p.call (.send (.frame config.connectFrame))).goto .greeting)
  | unopened {fault : Fault} (hpoint : p.task.point = .opening) :
      Moves config p (.outcome (.opened (.error fault))) (p.close (.refused fault))
  | greeted (hpoint : p.task.point = .greeting) :
      Moves config p (.outcome (.sent (.ok ()))) (p.goto (.awaiting (p.deadline? config)))
  | ungreeted {fault : Fault} (hpoint : p.task.point = .greeting) :
      Moves config p (.outcome (.sent (.error fault))) (p.close (.refused fault))
  | answer {deadline : Option Instant} {event : Event}
      (hpoint : p.task.point = .awaiting deadline) :
      Moves config p (.outcome (.event event)) (p.hearAwaiting config event)
  | hear {link : Link} {event : Event} (hpoint : p.task.point = .linked link) :
      Moves config p (.outcome (.event event)) (p.hearLinked link event)
  | written {link : Link} (hpoint : p.task.point = .writing link) :
      Moves config p (.outcome (.sent (.ok ())))
        (p.goto (.linked { link with lastSent := p.now }))
  | unwritten {link : Link} {fault : Fault} (hpoint : p.task.point = .writing link) :
      Moves config p (.outcome (.sent (.error fault))) (p.lose fault)
  | parted {result : Except Fault Unit} (hpoint : p.task.point = .parting) :
      Moves config p (.outcome (.sent result)) (p.close .shutdown)
  | closed {ending : Ending} (hpoint : p.task.point = .closing ending) :
      Moves config p (.outcome .closed) (p.proceed config ending)
  | panic {panic : Panic} (hpoint : p.task.point.containsPanic = true) :
      Moves config p (.outcome (.panicked panic)) (p.recover panic)
  | death {panic : Panic} {fault : Fault} {wasConnected : Bool}
      (hpoint : p.task.point = .closing (.panicked fault wasConnected)) :
      Moves config p (.outcome (.panicked panic)) (p.goto .died)

theorem takeOutbound?_moves {config : Config} {p p' : Progress} {link : Link}
    (hpoint : p.task.point = .linked link) (h : p.takeOutbound? link = some p') :
    Moves config p (.branch .take) p' := by
  unfold takeOutbound? at h
  split at h
  · rename_i frame rest hqueue
    obtain rfl := Option.some.inj h
    exact .take hpoint hqueue
  · rename_i hqueue
    split at h
    · simp at h
    · rename_i hattended
      obtain rfl := Option.some.inj h
      exact .unattended hpoint hqueue (by simpa using hattended)

theorem of_guarded {p p' : Progress} {condition : Prop} [Decidable condition]
    (h : (if condition then some p else none) = some p') : condition ∧ p = p' := by
  obtain ⟨hcondition, hsome⟩ := Option.ite_none_right_eq_some.mp h
  exact ⟨hcondition, Option.some.inj hsome⟩

theorem branch?_moves {config : Config} {p p' : Progress} {branch : Branch}
    (h : p.branch? config branch = some p') : Moves config p (.branch branch) p' := by
  unfold branch? at h
  split at h <;> rename_i hpoint
  · obtain rfl := Option.some.inj h
    exact .start hpoint
  · obtain rfl := Option.some.inj h
    exact .dial hpoint
  · obtain ⟨hcancelled, rfl⟩ := of_guarded h
    exact .abandon (.inl hpoint) hcancelled
  · obtain ⟨hcancelled, rfl⟩ := of_guarded h
    exact .abandon (.inr (.inl hpoint)) hcancelled
  · obtain ⟨hcancelled, rfl⟩ := of_guarded h
    exact .abandon (.inr (.inr (.inl ⟨_, hpoint⟩))) hcancelled
  · obtain ⟨hcancelled, rfl⟩ := of_guarded h
    exact .part hpoint hcancelled
  · obtain ⟨hcancelled, rfl⟩ := of_guarded h
    exact .abandon (.inr (.inr (.inr ⟨_, hpoint⟩))) hcancelled
  · obtain ⟨hdue, rfl⟩ := of_guarded h
    exact .timeout hpoint hdue
  · exact takeOutbound?_moves hpoint h
  · obtain ⟨hdue, rfl⟩ := of_guarded h
    exact .beat hpoint hdue
  · obtain ⟨hdue, rfl⟩ := of_guarded h
    exact .watchdog hpoint hdue
  · obtain ⟨hdue, rfl⟩ := of_guarded h
    exact .resume hpoint hdue
  · simp at h

theorem panic?_moves {config : Config} {p p' : Progress} {panic : Panic}
    (h : p.panic? panic = some p') : Moves config p (.outcome (.panicked panic)) p' := by
  cases hcontains : p.task.point.containsPanic with
  | true =>
      have hrecover : p' = p.recover panic := by
        unfold panic? at h
        split at h <;> simp_all [Point.containsPanic]
      subst hrecover
      exact .panic hcontains
  | false =>
      unfold panic? at h
      split at h <;> rename_i hpoint
      case h_7 =>
        obtain rfl := Option.some.inj h
        exact .death hpoint
      all_goals simp_all [Point.containsPanic]

theorem outcome?_moves {config : Config} {p p' : Progress} {outcome : Outcome}
    (h : p.outcome? config outcome = some p') : Moves config p (.outcome outcome) p' := by
  unfold outcome? at h
  split at h <;> rename_i hpoint
  · obtain rfl := Option.some.inj h
    exact .opened hpoint
  · obtain rfl := Option.some.inj h
    exact .unopened hpoint
  · obtain rfl := Option.some.inj h
    exact .greeted hpoint
  · obtain rfl := Option.some.inj h
    exact .ungreeted hpoint
  · obtain rfl := Option.some.inj h
    exact .answer hpoint
  · obtain rfl := Option.some.inj h
    exact .hear hpoint
  · obtain rfl := Option.some.inj h
    exact .written hpoint
  · obtain rfl := Option.some.inj h
    exact .unwritten hpoint
  · obtain rfl := Option.some.inj h
    exact .parted hpoint
  · obtain rfl := Option.some.inj h
    exact .closed hpoint
  · exact panic?_moves h
  · simp at h

theorem Moves.of_closing {config : Config} {p p' : Progress} {input : Input} {ending : Ending}
    (h : Moves config p input p') (hclosing : p.task.point = .closing ending) :
    input = .outcome .closed ∧ p' = p.proceed config ending ∨
      ∃ panic, input = .outcome (.panicked panic) := by
  cases h with
  | closed hpoint =>
      obtain rfl := Point.closing.inj (hclosing.symm.trans hpoint)
      exact .inl ⟨rfl, rfl⟩
  | panic hpoint => exact .inr ⟨_, rfl⟩
  | death hpoint => exact .inr ⟨_, rfl⟩
  | _ => simp_all

/-! ## What is heard -/

theorem hearAwaiting_cases (p : Progress) (config : Config) (event : Event) :
    p.hearAwaiting config event = p ∨
      (∃ info, p.hearAwaiting config event = p.connect info) ∨
      ∃ fault, p.hearAwaiting config event = p.close (.refused fault) := by
  unfold hearAwaiting
  split
  · exact .inl rfl
  · split
    · split
      · exact .inr (.inl ⟨_, rfl⟩)
      · exact .inr (.inr ⟨_, rfl⟩)
    split
    · exact .inr (.inr ⟨_, rfl⟩)
    · exact .inl rfl
  · exact .inr (.inr ⟨_, rfl⟩)
  · exact .inr (.inr ⟨_, rfl⟩)

theorem hearLinked_cases (p : Progress) (link : Link) (event : Event) :
    let q := p.goto (.linked { link with lastReceived := p.now })
    p.hearLinked link event = q ∨
      (∃ fault, p.hearLinked link event = q.report (.failed fault)) ∨
      (∃ frame, p.hearLinked link event = q.deliver frame) ∨
      (∃ fault, p.hearLinked link event = q.lose fault) ∨
      ∃ close, p.hearLinked link event = q.leave close := by
  unfold hearLinked
  cases event with
  | item item =>
      cases item with
      | heartbeat => exact .inl rfl
      | frame frame =>
          simp only
          split
          · exact .inr (.inl ⟨_, rfl⟩)
          · exact .inr (.inr (.inl ⟨_, rfl⟩))
  | failed fault => exact .inr (.inr (.inr (.inl ⟨_, rfl⟩)))
  | closed close => exact .inr (.inr (.inr (.inr ⟨_, rfl⟩)))

theorem hearAwaiting_point (p : Progress) (config : Config) (event : Event) :
    (p.hearAwaiting config event).task.point = p.task.point ∨
      (∃ link, (p.hearAwaiting config event).task.point = .linked link) ∨
      ∃ fault, (p.hearAwaiting config event).task.point = .closing (.refused fault) := by
  rcases p.hearAwaiting_cases config event with heq | ⟨info, heq⟩ | ⟨fault, heq⟩
  · exact .inl (by rw [heq])
  · exact .inr (.inl ⟨⟨info, p.now, p.now⟩, by rw [heq, connect_point]⟩)
  · exact .inr (.inr ⟨fault, by rw [heq, close_point]⟩)

theorem hearLinked_point (p : Progress) (link : Link) (event : Event) :
    (p.hearLinked link event).task.point = .linked { link with lastReceived := p.now } ∨
      ∃ close, (p.hearLinked link event).task.point = .closing (.lost close) := by
  rcases p.hearLinked_cases link event with
    heq | ⟨fault, heq⟩ | ⟨frame, heq⟩ | ⟨fault, heq⟩ | ⟨close, heq⟩
  · exact .inl (by rw [heq, goto_point])
  · exact .inl (by rw [heq, report_point, goto_point])
  · exact .inl (by rw [heq, deliver_point, goto_point])
  · exact .inr ⟨.failed fault.message, by rw [heq, lose_point]⟩
  · exact .inr ⟨close, by rw [heq, leave_point]⟩

end Progress

end Stomp
