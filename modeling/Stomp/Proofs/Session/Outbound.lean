import Stomp.Proofs.Session.Observers
import Stomp.Proofs.Session.Phases

/-!
# Frames for the broker

Frames that the owner queues are written while the session is connected, each one
taken from the front of the queue; nothing else that is written comes from there
(`Progress.Moves.draws`).
-/

namespace Stomp

/-! ## Frames in a log -/

@[simp] def Entry.queued? : Entry → Option Frame
  | ⟨_, _, .answeredSend frame .queued⟩ => some frame
  | _ => none

/-- The frame that was written while the session was connected. -/
@[simp] def Entry.drawn? : Entry → Option Frame
  | ⟨_, phase, .call (.send (.frame frame))⟩ => if phase = .connected then some frame else none
  | _ => none

/-! ## Moves of the task -/

namespace Progress

/-- What a task had in its queue is what it wrote from there and what it has left. -/
structure Draws (queue : List Frame) (p : Progress) : Prop where
  queue_eq : queue = seen Entry.drawn? p.log ++ p.task.outbound
  queued_eq : seen Entry.queued? p.log = []

section

variable {queue : List Frame} {p : Progress}

theorem Draws.note (h : p.Draws queue) (effect : Effect)
    (hdrawn : Entry.drawn? ⟨p.now, p.phase, effect⟩ = none)
    (hqueued : Entry.queued? ⟨p.now, p.phase, effect⟩ = none) : (p.note effect).Draws queue where
  queue_eq := by
    simp only [note_log, seen_append, seen_cons, seen_nil, hdrawn, Option.toList_none,
      List.append_nil]
    exact h.queue_eq
  queued_eq := by simp only [note_log, seen_append, seen_cons, seen_nil, hqueued, h.queued_eq]; rfl

theorem Draws.enter (h : p.Draws queue) (phase : Phase) : (p.enter phase).Draws queue :=
  let noted := h.note (.enter phase) rfl rfl
  ⟨noted.queue_eq, noted.queued_eq⟩

theorem Draws.report (h : p.Draws queue) (report : Report) : (p.report report).Draws queue :=
  let noted := h.note (.report report (p.task.handlers.hear report).2) rfl rfl
  ⟨noted.queue_eq, noted.queued_eq⟩

theorem Draws.goto (h : p.Draws queue) (point : Point) : (p.goto point).Draws queue :=
  ⟨h.queue_eq, h.queued_eq⟩

theorem Draws.close (h : p.Draws queue) (ending : Ending) : (p.close ending).Draws queue :=
  (h.note (.call .close) rfl rfl).goto _

theorem Draws.leave (h : p.Draws queue) (close : CloseInfo) : (p.leave close).Draws queue :=
  (h.enter _).close _

theorem Draws.lose (h : p.Draws queue) (fault : Fault) : (p.lose fault).Draws queue :=
  (h.report _).leave _

theorem Draws.recover (h : p.Draws queue) (panic : Panic) : (p.recover panic).Draws queue :=
  (h.enter _).close _

theorem Draws.send (h : p.Draws queue) (hphase : p.phase ≠ .connected) (frame : Frame) :
    (p.call (.send (.frame frame))).Draws queue :=
  h.note _ (if_neg hphase) rfl

theorem Draws.shutDown (h : p.Draws queue) (live : Bool) : (p.shutDown live).Draws queue := by
  cases live with
  | true => exact ((h.enter _).send Phase.noConfusion _).goto _
  | false => exact (h.enter _).close _

theorem Draws.connect (h : p.Draws queue) (info : ConnectedInfo) : (p.connect info).Draws queue :=
  ((h.enter _).report _).goto _

theorem Draws.proceed (h : p.Draws queue) (config : Config) (ending : Ending) :
    (p.proceed config ending).Draws queue := by
  cases ending with
  | refused fault =>
      simp only [Progress.proceed]
      split
      · exact (h.report _).goto _
      · exact ((h.report _).enter _).goto _
  | lost close =>
      simp only [Progress.proceed]
      split
      · exact (((h.report _).enter _).enter _).goto _
      · exact ((h.report _).enter _).goto _
  | shutdown => exact ((h.report _).enter _).goto _
  | panicked fault wasConnected =>
      cases wasConnected with
      | true => exact (((h.report _).report _).enter _).goto _
      | false => exact ((h.report _).enter _).goto _

theorem Draws.deliver (h : p.Draws queue) (frame : Frame) : (p.deliver frame).Draws queue := by
  unfold Progress.deliver
  split
  · exact ⟨h.queue_eq, h.queued_eq⟩
  · exact h

theorem Draws.hearAwaiting (h : p.Draws queue) (config : Config) (event : Event) :
    (p.hearAwaiting config event).Draws queue := by
  rcases p.hearAwaiting_cases config event with heq | ⟨info, heq⟩ | ⟨fault, heq⟩
  · rw [heq]
    exact h
  · rw [heq]
    exact h.connect info
  · rw [heq]
    exact h.close _

theorem Draws.hearLinked (h : p.Draws queue) (link : Link) (event : Event) :
    (p.hearLinked link event).Draws queue := by
  have hstay := h.goto (.linked { link with lastReceived := p.now })
  rcases p.hearLinked_cases link event with
    heq | ⟨fault, heq⟩ | ⟨frame, heq⟩ | ⟨fault, heq⟩ | ⟨close, heq⟩
  · rw [heq]
    exact hstay
  · rw [heq]
    exact hstay.report _
  · rw [heq]
    exact hstay.deliver frame
  · rw [heq]
    exact hstay.lose fault
  · rw [heq]
    exact hstay.leave close

theorem draws_take {link : Link} {frame : Frame} {rest : List Frame}
    (hlog : p.log = []) (hphase : p.phase = .connected) (hqueue : p.task.outbound = frame :: rest) :
    ({ p with task := { p.task with outbound := rest } }.write link (.frame frame)).Draws
      p.task.outbound := by
  have hwritten : ({ p with task := { p.task with outbound := rest } }.write link
      (.frame frame)).log = [⟨p.now, .connected, .call (.send (.frame frame))⟩] := by
    rw [write, goto_log, call_log, hlog, hphase]
    rfl
  constructor
  · rw [hwritten, hqueue]
    rfl
  · rw [hwritten]
    rfl

theorem Draws.start (hlog : p.log = []) : p.Draws p.task.outbound := by
  constructor
  · rw [hlog]
    rfl
  · rw [hlog]
    rfl

theorem Moves.draws {config : Config} {input : Input} {p' : Progress}
    (h : Moves config p input p') (hlog : p.log = []) (hphase : p.phase = p.task.point.phase) :
    p'.Draws p.task.outbound := by
  have hstart := Draws.start hlog
  cases h with
  | start => exact (hstart.enter _).goto _
  | dial => exact (hstart.note (.call (.connect config.url)) rfl rfl).goto _
  | abandon => exact hstart.shutDown false
  | part => exact hstart.shutDown true
  | timeout => exact hstart.close _
  | take hpoint hqueue => exact draws_take hlog (by rw [hphase, hpoint]; rfl) hqueue
  | unattended => exact hstart.shutDown true
  | beat => exact (hstart.note (.call (.send .heartbeat)) rfl rfl).goto _
  | watchdog => exact hstart.lose _
  | resume => exact (hstart.enter _).goto _
  | opened hpoint =>
      have hne : p.phase ≠ .connected := by rw [hphase, hpoint]; exact Phase.noConfusion
      exact (hstart.send hne _).goto _
  | unopened => exact hstart.close _
  | greeted => exact hstart.goto _
  | ungreeted => exact hstart.close _
  | answer => exact hstart.hearAwaiting config _
  | hear => exact hstart.hearLinked _ _
  | written => exact hstart.goto _
  | unwritten => exact hstart.lose _
  | parted => exact hstart.close _
  | closed => exact hstart.proceed config _
  | panic => exact hstart.recover _
  | death => exact hstart.goto _

end

end Progress

end Stomp
