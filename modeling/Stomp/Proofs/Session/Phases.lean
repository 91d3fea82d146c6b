import Stomp.Proofs.Session.Runs

/-!
# Phases

The phase of a session is that of the point where its task stands, and everything
a task does it does in its phase (`Progress.Moves.arrived`).
-/

namespace Stomp

/-! ## The phase of a point -/

def Ending.phase : Ending → Phase
  | .refused _ => .connecting
  | .lost _ | .shutdown | .panicked _ _ => .disconnecting

def Point.phase : Point → Phase
  | .ready | .dialing | .opening | .greeting | .awaiting _ | .pausing _ => .connecting
  | .linked _ | .writing _ => .connected
  | .parting | .died => .disconnecting
  | .closing ending => ending.phase
  | .finished => .idle

theorem Point.phase_ne_idle {point : Point} (h : point.containsPanic = true) :
    point.phase ≠ .idle := by
  cases point with
  | closing ending => cases ending <;> exact Phase.noConfusion
  | ready => simp [containsPanic] at h
  | dialing => simp [containsPanic] at h
  | pausing wake => simp [containsPanic] at h
  | finished => simp [containsPanic] at h
  | died => simp [containsPanic] at h
  | _ => exact Phase.noConfusion

/-- Without a task a session is idle, unless it gave up one that died: it stays where that ended. -/
def Session.rest (session : Session) : Phase :=
  if session.parts.isNone && session.phase == .disconnecting then .disconnecting else .idle

/-- The phase in which a session has to be for what its task is at. -/
def Session.standing (session : Session) : Phase :=
  session.active.elim session.rest (·.point.phase)

/-! ## What may happen in a phase -/

def Phase.mayBecome : Phase → Phase → Bool
  | .idle, .connecting => true
  | .connecting, .connected => true
  | .connecting, .disconnecting => true
  | .connecting, .idle => true
  | .connected, .disconnecting => true
  | .disconnecting, .idle => true
  | _, _ => false

def Phase.MaySend (config : Config) : Phase → Wire.Item → Prop
  | .connecting, item => item = .frame config.connectFrame
  | .connected, _ => True
  | .disconnecting, item => item = .frame Progress.disconnectFrame
  | .idle, _ => False

def Effect.Allowed (config : Config) (phase : Phase) : Effect → Prop
  | .enter next => phase = next ∨ phase.mayBecome next = true
  | .call (.connect url) => phase = .connecting ∧ url = config.url
  | .call (.send item) => phase.MaySend config item
  | .call .close => phase = .connecting ∨ phase = .disconnecting
  | .report (.connected _) _ => phase = .connected
  | .report (.disconnected _) _ => phase = .disconnecting
  | .report (.failed _) _ => phase ≠ .idle
  | .answeredSend _ _ | .answeredNext _ => True

def Entry.next (entry : Entry) : Phase :=
  match entry.effect with
  | .enter phase => phase
  | _ => entry.phase

/--
A log that leads from one phase to another: each entry is made in the phase to
which those before it led, and what happened may happen there.
-/
def Orderly (config : Config) : Phase → List Entry → Phase → Prop
  | first, [], last => first = last
  | first, entry :: log, last =>
      entry.phase = first ∧ entry.effect.Allowed config first ∧ Orderly config entry.next log last

theorem Orderly.append {config : Config} {first middle last : Phase} {log more : List Entry}
    (h : Orderly config first log middle) (h' : Orderly config middle more last) :
    Orderly config first (log ++ more) last := by
  induction log generalizing first with
  | nil =>
      obtain rfl : first = middle := h
      exact h'
  | cons entry log ih =>
      obtain ⟨hphase, hallowed, hrest⟩ := h
      exact ⟨hphase, hallowed, ih hrest⟩

theorem Orderly.allowed {config : Config} {first last : Phase} {log : List Entry}
    (h : Orderly config first log last) :
    ∀ entry ∈ log, entry.effect.Allowed config entry.phase := by
  induction log generalizing first with
  | nil => exact fun _ hmem => absurd hmem List.not_mem_nil
  | cons head log ih =>
      obtain ⟨hphase, hallowed, hrest⟩ := h
      intro entry hmem
      rcases List.mem_cons.mp hmem with rfl | hmem
      · rwa [hphase]
      · exact ih hrest entry hmem

theorem Entry.IsAnswer.keeps {entry : Entry} (h : entry.IsAnswer) (config : Config)
    (phase : Phase) : entry.effect.Allowed config phase ∧ entry.next = entry.phase := by
  obtain ⟨time, made, effect⟩ := entry
  cases effect with
  | answeredSend frame answer => exact ⟨trivial, rfl⟩
  | answeredNext answer => exact ⟨trivial, rfl⟩
  | _ => exact absurd h not_false

theorem orderly_of_answers {config : Config} {phase : Phase} {log : List Entry}
    (h : ∀ entry ∈ log, entry.phase = phase ∧ entry.IsAnswer) :
    Orderly config phase log phase := by
  induction log with
  | nil => rfl
  | cons entry log ih =>
      obtain ⟨hphase, hanswer⟩ := h entry List.mem_cons_self
      obtain ⟨hallowed, hnext⟩ := hanswer.keeps config phase
      refine ⟨hphase, hallowed, ?_⟩
      rw [hnext, hphase]
      exact ih fun other hmem => h other (List.mem_cons_of_mem entry hmem)

/-! ## Steps of a task -/

namespace Progress

def InOrder (config : Config) (first : Phase) (p : Progress) : Prop :=
  Orderly config first p.log p.phase

structure Arrived (config : Config) (first : Phase) (p : Progress) : Prop where
  inOrder : p.InOrder config first
  phase_eq : p.phase = p.task.point.phase

section

variable {config : Config} {first : Phase} {p : Progress}

theorem InOrder.call (h : p.InOrder config first) (call : Call)
    (hallowed : Effect.Allowed config p.phase (.call call)) :
    (p.call call).InOrder config first :=
  Orderly.append h ⟨rfl, hallowed, rfl⟩

theorem InOrder.reportConnected (h : p.InOrder config first) (hphase : p.phase = .connected)
    (info : ConnectedInfo) : (p.report (.connected info)).InOrder config first :=
  Orderly.append h ⟨rfl, hphase, rfl⟩

theorem InOrder.reportDisconnected (h : p.InOrder config first)
    (hphase : p.phase = .disconnecting) (close : CloseInfo) :
    (p.report (.disconnected close)).InOrder config first :=
  Orderly.append h ⟨rfl, hphase, rfl⟩

theorem InOrder.reportFailed (h : p.InOrder config first) (hphase : p.phase ≠ .idle)
    (fault : Fault) : (p.report (.failed fault)).InOrder config first :=
  Orderly.append h ⟨rfl, hphase, rfl⟩

theorem InOrder.enter (h : p.InOrder config first) {phase : Phase}
    (hmay : p.phase.mayBecome phase = true) : (p.enter phase).InOrder config first :=
  Orderly.append h ⟨rfl, .inr hmay, rfl⟩

theorem InOrder.goto (h : p.InOrder config first) {point : Point}
    (hphase : p.phase = point.phase) : (p.goto point).Arrived config first :=
  ⟨h, hphase⟩

theorem InOrder.close (h : p.InOrder config first) {ending : Ending}
    (hphase : p.phase = ending.phase) : (p.close ending).Arrived config first := by
  refine (h.call _ ?_).goto hphase
  rw [hphase]
  cases ending with
  | refused fault => exact .inl rfl
  | lost close => exact .inr rfl
  | shutdown => exact .inr rfl
  | panicked fault wasConnected => exact .inr rfl

theorem InOrder.leave (h : p.InOrder config first) (hphase : p.phase = .connected)
    (close : CloseInfo) : (p.leave close).Arrived config first :=
  (h.enter (by rw [hphase]; rfl)).close rfl

theorem InOrder.lose (h : p.InOrder config first) (hphase : p.phase = .connected)
    (fault : Fault) : (p.lose fault).Arrived config first := by
  have hreport := h.reportFailed (by rw [hphase]; exact Phase.noConfusion) fault
  exact hreport.leave hphase _

theorem InOrder.shutDown (h : p.InOrder config first)
    (hphase : p.phase = .connecting ∨ p.phase = .connected) (live : Bool) :
    (p.shutDown live).Arrived config first := by
  have henter : (p.enter .disconnecting).InOrder config first := by
    refine h.enter ?_
    rcases hphase with hphase | hphase <;> rw [hphase] <;> rfl
  cases live with
  | true =>
      exact (henter.call (.send (.frame disconnectFrame)) rfl).goto rfl
  | false => exact henter.close rfl

theorem InOrder.enter_again (h : p.InOrder config first) :
    (p.enter p.phase).InOrder config first :=
  Orderly.append h ⟨rfl, .inl rfl, rfl⟩

theorem InOrder.recover (h : p.InOrder config first) (hphase : p.phase ≠ .idle)
    (panic : Panic) : (p.recover panic).Arrived config first := by
  have henter : (p.enter .disconnecting).InOrder config first := by
    cases hnow : p.phase with
    | idle => exact absurd hnow hphase
    | connecting => exact h.enter (by rw [hnow]; rfl)
    | connected => exact h.enter (by rw [hnow]; rfl)
    | disconnecting =>
        rw [← hnow]
        exact h.enter_again
  exact henter.close rfl

theorem InOrder.begin (h : p.InOrder config first) (hphase : p.phase = .connecting) :
    p.begin.Arrived config first := by
  have henter : (p.enter .connecting).InOrder config first := by
    rw [← hphase]
    exact h.enter_again
  exact henter.goto rfl

theorem InOrder.connect (h : p.InOrder config first) (hphase : p.phase = .connecting)
    (info : ConnectedInfo) : (p.connect info).Arrived config first := by
  have henter : (p.enter .connected).InOrder config first := h.enter (by rw [hphase]; rfl)
  exact (henter.reportConnected rfl info).goto rfl

theorem InOrder.write (h : p.InOrder config first) (hphase : p.phase = .connected)
    (link : Link) (item : Wire.Item) : (p.write link item).Arrived config first := by
  refine (h.call _ ?_).goto hphase
  rw [hphase]
  trivial

theorem InOrder.proceed (h : p.InOrder config first) {ending : Ending}
    (hphase : p.phase = ending.phase) : (p.proceed config ending).Arrived config first := by
  have hne : p.phase ≠ .idle := by
    rw [hphase]
    cases ending <;> exact Phase.noConfusion
  have hmay : p.phase.mayBecome .idle = true := by
    rw [hphase]
    cases ending <;> rfl
  cases ending with
  | refused fault =>
      have hreport := h.reportFailed hne fault
      simp only [Progress.proceed]
      split
      · exact hreport.goto hphase
      · exact (hreport.enter hmay).goto rfl
  | lost close =>
      have hidle := (h.reportDisconnected hphase close).enter hmay
      simp only [Progress.proceed]
      split
      · exact (hidle.enter rfl).goto rfl
      · exact hidle.goto rfl
  | shutdown => exact ((h.reportDisconnected hphase .deactivated).enter hmay).goto rfl
  | panicked fault wasConnected =>
      have hreport := h.reportFailed hne fault
      cases wasConnected with
      | false => exact (hreport.enter hmay).goto rfl
      | true => exact ((hreport.reportDisconnected hphase _).enter hmay).goto rfl

theorem Arrived.phase_at (h : p.Arrived config first) {point : Point}
    (hpoint : p.task.point = point) : p.phase = point.phase := by
  rw [h.phase_eq, hpoint]

theorem Arrived.deliver (h : p.Arrived config first) (frame : Frame) :
    (p.deliver frame).Arrived config first := by
  unfold Progress.deliver
  split
  · exact ⟨h.inOrder, h.phase_eq⟩
  · exact h

theorem Arrived.hearAwaiting (h : p.Arrived config first) {deadline : Option Instant}
    (hpoint : p.task.point = .awaiting deadline) (event : Event) :
    (p.hearAwaiting config event).Arrived config first := by
  have hphase : p.phase = .connecting := h.phase_at hpoint
  rcases p.hearAwaiting_cases config event with heq | ⟨info, heq⟩ | ⟨fault, heq⟩
  · rw [heq]
    exact h
  · rw [heq]
    exact h.inOrder.connect hphase info
  · rw [heq]
    exact h.inOrder.close hphase

theorem Arrived.hearLinked (h : p.Arrived config first) {link : Link}
    (hpoint : p.task.point = .linked link) (event : Event) :
    (p.hearLinked link event).Arrived config first := by
  have hphase : p.phase = .connected := h.phase_at hpoint
  have hstay : (p.goto (.linked { link with lastReceived := p.now })).Arrived config first :=
    h.inOrder.goto hphase
  rcases p.hearLinked_cases link event with
    heq | ⟨fault, heq⟩ | ⟨frame, heq⟩ | ⟨fault, heq⟩ | ⟨close, heq⟩
  · rw [heq]
    exact hstay
  · rw [heq]
    have hne : p.phase ≠ .idle := by rw [hphase]; exact Phase.noConfusion
    exact ⟨hstay.inOrder.reportFailed hne fault, hphase⟩
  · rw [heq]
    exact hstay.deliver frame
  · rw [heq]
    exact hstay.inOrder.lose hphase fault
  · rw [heq]
    exact hstay.inOrder.leave hphase close

theorem Moves.arrived {input : Input} {p' : Progress} (h : Moves config p input p')
    (hp : p.Arrived config first) : p'.Arrived config first := by
  have hin := hp.inOrder
  cases h with
  | start hpoint => exact hin.begin (hp.phase_at hpoint)
  | dial hpoint =>
      have hphase := hp.phase_at hpoint
      exact (hin.call (.connect config.url) ⟨hphase, rfl⟩).goto hphase
  | abandon hpoint =>
      refine hin.shutDown (.inl ?_) false
      rcases hpoint with hpoint | hpoint | ⟨deadline, hpoint⟩ | ⟨wake, hpoint⟩
      · exact hp.phase_at hpoint
      · exact hp.phase_at hpoint
      · exact hp.phase_at hpoint
      · exact hp.phase_at hpoint
  | part hpoint => exact hin.shutDown (.inr (hp.phase_at hpoint)) true
  | timeout hpoint => exact hin.close (hp.phase_at hpoint)
  | @take link frame rest hpoint hqueue =>
      have hleft : InOrder config first { p with task := { p.task with outbound := rest } } := hin
      exact hleft.write (hp.phase_at hpoint) link (.frame frame)
  | unattended hpoint => exact hin.shutDown (.inr (hp.phase_at hpoint)) true
  | beat hpoint => exact hin.write (hp.phase_at hpoint) _ _
  | watchdog hpoint => exact hin.lose (hp.phase_at hpoint) _
  | resume hpoint => exact hin.begin (hp.phase_at hpoint)
  | opened hpoint =>
      have hphase := hp.phase_at hpoint
      refine (hin.call (.send (.frame config.connectFrame)) ?_).goto hphase
      rw [hphase]
      rfl
  | unopened hpoint => exact hin.close (hp.phase_at hpoint)
  | greeted hpoint =>
      have hphase := hp.phase_at hpoint
      exact hin.goto hphase
  | ungreeted hpoint => exact hin.close (hp.phase_at hpoint)
  | answer hpoint => exact hp.hearAwaiting hpoint _
  | hear hpoint => exact hp.hearLinked hpoint _
  | written hpoint =>
      have hphase := hp.phase_at hpoint
      exact hin.goto hphase
  | unwritten hpoint => exact hin.lose (hp.phase_at hpoint) _
  | parted hpoint => exact hin.close (hp.phase_at hpoint)
  | closed hpoint => exact hin.proceed (hp.phase_at hpoint)
  | panic hpoint =>
      refine hin.recover ?_ _
      rw [hp.phase_eq]
      exact Point.phase_ne_idle hpoint
  | death hpoint =>
      have hphase := hp.phase_at hpoint
      exact hin.goto hphase

end

end Progress

end Stomp
