import Stomp.Proofs.Session.Phases
import Stomp.Proofs.Session.Reports

/-!
# What a task owes

At most points of its way a task either owes its caller the end of a connection
or does not, and its moves keep to that (`Progress.Moves.fair`).
-/

namespace Stomp

/-! ## Points -/

/-- What may be owed to the caller when the task is at a point. -/
def Point.Owes : Point → Bool → Prop
  | .linked _, owed | .writing _, owed | .parting, owed | .closing (.lost _), owed =>
      owed = true
  | .closing .shutdown, _ => True
  | .closing (.panicked _ wasConnected), owed => owed = wasConnected
  | _, owed => owed = false

def Point.isParting : Point → Bool
  | .parting => true
  | _ => false

theorem Point.eq_parting {point : Point} (h : point.isParting = true) : point = .parting := by
  unfold isParting at h
  split at h
  · rfl
  · exact absurd h Bool.false_ne_true

def Point.isClosing : Point → Bool
  | .closing _ => true
  | _ => false

/-! ## Moves of the task -/

def Entry.IsNeutral (entry : Entry) : Prop :=
  entry.opens = false ∧ entry.ends = false ∧ entry.isDeadline = false

theorem Entry.IsAnswer.neutral {entry : Entry} (h : entry.IsAnswer) : entry.IsNeutral := by
  obtain ⟨time, phase, effect⟩ := entry
  cases effect with
  | answeredSend frame answer => exact ⟨rfl, rfl, rfl⟩
  | answeredNext answer => exact ⟨rfl, rfl, rfl⟩
  | _ => exact absurd h not_false

theorem owedAfter_of_neutral {owed : Bool} {log : List Entry}
    (h : ∀ entry ∈ log, entry.IsNeutral) : owedAfter owed log = owed ∧ Settled owed log := by
  induction log with
  | nil => exact ⟨rfl, trivial⟩
  | cons entry log ih =>
      obtain ⟨hopens, hends, hdeadline⟩ := h entry List.mem_cons_self
      have howes : entry.owes owed = owed := by simp [Entry.owes, hopens, hends]
      obtain ⟨hafter, hsettled⟩ := ih fun other hmem => h other (List.mem_cons_of_mem _ hmem)
      rw [Settled, owedAfter, List.foldl_cons, howes]
      exact ⟨hafter, fun _ => hdeadline, hsettled⟩

namespace Progress

/-- What a task on its way owes, if it owed `first` before and met every deadline. -/
structure Owing (first : Bool) (p : Progress) (owed : Bool) : Prop where
  settled : Settled first p.log
  owed_eq : owedAfter first p.log = owed

section

variable {first owed : Bool} {p : Progress}

theorem Owing.start (hlog : p.log = []) : p.Owing owed owed := by
  constructor
  · rw [hlog]
    trivial
  · rw [hlog]
    rfl

theorem Owing.of_log (h : p.Owing first owed) {q : Progress} (hlog : q.log = p.log) :
    q.Owing first owed := by
  obtain ⟨hsettled, howed⟩ := h
  rw [← hlog] at hsettled howed
  exact ⟨hsettled, howed⟩

theorem Owing.note (h : p.Owing first owed) (effect : Effect)
    (hdeadline : owed = true → (Entry.mk p.now p.phase effect).isDeadline = false) :
    (p.note effect).Owing first ((Entry.mk p.now p.phase effect).owes owed) where
  settled := by
    rw [note_log, settled_append, h.owed_eq]
    exact ⟨h.settled, hdeadline, trivial⟩
  owed_eq := by
    rw [note_log, owedAfter_append, h.owed_eq]
    rfl

theorem Owing.note_neutral (h : p.Owing first owed) (effect : Effect)
    (hneutral : (Entry.mk p.now p.phase effect).IsNeutral) :
    (p.note effect).Owing first owed := by
  have hnote := h.note effect fun _ => hneutral.2.2
  rw [Entry.owes, hneutral.1, hneutral.2.1, Bool.false_or, Bool.not_false, Bool.and_true] at hnote
  exact hnote

theorem Owing.call (h : p.Owing first owed) (call : Call) : (p.call call).Owing first owed :=
  h.note_neutral (.call call) ⟨rfl, rfl, rfl⟩

theorem Owing.enter (h : p.Owing first owed) {phase : Phase} (hne : phase ≠ .idle) :
    (p.enter phase).Owing first owed := by
  refine (h.note_neutral (.enter phase) ?_).of_log rfl
  cases phase with
  | idle => exact absurd rfl hne
  | connecting => exact ⟨rfl, rfl, rfl⟩
  | connected => exact ⟨rfl, rfl, rfl⟩
  | disconnecting => exact ⟨rfl, rfl, rfl⟩

theorem Owing.rest (h : p.Owing first false) : (p.enter .idle).Owing first false :=
  (h.note (.enter .idle) fun howed => absurd howed Bool.false_ne_true).of_log rfl

theorem Owing.report (h : p.Owing first owed) (report : Report)
    (hdeadline : owed = true → (Entry.mk p.now p.phase (.report report none)).isDeadline = false) :
    (p.report report).Owing first ((Entry.mk p.now p.phase (.report report none)).owes owed) := by
  have hnote := h.note (.report report (p.task.handlers.hear report).2)
  cases report with
  | connected info => exact (hnote hdeadline).of_log rfl
  | disconnected close => exact (hnote hdeadline).of_log rfl
  | failed fault => exact (hnote hdeadline).of_log rfl

theorem Owing.reportFailed (h : p.Owing first owed) (fault : Fault) :
    (p.report (.failed fault)).Owing first owed := by
  cases owed with
  | true => exact h.report (.failed fault) fun _ => rfl
  | false => exact h.report (.failed fault) fun _ => rfl

theorem Owing.reportConnected (h : p.Owing first false) (info : ConnectedInfo) :
    (p.report (.connected info)).Owing first true :=
  h.report (.connected info) fun howed => absurd howed Bool.false_ne_true

theorem Owing.reportDisconnected (h : p.Owing first owed) (close : CloseInfo) :
    (p.report (.disconnected close)).Owing first false := by
  cases owed with
  | true => exact h.report (.disconnected close) fun _ => rfl
  | false => exact h.report (.disconnected close) fun _ => rfl

def Fair (first : Bool) (p : Progress) : Prop :=
  ∃ owed, p.Owing first owed ∧ p.task.point.Owes owed

theorem Owing.goto (h : p.Owing first owed) {point : Point} (hpoint : point.Owes owed) :
    (p.goto point).Fair first :=
  ⟨owed, h.of_log rfl, hpoint⟩

theorem Owing.close (h : p.Owing first owed) {ending : Ending}
    (hending : (Point.closing ending).Owes owed) : (p.close ending).Fair first :=
  (h.call .close).goto hending

theorem Owing.leave (h : p.Owing first true) (close : CloseInfo) : (p.leave close).Fair first :=
  (h.enter Phase.noConfusion).close rfl

theorem Owing.lose (h : p.Owing first true) (fault : Fault) : (p.lose fault).Fair first :=
  (h.reportFailed fault).leave _

theorem Owing.shutDown (h : p.Owing first owed) {live : Bool} (hlive : live = true → owed = true) :
    (p.shutDown live).Fair first := by
  have henter : (p.enter .disconnecting).Owing first owed := h.enter Phase.noConfusion
  cases live with
  | true => exact (henter.call (.send (.frame disconnectFrame))).goto (hlive rfl)
  | false => exact henter.close trivial

theorem Owing.recover (h : p.Owing first owed) (hphase : owed = (p.phase == .connected))
    (panic : Panic) : (p.recover panic).Fair first :=
  (h.enter Phase.noConfusion).close hphase

theorem Owing.begin (h : p.Owing first false) : p.begin.Fair first :=
  (h.enter Phase.noConfusion).goto rfl

theorem Owing.connect (h : p.Owing first false) (info : ConnectedInfo) :
    (p.connect info).Fair first :=
  ((h.enter Phase.noConfusion).reportConnected info).goto rfl

theorem Owing.write (h : p.Owing first true) (link : Link) (item : Wire.Item) :
    (p.write link item).Fair first :=
  (h.call (.send item)).goto rfl

theorem Owing.proceed (h : p.Owing first owed) {ending : Ending}
    (hending : (Point.closing ending).Owes owed) (config : Config) :
    (p.proceed config ending).Fair first := by
  cases ending with
  | refused fault =>
      obtain rfl : owed = false := hending
      simp only [Progress.proceed]
      split
      · exact (h.reportFailed fault).goto rfl
      · exact (h.reportFailed fault).rest.goto rfl
  | lost close =>
      have hrest := (h.reportDisconnected close).rest
      simp only [Progress.proceed]
      split
      · exact (hrest.enter Phase.noConfusion).goto rfl
      · exact hrest.goto rfl
  | shutdown => exact (h.reportDisconnected .deactivated).rest.goto rfl
  | panicked fault wasConnected =>
      obtain rfl : owed = wasConnected := hending
      cases owed with
      | true => exact ((h.reportFailed fault).reportDisconnected _).rest.goto rfl
      | false => exact (h.reportFailed fault).rest.goto rfl

theorem Fair.deliver (h : p.Fair first) (frame : Frame) : (p.deliver frame).Fair first := by
  unfold Progress.deliver
  split
  · obtain ⟨owed, howing, hpoint⟩ := h
    exact ⟨owed, howing.of_log rfl, hpoint⟩
  · exact h

theorem Owing.hearAwaiting (h : p.Owing first false) {deadline : Option Instant}
    (hpoint : p.task.point = .awaiting deadline) (config : Config) (event : Event) :
    (p.hearAwaiting config event).Fair first := by
  rcases p.hearAwaiting_cases config event with heq | ⟨info, heq⟩ | ⟨fault, heq⟩
  · rw [heq]
    exact ⟨false, h, by rw [hpoint]; rfl⟩
  · rw [heq]
    exact h.connect info
  · rw [heq]
    exact h.close rfl

theorem Owing.hearLinked (h : p.Owing first true) (link : Link) (event : Event) :
    (p.hearLinked link event).Fair first := by
  have hstay : (p.goto (.linked { link with lastReceived := p.now })).Owing first true :=
    h.of_log rfl
  rcases p.hearLinked_cases link event with
    heq | ⟨fault, heq⟩ | ⟨frame, heq⟩ | ⟨fault, heq⟩ | ⟨close, heq⟩
  · rw [heq]
    exact ⟨true, hstay, rfl⟩
  · rw [heq]
    exact ⟨true, hstay.reportFailed fault, rfl⟩
  · rw [heq]
    exact Fair.deliver ⟨true, hstay, rfl⟩ frame
  · rw [heq]
    exact hstay.lose fault
  · rw [heq]
    exact hstay.leave close

theorem owes_of_panic {point : Point} (hcontains : point.containsPanic = true)
    (hparting : point.isParting = false) (hclosing : point.isClosing = false)
    (hpoint : point.Owes owed) : owed = (point.phase == .connected) := by
  cases point with
  | parting => exact absurd hparting Bool.noConfusion
  | closing ending => exact absurd hclosing Bool.noConfusion
  | opening => exact hpoint
  | greeting => exact hpoint
  | awaiting deadline => exact hpoint
  | linked link => exact hpoint
  | writing link => exact hpoint
  | _ => exact absurd hcontains Bool.noConfusion

theorem Moves.fair {config : Config} {input : Input} {p' : Progress}
    (h : Moves config p input p') (hlog : p.log = []) (hphase : p.phase = p.task.point.phase)
    (howes : p.task.point.Owes owed)
    (hpanic : ∀ panic, input = .outcome (.panicked panic) →
      p.task.point.isParting = false ∧ p.task.point.isClosing = false) : p'.Fair owed := by
  have hstart : p.Owing owed owed := Owing.start hlog
  have hat {point : Point} (hpoint : p.task.point = point) : point.Owes owed := by
    rw [← hpoint]
    exact howes
  cases h with
  | start hpoint =>
      obtain rfl : owed = false := hat hpoint
      exact hstart.begin
  | dial hpoint =>
      obtain rfl : owed = false := hat hpoint
      exact (hstart.call (.connect config.url)).goto rfl
  | abandon hpoint => exact hstart.shutDown fun hlive => absurd hlive Bool.false_ne_true
  | part hpoint => exact hstart.shutDown fun _ => hat hpoint
  | timeout hpoint =>
      obtain rfl : owed = false := hat hpoint
      exact hstart.close rfl
  | @take link frame rest hpoint hqueue =>
      obtain rfl : owed = true := hat hpoint
      have hleft : Owing true { p with task := { p.task with outbound := rest } } true :=
        hstart.of_log rfl
      exact hleft.write link (.frame frame)
  | unattended hpoint => exact hstart.shutDown fun _ => hat hpoint
  | beat hpoint =>
      obtain rfl : owed = true := hat hpoint
      exact hstart.write _ _
  | watchdog hpoint =>
      obtain rfl : owed = true := hat hpoint
      exact hstart.lose _
  | resume hpoint =>
      obtain rfl : owed = false := hat hpoint
      exact hstart.begin
  | opened hpoint =>
      obtain rfl : owed = false := hat hpoint
      exact (hstart.call (.send (.frame config.connectFrame))).goto rfl
  | unopened hpoint =>
      obtain rfl : owed = false := hat hpoint
      exact hstart.close rfl
  | greeted hpoint =>
      obtain rfl : owed = false := hat hpoint
      exact hstart.goto rfl
  | ungreeted hpoint =>
      obtain rfl : owed = false := hat hpoint
      exact hstart.close rfl
  | answer hpoint =>
      obtain rfl : owed = false := hat hpoint
      exact hstart.hearAwaiting hpoint config _
  | hear hpoint =>
      obtain rfl : owed = true := hat hpoint
      exact hstart.hearLinked _ _
  | written hpoint =>
      obtain rfl : owed = true := hat hpoint
      exact hstart.goto rfl
  | unwritten hpoint =>
      obtain rfl : owed = true := hat hpoint
      exact hstart.lose _
  | parted hpoint => exact hstart.close trivial
  | closed hpoint => exact hstart.proceed (hat hpoint) config
  | panic hcontains =>
      obtain ⟨hparting, hclosing⟩ := hpanic _ rfl
      refine hstart.recover ?_ _
      rw [hphase]
      exact owes_of_panic hcontains hparting hclosing howes
  | death hpoint =>
      obtain ⟨-, hclosing⟩ := hpanic _ rfl
      rw [hpoint] at hclosing
      exact absurd hclosing Bool.noConfusion

end

end Progress

end Stomp
