import Stomp.Proofs.Session.Calls
import Stomp.Proofs.Session.Discipline

/-!
# Timing of a connection

On a clock that runs only while the task waits, and never past a timer that is due,
a connected session writes as often as was agreed, and gives up a broker that is
silent for twice the agreed time (`Session.keeps_time`).
-/

namespace Stomp

/-! ## The link as it shows from outside -/

def Entry.connected? (entry : Entry) : Option ConnectedInfo :=
  match entry.effect with
  | .report (.connected info) _ => some info
  | _ => none

namespace Link

def note (link : Link) (now : Instant) : Input → Link
  | .outcome (.sent (.ok _)) => { link with lastSent := now }
  | .outcome (.event _) => { link with lastReceived := now }
  | _ => link

theorem note_of_rest (link : Link) (now : Instant) {input : Input} (h : input.isMove = false) :
    link.note now input = link := by
  cases input with
  | branch branch => exact absurd h Bool.noConfusion
  | outcome outcome => exact absurd h Bool.noConfusion
  | _ => rfl

/-- What is known of the link after a step that leaves the session connected. -/
def follow (known : Option Link) (now : Instant) (input : Input) (made : List Entry) :
    Option Link :=
  match known with
  | some link => some (link.note now input)
  | none => (made.findSome? Entry.connected?).map fun info => ⟨info, now, now⟩

/-- No write is overdue, and the broker was not silent for too long. -/
structure InTime (link : Link) (now : Instant) : Prop where
  write : ∀ interval, link.info.outgoing = some interval → now ≤ link.lastSent + interval
  hear : ∀ interval, link.info.incoming = some interval →
    now ≤ link.lastReceived + 2 * interval

variable {link : Link} {now : Instant}

theorem inTime_of_new (info : ConnectedInfo) (now : Instant) : InTime ⟨info, now, now⟩ now :=
  ⟨fun _ _ => Nat.le_add_right now _, fun _ _ => Nat.le_add_right now _⟩

theorem InTime.note (h : link.InTime now) (input : Input) : (link.note now input).InTime now := by
  unfold Link.note
  split
  · exact ⟨fun _ _ => Nat.le_add_right now _, h.hear⟩
  · exact ⟨h.write, fun _ _ => Nat.le_add_right now _⟩
  · exact h

theorem InTime.follow {known : Option Link} (h : ∀ link, known = some link → link.InTime now)
    {input : Input} {made : List Entry} (hfollow : Link.follow known now input made = some link) :
    link.InTime now := by
  cases known with
  | some before =>
      obtain rfl := Option.some.inj hfollow
      exact (h before rfl).note input
  | none =>
      obtain ⟨info, -, rfl⟩ := Option.map_eq_some_iff.mp hfollow
      exact inTime_of_new info now

theorem inTime_iff :
    link.InTime now ↔ ∀ timer ∈ link.beatDue?.toList ++ link.silentAt?.toList, now ≤ timer := by
  constructor
  · intro h timer hmem
    rcases List.mem_append.mp hmem with hmem | hmem
    · obtain ⟨interval, hinterval, rfl⟩ := Option.map_eq_some_iff.mp (Option.mem_toList.mp hmem)
      exact h.write interval hinterval
    · obtain ⟨grace, hgrace, rfl⟩ := Option.map_eq_some_iff.mp (Option.mem_toList.mp hmem)
      obtain ⟨interval, hinterval, rfl⟩ := Option.map_eq_some_iff.mp hgrace
      rw [Nat.mul_comm]
      exact h.hear interval hinterval
  · intro h
    constructor
    · intro interval hinterval
      refine h _ (List.mem_append_left _ (Option.mem_toList.mpr ?_))
      simp [beatDue?, hinterval]
    · intro interval hinterval
      refine h _ (List.mem_append_right _ (Option.mem_toList.mpr ?_))
      simp [silentAt?, grace?, hinterval, Nat.mul_comm]

end Link

/-! ## Moves of the task -/

def Point.link? : Point → Option Link
  | .linked link | .writing link => some link
  | _ => none

theorem Point.isSome_link? (point : Point) :
    point.link?.isSome = (point.phase == .connected) := by
  cases point with
  | closing ending => cases ending <;> rfl
  | _ => rfl

namespace Progress

variable {config : Config} {p p' : Progress} {input : Input} {link : Link}

theorem connected?_of_connect (info : ConnectedInfo) (hlog : p.log = []) :
    (p.connect info).log.findSome? Entry.connected? = some info := by
  obtain ⟨now, phase, task, log⟩ := p
  obtain rfl : log = [] := hlog
  rfl

theorem Moves.link? (h : Moves config p input p') (hlog : p.log = [])
    (hnext : p'.task.point.phase = .connected) :
    p'.task.point.link? = Link.follow p.task.point.link? p.now input p'.log := by
  cases h with
  | take hpoint =>
      rw [hpoint]
      rfl
  | beat hpoint =>
      rw [hpoint]
      rfl
  | written hpoint =>
      rw [hpoint]
      rfl
  | @answer deadline event hpoint =>
      rcases p.hearAwaiting_cases config event with heq | ⟨info, heq⟩ | ⟨fault, heq⟩
      · rw [heq, hpoint] at hnext
        exact absurd hnext Phase.noConfusion
      · rw [heq, hpoint]
        simp only [connect_point, Point.link?, Link.follow, connected?_of_connect info hlog,
          Option.map_some]
      · rw [heq] at hnext
        exact absurd hnext Phase.noConfusion
  | @hear link event hpoint =>
      rcases p.hearLinked_point link event with hstay | ⟨close, hlost⟩
      · rw [hstay, hpoint]
        rfl
      · rw [hlost] at hnext
        exact absurd hnext Phase.noConfusion
  | @closed ending hpoint =>
      rcases p.proceed_point config ending with hended | ⟨wake, hpausing⟩
      · rw [hended] at hnext
        exact absurd hnext Phase.noConfusion
      · rw [hpausing] at hnext
        exact absurd hnext Phase.noConfusion
  | _ => exact absurd hnext Phase.noConfusion

theorem Moves.beat_of_heartbeat (h : Moves config p input p') (hlog : p.log = [])
    (hmem : .send .heartbeat ∈ seen Entry.call? p'.log) :
    ∃ link, p.task.point = .linked link ∧ p.isDue link.beatDue? = true := by
  cases h with
  | beat hpoint hdue => exact ⟨_, hpoint, hdue⟩
  | answer hpoint =>
      exact absurd (Moves.close_of_heard config (.answer hpoint) hlog hmem) Call.noConfusion
  | hear hpoint =>
      exact absurd (Moves.close_of_heard config (.hear hpoint) hlog hmem) Call.noConfusion
  | _ => simp [hlog] at hmem

theorem Moves.sends_of_writing (h : Moves config p input p') (hlog : p.log = [])
    (hphase : p.phase = p.task.point.phase) (hwriting : p'.task.point = .writing link) :
    ∃ item, p'.log = [⟨p.now, .connected, .call (.send item)⟩] := by
  cases h with
  | @take other frame rest hpoint hqueue =>
      exact ⟨.frame frame, by simp [hlog, hphase, hpoint, Point.phase]⟩
  | beat hpoint => exact ⟨.heartbeat, by simp [hlog, hphase, hpoint, Point.phase]⟩
  | @answer deadline event hpoint =>
      rcases p.hearAwaiting_point config event with hstay | ⟨other, hlinked⟩ | ⟨fault, hclosing⟩
      · simp [hstay, hpoint] at hwriting
      · simp [hlinked] at hwriting
      · simp [hclosing] at hwriting
  | @hear other event hpoint =>
      rcases p.hearLinked_point other event with hstay | ⟨close, hlost⟩
      · simp [hstay] at hwriting
      · simp [hlost] at hwriting
  | @closed ending hpoint =>
      rcases p.proceed_point config ending with hended | ⟨wake, hpausing⟩
      · simp [hended] at hwriting
      · simp [hpausing] at hwriting
  | _ => exact absurd hwriting Point.noConfusion

theorem beat_due (hdue : p.isDue link.beatDue? = true) (h : link.InTime p.now) :
    ∃ interval, link.info.outgoing = some interval ∧ p.now = link.lastSent + interval := by
  obtain ⟨timer, htimer, hpassed⟩ := (Option.any_eq_true _ _).mp hdue
  obtain ⟨interval, hinterval, rfl⟩ := Option.map_eq_some_iff.mp htimer
  have hpassed : link.lastSent + interval ≤ p.now := of_decide_eq_true hpassed
  exact ⟨interval, hinterval, Nat.le_antisymm (h.write interval hinterval) hpassed⟩

theorem silence_due (hdue : p.isDue link.silentAt? = true) (h : link.InTime p.now) :
    ∃ interval, link.info.incoming = some interval ∧
      p.now = link.lastReceived + 2 * interval := by
  obtain ⟨timer, htimer, hpassed⟩ := (Option.any_eq_true _ _).mp hdue
  obtain ⟨grace, hgrace, rfl⟩ := Option.map_eq_some_iff.mp htimer
  obtain ⟨interval, hinterval, rfl⟩ := Option.map_eq_some_iff.mp hgrace
  have hpassed : link.lastReceived + interval * 2 ≤ p.now := of_decide_eq_true hpassed
  rw [Nat.mul_comm] at hpassed
  exact ⟨interval, hinterval, Nat.le_antisymm (h.hear interval hinterval) hpassed⟩

end Progress

/-! ## Punctual runs -/

def Point.waits : Point → Bool
  | .awaiting _ | .linked _ | .pausing _ | .finished | .died => true
  | _ => false

namespace Session

variable {session next : Session} {log more : List Entry} {input : Input}

def link? (session : Session) : Option Link := session.point?.bind Point.link?

/-- The link of a connected session, as it shows from outside. -/
def watch (session : Session) (inputs : List Input) : Option Link :=
  session.observe
    (fun known before input stepped =>
      if stepped.1.phase = .connected then Link.follow known before.now input stepped.2 else none)
    none inputs

/-- Time passes only while the task waits, and no further than to its next timer. -/
def keepsTime (session : Session) : Input → Bool
  | .elapse duration =>
      session.active.all (·.point.waits) &&
        session.nextTimer?.all (session.now + duration ≤ ·)
  | _ => true

def isPunctual (session : Session) (inputs : List Input) : Bool :=
  session.observe (fun punctual before input _ => punctual && before.keepsTime input) true inputs

theorem isSome_link? (hphase : session.phase = session.standing) :
    session.link?.isSome = (session.phase == .connected) := by
  rw [hphase, standing_eq, link?]
  cases session.point? with
  | none =>
      rw [Option.bind_none, Option.elim_none, rest]
      split <;> rfl
  | some point => exact point.isSome_link?

theorem link?_of_active {task : Task} (hactive : session.active = some task) :
    session.link? = task.point.link? := by
  rw [link?, point?_of_active hactive, Option.bind_some]

theorem Quiet.follow {stepped : Stepped} (h : session.Quiet stepped)
    (hsome : stepped.1.link?.isSome = true) {now : Instant}
    (hnote : ∀ link : Link, link.note now input = link) :
    stepped.1.link? = Link.follow session.link? now input stepped.2 := by
  have hsame : stepped.1.link? = session.link? := by rw [link?, h.point_eq, link?]
  obtain ⟨link, hlink⟩ := Option.isSome_iff_exists.mp hsome
  rw [← hsame, hlink, Link.follow, hnote]

theorem Turnover.link? {stepped : Stepped} (h : session.Turnover stepped) :
    stepped.1.link? = none := by
  rcases h.point_eq with hnone | hready
  · rw [Session.link?, hnone]
    rfl
  · rw [Session.link?, hready]
    rfl

theorem Steps.link? (h : session.Steps input next more) (hsome : next.link?.isSome = true) :
    next.link? = Link.follow session.link? session.now input more := by
  rcases h.kinds with ⟨hquiet, hmove⟩ | ⟨hturnover, -⟩ | ⟨task, p, hactive, hmoves, rfl, rfl⟩
  · exact hquiet.follow hsome fun link => link.note_of_rest session.now hmove
  · rw [hturnover.link?] at hsome
    exact absurd hsome Bool.false_ne_true
  · rw [link?_of_active rfl] at hsome ⊢
    rw [Point.isSome_link?, beq_iff_eq] at hsome
    rw [link?_of_active hactive]
    exact hmoves.link? rfl hsome

theorem watch_of_run? {config : Config} {handlers : Handlers} {start : Session}
    {inputs : List Input} (hstart : ofConfig config handlers = .ok start)
    (hrun : start.run? inputs = some (session, log)) : start.watch inputs = session.link? := by
  have hnew : none = start.link? := by
    obtain rfl := ofConfig_eq_ok hstart
    rfl
  refine run?_induction (motive := fun inputs session _ => start.watch inputs = session.link?)
    hnew ?_ hrun
  intro inputs input session next log more hbefore h hstep
  have hphase := (disciplined_of_run? hstart (run?_snoc hbefore hstep)).phase_eq
  have hsome := isSome_link? hphase
  rw [watch, observe_snoc _ _ hbefore hstep, ← watch, h]
  by_cases hconnected : next.phase = .connected
  · rw [if_pos hconnected]
    exact ((step?_steps hstep).link? (by rw [hsome, hconnected]; rfl)).symm
  · rw [if_neg hconnected]
    rw [beq_false_of_ne hconnected] at hsome
    exact (Option.not_isSome_iff_eq_none.mp (by rw [hsome]; exact Bool.false_ne_true)).symm

theorem request_now (session : Session) (request : Request) :
    (session.request request).1.now = session.now := by
  cases request with
  | activate => exact session.activate_owner.1
  | activateLate => exact session.activateLate_owner.1
  | deactivate =>
      rw [Session.request, deactivate]
      cases session.active <;> rfl
  | release => rfl
  | send frame =>
      rw [Session.request]
      rcases session.send_cases frame with ⟨answer, -, heq⟩ | ⟨task, -, heq⟩ <;> rw [heq]
  | next =>
      rw [Session.request]
      rcases session.next_cases with ⟨answer, heq⟩ | ⟨task, frame, rest, -, -, heq⟩ <;> rw [heq]

theorem Steps.now_eq (h : session.Steps input next more) :
    next.now = session.now ∨
      ∃ duration, input = .elapse duration ∧
        next = { session with now := session.now + duration } := by
  cases h with
  | request hheld => exact .inl (request_now _ _)
  | reclaim hstopping hreclaim =>
      obtain ⟨task, -, -, heq⟩ := reclaim?_eq_some hreclaim
      obtain ⟨rfl, -⟩ := Prod.mk.inj heq
      exact .inl rfl
  | elapse duration => exact .inr ⟨duration, rfl, rfl⟩
  | move hactive hmoves => exact .inl rfl

theorem inTime_of_elapse {duration : Duration} {link : Link}
    (hkeeps : session.keepsTime (.elapse duration) = true) (hlink : session.link? = some link) :
    link.InTime (session.now + duration) := by
  obtain ⟨point, hpoint, hat⟩ := Option.bind_eq_some_iff.mp hlink
  obtain ⟨task, hactive, rfl⟩ := Option.map_eq_some_iff.mp hpoint
  simp only [keepsTime, hactive, Option.all_some, Bool.and_eq_true] at hkeeps
  obtain ⟨hwaits, htimers⟩ := hkeeps
  have hlistens : task.point = .linked link := by
    cases hpoint : task.point with
    | linked other =>
        rw [hpoint] at hat
        exact congrArg Point.linked (Option.some.inj hat)
    | writing other =>
        rw [hpoint] at hwaits
        exact absurd hwaits Bool.false_ne_true
    | _ =>
        rw [hpoint] at hat
        exact absurd hat (Option.some_ne_none link).symm
  rw [nextTimer?, hactive, Option.elim_some] at htimers
  rw [Link.inTime_iff]
  intro timer hmem
  have hmem : timer ∈ task.timers := by rwa [Task.timers, hlistens]
  cases hmin : task.timers.min? with
  | none =>
      rw [List.min?_eq_none_iff.mp hmin] at hmem
      exact absurd hmem List.not_mem_nil
  | some first =>
      rw [hmin, Option.all_some, decide_eq_true_eq] at htimers
      exact (List.le_min?_iff hmin).mp htimers timer hmem

theorem inTime_of_run? {config : Config} {handlers : Handlers} {start : Session}
    {inputs : List Input} (hstart : ofConfig config handlers = .ok start)
    (hrun : start.run? inputs = some (session, log)) (hpunctual : start.isPunctual inputs = true) :
    ∀ link, session.link? = some link → link.InTime session.now := by
  refine run?_induction (motive := fun inputs session _ => start.isPunctual inputs = true →
    ∀ link, session.link? = some link → link.InTime session.now) ?_ ?_ hrun hpunctual
  · obtain rfl := ofConfig_eq_ok hstart
    exact fun _ link hlink => absurd hlink (Option.some_ne_none link).symm
  · intro inputs input session next log more hbefore h hstep hpunctual link hlink
    rw [isPunctual, observe_snoc _ _ hbefore hstep, ← isPunctual, Bool.and_eq_true] at hpunctual
    have hsteps := step?_steps hstep
    rcases hsteps.now_eq with hnow | ⟨duration, rfl, rfl⟩
    · rw [hsteps.link? (by rw [hlink]; rfl)] at hlink
      rw [hnow]
      exact Link.InTime.follow (h hpunctual.1) hlink
    · exact inTime_of_elapse hpunctual.2 hlink

/-! ## Writes -/

/-- The last call in a log is a write, made at this moment by the connected session. -/
def IsWriting (now : Instant) (log : List Entry) : Prop :=
  ∃ front item rest, log = front ++ ⟨now, .connected, .call (.send item)⟩ :: rest ∧
    seen Entry.call? rest = []

theorem IsWriting.append {now : Instant} (h : IsWriting now log)
    (hmore : seen Entry.call? more = []) : IsWriting now (log ++ more) := by
  obtain ⟨front, item, rest, rfl, hrest⟩ := h
  exact ⟨front, item, rest ++ more, by simp, by simp [hrest, hmore]⟩

theorem not_keepsTime_of_writing {link : Link} {duration : Duration}
    (hwriting : session.point? = some (.writing link)) :
    session.keepsTime (.elapse duration) = false := by
  obtain ⟨task, hactive, hat⟩ := Option.map_eq_some_iff.mp hwriting
  simp [keepsTime, hactive, hat, Point.waits]

theorem isWriting_of_run? {config : Config} {handlers : Handlers} {start : Session}
    {inputs : List Input} (hstart : ofConfig config handlers = .ok start)
    (hrun : start.run? inputs = some (session, log)) (hpunctual : start.isPunctual inputs = true) :
    ∀ link, session.point? = some (.writing link) → IsWriting session.now log := by
  refine run?_induction (motive := fun inputs session log => start.isPunctual inputs = true →
    ∀ link, session.point? = some (.writing link) → IsWriting session.now log) ?_ ?_ hrun hpunctual
  · obtain rfl := ofConfig_eq_ok hstart
    exact fun _ link hwriting => absurd hwriting (Option.some_ne_none _).symm
  · intro inputs input session next log more hbefore h hstep hpunctual link hwriting
    rw [isPunctual, observe_snoc _ _ hbefore hstep, ← isPunctual, Bool.and_eq_true] at hpunctual
    have hsteps := step?_steps hstep
    rcases hsteps.kinds with
      ⟨hquiet, -⟩ | ⟨hturnover, -⟩ | ⟨task, p, hactive, hmoves, rfl, rfl⟩
    · rw [show next.point? = session.point? from hquiet.point_eq] at hwriting
      rcases hsteps.now_eq with hnow | ⟨duration, rfl, -⟩
      · rw [hnow]
        exact (h hpunctual.1 link hwriting).append hquiet.calls_eq
      · rw [not_keepsTime_of_writing hwriting] at hpunctual
        exact absurd hpunctual.2 Bool.false_ne_true
    · rcases hturnover.point_eq with hnone | hready
      · exact absurd (hnone.symm.trans hwriting) (Option.some_ne_none _).symm
      · exact absurd (Option.some.inj (hready.symm.trans hwriting)) Point.noConfusion
    · have hphase := phase_of_active (disciplined_of_run? hstart hbefore).phase_eq hactive
      obtain ⟨item, hsent⟩ := hmoves.sends_of_writing rfl hphase
        (Option.some.inj ((point?_of_active rfl).symm.trans hwriting))
      rw [hsent]
      exact ⟨log, item, [], rfl, rfl⟩

theorem writing_of_answer {result : Except Fault Unit}
    (hphase : session.phase = session.standing) (hconnected : session.phase = .connected)
    (hstep : session.step? (.outcome (.sent result)) = some (next, more)) :
    ∃ link, session.point? = some (.writing link) := by
  cases step?_steps hstep with
  | @move _ task p hactive hmoves =>
      have hat : task.point.phase = .connected := by
        rw [← phase_of_active hphase hactive, hconnected]
      rw [point?_of_active hactive]
      cases hmoves with
      | written hpoint => exact ⟨_, congrArg some hpoint⟩
      | unwritten hpoint => exact ⟨_, congrArg some hpoint⟩
      | greeted hpoint | ungreeted hpoint | parted hpoint =>
          rw [show task.point = _ from hpoint] at hat
          exact absurd hat Phase.noConfusion

/-! ## Timers -/

theorem made_of_beat (hphase : session.phase = session.standing)
    (hstep : session.step? (.branch .beat) = some (next, more)) :
    more = [⟨session.now, .connected, .call (.send .heartbeat)⟩] := by
  cases step?_steps hstep with
  | @move _ task p hactive hmoves =>
      cases hmoves with
      | beat hpoint =>
          have hnow : session.phase = .connected := by
            rw [phase_of_active hphase hactive, show task.point = _ from hpoint]
            rfl
          simp [hnow]

theorem beat?_of_due {link : Link} {interval : Duration}
    (hpoint : session.point? = some (.linked link)) (houtgoing : link.info.outgoing = some interval)
    (hdue : session.now = link.lastSent + interval) :
    (session.step? (.branch .beat)).isSome = true := by
  obtain ⟨task, hactive, hat⟩ := Option.map_eq_some_iff.mp hpoint
  simp [step?, advance?, hactive, Progress.branch?, hat, Progress.isDue, Link.beatDue?, houtgoing,
    hdue]

theorem watchdog?_of_due {link : Link} {interval : Duration}
    (hpoint : session.point? = some (.linked link)) (hincoming : link.info.incoming = some interval)
    (hdue : session.now = link.lastReceived + 2 * interval) :
    (session.step? (.branch .watchdog)).isSome = true := by
  obtain ⟨task, hactive, hat⟩ := Option.map_eq_some_iff.mp hpoint
  simp [step?, advance?, hactive, Progress.branch?, hat, Progress.isDue, Link.silentAt?,
    Link.grace?, hincoming, hdue, Nat.mul_comm]

theorem point?_of_listening {link : Link} (hlink : session.link? = some link)
    (hlistening : session.active.any Task.isListening = true) :
    session.point? = some (.linked link) := by
  obtain ⟨task, hactive, hlistens⟩ := (Option.any_eq_true _ _).mp hlistening
  rw [link?_of_active hactive] at hlink
  rw [point?_of_active hactive]
  cases hpoint : task.point with
  | linked other =>
      rw [hpoint] at hlink
      rw [Option.some.inj hlink]
  | writing other =>
      rw [Task.isListening, hpoint] at hlistens
      exact absurd hlistens Bool.false_ne_true
  | _ =>
      rw [hpoint] at hlink
      exact absurd hlink (Option.some_ne_none link).symm

/--
In a punctual run a connected session is in time at every moment: what it writes and
what the broker sends is never overdue.  A write that counts is the answer to the last
call, which sent something at this moment.  A heartbeat is written, and the broker is
given up for its silence, at the moment when that is due, and can be then.
-/
theorem keeps_time {config : Config} {handlers : Handlers} {start : Session}
    {inputs : List Input} (hstart : ofConfig config handlers = .ok start)
    (hrun : start.run? inputs = some (session, log)) (hpunctual : start.isPunctual inputs = true) :
    (start.watch inputs).isSome = (session.phase == .connected) ∧
    (∀ link, start.watch inputs = some link → link.InTime session.now) ∧
    (∀ result next more, session.step? (.outcome (.sent result)) = some (next, more) →
      session.phase = .connected → IsWriting session.now log) ∧
    (∀ next more, session.step? (.branch .beat) = some (next, more) →
      more = [⟨session.now, .connected, .call (.send .heartbeat)⟩]) ∧
    (∀ input next more, session.step? input = some (next, more) →
      .send .heartbeat ∈ seen Entry.call? more →
      ∃ link interval, start.watch inputs = some link ∧ link.info.outgoing = some interval ∧
        session.now = link.lastSent + interval) ∧
    (∀ next more, session.step? (.branch .watchdog) = some (next, more) →
      next.phase = .disconnecting ∧
      ∃ link interval, start.watch inputs = some link ∧ link.info.incoming = some interval ∧
        session.now = link.lastReceived + 2 * interval) ∧
    (∀ link, start.watch inputs = some link → session.active.any Task.isListening = true →
      (∀ interval, link.info.outgoing = some interval → session.now = link.lastSent + interval →
        (session.step? (.branch .beat)).isSome = true) ∧
      (∀ interval, link.info.incoming = some interval →
        session.now = link.lastReceived + 2 * interval →
        (session.step? (.branch .watchdog)).isSome = true)) := by
  have hwatch := watch_of_run? hstart hrun
  have hinTime := inTime_of_run? hstart hrun hpunctual
  rw [hwatch]
  have hphase := (disciplined_of_run? hstart hrun).phase_eq
  refine ⟨isSome_link? hphase, hinTime, ?_, fun _ _ => made_of_beat hphase, ?_, ?_, ?_⟩
  · intro result next more hstep hconnected
    obtain ⟨link, hwriting⟩ := writing_of_answer hphase hconnected hstep
    exact isWriting_of_run? hstart hrun hpunctual link hwriting
  · intro input next more hstep hmem
    obtain ⟨task, p, hactive, hmoves, rfl⟩ := (step?_steps hstep).move_of_call hmem
    obtain ⟨link, hpoint, hdue⟩ := hmoves.beat_of_heartbeat rfl hmem
    have hlink : session.link? = some link := by
      rw [link?_of_active hactive, hpoint]
      rfl
    obtain ⟨interval, houtgoing, hnow⟩ := Progress.beat_due hdue (hinTime link hlink)
    exact ⟨link, interval, hlink, houtgoing, hnow⟩
  · intro next more hstep
    cases step?_steps hstep with
    | move hactive hmoves =>
        cases hmoves with
        | @watchdog link hpoint hdue =>
            have hlink : session.link? = some link := by
              rw [link?_of_active hactive]
              exact congrArg Point.link? hpoint
            obtain ⟨interval, hincoming, hnow⟩ := Progress.silence_due hdue (hinTime link hlink)
            exact ⟨rfl, link, interval, hlink, hincoming, hnow⟩
  · intro link hlink hlistening
    have hpoint := point?_of_listening hlink hlistening
    exact ⟨fun interval houtgoing hnow => beat?_of_due hpoint houtgoing hnow,
      fun interval hincoming hnow => watchdog?_of_due hpoint hincoming hnow⟩

def pulsingConfig : Config := { plainConfig with heartbeat := ⟨3, 5⟩ }

def pulse : List Input := [.elapse (Duration.ofMillis 3), .branch .beat, .outcome (.sent (.ok ()))]

def silenced : List Input :=
  connecting.dropLast ++
    [.outcome (.event (.item (.frame
        { command := "CONNECTED", headers := [("heart-beat", "7,2")] }))),
      .elapse (Duration.ofMillis 2), .outcome (.event (.item .heartbeat)),
      .elapse (Duration.ofMillis 1), .branch .beat, .outcome (.sent (.ok ()))] ++
    pulse ++ pulse ++ pulse ++ pulse ++ [.elapse (Duration.ofMillis 1)]

theorem keeps_time_until_silence :
    ∃ start session log link, ofConfig pulsingConfig {} = .ok start ∧
      start.run? silenced = some (session, log) ∧ start.isPunctual silenced = true ∧
      start.watch silenced = some link ∧ link.info.incoming = some (Duration.ofMillis 7) ∧
      session.now = Duration.ofMillis 16 ∧ link.lastReceived = Duration.ofMillis 2 ∧
      link.InTime session.now ∧
      (session.step? (.branch .watchdog)).isSome = true := by
  have hstart : ofConfig pulsingConfig {} = .ok (fresh pulsingConfig) := rfl
  have hrun : (((fresh pulsingConfig).run? silenced).map fun stepped =>
      (stepped.1.now, stepped.1.active.any Task.isListening)) =
        some (Duration.ofMillis 16, true) := by
    decide +kernel
  have hpunctual : (fresh pulsingConfig).isPunctual silenced = true := by
    decide +kernel
  have hwatch : (((fresh pulsingConfig).watch silenced).map fun link =>
      (link.info.incoming, link.lastReceived)) =
        some (some (Duration.ofMillis 7), Duration.ofMillis 2) := by
    decide +kernel
  obtain ⟨⟨session, log⟩, hrun, hresult⟩ := Option.map_eq_some_iff.mp hrun
  obtain ⟨hnow, hlistening⟩ := Prod.mk.inj hresult
  obtain ⟨link, hlink, hfields⟩ := Option.map_eq_some_iff.mp hwatch
  obtain ⟨hincoming, hheard⟩ := Prod.mk.inj hfields
  obtain ⟨-, hinTime, -, -, -, -, hcan⟩ := keeps_time hstart hrun hpunctual
  refine ⟨fresh pulsingConfig, session, log, link, hstart, hrun, hpunctual, hlink, hincoming,
    hnow, hheard, hinTime link hlink, ?_⟩
  refine (hcan link hlink hlistening).2 _ hincoming ?_
  rw [hheard]
  exact hnow

end Session

end Stomp
