import Stomp.Proofs.Session.Pairing
import Stomp.Proofs.Session.Stopping

/-!
# Who has the transport

The transport and the handlers are with the session or with its one task.  They are
lost with a task that dies, and with one that has ended when the session is activated
at the end of its owner's turn (`Session.ownership`).
-/

namespace Stomp

def Point.isDead : Point → Bool
  | .died => true
  | _ => false

def Point.isRecovering : Point → Bool
  | .closing (.panicked _ _) => true
  | _ => false

theorem Point.isRecovering_of_contained {point : Point} (h : point.containsPanic = true) :
    point.isRecovering = false := by
  cases point with
  | closing ending =>
      cases ending with
      | panicked fault wasConnected => exact absurd h Bool.noConfusion
      | _ => rfl
  | _ => rfl

namespace Session

variable {session next : Session} {log more : List Entry} {input : Input}

/-! ## What becomes of the transport -/

/-- Whether neither the session nor its task has the transport. -/
def isGone (session : Session) : Bool :=
  session.parts.isNone && session.point?.all Point.isDead

def forfeitsOn (session : Session) : Input → Bool
  | .request .activateLate => session.active.any Task.hasEnded
  | _ => false

def forfeitsIn (session : Session) (inputs : List Input) : Bool :=
  session.observe (fun seen before input _ => seen || before.forfeitsOn input) false inputs

/-- Whether the transport was lost in the course of a run. -/
def losesIn (session : Session) (inputs : List Input) : Bool :=
  session.panicsAt Point.isRecovering inputs || session.forfeitsIn inputs

def startedIn (session : Session) (inputs : List Input) : Nat :=
  session.observe (fun count _ input stepped => count + (begins input stepped.2).toNat) 0 inputs

def endedIn (session : Session) (inputs : List Input) : Nat :=
  session.observe
    (fun count _ input stepped =>
      count + (input.isMove && stepped.1.active.any Task.hasEnded).toNat)
    0 inputs

/-! ## Steps -/

/-- How a step changes who has the transport and whether a task runs. -/
structure Keeps (session : Session) (input : Input) (stepped : Stepped) : Prop where
  gone_eq : stepped.1.isGone =
    (session.isGone || session.panicsOn Point.isRecovering input || session.forfeitsOn input)
  busy_eq : stepped.1.isBusy.toNat + (input.isMove && stepped.1.active.any Task.hasEnded).toNat =
    session.isBusy.toNat + (begins input stepped.2).toNat

theorem isBusy_eq_point? (session : Session) :
    session.isBusy = session.point?.any fun point => point != .finished && !point.isDead := by
  rw [isBusy, point?]
  cases session.active with
  | none => rfl
  | some task =>
      rw [Option.map_some, Option.any_some, Option.any_some, Task.hasEnded]
      cases task.point <;> rfl

theorem not_begins_of_answers (h : ∀ entry ∈ log, entry.IsAnswer) : begins input log = false := by
  refine not_begins fun entry hmem heffect => ?_
  have hanswer := h entry hmem
  rw [Entry.IsAnswer, heffect] at hanswer
  exact hanswer

theorem Quiet.keeps {stepped : Stepped} (h : session.Quiet stepped) (hmove : input.isMove = false)
    (hforfeits : session.forfeitsOn input = false) : session.Keeps input stepped where
  gone_eq := by
    have hpanics : session.panicsOn Point.isRecovering input = false := by
      cases input with
      | outcome outcome => exact absurd hmove Bool.noConfusion
      | _ => rfl
    rw [hforfeits, hpanics, Bool.or_false, Bool.or_false, isGone, isGone, h.parts_eq, h.point_eq]
  busy_eq := by
    rw [not_begins_of_answers fun entry hmem => (h.answers entry hmem).2, isBusy_eq_point?,
      h.point_eq, ← isBusy_eq_point?, hmove, Bool.false_and]

theorem isGone_of_none (hnone : session.active = none) :
    session.isGone = session.parts.isNone := by
  rw [isGone, point?_eq_none.mpr hnone, Option.all_none, Bool.and_true]

theorem spawn_of_none (hnone : session.active = none)
    (hcalm : ∀ entry ∈ log, entry.effect = .enter .idle) (hactivation : input.isActivation = true) :
    begins input (spawn (session, log)).2 = !session.isGone ∧
      (spawn (session, log)).1.isBusy = !session.isGone ∧
      (spawn (session, log)).1.isGone = session.isGone := by
  rw [isGone_of_none hnone]
  cases hparts : session.parts with
  | none =>
      have hself : spawn (session, log) = (session, log) := by simp [spawn, hparts]
      rw [hself, isBusy_of_none hnone, isGone_of_none hnone, hparts]
      refine ⟨not_begins fun entry hmem => ?_, rfl, rfl⟩
      rw [hcalm entry hmem]
      simp
  | some parts =>
      have hnew : spawn (session, log) =
          ({ session with
              phase := .connecting
              parts := none
              active := some { handlers := parts.handlers } },
            log ++ [session.entry (.enter .connecting)]) := by
        simp [spawn, hnone, hparts, enter]
      rw [hnew]
      refine ⟨?_, rfl, rfl⟩
      simp [begins, hactivation, entry]

theorem collect_of_rest (hrest : session.isBusy = false) :
    session.collect.1.active = none ∧ session.collect.1.isGone = session.isGone ∧
      ∀ entry ∈ session.collect.2, entry.effect = .enter .idle := by
  have hempty : ∀ entry ∈ ([] : List Entry), entry.effect = .enter .idle :=
    fun _ hmem => absurd hmem List.not_mem_nil
  cases hactive : session.active with
  | none =>
      have hself : session.collect = (session, []) := by simp [collect, hactive]
      rw [hself]
      exact ⟨hactive, rfl, hempty⟩
  | some task =>
      rw [isBusy_of_active hactive, Bool.not_eq_false'] at hrest
      have hpoint? := point?_of_active hactive
      rcases hasEnded_cases hrest with hpoint | hpoint
      · have hback : session.collect =
            ({ session with active := none, parts := some ⟨task.handlers⟩ }, []) := by
          simp [collect, hactive, hpoint]
        rw [hback, isGone, isGone, hpoint?, hpoint]
        exact ⟨rfl, (Bool.and_false _).symm, hempty⟩
      · have hback : session.collect = { session with active := none }.enter .idle := by
          simp [collect, hactive, hpoint]
        rw [hback, isGone, isGone, hpoint?, hpoint]
        refine ⟨rfl, rfl, fun entry hmem => ?_⟩
        rw [List.mem_singleton.mp hmem]
        rfl

theorem activate_of_rest (hrest : session.isBusy = false) :
    begins (.request .activate) session.activate.2 = !session.isGone ∧
      session.activate.1.isBusy = !session.isGone ∧ session.activate.1.isGone = session.isGone := by
  obtain ⟨hnone, hgone, hcalm⟩ := collect_of_rest hrest
  rw [← hgone]
  exact spawn_of_none hnone hcalm rfl

theorem activateLate_of_none (hnone : session.active = none) :
    begins (.request .activateLate) session.activateLate.2 = !session.isGone ∧
      session.activateLate.1.isBusy = !session.isGone ∧
      session.activateLate.1.isGone = session.isGone := by
  have hself : session.forfeit = (session, []) := by simp [forfeit, hnone]
  rw [activateLate, hself]
  exact spawn_of_none hnone (fun _ hmem => absurd hmem List.not_mem_nil) rfl

theorem activateLate_of_ended (hlent : session.Lent) {task : Task}
    (hactive : session.active = some task) (hended : task.hasEnded = true) :
    session.activateLate = ({ session with active := none }, []) := by
  have hgiven : session.forfeit = ({ session with active := none }, []) := by
    simp [forfeit, hactive, hended]
  rw [activateLate, hgiven]
  simp [spawn, hlent.parts_eq hactive]

theorem begins_activate :
    begins (.request .activate) session.activate.2 = (!session.isBusy && !session.isGone) := by
  cases hbusy : session.isBusy with
  | true =>
      obtain ⟨task, hactive, hunended⟩ := active_of_isBusy hbusy
      rw [(activate_of_busy hactive hunended).1]
      exact Bool.and_false _
  | false => exact (activate_of_rest hbusy).1

theorem begins_activateLate (hlent : session.Lent) :
    begins (.request .activateLate) session.activateLate.2 =
      (session.active.isNone && !session.isGone) := by
  cases hactive : session.active with
  | none => exact (activateLate_of_none hactive).1
  | some task =>
      cases hended : task.hasEnded with
      | true =>
          rw [activateLate_of_ended hlent hactive hended]
          exact Bool.and_false _
      | false =>
          rw [(activate_of_busy hactive hended).2]
          exact Bool.and_false _

theorem activate_keeps : session.Keeps (.request .activate) session.activate := by
  cases hbusy : session.isBusy with
  | true =>
      obtain ⟨task, hactive, hunended⟩ := active_of_isBusy hbusy
      rw [(activate_of_busy hactive hunended).1]
      exact Quiet.keeps (.silent rfl rfl rfl rfl) rfl rfl
  | false =>
      obtain ⟨hbegins, hbusy', hgone⟩ := activate_of_rest hbusy
      constructor
      · simp [hgone, panicsOn, forfeitsOn]
      · rw [hbegins, hbusy', hbusy, Nat.add_comm]
        rfl

theorem activateLate_keeps (hlent : session.Lent) :
    session.Keeps (.request .activateLate) session.activateLate := by
  cases hactive : session.active with
  | none =>
      obtain ⟨hbegins, hbusy, hgone⟩ := activateLate_of_none hactive
      constructor
      · simp [hgone, panicsOn, forfeitsOn, hactive]
      · rw [hbegins, hbusy, isBusy_of_none hactive, Nat.add_comm]
        rfl
  | some task =>
      cases hended : task.hasEnded with
      | false =>
          rw [(activate_of_busy hactive hended).2]
          refine Quiet.keeps (.silent rfl rfl rfl rfl) rfl ?_
          rw [forfeitsOn, hactive, Option.any_some, hended]
      | true =>
          rw [activateLate_of_ended hlent hactive hended]
          constructor
          · rw [forfeitsOn, hactive, Option.any_some, hended, Bool.or_true, isGone_of_none rfl]
            exact Option.isNone_iff_eq_none.mpr (hlent.parts_eq hactive)
          · rw [isBusy_of_active hactive, hended]
            rfl

theorem request_keeps (hlent : session.Lent) (request : Request) :
    session.Keeps (.request request) (session.request request) := by
  cases request with
  | activate => exact activate_keeps
  | activateLate => exact activateLate_keeps hlent
  | deactivate => exact deactivate_quiet.keeps rfl rfl
  | release => exact release_quiet.keeps rfl rfl
  | send frame => exact (send_quiet frame).keeps rfl rfl
  | next => exact next_quiet.keeps rfl rfl

theorem reclaim?_keeps {stepped : Stepped} (hreclaim : session.reclaim? = some stepped) :
    session.Keeps .reclaim stepped := by
  obtain ⟨task, hactive, hended, rfl⟩ := reclaim?_eq_some hreclaim
  constructor
  · rw [isGone_of_none rfl, isGone, point?_of_active hactive]
    rcases hasEnded_cases hended with hpoint | hpoint
    · simp [hpoint, panicsOn, forfeitsOn, Point.isDead]
    · simp [hpoint, panicsOn, forfeitsOn, Point.isDead]
  · rw [isBusy_of_active hactive, hended]
    rfl

theorem not_hasEnded_of_moves {config : Config} {p p' : Progress}
    (h : Progress.Moves config p input p') : p.task.hasEnded = false := by
  cases hended : p.task.hasEnded with
  | false => rfl
  | true =>
      rcases hasEnded_cases hended with hended | hended
      · cases h <;> simp_all [Point.containsPanic]
      · cases h <;> simp_all [Point.containsPanic]

theorem isDead_of_moves {task : Task} {p : Progress} (hactive : session.active = some task)
    (h : Progress.Moves session.config ⟨session.now, session.phase, task, []⟩ input p) :
    p.task.point.isDead = session.panicsOn Point.isRecovering input := by
  cases h with
  | @answer deadline event hpoint =>
      rcases Progress.hearAwaiting_point ⟨session.now, session.phase, task, []⟩ session.config event
        with hstay | ⟨link, hlinked⟩ | ⟨fault, hrefused⟩
      · rw [hstay, hpoint]
        rfl
      · rw [hlinked]
        rfl
      · rw [hrefused]
        rfl
  | @hear link event hpoint =>
      rcases Progress.hearLinked_point ⟨session.now, session.phase, task, []⟩ link event
        with hstay | ⟨close, hlost⟩
      · rw [hstay]
        rfl
      · rw [hlost]
        rfl
  | @closed ending hpoint =>
      rcases Progress.proceed_point ⟨session.now, session.phase, task, []⟩ session.config ending
        with hended | ⟨wake, hpausing⟩
      · rw [hended]
        rfl
      · rw [hpausing]
        rfl
  | panic hcontains =>
      rw [panicsOn, point?_of_active hactive, Option.any_some,
        Point.isRecovering_of_contained hcontains]
      rfl
  | death hpoint =>
      have hat : task.point = .closing (.panicked _ _) := hpoint
      rw [panicsOn, point?_of_active hactive, Option.any_some, hat]
      rfl
  | _ => rfl

theorem move_keeps (hlent : session.Lent) {task : Task} {p : Progress}
    (hactive : session.active = some task)
    (h : Progress.Moves session.config ⟨session.now, session.phase, task, []⟩ input p) :
    session.Keeps input
      ({ session with phase := p.phase, active := some p.task }, p.log) := by
  have hbusy : task.hasEnded = false := not_hasEnded_of_moves h
  constructor
  · have hforfeits : session.forfeitsOn input = false := by cases h <;> rfl
    have halive : task.point.isDead = false := by
      unfold Task.hasEnded at hbusy
      cases hpoint : task.point with
      | died =>
          rw [hpoint] at hbusy
          exact absurd hbusy Bool.noConfusion
      | _ => rfl
    rw [isGone, isGone, hlent.parts_eq hactive, point?_of_active hactive, point?_of_active rfl,
      Option.all_some, Option.all_some, isDead_of_moves hactive h, halive, hforfeits]
    exact (Bool.or_false _).symm
  · have hbegins : begins input p.log = false := by
      rw [begins, not_isActivation_of_moves h, Bool.false_and]
    rw [isBusy_of_active hactive, isBusy_of_active rfl, h.isMove, hbusy, hbegins, Option.any_some]
    cases p.task.hasEnded <;> rfl

theorem Steps.keeps (h : session.Steps input next more) (hlent : session.Lent) :
    session.Keeps input (next, more) := by
  cases h with
  | request hheld => exact request_keeps hlent _
  | reclaim hstopping hreclaim => exact reclaim?_keeps hreclaim
  | elapse duration => exact (elapse_quiet duration).keeps rfl rfl
  | move hactive hmoves => exact move_keeps hlent hactive hmoves

/-! ## Runs -/

theorem isGone_of_run? {config : Config} {handlers : Handlers} {start : Session}
    {inputs : List Input} (hstart : ofConfig config handlers = .ok start)
    (hrun : start.run? inputs = some (session, log)) : session.isGone = start.losesIn inputs := by
  have hnew : start.isGone = false := by
    obtain rfl := ofConfig_eq_ok hstart
    rfl
  refine run?_induction (motive := fun inputs session _ =>
    session.isGone = start.losesIn inputs) hnew ?_ hrun
  intro inputs input session next log more hbefore h hstep
  have hlent := (disciplined_of_run? hstart hbefore).lent
  rw [((step?_steps hstep).keeps hlent).gone_eq, h, losesIn, losesIn, panicsAt_snoc _ _ hbefore,
    forfeitsIn, forfeitsIn, observe_snoc _ _ hbefore hstep]
  ac_rfl

theorem started_of_run? {config : Config} {handlers : Handlers} {start : Session}
    {inputs : List Input} (hstart : ofConfig config handlers = .ok start)
    (hrun : start.run? inputs = some (session, log)) :
    start.startedIn inputs = start.endedIn inputs + session.isBusy.toNat := by
  have hnew : start.isBusy = false := by
    obtain rfl := ofConfig_eq_ok hstart
    rfl
  refine run?_induction (motive := fun inputs session _ =>
    start.startedIn inputs = start.endedIn inputs + session.isBusy.toNat) ?_ ?_ hrun
  · rw [hnew]
    rfl
  · intro inputs input session next log more hbefore h hstep
    have hlent := (disciplined_of_run? hstart hbefore).lent
    have hbusy := ((step?_steps hstep).keeps hlent).busy_eq
    rw [startedIn, endedIn, observe_snoc _ _ hbefore hstep, observe_snoc _ _ hbefore hstep,
      ← startedIn, ← endedIn, h]
    dsimp only at hbusy ⊢
    omega

/-- The transport and the handlers are in exactly one place. -/
theorem places_eq_one (hlent : session.Lent) :
    session.parts.isSome.toNat + (session.active.any (!·.point.isDead)).toNat +
      session.isGone.toNat = 1 := by
  cases hactive : session.active with
  | none =>
      rw [isGone_of_none hactive]
      cases session.parts <;> rfl
  | some task =>
      rw [isGone, hlent.parts_eq hactive, point?_of_active hactive, Option.any_some,
        Option.all_some]
      cases task.point.isDead <;> rfl

/-! ## The phase of a session that was stopped -/

theorem spawn_eq_self {stepped : Stepped} (hnone : (spawn stepped).1.active = none) :
    spawn stepped = stepped := by
  rcases spawn_cases stepped with heq | ⟨parts, -, -, heq⟩
  · exact heq
  · rw [heq] at hnone
    exact absurd hnone (Option.some_ne_none _)

def Tidy (session : Session) (forfeited : Bool) : Prop :=
  session.active = none → session.phase = .idle ∨ forfeited = true

variable {forfeited : Bool}

theorem Tidy.or (h : session.Tidy forfeited) (more : Bool) : session.Tidy (forfeited || more) :=
  fun hnone => (h hnone).imp_right fun hforfeited => by rw [hforfeited, Bool.true_or]

theorem Quiet.tidy {stepped : Stepped} (h : session.Quiet stepped)
    (htidy : session.Tidy forfeited) : stepped.1.Tidy forfeited := by
  intro hnone
  rw [← point?_eq_none, h.point_eq, point?_eq_none] at hnone
  rw [h.phase_eq]
  exact htidy hnone

theorem collect_tidy (hphase : session.phase = session.standing) (htidy : session.Tidy forfeited) :
    session.collect.1.Tidy forfeited := by
  rcases session.collect_cases with heq | ⟨task, hactive, hpoint, heq⟩ | ⟨task, -, -, heq⟩
  · rw [heq]
    exact htidy
  · have hidle := phase_of_active hphase hactive
    rw [hpoint] at hidle
    rw [heq]
    exact fun _ => .inl hidle
  · rw [heq]
    exact fun _ => .inl rfl

theorem forfeit_tidy (htidy : session.Tidy forfeited) :
    session.forfeit.1.Tidy (forfeited || session.forfeitsOn (.request .activateLate)) := by
  intro hnone
  rcases session.forfeit_cases with heq | ⟨task, hactive, hended, heq⟩
  · rw [heq] at hnone ⊢
    rw [forfeitsOn, hnone, Option.any_none, Bool.or_false]
    exact htidy hnone
  · rw [forfeitsOn, hactive, Option.any_some, hended, Bool.or_true]
    exact .inr rfl

theorem spawn_tidy {stepped : Stepped} (htidy : stepped.1.Tidy forfeited) :
    (spawn stepped).1.Tidy forfeited := by
  intro hnone
  have hself := spawn_eq_self hnone
  rw [hself] at hnone ⊢
  exact htidy hnone

theorem Steps.tidy (h : session.Steps input next more) (hphase : session.phase = session.standing)
    (htidy : session.Tidy forfeited) : next.Tidy (forfeited || session.forfeitsOn input) := by
  cases h with
  | @request request hheld =>
      cases request with
      | activate => exact (spawn_tidy (collect_tidy hphase htidy)).or _
      | activateLate => exact spawn_tidy (forfeit_tidy htidy)
      | deactivate => exact (deactivate_quiet.tidy htidy).or _
      | release => exact (release_quiet.tidy htidy).or _
      | send frame => exact ((send_quiet frame).tidy htidy).or _
      | next => exact (next_quiet.tidy htidy).or _
  | reclaim hstopping hreclaim =>
      obtain ⟨task, -, -, heq⟩ := reclaim?_eq_some hreclaim
      obtain ⟨rfl, -⟩ := Prod.mk.inj heq
      exact fun _ => .inl rfl
  | elapse duration => exact ((elapse_quiet duration).tidy htidy).or _
  | move hactive hmoves => exact fun hnone => absurd hnone (Option.some_ne_none _)

theorem tidy_of_run? {config : Config} {handlers : Handlers} {start : Session}
    {inputs : List Input} (hstart : ofConfig config handlers = .ok start)
    (hrun : start.run? inputs = some (session, log)) : session.Tidy (start.forfeitsIn inputs) := by
  refine run?_induction (motive := fun inputs session _ => session.Tidy (start.forfeitsIn inputs))
    ?_ ?_ hrun
  · obtain rfl := ofConfig_eq_ok hstart
    exact fun _ => .inl rfl
  · intro inputs input session next log more hbefore h hstep
    rw [forfeitsIn, observe_snoc _ _ hbefore hstep, ← forfeitsIn]
    exact (step?_steps hstep).tidy (disciplined_of_run? hstart hbefore).phase_eq h

/-! ## Ownership -/

theorem step?_request {request : Request}
    (hstep : session.step? (.request request) = some (next, more)) :
    session.request request = (next, more) := by
  rw [step?, Option.ite_none_right_eq_some, Option.some.injEq] at hstep
  exact hstep.2

theorem active_of_stopped (hinput : input = .reclaim ∨ input = .request .deactivate)
    (hstep : session.step? input = some (next, more)) (hheld : next.tenure = .held) :
    next.active = none := by
  rcases hinput with rfl | rfl
  · rw [step?, Option.ite_none_right_eq_some] at hstep
    obtain ⟨task, -, -, heq⟩ := reclaim?_eq_some hstep.2
    obtain ⟨rfl, -⟩ := Prod.mk.inj heq
    rfl
  · have hrequest := step?_request hstep
    rw [Session.request, deactivate] at hrequest
    cases hactive : session.active with
    | none =>
        rw [hactive] at hrequest
        obtain ⟨rfl, -⟩ := Prod.mk.inj hrequest
        exact hactive
    | some task =>
        rw [hactive] at hrequest
        obtain ⟨rfl, -⟩ := Prod.mk.inj hrequest
        exact absurd hheld Tenure.noConfusion

/--
The transport and the handlers are with the session or with its one task, unless they
were lost.  An activation starts a task if none runs and nothing is lost, and disturbs
none that runs; at the end of a turn it starts one only if there is nothing to collect.
A session that was asked to stop comes to it, whatever its task waits for, and then
stays quiet until it is activated again.
-/
theorem ownership {config : Config} {handlers : Handlers} {start : Session}
    {inputs : List Input} (hstart : ofConfig config handlers = .ok start)
    (hrun : start.run? inputs = some (session, log)) :
    session.parts.isSome.toNat + (session.active.any (!·.point.isDead)).toNat +
      (start.losesIn inputs).toNat = 1 ∧
    start.startedIn inputs = start.endedIn inputs + session.isBusy.toNat ∧
    begins (.request .activate) session.activate.2 =
      (!session.isBusy && !start.losesIn inputs) ∧
    begins (.request .activateLate) session.activateLate.2 =
      (session.active.isNone && !start.losesIn inputs) ∧
    (session.isBusy = true →
      session.activate = (session, []) ∧ session.activateLate = (session, [])) ∧
    (session.tenure = .stopping → ∃ moves stepped, moves.all Input.isMove = true ∧
      session.run? (moves ++ [.reclaim]) = some stepped) ∧
    (∀ input next made, (input = .reclaim ∨ input = .request .deactivate) →
      session.step? input = some (next, made) → next.tenure = .held →
      next.active = none ∧ (start.forfeitsIn inputs = false → next.phase = .idle) ∧
      ∀ later final more, next.run? later = some (final, more) →
        later.all (!·.isActivation) = true →
        final.active = none ∧ final.phase = next.phase ∧ ∀ entry ∈ more, entry.IsAnswer) := by
  have hdisciplined := disciplined_of_run? hstart hrun
  rw [← isGone_of_run? hstart hrun]
  refine ⟨places_eq_one hdisciplined.lent, started_of_run? hstart hrun, begins_activate,
    begins_activateLate hdisciplined.lent, ?_, ?_, ?_⟩
  · intro hbusy
    obtain ⟨task, hactive, hunended⟩ := active_of_isBusy hbusy
    exact activate_of_busy hactive hunended
  · intro hstopping
    obtain ⟨task, hactive, hcancelled⟩ := cancels_of_run? hstart hrun hstopping
    exact exists_reclaim hstopping hactive hcancelled
  · intro input next made hinput hstep hheld
    have hnone := active_of_stopped hinput hstep hheld
    refine ⟨hnone, fun hkept => ?_, fun later final more => still_of_none hnone⟩
    have htidy := (step?_steps hstep).tidy hdisciplined.phase_eq (tidy_of_run? hstart hrun)
    have hforfeits : session.forfeitsOn input = false := by
      rcases hinput with rfl | rfl <;> rfl
    rw [hkept, hforfeits] at htidy
    exact (htidy hnone).resolve_right Bool.false_ne_true

def dropped : List Input :=
  connecting ++ [.outcome (.event (.closed (.remote none ""))), .outcome .closed]

theorem ownership_of_dropped :
    ∃ start kept lost keptLog lostLog, ofConfig plainConfig {} = .ok start ∧
      start.run? dropped = some (kept, keptLog) ∧
      start.run? (dropped ++ [.request .activateLate]) = some (lost, lostLog) ∧
      begins (.request .activate) kept.activate.2 = true ∧
      begins (.request .activateLate) kept.activateLate.2 = false ∧
      lost.parts.isSome = false ∧ lost.active.any (!·.point.isDead) = false := by
  have hstart : ofConfig plainConfig {} = .ok (fresh plainConfig) := rfl
  have hkept : (((fresh plainConfig).run? dropped).map fun stepped =>
      (stepped.1.isBusy, stepped.1.active.isNone)) = some (false, false) := by
    decide +kernel
  have hlost : (((fresh plainConfig).run? (dropped ++ [.request .activateLate])).map fun stepped =>
      stepped.1.isBusy) = some false := by
    decide +kernel
  have hloses : (fresh plainConfig).losesIn dropped = false ∧
      (fresh plainConfig).losesIn (dropped ++ [.request .activateLate]) = true := by
    decide +kernel
  obtain ⟨⟨kept, keptLog⟩, hkeptRun, hresult⟩ := Option.map_eq_some_iff.mp hkept
  obtain ⟨hrest, hthere⟩ := Prod.mk.inj hresult
  obtain ⟨⟨lost, lostLog⟩, hlostRun, -⟩ := Option.map_eq_some_iff.mp hlost
  obtain ⟨-, -, hactivate, hlate, -⟩ := ownership hstart hkeptRun
  obtain ⟨hplaces, -⟩ := ownership hstart hlostRun
  refine ⟨fresh plainConfig, kept, lost, keptLog, lostLog, hstart, hkeptRun, hlostRun, ?_, ?_, ?_⟩
  · rw [hactivate, hrest, hloses.1]
    rfl
  · rw [hlate, hthere]
    rfl
  · rw [hloses.2] at hplaces
    cases hparts : lost.parts.isSome with
    | false =>
        cases hactive : lost.active.any (!·.point.isDead) with
        | false => exact ⟨rfl, rfl⟩
        | true => simp [hparts, hactive] at hplaces
    | true => simp [hparts] at hplaces

end Session

end Stomp
