import Stomp.Proofs.Session.Discipline
import Stomp.Proofs.Session.Owing

/-!
# Pairing of reports

Every report of a connection is followed by one of its end, unless the transport
panics while DISCONNECT is written: then the session has left Connected already,
and ends without the report (`Session.pairing`).
-/

namespace Stomp

/-! ## Steps of a session -/

namespace Session

variable {session next : Session} {owed : Bool} {more : List Entry}

def Owes (session : Session) (owed : Bool) : Prop :=
  session.point?.elim (owed = false) (·.Owes owed)

structure Fair (owed : Bool) (stepped : Stepped) : Prop where
  settled : Settled owed stepped.2
  owes : stepped.1.Owes (owedAfter owed stepped.2)

theorem Quiet.neutral {stepped : Stepped} (h : session.Quiet stepped) :
    ∀ entry ∈ stepped.2, entry.IsNeutral :=
  fun entry hmem => (h.answers entry hmem).2.neutral

theorem Quiet.fair {stepped : Stepped} (h : session.Quiet stepped) (howes : session.Owes owed) :
    Fair owed stepped := by
  obtain ⟨hafter, hsettled⟩ := owedAfter_of_neutral h.neutral
  refine ⟨hsettled, ?_⟩
  rw [hafter, Owes, h.point_eq]
  exact howes

theorem owes_of_active (howes : session.Owes owed) {task : Task}
    (hactive : session.active = some task) : task.point.Owes owed := by
  rw [Owes, point?_of_active hactive] at howes
  exact howes

theorem fair_idle (session : Session) (hnone : next.active = none) :
    Fair false (next, [session.entry (.enter .idle)]) where
  settled := ⟨fun howed => absurd howed Bool.false_ne_true, trivial⟩
  owes := by
    rw [Owes, point?, hnone]
    rfl

theorem collect_fair (howes : session.Owes owed) : Fair owed session.collect := by
  rcases session.collect_cases with
    heq | ⟨task, hactive, hpoint, heq⟩ | ⟨task, hactive, hpoint, heq⟩
  · rw [heq]
    exact ⟨trivial, howes⟩
  · have hat := owes_of_active howes hactive
    rw [hpoint] at hat
    rw [heq]
    exact ⟨trivial, hat⟩
  · have hat := owes_of_active howes hactive
    rw [hpoint] at hat
    obtain rfl : owed = false := hat
    rw [heq]
    exact fair_idle session rfl

theorem owes_of_hasEnded {task : Task} (hended : task.hasEnded = true)
    (howes : task.point.Owes owed) : owed = false := by
  rcases hasEnded_cases hended with hpoint | hpoint
  · rwa [hpoint] at howes
  · rwa [hpoint] at howes

theorem forfeit_fair (howes : session.Owes owed) : Fair owed session.forfeit := by
  rcases session.forfeit_cases with heq | ⟨task, hactive, hended, heq⟩
  · rw [heq]
    exact ⟨trivial, howes⟩
  · rw [heq]
    exact ⟨trivial, owes_of_hasEnded hended (owes_of_active howes hactive)⟩

theorem Fair.spawn {stepped : Stepped} (h : Fair owed stepped) : Fair owed (spawn stepped) := by
  rcases spawn_cases stepped with heq | ⟨parts, hactive, -, heq⟩
  · rw [heq]
    exact h
  · have hnone : owedAfter owed stepped.2 = false := by
      have hafter := h.owes
      rw [Owes, point?, hactive] at hafter
      exact hafter
    rw [heq]
    constructor
    · rw [settled_append, hnone]
      exact ⟨h.settled, fun howed => absurd howed Bool.false_ne_true, trivial⟩
    · rw [owedAfter_append, hnone]
      rfl

theorem request_fair (howes : session.Owes owed) (request : Request) :
    Fair owed (session.request request) := by
  cases request with
  | activate => exact (collect_fair howes).spawn
  | activateLate => exact (forfeit_fair howes).spawn
  | deactivate => exact deactivate_quiet.fair howes
  | release => exact release_quiet.fair howes
  | send frame => exact (send_quiet frame).fair howes
  | next => exact next_quiet.fair howes

theorem reclaim?_fair (howes : session.Owes owed) {stepped : Stepped}
    (h : session.reclaim? = some stepped) : Fair owed stepped := by
  obtain ⟨task, hactive, hended, rfl⟩ := reclaim?_eq_some h
  obtain rfl := owes_of_hasEnded hended (owes_of_active howes hactive)
  exact fair_idle session rfl

/-! ## Panics -/

def panicsOn (kind : Point → Bool) (session : Session) : Input → Bool
  | .outcome (.panicked _) => session.point?.any kind
  | _ => false

/-- Whether the transport panics at a point of a kind in the course of a run. -/
def panicsAt (kind : Point → Bool) (session : Session) : List Input → Bool
  | [] => false
  | input :: inputs =>
      session.panicsOn kind input ||
        match session.step? input with
        | some (next, _) => next.panicsAt kind inputs
        | none => false

theorem panicsAt_snoc (kind : Point → Bool) {start : Session} {inputs : List Input}
    {log : List Entry} (input : Input) (hrun : start.run? inputs = some (session, log)) :
    start.panicsAt kind (inputs ++ [input]) =
      (start.panicsAt kind inputs || session.panicsOn kind input) := by
  induction inputs generalizing start log with
  | nil =>
      obtain ⟨rfl, rfl⟩ := Prod.mk.inj (Option.some.inj hrun)
      simp only [List.nil_append, panicsAt, Bool.false_or]
      cases start.step? input <;> simp
  | cons first inputs ih =>
      obtain ⟨middle, made, rest, hfirst, hrest, rfl⟩ := run?_cons_eq_some hrun
      simp only [List.cons_append, panicsAt, hfirst, ih hrest, Bool.or_assoc]

theorem panicsAt_append (kind : Point → Bool) {start middle : Session} {inputs : List Input}
    {log : List Entry} (later : List Input) (hrun : start.run? inputs = some (middle, log)) :
    start.panicsAt kind (inputs ++ later) =
      (start.panicsAt kind inputs || middle.panicsAt kind later) := by
  induction inputs generalizing start log with
  | nil =>
      obtain ⟨rfl, rfl⟩ := Prod.mk.inj (Option.some.inj hrun)
      rfl
  | cons first inputs ih =>
      obtain ⟨next, made, rest, hfirst, hrest, rfl⟩ := run?_cons_eq_some hrun
      simp only [List.cons_append, panicsAt, hfirst, ih hrest, Bool.or_assoc]

theorem Steps.fair {input : Input} (h : session.Steps input next more)
    (hphase : session.phase = session.standing) (howes : session.Owes owed)
    (hparting : session.panicsOn Point.isParting input = false)
    (hclosing : session.panicsOn Point.isClosing input = false) : Fair owed (next, more) := by
  cases h with
  | request hheld => exact request_fair howes _
  | reclaim hstopping hreclaim => exact reclaim?_fair howes hreclaim
  | elapse duration => exact (elapse_quiet duration).fair howes
  | @move _ task p hactive hmoves =>
      have hfair := hmoves.fair rfl (phase_of_active hphase hactive)
        (owes_of_active howes hactive) (by
          rintro panic rfl
          simp only [panicsOn, point?_of_active hactive, Option.any_some] at hparting hclosing
          exact ⟨hparting, hclosing⟩)
      obtain ⟨left, howing, hleft⟩ := hfair
      refine ⟨howing.settled, ?_⟩
      rw [howing.owed_eq]
      exact hleft

/-! ## A panic while DISCONNECT is written -/

/-- The task closes the transport after a panic and will report no end of a connection. -/
def Interrupted (session : Session) : Prop :=
  ∃ fault, session.point? = some (.closing (.panicked fault false))

theorem Steps.interrupt {input : Input} (h : session.Steps input next more)
    (hphase : session.phase = session.standing) (howes : session.Owes owed)
    (hparting : session.panicsOn Point.isParting input = true) :
    owed = true ∧ next.Interrupted ∧ ∀ entry ∈ more, entry.IsNeutral := by
  cases h with
  | request hheld => exact absurd hparting Bool.false_ne_true
  | reclaim hstopping hreclaim => exact absurd hparting Bool.false_ne_true
  | elapse duration => exact absurd hparting Bool.false_ne_true
  | @move _ task p hactive hmoves =>
      have hnow := phase_of_active hphase hactive
      have hat := owes_of_active howes hactive
      cases hmoves with
      | @panic panic hcontains =>
          simp only [panicsOn, point?_of_active hactive, Option.any_some] at hparting
          have hpoint := Point.eq_parting hparting
          rw [hpoint] at hnow hat
          refine ⟨hat, ⟨Progress.panicFault panic, ?_⟩, ?_⟩
          · rw [point?, Progress.recover, hnow]
            rfl
          · intro entry hmem
            rcases List.mem_cons.mp hmem with rfl | hmem
            · exact ⟨rfl, rfl, rfl⟩
            · rw [List.mem_singleton.mp hmem]
              exact ⟨rfl, rfl, rfl⟩
      | death hpoint =>
          simp only [panicsOn, point?_of_active hactive, Option.any_some] at hparting
          rw [hpoint] at hparting
          exact absurd hparting Bool.false_ne_true
      | _ => exact absurd hparting Bool.false_ne_true

theorem Steps.interrupted {input : Input} (h : session.Steps input next more)
    (hinterrupted : session.Interrupted)
    (hclosing : session.panicsOn Point.isClosing input = false) :
    session.Quiet (next, more) ∨ ¬ Settled true more := by
  obtain ⟨fault, hpoint⟩ := hinterrupted
  obtain ⟨task, hactive, hat⟩ := Option.map_eq_some_iff.mp hpoint
  have hbusy : task.hasEnded = false := by rw [Task.hasEnded, hat]
  cases h with
  | request hheld => exact .inl (request_quiet hactive hbusy _)
  | reclaim hstopping hreclaim =>
      simp [reclaim?, hactive, hbusy] at hreclaim
  | elapse duration => exact .inl (elapse_quiet duration)
  | @move _ other p hother hmoves =>
      obtain rfl := Option.some.inj (hactive.symm.trans hother)
      rcases hmoves.of_closing hat with ⟨rfl, rfl⟩ | ⟨panic, rfl⟩
      · refine .inr ?_
        rintro ⟨-, hdeadline, -⟩
        exact absurd (hdeadline rfl) Bool.noConfusion
      · simp [panicsOn, hpoint, Point.isClosing] at hclosing

/-! ## Runs -/

theorem Fair.append {log : List Entry} (h : Fair owed (session, log))
    (hnext : Fair (owedAfter owed log) (next, more)) : Fair owed (next, log ++ more) where
  settled := settled_append.mpr ⟨h.settled, hnext.settled⟩
  owes := by
    rw [owedAfter_append]
    exact hnext.owes

/--
The account of a run.  With a panic while DISCONNECT was written, a deadline has
passed or will pass at the next step of the task.
-/
structure Accounted (parted : Bool) (session : Session) (log : List Entry) : Prop where
  fair : parted = false → Fair false (session, log)
  robbed : parted = true →
    ¬ Settled false log ∨ session.Interrupted ∧ owedAfter false log = true

theorem Accounted.step {parted : Bool} {log : List Entry} {input : Input}
    (h : Accounted parted session log) (hstep : session.Steps input next more)
    (hphase : session.phase = session.standing)
    (hclosing : session.panicsOn Point.isClosing input = false) :
    Accounted (parted || session.panicsOn Point.isParting input) next (log ++ more) := by
  cases parted with
  | true =>
      refine ⟨fun hfalse => absurd hfalse Bool.noConfusion, fun _ => ?_⟩
      rcases h.robbed rfl with hunsettled | ⟨hinterrupted, howed⟩
      · exact .inl fun hsettled => hunsettled (settled_append.mp hsettled).1
      · rcases hstep.interrupted hinterrupted hclosing with hquiet | hunsettled
        · refine .inr ⟨?_, ?_⟩
          · rw [Interrupted, hquiet.point_eq]
            exact hinterrupted
          · rw [owedAfter_append, howed]
            exact (owedAfter_of_neutral hquiet.neutral).1
        · refine .inl fun hsettled => hunsettled ?_
          have hlater := (settled_append.mp hsettled).2
          rwa [howed] at hlater
  | false =>
      have hfair := h.fair rfl
      rw [Bool.false_or]
      cases hparting : session.panicsOn Point.isParting input with
      | false =>
          refine ⟨fun _ => ?_, fun htrue => absurd htrue Bool.noConfusion⟩
          exact hfair.append (hstep.fair hphase hfair.owes hparting hclosing)
      | true =>
          refine ⟨fun hfalse => absurd hfalse Bool.noConfusion, fun _ => .inr ?_⟩
          obtain ⟨howed, hinterrupted, hneutral⟩ := hstep.interrupt hphase hfair.owes hparting
          refine ⟨hinterrupted, ?_⟩
          rw [owedAfter_append, (owedAfter_of_neutral hneutral).1]
          exact howed

theorem accounted_of_run? {config : Config} {handlers : Handlers} {start : Session}
    {inputs : List Input} {log : List Entry} (hstart : ofConfig config handlers = .ok start)
    (hrun : start.run? inputs = some (session, log))
    (hclosing : start.panicsAt Point.isClosing inputs = false) :
    Accounted (start.panicsAt Point.isParting inputs) session log := by
  have hnew : Accounted false start [] := by
    obtain rfl := ofConfig_eq_ok hstart
    exact ⟨fun _ => ⟨trivial, rfl⟩, fun htrue => absurd htrue Bool.noConfusion⟩
  refine run?_induction (motive := fun inputs session log =>
    start.panicsAt Point.isClosing inputs = false →
      Accounted (start.panicsAt Point.isParting inputs) session log)
    (fun _ => hnew) ?_ hrun hclosing
  intro inputs input session next log more hbefore h hstep hnone
  rw [panicsAt_snoc _ _ hbefore, Bool.or_eq_false_iff] at hnone
  rw [panicsAt_snoc _ _ hbefore]
  exact (h hnone.1).step (step?_steps hstep) (disciplined_of_run? hstart hbefore).phase_eq hnone.2

theorem not_interrupted (hrest : session.isBusy = false) : ¬ session.Interrupted := by
  rintro ⟨fault, hpoint⟩
  obtain ⟨task, hactive, hat⟩ := Option.map_eq_some_iff.mp hpoint
  simp [isBusy, hactive, Task.hasEnded, hat] at hrest

theorem owes_of_rest (hrest : session.isBusy = false) (howes : session.Owes owed) :
    owed = false := by
  cases hactive : session.active with
  | none =>
      rw [Owes, point?, hactive] at howes
      exact howes
  | some task =>
      simp only [isBusy, hactive, Option.any_some, Bool.not_eq_eq_eq_not, Bool.not_false] at hrest
      exact owes_of_hasEnded hrest (owes_of_active howes hactive)

/--
As long as closing the transport does not panic, reports are paired if writing
DISCONNECT does not panic either; and once the task has ended, only if it did not.
-/
theorem pairing {config : Config} {handlers : Handlers} {start : Session}
    {inputs : List Input} {log : List Entry} (hstart : ofConfig config handlers = .ok start)
    (hrun : start.run? inputs = some (session, log))
    (hclosing : start.panicsAt Point.isClosing inputs = false) :
    (start.panicsAt Point.isParting inputs = false →
      Paired log ∧ (session.isBusy = false → owedAfter false log = false)) ∧
    (session.isBusy = false → Paired log → start.panicsAt Point.isParting inputs = false) := by
  have h := accounted_of_run? hstart hrun hclosing
  refine ⟨?_, ?_⟩
  · intro hnone
    have hfair := h.fair hnone
    exact ⟨paired_iff.mpr hfair.settled, fun hrest => owes_of_rest hrest hfair.owes⟩
  · intro hrest hpaired
    cases hparting : start.panicsAt Point.isParting inputs with
    | false => rfl
    | true =>
        rcases h.robbed hparting with hunsettled | ⟨hinterrupted, -⟩
        · exact absurd (paired_iff.mp hpaired) hunsettled
        · exact absurd hinterrupted (not_interrupted hrest)

def contained : List Input :=
  connecting ++ [.outcome (.panicked .other), .outcome .closed]

def robbed : List Input :=
  connecting ++
    [.request .deactivate, .branch .cancel, .outcome (.panicked .other), .outcome .closed, .reclaim]

theorem pairing_of_panic :
    ∃ start kept lost keptLog lostLog, ofConfig plainConfig {} = .ok start ∧
      start.run? contained = some (kept, keptLog) ∧
      start.panicsAt Point.isClosing contained = false ∧ Paired keptLog ∧
      start.run? robbed = some (lost, lostLog) ∧
      start.panicsAt Point.isClosing robbed = false ∧ ¬ Paired lostLog := by
  have hstart : ofConfig plainConfig {} = .ok { config := plainConfig, parts := some ⟨{}⟩ } := rfl
  generalize hsession : ({ config := plainConfig, parts := some ⟨{}⟩ } : Session) = start at hstart
  have hcontained : ((start.run? contained).map fun stepped => stepped.1.isBusy) = some false := by
    rw [← hsession]
    decide +kernel
  have hrobbed : ((start.run? robbed).map fun stepped => stepped.1.isBusy) = some false := by
    rw [← hsession]
    decide +kernel
  have hpanics : start.panicsAt Point.isClosing contained = false ∧
      start.panicsAt Point.isParting contained = false ∧
      start.panicsAt Point.isClosing robbed = false ∧
      start.panicsAt Point.isParting robbed = true := by
    rw [← hsession]
    decide +kernel
  obtain ⟨hcalm, hkept, hcalm', hlost⟩ := hpanics
  obtain ⟨⟨kept, keptLog⟩, hkeptRun, -⟩ := Option.map_eq_some_iff.mp hcontained
  obtain ⟨⟨lost, lostLog⟩, hlostRun, hrest⟩ := Option.map_eq_some_iff.mp hrobbed
  have hpaired := ((pairing hstart hkeptRun hcalm).1 hkept).1
  have hunpaired : ¬ Paired lostLog := by
    intro h
    have hnone := (pairing hstart hlostRun hcalm').2 hrest h
    rw [hlost] at hnone
    exact absurd hnone Bool.noConfusion
  exact ⟨start, kept, lost, keptLog, lostLog, hstart, hkeptRun, hcalm, hpaired, hlostRun, hcalm',
    hunpaired⟩

end Session

end Stomp
