import Stomp.Proofs.Session.Activations

/-!
# Stopping a session

A task that was asked to stop can come to its end from wherever it is, without any
time passing (`Session.exists_reclaim`), and without a task nothing happens until the
session is activated again (`Session.still_of_none`).
-/

namespace Stomp

/-! ## The way to the end -/

def Ending.toEnd : Ending → Nat
  | .refused _ | .lost _ => 3
  | .shutdown | .panicked _ _ => 1

/-- The number of steps within which a cancelled task can end. -/
def Point.toEnd : Point → Nat
  | .finished | .died => 0
  | .closing ending => ending.toEnd
  | .dialing | .opening | .awaiting _ | .parting | .pausing _ => 2
  | .ready | .greeting | .linked _ => 3
  | .writing _ => 4

namespace Progress

variable (p : Progress) (config : Config)

theorem proceed_cancelled (ending : Ending) :
    (p.proceed config ending).task.cancelled = p.task.cancelled := by
  cases ending with
  | refused fault => by_cases h : config.reconnects = true <;> simp only [proceed, h] <;> rfl
  | lost close => by_cases h : config.reconnects = true <;> simp only [proceed, h] <;> rfl
  | shutdown => rfl
  | panicked fault wasConnected => cases wasConnected <;> rfl

theorem proceed_toEnd (ending : Ending) :
    (p.proceed config ending).task.point.toEnd < ending.toEnd := by
  cases ending with
  | refused fault =>
      rcases p.proceed_point config (.refused fault) with hended | ⟨wake, hpausing⟩
      · rw [hended]
        exact Nat.zero_lt_succ 2
      · rw [hpausing]
        exact Nat.lt_succ_self 2
  | lost close =>
      rcases p.proceed_point config (.lost close) with hended | ⟨wake, hpausing⟩
      · rw [hended]
        exact Nat.zero_lt_succ 2
      · rw [hpausing]
        exact Nat.lt_succ_self 2
  | shutdown => exact Nat.zero_lt_one
  | panicked fault wasConnected => exact Nat.zero_lt_one

/-- A cancelled task can always make a step nearer to its end, be it that a call returns. -/
theorem nears_end (hcancelled : p.task.cancelled = true) (hbusy : p.task.hasEnded = false) :
    ∃ p', ((∃ branch, p.branch? config branch = some p') ∨
        ∃ outcome, p.outcome? config outcome = some p') ∧
      p'.task.cancelled = true ∧ p'.task.point.toEnd < p.task.point.toEnd := by
  cases hpoint : p.task.point with
  | ready =>
      exact ⟨p.begin, .inl ⟨.start, by simp [branch?, hpoint]⟩, hcancelled, Nat.lt_succ_self 2⟩
  | dialing =>
      exact ⟨p.shutDown false, .inl ⟨.cancel, by simp [branch?, hpoint, hcancelled]⟩, hcancelled,
        Nat.lt_succ_self 1⟩
  | opening =>
      exact ⟨p.shutDown false, .inl ⟨.cancel, by simp [branch?, hpoint, hcancelled]⟩, hcancelled,
        Nat.lt_succ_self 1⟩
  | greeting =>
      exact ⟨p.goto (.awaiting (p.deadline? config)),
        .inr ⟨.sent (.ok ()), by simp [outcome?, hpoint]⟩, hcancelled, Nat.lt_succ_self 2⟩
  | awaiting deadline =>
      exact ⟨p.shutDown false, .inl ⟨.cancel, by simp [branch?, hpoint, hcancelled]⟩, hcancelled,
        Nat.lt_succ_self 1⟩
  | linked link =>
      exact ⟨p.shutDown true, .inl ⟨.cancel, by simp [branch?, hpoint, hcancelled]⟩, hcancelled,
        Nat.lt_succ_self 2⟩
  | writing link =>
      exact ⟨p.goto (.linked { link with lastSent := p.now }),
        .inr ⟨.sent (.ok ()), by simp [outcome?, hpoint]⟩, hcancelled, Nat.lt_succ_self 3⟩
  | parting =>
      exact ⟨p.close .shutdown, .inr ⟨.sent (.ok ()), by simp [outcome?, hpoint]⟩, hcancelled,
        Nat.lt_succ_self 1⟩
  | closing ending =>
      refine ⟨p.proceed config ending, .inr ⟨.closed, by simp [outcome?, hpoint]⟩, ?_,
        p.proceed_toEnd config ending⟩
      rw [proceed_cancelled, hcancelled]
  | pausing wake =>
      exact ⟨p.shutDown false, .inl ⟨.cancel, by simp [branch?, hpoint, hcancelled]⟩, hcancelled,
        Nat.lt_succ_self 1⟩
  | finished =>
      rw [Task.hasEnded, hpoint] at hbusy
      exact absurd hbusy Bool.noConfusion
  | died =>
      rw [Task.hasEnded, hpoint] at hbusy
      exact absurd hbusy Bool.noConfusion

end Progress

theorem Progress.Moves.cancelled_eq {config : Config} {p p' : Progress} {input : Input}
    (h : Moves config p input p') : p'.task.cancelled = p.task.cancelled := by
  cases h with
  | @answer deadline event hpoint =>
      rcases p.hearAwaiting_cases config event with heq | ⟨info, heq⟩ | ⟨fault, heq⟩ <;>
        rw [heq] <;> rfl
  | @hear link event hpoint =>
      rcases p.hearLinked_cases link event with
        heq | ⟨fault, heq⟩ | ⟨frame, heq⟩ | ⟨fault, heq⟩ | ⟨close, heq⟩
      · rw [heq]
        rfl
      · rw [heq]
        rfl
      · rw [heq, deliver]
        split <;> rfl
      · rw [heq]
        rfl
      · rw [heq]
        rfl
  | closed hpoint => exact p.proceed_cancelled config _
  | _ => rfl

namespace Session

variable {session next : Session} {log more : List Entry}

theorem step?_reclaim {task : Task} (hstopping : session.tenure = .stopping)
    (hactive : session.active = some task) (hended : task.hasEnded = true) :
    ∃ stepped, session.step? .reclaim = some stepped := by
  simp [step?, hstopping, reclaim?, hactive, hended]

theorem exists_step {task : Task} (hactive : session.active = some task)
    (hcancelled : task.cancelled = true) (hbusy : task.hasEnded = false) :
    ∃ input next made task', input.isMove = true ∧ session.step? input = some (next, made) ∧
      next.tenure = session.tenure ∧ next.active = some task' ∧ task'.cancelled = true ∧
      task'.point.toEnd < task.point.toEnd := by
  obtain ⟨p, hmove, hstill, hless⟩ :=
    Progress.nears_end ⟨session.now, session.phase, task, []⟩ session.config hcancelled hbusy
  rcases hmove with ⟨branch, hbranch⟩ | ⟨outcome, houtcome⟩
  · exact ⟨.branch branch, _, _, p.task, rfl, step?_branch hactive hbranch, rfl, rfl, hstill, hless⟩
  · exact ⟨.outcome outcome, _, _, p.task, rfl, step?_outcome hactive houtcome, rfl, rfl, hstill,
      hless⟩

theorem exists_reclaim {task : Task} (hstopping : session.tenure = .stopping)
    (hactive : session.active = some task) (hcancelled : task.cancelled = true) :
    ∃ moves stepped, moves.all Input.isMove = true ∧
      session.run? (moves ++ [.reclaim]) = some stepped := by
  induction hleft : task.point.toEnd using Nat.strongRecOn generalizing session task with
  | ind left ih =>
      cases hended : task.hasEnded with
      | true =>
          obtain ⟨stepped, hstep⟩ := step?_reclaim hstopping hactive hended
          exact ⟨[], _, rfl, by simp only [List.nil_append, run?, hstep]; rfl⟩
      | false =>
          obtain ⟨input, next, made, task', hmove, hstep, htenure, hactive', hcancelled', hless⟩ :=
            exists_step hactive hcancelled hended
          rw [hstopping] at htenure
          rw [hleft] at hless
          obtain ⟨moves, ⟨final, rest⟩, hmoves, hrun⟩ :=
            ih _ hless htenure hactive' hcancelled' rfl
          refine ⟨input :: moves, (final, made ++ rest), ?_, ?_⟩
          · rw [List.all_cons, hmove, hmoves]
            rfl
          · simp only [List.cons_append, run?, hstep, Option.bind_eq_bind, Option.bind_some, hrun]
            rfl

/-! ## Asking for the stop -/

/-- A session that waits for its task to stop has cancelled it. -/
def Cancels (session : Session) : Prop :=
  session.tenure = .stopping → ∃ task, session.active = some task ∧ task.cancelled = true

theorem request_cancels (hheld : session.tenure = .held) (request : Request) :
    (session.request request).1.Cancels := by
  intro hstopping
  cases request with
  | activate =>
      rw [Session.request, session.activate_owner.2, hheld] at hstopping
      exact absurd hstopping Tenure.noConfusion
  | activateLate =>
      rw [Session.request, session.activateLate_owner.2, hheld] at hstopping
      exact absurd hstopping Tenure.noConfusion
  | deactivate =>
      rw [Session.request, deactivate] at hstopping ⊢
      cases hactive : session.active with
      | none =>
          rw [hactive, hheld] at hstopping
          exact absurd hstopping Tenure.noConfusion
      | some task => exact ⟨_, rfl, rfl⟩
  | release => exact absurd hstopping Tenure.noConfusion
  | send frame =>
      rw [Session.request] at hstopping
      rcases session.send_cases frame with ⟨answer, -, heq⟩ | ⟨task, -, heq⟩ <;>
        rw [heq, hheld] at hstopping <;> exact absurd hstopping Tenure.noConfusion
  | next =>
      rw [Session.request] at hstopping
      rcases session.next_cases with ⟨answer, heq⟩ | ⟨task, frame, rest, -, -, heq⟩ <;>
        rw [heq, hheld] at hstopping <;> exact absurd hstopping Tenure.noConfusion

theorem Steps.cancels {input : Input} (h : session.Steps input next more)
    (hcancels : session.Cancels) : next.Cancels := by
  cases h with
  | request hheld => exact request_cancels hheld _
  | reclaim hstopping hreclaim =>
      obtain ⟨task, -, -, heq⟩ := reclaim?_eq_some hreclaim
      obtain ⟨rfl, -⟩ := Prod.mk.inj heq
      exact fun hstopping => absurd hstopping Tenure.noConfusion
  | elapse duration => exact hcancels
  | @move _ task p hactive hmoves =>
      intro hstopping
      obtain ⟨other, hother, hcancelled⟩ := hcancels hstopping
      obtain rfl := Option.some.inj (hactive.symm.trans hother)
      exact ⟨p.task, rfl, hmoves.cancelled_eq.trans hcancelled⟩

theorem cancels_of_run? {config : Config} {handlers : Handlers} {start : Session}
    {inputs : List Input} (hstart : ofConfig config handlers = .ok start)
    (hrun : start.run? inputs = some (session, log)) : session.Cancels := by
  refine run?_induction (motive := fun _ session _ => session.Cancels) ?_ ?_ hrun
  · obtain rfl := ofConfig_eq_ok hstart
    exact fun hstopping => absurd hstopping Tenure.noConfusion
  · intro inputs input session next log more _ h hstep
    exact (step?_steps hstep).cancels h

/-! ## Afterwards -/

theorem request_quiet_of_other {request : Request}
    (hother : (Input.request request).isActivation = false) :
    session.Quiet (session.request request) := by
  cases request with
  | activate => exact absurd hother Bool.noConfusion
  | activateLate => exact absurd hother Bool.noConfusion
  | deactivate => exact deactivate_quiet
  | release => exact release_quiet
  | send frame => exact send_quiet frame
  | next => exact next_quiet

theorem Steps.quiet_of_none {input : Input} (h : session.Steps input next more)
    (hnone : session.active = none) (hother : input.isActivation = false) :
    session.Quiet (next, more) := by
  cases h with
  | request hheld => exact request_quiet_of_other hother
  | reclaim hstopping hreclaim =>
      obtain ⟨task, hactive, -, -⟩ := reclaim?_eq_some hreclaim
      exact absurd (hnone.symm.trans hactive) (Option.some_ne_none task).symm
  | elapse duration => exact elapse_quiet duration
  | @move _ task p hactive hmoves =>
      exact absurd (hnone.symm.trans hactive) (Option.some_ne_none task).symm

theorem still_of_none (hnone : session.active = none) {later : List Input}
    (hrun : session.run? later = some (next, more))
    (hother : later.all (!·.isActivation) = true) :
    next.active = none ∧ next.phase = session.phase ∧ ∀ entry ∈ more, entry.IsAnswer := by
  refine run?_induction (motive := fun later next more => later.all (!·.isActivation) = true →
    next.active = none ∧ next.phase = session.phase ∧ ∀ entry ∈ more, entry.IsAnswer)
    (fun _ => ⟨hnone, rfl, fun _ hmem => absurd hmem List.not_mem_nil⟩) ?_ hrun hother
  intro later input middle next log more _ h hstep hother
  simp only [List.all_append, List.all_cons, List.all_nil, Bool.and_true, Bool.and_eq_true,
    Bool.not_eq_eq_eq_not, Bool.not_true] at hother
  obtain ⟨hmiddle, hphase, hanswers⟩ := h hother.1
  have hquiet := (step?_steps hstep).quiet_of_none hmiddle hother.2
  have hpoint : next.point? = middle.point? := hquiet.point_eq
  refine ⟨?_, hquiet.phase_eq.trans hphase, ?_⟩
  · rwa [← point?_eq_none, hpoint, point?_eq_none]
  · intro entry hmem
    rcases List.mem_append.mp hmem with hmem | hmem
    · exact hanswers entry hmem
    · exact (hquiet.answers entry hmem).2

end Session

end Stomp
