import Stomp.Proofs.Session.Runs
import Stomp.Simulation.Rig

/-!
# Rehearsals and runs

Whatever broker a session is rehearsed with, and in whatever order the rig takes what is
ready: what is observed of the rehearsal happens along one run of the session
(`Rig.rehearse_observed`).
-/

namespace Stomp.Simulation

open Session

/-- What is observed one after another happens along a run, and shows the phase it leads to. -/
inductive Observed : Session → List Rig.Observation → Prop
  | nil (session : Session) : Observed session []
  | cons {session next : Session} {inputs : List Input} {log : List Entry}
      {observations : List Rig.Observation} (answer : Answer)
      (hrun : session.run? inputs = some (next, log)) (hrest : Observed next observations) :
      Observed session (⟨answer, next.phase, log⟩ :: observations)

theorem Observed.run {session : Session} {observations : List Rig.Observation}
    (h : Observed session observations) :
    ∃ inputs last,
      session.run? inputs = some (last, observations.flatMap Rig.Observation.log) := by
  induction h with
  | nil session => exact ⟨[], session, rfl⟩
  | cons answer hrun hrest ih =>
      obtain ⟨later, last, hlater⟩ := ih
      exact ⟨_, last, run?_append hrun hlater⟩

namespace Rig

/-- The session of a rig came to where it is by a run, which the log of the rig goes on with. -/
def Reaches (rig next : Rig) : Prop :=
  ∃ inputs log, rig.session.run? inputs = some (next.session, log) ∧
    next.log = log.reverse ++ rig.log

variable {rig middle next : Rig}

theorem Reaches.of_same (hsession : next.session = rig.session) (hlog : next.log = rig.log) :
    rig.Reaches next :=
  ⟨[], [], by rw [hsession]; rfl, hlog⟩

theorem Reaches.refl (rig : Rig) : rig.Reaches rig := .of_same rfl rfl

theorem Reaches.trans (h : rig.Reaches middle) (hlater : middle.Reaches next) :
    rig.Reaches next := by
  obtain ⟨inputs, log, hrun, hlog⟩ := h
  obtain ⟨later, more, hmore, hnext⟩ := hlater
  exact ⟨inputs ++ later, log ++ more, run?_append hrun hmore, by simp [hnext, hlog]⟩

/-! ## Steps of the rig -/

variable (rig)

theorem answerCalls_eq (entries : List Entry) :
    (rig.answerCalls entries).session = rig.session ∧
      (rig.answerCalls entries).log = rig.log := by
  unfold answerCalls
  induction entries generalizing rig with
  | nil => exact ⟨rfl, rfl⟩
  | cons entry entries ih =>
      rw [List.foldl_cons, (ih _).1, (ih _).2]
      split <;> exact ⟨rfl, rfl⟩

theorem apply_reaches (input : Input) : rig.Reaches (rig.apply input) := by
  unfold apply
  split
  · exact .refl rig
  · rename_i session entries hstep
    have hsame := answerCalls_eq { rig with session, log := entries.reverse ++ rig.log } entries
    refine ⟨[input], entries, ?_, hsame.2⟩
    rw [hsame.1]
    simp [run?, hstep]

theorem advanceLate?_reaches (h : rig.advanceLate? = some next) : rig.Reaches next := by
  obtain ⟨input, -, rfl⟩ := Option.map_eq_some_iff.mp h
  exact rig.apply_reaches input

theorem advance?_reaches (h : rig.advance? = some next) : rig.Reaches next := by
  unfold advance? at h
  split at h
  · obtain rfl := Option.some.inj h
    exact apply_reaches { rig with reply := none } _
  · split at h
    · obtain rfl := Option.some.inj h
      exact rig.apply_reaches _
    · split at h
      · unfold advanceListening? at h
        split at h
        · rename_i broker outcome hdeliver
          obtain rfl := Option.some.inj h
          exact apply_reaches { rig with broker } (.outcome outcome)
        · rename_i broker hdeliver
          exact advanceLate?_reaches { rig with broker } h
      · exact rig.advanceLate?_reaches h

theorem advanceMany_reaches (count : Nat) : rig.Reaches (rig.advanceMany count) := by
  induction count generalizing rig with
  | zero => exact .refl rig
  | succ count ih =>
      unfold advanceMany
      split
      · exact .refl rig
      · rename_i next hnext
        exact (rig.advance?_reaches hnext).trans (ih next)

theorem settle_reaches : rig.Reaches rig.settle := rig.advanceMany_reaches rig.stepBound

theorem sleepFor_reaches (left : Duration) (fuel : Nat) : rig.Reaches (rig.sleepFor left fuel) := by
  induction fuel generalizing rig left with
  | zero => exact rig.apply_reaches _
  | succ fuel ih =>
      unfold sleepFor
      split
      · exact rig.apply_reaches _
      · simp only
        split
        · exact rig.apply_reaches _
        · exact (rig.apply_reaches _).trans ((settle_reaches _).trans (ih _ _))

theorem sleep_reaches (duration : Duration) : rig.Reaches (rig.sleep duration) :=
  rig.settle_reaches.trans ((sleepFor_reaches _ duration _).trans (settle_reaches _))

/-! ## What the owner does -/

theorem spend_reaches (cost : Nat) : rig.Reaches (rig.spend cost) := .of_same rfl rfl

theorem activate_reaches : rig.Reaches rig.activate :=
  (rig.apply_reaches _).trans (spend_reaches _ _)

theorem sendOnce_reaches (frame : Frame) : rig.Reaches (rig.sendOnce frame).1 := by
  unfold sendOnce
  split
  · exact .refl rig
  · simp only
    split
    · exact rig.apply_reaches _
    · exact (rig.apply_reaches _).trans (spend_reaches _ _)

theorem send_reaches (frame : Frame) (count : Nat) : rig.Reaches (rig.send frame count).1 := by
  induction count generalizing rig with
  | zero => exact .refl rig
  | succ count ih => exact (rig.sendOnce_reaches frame).trans (ih _)

theorem nextOnce_reaches : rig.Reaches rig.nextOnce.1 := by
  unfold nextOnce
  split
  · exact rig.spend_reaches 1
  · exact (rig.apply_reaches _).trans (spend_reaches _ _)

theorem next_reaches (count : Nat) : rig.Reaches (rig.next count).1 := by
  induction count generalizing rig with
  | zero => exact .refl rig
  | succ count ih =>
      have honce := rig.nextOnce_reaches
      unfold Rig.next
      split
      · rename_i taken frame heq
        rw [heq] at honce
        exact honce.trans (ih taken)
      · rename_i taken answer _ heq
        rwa [heq] at honce

theorem deactivate_reaches : rig.Reaches rig.deactivate := by
  have hasked := rig.apply_reaches (.request .deactivate)
  unfold deactivate
  simp only
  split
  · refine hasked.trans (.trans ?_ (spend_reaches _ 1))
    split
    · exact (settle_reaches _).trans (apply_reaches _ .reclaim)
    · exact apply_reaches _ .reclaim
  · exact hasked

theorem performHeld_reaches (action : Action) : rig.Reaches (rig.performHeld action).1 := by
  cases action with
  | activate => exact rig.activate_reaches
  | deactivate => exact rig.deactivate_reaches
  | release => exact rig.apply_reaches _
  | send frame count => exact rig.send_reaches frame count
  | next count => exact rig.next_reaches count
  | _ => exact .refl rig

theorem perform_reaches (action : Action) : rig.Reaches (rig.perform action).1 := by
  cases action with
  | sleep duration => exact rig.sleep_reaches duration
  | push events => exact .of_same rfl rfl
  | change change => exact .of_same rfl rfl
  | _ =>
      unfold perform
      simp only
      split
      · exact .refl rig
      · exact rig.performHeld_reaches _

/-! ## Rehearsals -/

theorem observe_reaches (action : Action) (settles : Bool) :
    Reaches { rig with log := [] } (rig.observe action settles).1 := by
  have hperformed := perform_reaches { rig with log := [] } action
  unfold observe
  cases settles with
  | false => exact hperformed
  | true => exact hperformed.trans (settle_reaches _)

/-- Every rehearsal of a session shows one run of it, whatever the broker and the owner do. -/
theorem rehearse_observed (actions : List (Action × Bool)) :
    Observed rig.session (rig.rehearse actions) := by
  induction actions generalizing rig with
  | nil => exact .nil rig.session
  | cons action actions ih =>
      obtain ⟨action, settles⟩ := action
      obtain ⟨inputs, log, hrun, hlog⟩ := rig.observe_reaches action settles
      have hshown : (rig.observe action settles).1.log.reverse = log := by simp [hlog]
      rw [← hshown] at hrun
      exact .cons (rig.observe action settles).2.answer hrun (ih (rig.observe action settles).1)

theorem rehearse_run (actions : List (Action × Bool)) :
    ∃ inputs last, rig.session.run? inputs =
      some (last, (rig.rehearse actions).flatMap Observation.log) :=
  (rig.rehearse_observed actions).run

end Rig

end Stomp.Simulation
