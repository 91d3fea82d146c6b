import Stomp.Proofs.Session.Hearing
import Stomp.Proofs.Session.Ownership
import Stomp.Proofs.Session.Retry

/-!
# Containment of panics

A panic of the transport outside a close ends the task in the one way that
`Ending.panicked` says, and the session can be activated like a new one afterwards,
unless it is activated too late (`Session.contains_panic`).
-/

namespace Stomp

namespace Session

variable {session next : Session} {log more : List Entry} {input : Input}

/-! ## At rest -/

theorem activate_as_new {config : Config} {handlers : Handlers} {start : Session}
    {inputs : List Input} (hstart : ofConfig config handlers = .ok start)
    (hrun : start.run? inputs = some (session, log)) (hrest : session.isBusy = false)
    (hheld : session.tenure = .held) (hkept : start.losesIn inputs = false) :
    session.activate =
      Session.activate
        { config, now := session.now, parts := some ⟨handlers.after log⟩ } := by
  have hdisciplined := disciplined_of_run? hstart hrun
  have hconfig := hdisciplined.config_eq
  have hphase := hdisciplined.phase_eq
  have hheard := withHandlers_of_run? hstart hrun
  rw [← isGone_of_run? hstart hrun] at hkept
  cases hactive : session.active with
  | none =>
      rw [isGone_of_none hactive, Option.isNone_eq_false_iff, Option.isSome_iff_exists] at hkept
      obtain ⟨parts, hparts⟩ := hkept
      have hhandlers : parts = ⟨handlers.after log⟩ := by
        have hsame := congrArg Session.parts hheard
        rw [hparts, withHandlers, hparts] at hsame
        exact (Option.some.inj hsame).symm
      have hidle : session.phase = .idle := by
        rw [hphase, standing, hactive]
        exact rest_of_parts hparts
      simp [activate, collect, spawn, enter, entry, hactive, hparts, hidle, hhandlers, hconfig,
        hheld]
  | some task =>
      rw [isBusy_of_active hactive, Bool.not_eq_false'] at hrest
      rcases hasEnded_cases hrest with hpoint | hpoint
      · have hhandlers : task.handlers = handlers.after log := by
          have hsame := congrArg Session.active hheard
          rw [hactive, withHandlers, hactive] at hsame
          exact (congrArg Task.handlers (Option.some.inj hsame)).symm
        have hidle : session.phase = .idle := by
          rw [phase_of_active hphase hactive, hpoint]
          rfl
        simp [activate, collect, spawn, enter, entry, hactive, hpoint, hidle, hhandlers, hconfig,
          hheld]
      · rw [isGone, hdisciplined.lent.parts_eq hactive, point?_of_active hactive, hpoint] at hkept
        exact absurd hkept Bool.noConfusion

/-! ## After a panic -/

/-- How a session is after a panic was caught, with what it did since. -/
structure Recovering (fault : Fault) (wasConnected : Bool) (session : Session)
    (deeds : List Deed) : Prop where
  busy : session.isBusy = true →
    session.point? = some (.closing (.panicked fault wasConnected)) ∧ deeds = []
  rest : session.isBusy = false →
    session.phase = .idle ∧ deeds = (Ending.panicked fault wasConnected).owed

variable {fault : Fault} {wasConnected : Bool} {deeds : List Deed}

theorem Recovering.quiet (h : Recovering fault wasConnected session deeds)
    (hquiet : session.Quiet (next, more)) : Recovering fault wasConnected next deeds := by
  have hpoint : next.point? = session.point? := hquiet.point_eq
  have hphase : next.phase = session.phase := hquiet.phase_eq
  constructor
  · rw [hquiet.isBusy_eq, hpoint]
    exact h.busy
  · rw [hquiet.isBusy_eq, hphase]
    exact h.rest

theorem Recovering.turn (h : Recovering fault wasConnected session deeds)
    (hturns : session.Turns input (next, more)) (hsame : begins input more = false) :
    Recovering fault wasConnected next deeds := by
  obtain ⟨hidle, hdeeds⟩ := h.rest hturns.rest
  have hnone : next.active = none := by
    rcases hturns.active_eq with ⟨-, hnone⟩ | ⟨hbegins, -⟩
    · exact hnone
    · exact absurd (hsame.symm.trans hbegins) Bool.noConfusion
  constructor
  · intro hbusy
    rw [isBusy_of_none hnone] at hbusy
    exact absurd hbusy Bool.noConfusion
  · intro _
    rcases hturns.phase_eq hnone with hphase | hphase
    · exact ⟨hphase, hdeeds⟩
    · exact ⟨hphase.trans hidle, hdeeds⟩

theorem recovering_proceed {task : Task} {p : Progress}
    (hpoint : task.point = .closing (.panicked fault wasConnected))
    (hp : p = Progress.proceed ⟨session.now, session.phase, task, []⟩ session.config
      (.panicked fault wasConnected)) :
    Recovering fault wasConnected { session with phase := p.phase, active := some p.task }
      (seen Entry.deed? p.log) := by
  have htells : Progress.Tells session.config ⟨session.now, session.phase, task, []⟩ none p :=
    hp ▸ Progress.tells_proceed rfl hpoint
  have hdeeds := htells.deeds_eq
  subst hp
  rw [hpoint] at hdeeds
  constructor
  · exact fun hbusy => absurd hbusy Bool.noConfusion
  · exact fun _ => ⟨rfl, by simpa [Progress.proceed, Point.owed] using hdeeds⟩

theorem Recovering.step (h : Recovering fault wasConnected session deeds)
    (hstep : session.Steps input next more)
    (hclosing : session.panicsOn Point.isClosing input = false)
    (hsame : begins input more = false) :
    Recovering fault wasConnected next (deeds ++ seen Entry.deed? more) := by
  rcases hstep.ways with
    ⟨hquiet, -⟩ | ⟨hturns, -⟩ | ⟨-, task, p, hactive, hmoves, rfl, rfl⟩
  · rw [hquiet.deeds_eq, List.append_nil]
    exact h.quiet hquiet
  · rw [hturns.deeds_eq, List.append_nil]
    exact h.turn hturns hsame
  · have hbusy : session.isBusy = true := by
      rw [isBusy_of_active hactive, not_hasEnded_of_moves hmoves]
      rfl
    obtain ⟨hpoint, rfl⟩ := h.busy hbusy
    rw [point?_of_active hactive, Option.some.injEq] at hpoint
    rcases hmoves.of_closing hpoint with ⟨rfl, hp⟩ | ⟨panic, rfl⟩
    · exact recovering_proceed hpoint hp
    · simp [panicsOn, point?_of_active hactive, hpoint, Point.isClosing] at hclosing

theorem recovering_of_panic {panic : Panic} {struck : Session} {made : List Entry}
    (hstrike : session.step? (.outcome (.panicked panic)) = some (struck, made))
    (hclosing : session.panicsOn Point.isClosing (.outcome (.panicked panic)) = false) :
    seen Entry.deed? made = [.call .close] ∧
      Recovering (Progress.panicFault panic) (session.phase == .connected) struck [] := by
  cases step?_steps hstrike with
  | @move _ task p hactive hmoves =>
      cases hmoves with
      | panic hpoint =>
          refine ⟨by simp [Progress.recover, Progress.close], ?_, ?_⟩
          · exact fun _ => ⟨rfl, rfl⟩
          · exact fun hrest => absurd hrest Bool.noConfusion
      | death hpoint =>
          have hat : task.point = .closing (.panicked _ _) := hpoint
          simp [panicsOn, point?_of_active hactive, hat, Point.isClosing] at hclosing

theorem recovering_of_run? {start : Session} {inputs : List Input}
    (h : Recovering fault wasConnected start deeds)
    (hrun : start.run? inputs = some (session, log))
    (hclosing : start.panicsAt Point.isClosing inputs = false)
    (hsame : start.startedIn inputs = 0) :
    Recovering fault wasConnected session (deeds ++ seen Entry.deed? log) := by
  refine run?_induction (motive := fun inputs session log =>
    start.panicsAt Point.isClosing inputs = false → start.startedIn inputs = 0 →
      Recovering fault wasConnected session (deeds ++ seen Entry.deed? log))
    ?_ ?_ hrun hclosing hsame
  · intro _ _
    simpa using h
  · intro inputs input session next log more hbefore ih hstep hclosing hsame
    rw [panicsAt_snoc _ _ hbefore, Bool.or_eq_false_iff] at hclosing
    rw [startedIn, observe_snoc _ _ hbefore hstep, ← startedIn] at hsame
    obtain ⟨hnone, hbegins⟩ := Nat.add_eq_zero_iff.mp hsame
    rw [seen_append, ← List.append_assoc]
    exact (ih hclosing.1 hnone).step (step?_steps hstep) hclosing.2
      (Bool.toNat_eq_zero.mp hbegins)

section

variable {kind other : Point → Bool}

theorem panicsOn_mono (hkinds : ∀ point, kind point = true → other point = true)
    (h : session.panicsOn kind input = true) : session.panicsOn other input = true := by
  unfold panicsOn at h ⊢
  split at h
  · obtain ⟨point, hpoint, hkind⟩ := (Option.any_eq_true _ _).mp h
    rw [hpoint, Option.any_some]
    exact hkinds point hkind
  · exact absurd h Bool.noConfusion

theorem panicsAt_mono (hkinds : ∀ point, kind point = true → other point = true)
    {inputs : List Input} (h : session.panicsAt kind inputs = true) :
    session.panicsAt other inputs = true := by
  induction inputs generalizing session with
  | nil => exact h
  | cons input inputs ih =>
      rw [panicsAt, Bool.or_eq_true] at h ⊢
      refine h.imp (panicsOn_mono hkinds) fun hlater => ?_
      cases hstep : session.step? input with
      | none => simp [hstep] at hlater
      | some stepped =>
          rw [hstep] at hlater
          exact ih hlater

end

/-- With a transport that closes without panicking a session loses only what it gives up. -/
theorem losesIn_eq {start : Session} {inputs : List Input}
    (hclosing : start.panicsAt Point.isClosing inputs = false) :
    start.losesIn inputs = start.forfeitsIn inputs := by
  have hrecovering : start.panicsAt Point.isRecovering inputs = false := by
    by_contra hpanics
    refine absurd (panicsAt_mono (fun point hpoint => ?_) (by simpa using hpanics))
      (Bool.eq_false_iff.mp hclosing)
    cases point with
    | closing ending => rfl
    | _ => exact absurd hpoint Bool.noConfusion
  rw [losesIn, hrecovering, Bool.false_or]

theorem Recovering.ends (h : Recovering fault wasConnected session deeds)
    (hbusy : session.isBusy = true) :
    ∃ next more, session.step? (.outcome .closed) = some (next, more) ∧ next.isBusy = false := by
  obtain ⟨hpoint, -⟩ := h.busy hbusy
  obtain ⟨task, hactive, hat⟩ := Option.map_eq_some_iff.mp hpoint
  exact ⟨_, _, step?_of_closing hactive hat, rfl⟩

/--
A panic of the transport outside a close is contained.  The session closes the transport
and does nothing else until that is done; then it reports the panic, and that it is
disconnected if it was connected when the panic came, and is idle.  Unless it is given
up by an activation at the end of the owner's turn, it is activated after that like a new
session with the same handlers.
-/
theorem contains_panic {config : Config} {handlers : Handlers} {start middle struck : Session}
    {before later : List Input} {panic : Panic} {earlier made : List Entry}
    (hstart : ofConfig config handlers = .ok start)
    (hbefore : start.run? before = some (middle, earlier))
    (hstrike : middle.step? (.outcome (.panicked panic)) = some (struck, made))
    (hlater : struck.run? later = some (session, log))
    (hclosing :
      start.panicsAt Point.isClosing (before ++ .outcome (.panicked panic) :: later) = false)
    (hsame : struck.startedIn later = 0) :
    let inputs := before ++ .outcome (.panicked panic) :: later
    let fault := Progress.panicFault panic
    fault.message = "transport error: session task panicked: " ++
      (match panic with
        | .text message => message
        | .other => "unknown panic") ∧
    (session.isBusy = true → seen Entry.deed? (made ++ log) = [.call .close] ∧
      ∃ next more, session.step? (.outcome .closed) = some (next, more) ∧
        next.isBusy = false) ∧
    (session.isBusy = false → session.phase = .idle ∧
      seen Entry.deed? (made ++ log) = .call .close :: .report (.failed fault) ::
        if middle.phase = .connected then [.report (.disconnected (.failed fault.message))]
        else []) ∧
    (session.isBusy = false → session.tenure = .held → start.forfeitsIn inputs = false →
      session.activate =
        Session.activate
          { config, now := session.now,
            parts := some ⟨handlers.after (earlier ++ (made ++ log))⟩ }) ∧
    (start.forfeitsIn inputs = true →
      begins (.request .activate) session.activate.2 = false ∧
      begins (.request .activateLate) session.activateLate.2 = false) := by
  intro inputs fault
  have hstruck : middle.run? (.outcome (.panicked panic) :: later) =
      some (session, made ++ log) := by
    simp [run?, hstrike, hlater]
  have hrun := run?_append hbefore hstruck
  have hloses := losesIn_eq hclosing
  rw [panicsAt_append _ _ hbefore, panicsAt, hstrike, Bool.or_eq_false_iff,
    Bool.or_eq_false_iff] at hclosing
  obtain ⟨hmade, hcaught⟩ := recovering_of_panic hstrike hclosing.2.1
  have hrecovering := recovering_of_run? hcaught hlater hclosing.2.2 hsame
  rw [seen_append, hmade]
  refine ⟨?_, ?_, ?_, ?_, ?_⟩
  · cases panic <;> rfl
  · intro hbusy
    refine ⟨?_, hrecovering.ends hbusy⟩
    have hnone := (hrecovering.busy hbusy).2
    rw [List.nil_append] at hnone
    rw [hnone]
    rfl
  · intro hrest
    obtain ⟨hidle, hdeeds⟩ := hrecovering.rest hrest
    refine ⟨hidle, ?_⟩
    rw [List.nil_append] at hdeeds
    rw [hdeeds, Ending.owed]
    simp [fault]
  · intro hrest hheld hkept
    exact activate_as_new hstart hrun hrest hheld (hloses.trans hkept)
  · intro hforfeited
    have hgone := (isGone_of_run? hstart hrun).trans (hloses.trans hforfeited)
    rw [begins_activate, begins_activateLate (disciplined_of_run? hstart hrun).lent, hgone]
    simp

def struckDown : Input := .outcome (.panicked (.text "boom"))

theorem contains_panic_while_listening :
    ∃ start middle struck kept lost earlier made log more,
      ofConfig plainConfig {} = .ok start ∧
      start.run? connecting = some (middle, earlier) ∧
      middle.step? struckDown = some (struck, made) ∧
      struck.run? [.outcome .closed] = some (kept, log) ∧
      seen Entry.deed? (made ++ log) =
        [.call .close,
          .report (.failed (.transport "session task panicked: boom")),
          .report (.disconnected
            (.failed "transport error: session task panicked: boom"))] ∧
      kept.activate = (fresh plainConfig).activate ∧
      struck.run? [.outcome .closed, .request .activateLate] = some (lost, more) ∧
      begins (.request .activate) lost.activate.2 = false := by
  have hstart : ofConfig plainConfig {} = .ok (fresh plainConfig) := rfl
  have hruns : (do
      let (before : Stepped) ← (fresh plainConfig).run? connecting
      let (strike : Stepped) ← before.1.step? struckDown
      let (after : Stepped) ← strike.1.run? [.outcome .closed]
      let (_ : Stepped) ← strike.1.run? [.outcome .closed, .request .activateLate]
      return (before.1.phase, after.1.isBusy, after.1.tenure, after.1.now,
        strike.1.startedIn [.outcome .closed],
        strike.1.startedIn [.outcome .closed, .request .activateLate])) =
        some (.connected, false, .held, 0, 0, 0) := by
    decide +kernel
  have hpanics : (fresh plainConfig).panicsAt Point.isClosing
        (connecting ++ [struckDown, .outcome .closed]) = false ∧
      (fresh plainConfig).panicsAt Point.isClosing
        (connecting ++ [struckDown, .outcome .closed, .request .activateLate]) = false := by
    decide +kernel
  have hforfeits : (fresh plainConfig).forfeitsIn
        (connecting ++ [struckDown, .outcome .closed]) = false ∧
      (fresh plainConfig).forfeitsIn
        (connecting ++ [struckDown, .outcome .closed, .request .activateLate]) = true := by
    decide +kernel
  simp only [Option.bind_eq_bind, Option.bind_eq_some_iff, Option.pure_def, Option.some.injEq,
    Prod.mk.injEq, Prod.exists] at hruns
  obtain ⟨middle, earlier, hbefore, struck, made, hstrike, kept, log, hkept, lost, more, hlost,
    hphase, hrest, hheld, hnow, hsame, hsame'⟩ := hruns
  obtain ⟨-, -, hover, hback, -⟩ :=
    contains_panic hstart hbefore hstrike hkept hpanics.1 hsame
  obtain ⟨-, -, -, -, hgone⟩ := contains_panic hstart hbefore hstrike hlost hpanics.2 hsame'
  refine ⟨fresh plainConfig, middle, struck, kept, lost, earlier, made, log, more, hstart, hbefore,
    hstrike, hkept, ?_, ?_, hlost, (hgone hforfeits.2).1⟩
  · rw [(hover hrest).2, hphase]
    rfl
  · rw [hback hrest hheld hforfeits.1, Handlers.after_nobody, hnow]
    rfl

end Session

end Stomp
