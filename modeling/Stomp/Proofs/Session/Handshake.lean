import Stomp.Proofs.Session.Versions

/-!
# Waiting for CONNECTED

An attempt that has written CONNECT ignores heartbeats and every frame but CONNECTED and
ERROR.  The first other thing to happen decides it, be that the end of the time which the
broker has from when CONNECT was written (`Session.awaits_answer`).
-/

namespace Stomp

/-! ## Verdicts -/

inductive Verdict where
  | welcomed (frame : Frame) (version : Version)
  | failed (fault : Fault)
  /-- The owner does not want it any more. -/
  | abandoned
  deriving DecidableEq, Repr

/-- Heartbeats, and frames other than CONNECTED and ERROR. -/
def Event.isChatter : Event → Bool
  | .item .heartbeat => true
  | .item (.frame frame) => frame.command != "CONNECTED" && frame.command != "ERROR"
  | .failed _ | .closed _ => false

/-- What decides an attempt that waits for CONNECTED, and how. -/
inductive Decides (config : Config) : Input → Verdict → Prop
  | welcome {frame : Frame} {version : Version} (hcommand : frame.command = "CONNECTED")
      (hselects : frame.Selects version) :
      Decides config (.outcome (.event (.item (.frame frame)))) (.welcomed frame version)
  | unsupported {frame : Frame} {text : String} (hcommand : frame.command = "CONNECTED")
      (htext : frame.header? "version" = some text)
      (hunknown : ∀ version : Version, Text.trim text ≠ version.name) :
      Decides config (.outcome (.event (.item (.frame frame))))
        (.failed (.handshakeFailure ("broker selected unsupported STOMP version " ++ text)))
  | rejected {frame : Frame} (hcommand : frame.command = "ERROR") :
      Decides config (.outcome (.event (.item (.frame frame))))
        (.failed (.protocol (ServerError.ofFrame frame)))
  | broken (fault : Fault) : Decides config (.outcome (.event (.failed fault))) (.failed fault)
  | closed (close : CloseInfo) :
      Decides config (.outcome (.event (.closed close)))
        (.failed (.handshakeFailure s!"connection closed before CONNECTED ({close.text})"))
  | late :
      Decides config (.branch .timeout)
        (.failed (.handshakeFailure
          s!"no CONNECTED frame within {Duration.text config.handshakeTimeout}"))
  | stopped : Decides config (.branch .cancel) .abandoned

namespace Decides

variable {config : Config} {input : Input} {verdict : Verdict} {event : Event}

theorem isMove (h : Decides config input verdict) : input.isMove = true := by
  cases h <;> rfl

theorem not_isChatter (h : Decides config (.outcome (.event event)) verdict) :
    event.isChatter = false := by
  cases h <;> simp_all [Event.isChatter]

end Decides

theorem Frame.Selects.unique {frame : Frame} {version other : Version}
    (h : frame.Selects version) (h' : frame.Selects other) : version = other := by
  rw [← selectedVersion?_eq_some_iff] at h h'
  exact Option.some.inj (h.symm.trans h')

theorem Decides.unique {config : Config} {input : Input} {verdict other : Verdict}
    (h : Decides config input verdict) (h' : Decides config input other) : verdict = other := by
  cases h with
  | @welcome frame version hcommand hselects =>
      cases h' with
      | welcome _ hother => rw [hselects.unique hother]
      | unsupported _ htext hunknown =>
          rw [Frame.Selects, htext] at hselects
          exact absurd hselects (hunknown version)
      | rejected herror => exact absurd (hcommand.symm.trans herror) (by decide)
  | @unsupported frame text hcommand htext hunknown =>
      cases h' with
      | welcome _ hselects =>
          rw [Frame.Selects, htext] at hselects
          exact absurd hselects (hunknown _)
      | unsupported _ hother _ => rw [Option.some.inj (htext.symm.trans hother)]
      | rejected herror => exact absurd (hcommand.symm.trans herror) (by decide)
  | @rejected frame hcommand =>
      cases h' with
      | welcome hconnected _ => exact absurd (hcommand.symm.trans hconnected) (by decide)
      | unsupported hconnected _ _ => exact absurd (hcommand.symm.trans hconnected) (by decide)
      | rejected _ => rfl
  | broken fault => cases h'; rfl
  | closed close => cases h'; rfl
  | late => cases h'; rfl
  | stopped => cases h'; rfl

theorem Frame.unknown_of_not_selects {frame : Frame} (h : ∀ version, ¬ frame.Selects version) :
    ∃ text, frame.header? "version" = some text ∧
      ∀ version : Version, Text.trim text ≠ version.name := by
  unfold Frame.Selects at h
  cases htext : frame.header? "version" with
  | none =>
      simp only [htext] at h
      exact absurd rfl (h .v10)
  | some text =>
      simp only [htext] at h
      exact ⟨text, rfl, h⟩

theorem Event.decided_of_not_isChatter (config : Config) {event : Event}
    (h : event.isChatter = false) :
    ∃ verdict, Decides config (.outcome (.event event)) verdict := by
  cases event with
  | failed fault => exact ⟨_, .broken fault⟩
  | closed close => exact ⟨_, .closed close⟩
  | item item =>
      cases item with
      | heartbeat => exact absurd h Bool.noConfusion
      | frame frame =>
          by_cases hconnected : frame.command = "CONNECTED"
          · by_cases hknown : ∃ version, frame.Selects version
            · obtain ⟨version, hselects⟩ := hknown
              exact ⟨_, .welcome hconnected hselects⟩
            · obtain ⟨text, htext, hunknown⟩ :=
                Frame.unknown_of_not_selects (not_exists.mp hknown)
              exact ⟨_, .unsupported hconnected htext hunknown⟩
          · have herror : frame.command = "ERROR" := by
              simpa [isChatter, hconnected] using h
            exact ⟨_, .rejected herror⟩

theorem Event.isChatter_iff (config : Config) (event : Event) :
    event.isChatter = true ↔ ∀ verdict, ¬ Decides config (.outcome (.event event)) verdict := by
  constructor
  · intro h verdict hdecides
    rw [hdecides.not_isChatter] at h
    exact absurd h Bool.noConfusion
  · intro h
    by_contra hchatter
    obtain ⟨verdict, hdecides⟩ := decided_of_not_isChatter config (by simpa using hchatter)
    exact h verdict hdecides

/-! ## Moves of a waiting task -/

namespace Progress

variable {config : Config} {p p' : Progress} {event : Event}

def Follows (p : Progress) (p' : Progress) : Verdict → Prop
  | .welcomed frame version =>
      ∃ info : ConnectedInfo, info.frame = frame ∧ info.version = version ∧ p' = p.connect info
  | .failed fault => p' = p.close (.refused fault)
  | .abandoned => p' = p.shutDown false

theorem hearAwaiting_of_isChatter (p : Progress) (config : Config)
    (h : event.isChatter = true) : p.hearAwaiting config event = p := by
  cases event with
  | failed fault => exact absurd h Bool.noConfusion
  | closed close => exact absurd h Bool.noConfusion
  | item item =>
      cases item with
      | heartbeat => rfl
      | frame frame =>
          simp only [Event.isChatter, Bool.and_eq_true, bne_iff_ne] at h
          simp [hearAwaiting, Frame.isConnected, Frame.isError, h]

theorem hearAwaiting_of_decides {verdict : Verdict}
    (h : Decides config (.outcome (.event event)) verdict) :
    p.Follows (p.hearAwaiting config event) verdict := by
  cases h with
  | @welcome frame version hcommand hselects =>
      obtain ⟨info, hinfo, hversion, hframe⟩ :=
        ConnectedInfo.ofFrame?_of_selects config.heartbeat.text hselects
      refine ⟨info, hframe, hversion, ?_⟩
      simp [hearAwaiting, Frame.isConnected, hcommand, hinfo]
  | @unsupported frame text hcommand htext hunknown =>
      have hnone : ConnectedInfo.ofFrame? frame config.heartbeat.text = none := by
        cases hinfo : ConnectedInfo.ofFrame? frame config.heartbeat.text with
        | none => rfl
        | some info =>
            have hselects := (ConnectedInfo.of_ofFrame? hinfo).2
            rw [Frame.Selects, htext] at hselects
            exact absurd hselects (hunknown _)
      simp [Follows, hearAwaiting, Frame.isConnected, hcommand, hnone, versionFault, htext]
  | rejected hcommand =>
      simp [Follows, hearAwaiting, Frame.isConnected, Frame.isError, hcommand]
  | broken fault => rfl
  | closed close => rfl

theorem Moves.of_awaiting {deadline : Option Instant} {input : Input}
    (h : Moves config p input p') (hpoint : p.task.point = .awaiting deadline)
    (hcalm : input.isPanic = false) :
    (p' = p ∧ ∀ verdict, ¬ Decides config input verdict) ∨
      ∃ verdict, Decides config input verdict ∧ p.Follows p' verdict := by
  cases h with
  | abandon hat => exact .inr ⟨_, .stopped, rfl⟩
  | timeout hat hdue => exact .inr ⟨_, .late, rfl⟩
  | @answer _ event hat =>
      cases hchatter : event.isChatter with
      | true =>
          exact .inl ⟨p.hearAwaiting_of_isChatter config hchatter,
            (event.isChatter_iff config).mp hchatter⟩
      | false =>
          obtain ⟨verdict, hdecides⟩ := Event.decided_of_not_isChatter config hchatter
          exact .inr ⟨verdict, hdecides, hearAwaiting_of_decides hdecides⟩
  | panic hat => exact absurd hcalm Bool.noConfusion
  | death hat => exact absurd hcalm Bool.noConfusion
  | _ => simp_all

end Progress

/-! ## Waiting sessions -/

def Config.answerDue? (config : Config) (written : Instant) : Option Instant :=
  if config.handshakeTimeout = 0 then none else some (written + config.handshakeTimeout)

namespace Session

variable {session next : Session} {log more : List Entry} {input : Input} {config : Config}
  {written : Instant}

/-- CONNECT was written at some time, and nothing has decided the attempt since. -/
structure Awaits (config : Config) (written : Instant) (session : Session) : Prop where
  point_eq : session.point? = some (.awaiting (config.answerDue? written))
  phase_eq : session.phase = .connecting
  config_eq : session.config = config

def ClosesWith (session : Session) (report : Report) (phase : Phase) : Prop :=
  ∃ next more, session.step? (.outcome .closed) = some (next, more) ∧
    seen Entry.deed? more = [.report report] ∧ next.phase = phase

theorem closesWith_refused {fault : Fault}
    (hpoint : session.point? = some (.closing (.refused fault)))
    (hphase : session.phase = .connecting) :
    session.ClosesWith (.failed fault)
      (if session.config.reconnects then .connecting else .idle) := by
  obtain ⟨task, hactive, hat⟩ := Option.map_eq_some_iff.mp hpoint
  refine ⟨_, _, step?_of_closing hactive hat, ?_, ?_⟩
  · cases hagain : session.config.reconnects <;> simp [Progress.proceed, hagain, Progress.pause]
  · cases hagain : session.config.reconnects <;>
      simp [Progress.proceed, hagain, Progress.pause, Progress.goto, Progress.report,
        Progress.note, Progress.enter, hphase]

theorem closesWith_shutdown (hpoint : session.point? = some (.closing .shutdown)) :
    session.ClosesWith (.disconnected .deactivated) .idle := by
  obtain ⟨task, hactive, hat⟩ := Option.map_eq_some_iff.mp hpoint
  exact ⟨_, _, step?_of_closing hactive hat, by simp [Progress.proceed], rfl⟩

theorem ClosesWith.unique {first second : Report} {phase other : Phase}
    (h : session.ClosesWith first phase) (h' : session.ClosesWith second other) :
    first = second := by
  obtain ⟨next, more, hstep, hdeeds, -⟩ := h
  obtain ⟨last, tale, hstep', hdeeds', -⟩ := h'
  obtain ⟨rfl, rfl⟩ := Prod.mk.inj (Option.some.inj (hstep.symm.trans hstep'))
  simpa using hdeeds.symm.trans hdeeds'

end Session

/-- How a verdict shows in the session after it, and in what was done upon it. -/
def Verdict.Shows (next : Session) (more : List Entry) : Verdict → Prop
  | .welcomed frame version =>
      next.phase = .connected ∧ ∃ info : ConnectedInfo, info.frame = frame ∧
        info.version = version ∧ seen Entry.deed? more = [.report (.connected info)]
  | .failed fault =>
      next.phase = .connecting ∧ seen Entry.deed? more = [.call .close] ∧
        next.ClosesWith (.failed fault) (if next.config.reconnects then .connecting else .idle)
  | .abandoned =>
      next.phase = .disconnecting ∧ seen Entry.deed? more = [.call .close] ∧
        next.ClosesWith (.disconnected .deactivated) .idle

theorem Verdict.Shows.unique {next : Session} {more : List Entry} {first second : Verdict}
    (h : first.Shows next more) (h' : second.Shows next more) : first = second := by
  cases first with
  | welcomed frame version =>
      obtain ⟨hphase, info, rfl, rfl, hdeeds⟩ := h
      cases second with
      | welcomed frame version =>
          obtain ⟨-, other, rfl, rfl, hdeeds'⟩ := h'
          have hsame : info = other := by simpa using hdeeds.symm.trans hdeeds'
          rw [hsame]
      | failed fault => exact absurd (hphase.symm.trans h'.1) Phase.noConfusion
      | abandoned => exact absurd (hphase.symm.trans h'.1) Phase.noConfusion
  | failed fault =>
      cases second with
      | welcomed frame version => exact absurd (h.1.symm.trans h'.1) Phase.noConfusion
      | failed other => simpa using h.2.2.unique h'.2.2
      | abandoned => exact absurd (h.1.symm.trans h'.1) Phase.noConfusion
  | abandoned =>
      cases second with
      | welcomed frame version => exact absurd (h.1.symm.trans h'.1) Phase.noConfusion
      | failed fault => exact absurd (h.1.symm.trans h'.1) Phase.noConfusion
      | abandoned => rfl

theorem Verdict.Shows.deeds_ne_nil {next : Session} {more : List Entry} {verdict : Verdict}
    (h : verdict.Shows next more) : seen Entry.deed? more ≠ [] := by
  cases verdict with
  | welcomed frame version =>
      obtain ⟨-, info, -, -, hdeeds⟩ := h
      simp [hdeeds]
  | failed fault => simp [h.2.1]
  | abandoned => simp [h.2.1]

namespace Session

variable {session next : Session} {log more : List Entry} {input : Input} {config : Config}
  {written : Instant}

theorem Awaits.shows {task : Task} {p : Progress} {verdict : Verdict}
    (h : session.Awaits config written)
    (hfollows : Progress.Follows ⟨session.now, session.phase, task, []⟩ p verdict) :
    verdict.Shows { session with phase := p.phase, active := some p.task } p.log := by
  cases verdict with
  | welcomed frame version =>
      obtain ⟨info, rfl, rfl, rfl⟩ := hfollows
      exact ⟨rfl, info, rfl, rfl, by simp [Progress.connect]⟩
  | failed fault =>
      obtain rfl : p = _ := hfollows
      exact ⟨h.phase_eq, by simp [Progress.close], closesWith_refused rfl h.phase_eq⟩
  | abandoned =>
      obtain rfl : p = _ := hfollows
      exact ⟨rfl, by simp [Progress.shutDown, Progress.close], closesWith_shutdown rfl⟩

/-- A waiting session goes on waiting, and nobody notices anything, until a verdict shows. -/
theorem Awaits.step (h : session.Awaits config written) (hsteps : session.Steps input next more)
    (hcalm : input.isPanic = false) :
    (next.Awaits config written ∧ seen Entry.deed? more = [] ∧
        ∀ verdict, ¬ Decides config input verdict) ∨
      ∃ verdict, Decides config input verdict ∧ verdict.Shows next more := by
  obtain ⟨task, hactive, hat⟩ := Option.map_eq_some_iff.mp h.point_eq
  rcases hsteps.ways with
    ⟨hquiet, hmove⟩ | ⟨hturns, -⟩ | ⟨-, other, p, hother, hmoves, rfl, rfl⟩
  · refine .inl ⟨⟨?_, ?_, ?_⟩, hquiet.deeds_eq, fun verdict hdecides => ?_⟩
    · exact (hquiet.point_eq : next.point? = session.point?).trans h.point_eq
    · exact (hquiet.phase_eq : next.phase = session.phase).trans h.phase_eq
    · exact (hquiet.config_eq : next.config = session.config).trans h.config_eq
    · exact absurd (hdecides.isMove.symm.trans hmove) Bool.noConfusion
  · have hrest := hturns.rest
    simp [isBusy_of_active hactive, Task.hasEnded, hat] at hrest
  · obtain rfl := Option.some.inj (hactive.symm.trans hother)
    rw [h.config_eq] at hmoves
    rcases hmoves.of_awaiting hat hcalm with ⟨rfl, hundecided⟩ | ⟨verdict, hdecides, hfollows⟩
    · exact .inl ⟨⟨(point?_of_active rfl).trans (congrArg some hat), h.phase_eq, h.config_eq⟩, rfl,
        hundecided⟩
    · exact .inr ⟨verdict, hdecides, h.shows hfollows⟩

theorem Awaits.decides_iff_shows (h : session.Awaits config written)
    (hsteps : session.Steps input next more) (hcalm : input.isPanic = false) (verdict : Verdict) :
    Decides config input verdict ↔ verdict.Shows next more := by
  rcases h.step hsteps hcalm with ⟨-, hnothing, hundecided⟩ | ⟨other, hdecides, hshows⟩
  · exact ⟨fun hdecides => absurd hdecides (hundecided verdict),
      fun hshows => absurd hnothing hshows.deeds_ne_nil⟩
  · constructor
    · intro hverdict
      rwa [hverdict.unique hdecides]
    · intro hverdict
      rwa [hverdict.unique hshows]

/-! ## While nothing is decided -/

theorem awaits_of_greeted (hpoint : session.point? = some .greeting)
    (hphase : session.phase = session.standing) (hconfig : session.config = config)
    (hsteps : session.Steps (.outcome (.sent (.ok ()))) next more) :
    next.Awaits config session.now := by
  obtain ⟨task, hactive, hat⟩ := Option.map_eq_some_iff.mp hpoint
  cases hsteps with
  | @move _ other p hother hmoves =>
      obtain rfl := Option.some.inj (hactive.symm.trans hother)
      cases hmoves with
      | greeted _ =>
          refine ⟨?_, ?_, hconfig⟩
          · rw [point?_of_active rfl, ← hconfig]
            rfl
          · rw [phase_of_active hphase hactive, hat]
            rfl
      | _ => simp_all

theorem awaits_of_run? {inputs : List Input} (h : session.Awaits config written)
    (hrun : session.run? inputs = some (next, log))
    (hcalm : ∀ input ∈ inputs, input.isPanic = false)
    (hundecided : ∀ input ∈ inputs, ∀ verdict, ¬ Decides config input verdict) :
    next.Awaits config written ∧ seen Entry.deed? log = [] := by
  refine run?_induction (motive := fun inputs next log =>
    (∀ input ∈ inputs, input.isPanic = false) →
      (∀ input ∈ inputs, ∀ verdict, ¬ Decides config input verdict) →
        next.Awaits config written ∧ seen Entry.deed? log = [])
    (fun _ _ => ⟨h, rfl⟩) ?_ hrun hcalm hundecided
  intro inputs input session next log more _ ih hstep hcalm hundecided
  obtain ⟨hwaits, hnothing⟩ := ih (fun other hmem => hcalm other (List.mem_append_left _ hmem))
    fun other hmem => hundecided other (List.mem_append_left _ hmem)
  rcases hwaits.step (step?_steps hstep) (hcalm input (by simp)) with
    ⟨hnext, hmore, -⟩ | ⟨verdict, hdecides, -⟩
  · exact ⟨hnext, by rw [seen_append, hnothing, hmore, List.append_nil]⟩
  · exact absurd hdecides (hundecided input (by simp) verdict)

theorem Awaits.step?_event (h : session.Awaits config written) (event : Event) :
    ∃ next more, session.step? (.outcome (.event event)) = some (next, more) ∧
      (event.isChatter = true → next = session ∧ more = []) := by
  obtain ⟨task, hactive, hat⟩ := Option.map_eq_some_iff.mp h.point_eq
  refine ⟨_, _, step?_of_awaiting event hactive hat, fun hchatter => ?_⟩
  rw [Progress.hearAwaiting_of_isChatter _ _ hchatter]
  exact ⟨by rw [← hactive], rfl⟩

/-! ## The time that the broker has -/

theorem Awaits.isSome_timeout (h : session.Awaits config written) :
    (session.step? (.branch .timeout)).isSome = true ↔
      config.handshakeTimeout ≠ 0 ∧ written + config.handshakeTimeout ≤ session.now := by
  obtain ⟨task, hactive, hat⟩ := Option.map_eq_some_iff.mp h.point_eq
  by_cases hlimit : config.handshakeTimeout = 0
  · simp [step?, advance?, hactive, Progress.branch?, hat, Progress.isDue, Config.answerDue?,
      hlimit]
  · by_cases hdue : written + config.handshakeTimeout ≤ session.now <;>
      simp [step?, advance?, hactive, Progress.branch?, hat, Progress.isDue, Config.answerDue?,
        hlimit, hdue]

theorem now_le_of_run? {inputs : List Input} (h : session.Awaits config session.now)
    (hrun : session.run? inputs = some (next, log))
    (hcalm : ∀ input ∈ inputs, input.isPanic = false)
    (hundecided : ∀ input ∈ inputs, ∀ verdict, ¬ Decides config input verdict)
    (hlimit : config.handshakeTimeout ≠ 0) (hpunctual : session.isPunctual inputs = true) :
    next.now ≤ session.now + config.handshakeTimeout := by
  refine run?_induction (motive := fun inputs next _ =>
    (∀ input ∈ inputs, input.isPanic = false) →
      (∀ input ∈ inputs, ∀ verdict, ¬ Decides config input verdict) →
        session.isPunctual inputs = true → next.now ≤ session.now + config.handshakeTimeout)
    (fun _ _ _ => Nat.le_add_right _ _) ?_ hrun hcalm hundecided hpunctual
  intro inputs input middle next log more hbefore ih hstep hcalm hundecided hpunctual
  have hcalm' : ∀ other ∈ inputs, other.isPanic = false :=
    fun other hmem => hcalm other (List.mem_append_left _ hmem)
  have hundecided' : ∀ other ∈ inputs, ∀ verdict, ¬ Decides config other verdict :=
    fun other hmem => hundecided other (List.mem_append_left _ hmem)
  rw [isPunctual, observe_snoc _ _ hbefore hstep, ← isPunctual, Bool.and_eq_true] at hpunctual
  obtain ⟨hearlier, hkeeps⟩ := hpunctual
  rcases (step?_steps hstep).now_eq with hnow | ⟨duration, rfl, rfl⟩
  · rw [hnow]
    exact ih hcalm' hundecided' hearlier
  · -- the only timer of a waiting task is the end of the time that the broker has
    obtain ⟨hwaits, -⟩ := awaits_of_run? h hbefore hcalm' hundecided'
    obtain ⟨task, hactive, hat⟩ := Option.map_eq_some_iff.mp hwaits.point_eq
    simpa [keepsTime, nextTimer?, hactive, Task.timers, hat, Config.answerDue?, hlimit,
      Point.waits] using hkeeps

/--
From when CONNECT was written, an attempt stays as it is as long as nothing decides it:
it is noticed by nobody, and a heartbeat or a frame that is neither CONNECTED nor ERROR
does not change the session at all.  Each step that is possible then shows the verdict
that it decides, and no other one, so that the session becomes connected exactly for a
CONNECTED frame with a known version or none.  The time that the broker has is over
exactly when it has passed since CONNECT was written, and never if it is not limited; on
a punctual clock no more time passes without a verdict.
-/
theorem awaits_answer {config : Config} {handlers : Handlers}
    {start greeting waiting session : Session} {before inputs : List Input}
    {earlier made log : List Entry} (hstart : ofConfig config handlers = .ok start)
    (hbefore : start.run? before = some (greeting, earlier))
    (hgreeting : greeting.point? = some .greeting)
    (hwritten : greeting.step? (.outcome (.sent (.ok ()))) = some (waiting, made))
    (hrun : waiting.run? inputs = some (session, log))
    (hcalm : ∀ input ∈ inputs, input.isPanic = false)
    (hundecided : ∀ input ∈ inputs, ∀ verdict, ¬ Decides config input verdict) :
    session.phase = .connecting ∧ seen Entry.deed? log = [] ∧
    (∀ event : Event,
      (event.isChatter = true ↔ ∀ verdict, ¬ Decides config (.outcome (.event event)) verdict) ∧
      ∃ next more, session.step? (.outcome (.event event)) = some (next, more) ∧
        (event.isChatter = true → next = session ∧ more = [])) ∧
    (∀ input next more, session.step? input = some (next, more) → input.isPanic = false →
      (∀ verdict, Decides config input verdict ↔ verdict.Shows next more) ∧
      (next.phase = .connected ↔
        ∃ frame version, Decides config input (.welcomed frame version))) ∧
    ((session.step? (.branch .timeout)).isSome = true ↔
      config.handshakeTimeout ≠ 0 ∧ greeting.now + config.handshakeTimeout ≤ session.now) ∧
    (waiting.isPunctual inputs = true → config.handshakeTimeout ≠ 0 →
      session.now ≤ greeting.now + config.handshakeTimeout) := by
  have hdisciplined := disciplined_of_run? hstart hbefore
  have hsteps := step?_steps hwritten
  have hnow : waiting.now = greeting.now := by
    rcases hsteps.now_eq with hnow | ⟨duration, hinput, -⟩
    · exact hnow
    · exact absurd hinput (by simp)
  have hwaiting : waiting.Awaits config waiting.now := by
    rw [hnow]
    exact awaits_of_greeted hgreeting hdisciplined.phase_eq hdisciplined.config_eq hsteps
  obtain ⟨hwaits, hnothing⟩ := awaits_of_run? hwaiting hrun hcalm hundecided
  rw [← hnow]
  refine ⟨hwaits.phase_eq, hnothing, fun event => ⟨event.isChatter_iff config, ?_⟩, ?_, ?_, ?_⟩
  · exact hwaits.step?_event event
  · intro input next more hstep hcalm
    have hshows := hwaits.decides_iff_shows (step?_steps hstep) hcalm
    refine ⟨hshows, fun hconnected => ?_, ?_⟩
    · rcases hwaits.step (step?_steps hstep) hcalm with ⟨hnext, -⟩ | ⟨verdict, hdecides, hshown⟩
      · exact absurd (hconnected.symm.trans hnext.phase_eq) Phase.noConfusion
      · cases verdict with
        | welcomed frame version => exact ⟨frame, version, hdecides⟩
        | failed fault => exact absurd (hconnected.symm.trans hshown.1) Phase.noConfusion
        | abandoned => exact absurd (hconnected.symm.trans hshown.1) Phase.noConfusion
    · rintro ⟨frame, version, hdecides⟩
      exact ((hshows _).mp hdecides).1
  · exact hwaits.isSome_timeout
  · exact fun hpunctual hlimit =>
      now_le_of_run? hwaiting hrun hcalm hundecided hlimit hpunctual

def hastyConfig : Config := { plainConfig with handshakeTimeout := 5 }

def chatter : List Input :=
  [.outcome (.event (.item .heartbeat)), .elapse 3,
    .outcome (.event (.item (.frame { command := "MESSAGE" }))), .elapse 2,
    .outcome (.event (.item .heartbeat))]

theorem undecided_chatter :
    ∀ input ∈ chatter, ∀ verdict, ¬ Decides hastyConfig input verdict := by
  intro input hmem verdict hdecides
  simp only [chatter, List.mem_cons, List.not_mem_nil, or_false] at hmem
  rcases hmem with rfl | rfl | rfl | rfl | rfl
  · exact absurd hdecides.not_isChatter (by decide)
  · cases hdecides
  · exact absurd hdecides.not_isChatter (by decide)
  · cases hdecides
  · exact absurd hdecides.not_isChatter (by decide)

theorem awaits_answer_amid_chatter :
    ∃ start greeting waiting session next earlier made log more,
      ofConfig hastyConfig {} = .ok start ∧
      start.run? Session.greeting.dropLast = some (greeting, earlier) ∧
      greeting.step? (.outcome (.sent (.ok ()))) = some (waiting, made) ∧
      waiting.run? chatter = some (session, log) ∧ waiting.isPunctual chatter = true ∧
      session.now = 5 ∧ session.phase = .connecting ∧ seen Entry.deed? log = [] ∧
      session.step? (.branch .timeout) = some (next, more) ∧
      (Verdict.failed (.handshakeFailure "no CONNECTED frame within 5ns")).Shows next more := by
  have hstart : ofConfig hastyConfig {} = .ok (fresh hastyConfig) := rfl
  have hruns : (do
      let (before : Stepped) ← (fresh hastyConfig).run? Session.greeting.dropLast
      let (written : Stepped) ← before.1.step? (.outcome (.sent (.ok ())))
      let (after : Stepped) ← written.1.run? chatter
      return (before.1.point?, written.1.isPunctual chatter, before.1.now, after.1.now)) =
        some (some .greeting, true, 0, 5) := by
    decide +kernel
  simp only [Option.bind_eq_bind, Option.bind_eq_some_iff, Option.pure_def, Option.some.injEq,
    Prod.mk.injEq, Prod.exists] at hruns
  obtain ⟨greeting, earlier, hbefore, waiting, made, hwritten, session, log, hrun, hgreeting,
    hpunctual, hzero, hnow⟩ := hruns
  have hcalm : ∀ input ∈ chatter, input.isPanic = false := by decide
  obtain ⟨hphase, hnothing, -, hverdicts, hlate, -⟩ :=
    awaits_answer hstart hbefore hgreeting hwritten hrun hcalm undecided_chatter
  obtain ⟨⟨next, more⟩, hstep⟩ := Option.isSome_iff_exists.mp
    (hlate.mpr ⟨by decide, by rw [hzero, hnow]; decide⟩)
  refine ⟨fresh hastyConfig, greeting, waiting, session, next, earlier, made, log, more, hstart,
    hbefore, hwritten, hrun, hpunctual, hnow, hphase, hnothing, hstep, ?_⟩
  have htext : s!"no CONNECTED frame within {Duration.text hastyConfig.handshakeTimeout}" =
      "no CONNECTED frame within 5ns" := by decide +kernel
  rw [← htext]
  exact ((hverdicts _ next more hstep rfl).1 _).mp .late

end Session

end Stomp
