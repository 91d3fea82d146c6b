import Stomp.Proofs.Session.Retry

/-!
# Versions

A client offers the versions of its configuration and accepts every version that it
knows, offered or not (`Session.adopts_known_version`).
-/

namespace Stomp

/-! ## Offers and answers -/

theorem Version.name_inj {first second : Version} (h : first.name = second.name) :
    first = second := by
  cases first <;> cases second <;> first | rfl | exact absurd h (by decide)

theorem Version.read?_eq_some_iff {text : String} {version : Version} :
    read? text = some version ↔ Text.trim text = version.name := by
  constructor
  · intro h
    have hfound := List.find?_some h
    exact (beq_iff_eq.mp hfound).symm
  · intro h
    rw [read?, h]
    cases version <;> decide

namespace Frame

/-- Whether a CONNECT frame has a version in its list of acceptable ones. -/
def offers (frame : Frame) (version : Version) : Bool :=
  (((frame.header? "accept-version").getD "").toList.splitOn ',').contains version.name.toList

/-- Whether a CONNECTED frame names a version; one that names none means the oldest. -/
def Selects (frame : Frame) (version : Version) : Prop :=
  match frame.header? "version" with
  | none => version = .v10
  | some text => Text.trim text = version.name

theorem selectedVersion?_eq_some_iff {frame : Frame} {version : Version} :
    ConnectedInfo.selectedVersion? frame = some version ↔ frame.Selects version := by
  unfold ConnectedInfo.selectedVersion? Selects
  cases frame.header? "version" with
  | none => simp [eq_comm]
  | some text => exact Version.read?_eq_some_iff

instance (frame : Frame) (version : Version) : Decidable (frame.Selects version) :=
  decidable_of_iff _ selectedVersion?_eq_some_iff

end Frame

theorem Config.header?_acceptVersion (config : Config) :
    config.connectFrame.header? "accept-version" = some config.acceptVersion := rfl

theorem Config.offers_connectFrame (config : Config) (hversions : config.versions ≠ [])
    (version : Version) :
    config.connectFrame.offers version = true ↔ version ∈ config.versions := by
  have hnames : ∀ name ∈ config.versions.map (·.name.toList), ',' ∉ name := by
    intro name hmem
    obtain ⟨version, -, rfl⟩ := List.mem_map.mp hmem
    cases version <;> decide
  have hsplit : config.acceptVersion.toList.splitOn ',' = config.versions.map (·.name.toList) := by
    rw [acceptVersion, String.toList_intercalate, List.map_map]
    exact List.splitOn_intercalate ',' hnames (by simpa using hversions)
  rw [Frame.offers, header?_acceptVersion, Option.getD_some, hsplit, List.contains_iff_mem]
  constructor
  · intro hmem
    obtain ⟨other, hother, hname⟩ := List.mem_map.mp hmem
    obtain rfl := Version.name_inj (String.toList_inj.mp hname)
    exact hother
  · exact fun hmem => List.mem_map.mpr ⟨version, hmem, rfl⟩

theorem ConnectedInfo.of_ofFrame? {frame : Frame} {offer : String} {info : ConnectedInfo}
    (h : ofFrame? frame offer = some info) : info.frame = frame ∧ frame.Selects info.version := by
  obtain ⟨version, hversion, rfl⟩ := Option.map_eq_some_iff.mp h
  exact ⟨rfl, Frame.selectedVersion?_eq_some_iff.mp hversion⟩

theorem ConnectedInfo.ofFrame?_of_selects {frame : Frame} {version : Version} (offer : String)
    (h : frame.Selects version) :
    ∃ info, ofFrame? frame offer = some info ∧ info.version = version ∧ info.frame = frame := by
  rw [← Frame.selectedVersion?_eq_some_iff] at h
  exact ⟨_, by rw [ofFrame?, h, Option.map_some], rfl, rfl⟩

/-! ## Welcomes -/

/-- That a session is connected, and on which terms. -/
inductive Welcome where
  | entered
  | told (info : ConnectedInfo)
  deriving DecidableEq, Repr

@[simp] def Entry.welcome? : Entry → Option Welcome
  | ⟨_, _, .enter .connected⟩ => some .entered
  | ⟨_, _, .report (.connected info) _⟩ => some (.told info)
  | _ => none

theorem Entry.welcome?_enter (time : Instant) (before : Phase) {phase : Phase}
    (hphase : phase ≠ .connected) : Entry.welcome? ⟨time, before, .enter phase⟩ = none := by
  cases phase with
  | connected => exact absurd rfl hphase
  | _ => rfl

/-- The terms of a CONNECTED frame that was received, with the version that it selects. -/
structure ConnectedInfo.Answers (inputs : List Input) (info : ConnectedInfo) : Prop where
  received : .outcome (.event (.item (.frame info.frame))) ∈ inputs
  isConnected : info.frame.isConnected = true
  selects : info.frame.Selects info.version

theorem ConnectedInfo.Answers.mono {inputs : List Input} {info : ConnectedInfo}
    (h : info.Answers inputs) (more : List Input) : info.Answers (inputs ++ more) :=
  ⟨List.mem_append_left more h.received, h.isConnected, h.selects⟩

def Welcomes (inputs : List Input) (log : List Entry) : Prop :=
  ∃ infos : List ConnectedInfo, (∀ info ∈ infos, info.Answers inputs) ∧
    seen Entry.welcome? log = infos.flatMap fun info => [.entered, .told info]

namespace Progress

variable (p : Progress)

@[simp] theorem proceed_welcomes (config : Config) (ending : Ending) :
    seen Entry.welcome? (p.proceed config ending).log = seen Entry.welcome? p.log :=
  p.seen_proceed config ending (fun _ _ _ _ => rfl) (fun _ _ _ _ => rfl)
    fun time before _ => Entry.welcome?_enter time before

theorem hearLinked_welcomes (link : Link) (event : Event) :
    seen Entry.welcome? (p.hearLinked link event).log = seen Entry.welcome? p.log := by
  rcases p.hearLinked_cases link event with
    heq | ⟨fault, heq⟩ | ⟨frame, heq⟩ | ⟨fault, heq⟩ | ⟨close, heq⟩ <;>
    simp [heq]

theorem hearAwaiting_welcomes (config : Config) (event : Event) :
    seen Entry.welcome? (p.hearAwaiting config event).log = seen Entry.welcome? p.log ∨
      ∃ info, info.Answers [.outcome (.event event)] ∧
        seen Entry.welcome? (p.hearAwaiting config event).log =
          seen Entry.welcome? p.log ++ [.entered, .told info] := by
  unfold hearAwaiting
  split
  · exact .inl rfl
  · rename_i frame
    split
    · rename_i hconnected
      split
      · rename_i info hinfo
        obtain ⟨rfl, hselects⟩ := ConnectedInfo.of_ofFrame? hinfo
        exact .inr ⟨info, ⟨List.mem_singleton.mpr rfl, hconnected, hselects⟩, by simp⟩
      · exact .inl (by simp)
    · exact .inl (by split <;> simp)
  · exact .inl (by simp)
  · exact .inl (by simp)

theorem Moves.welcomes {config : Config} {p p' : Progress} {input : Input}
    (h : Moves config p input p') (hlog : p.log = []) : Welcomes [input] p'.log := by
  have hnone (hsame : seen Entry.welcome? p'.log = seen Entry.welcome? p.log) :
      Welcomes [input] p'.log :=
    ⟨[], by simp, by simp [hsame, hlog]⟩
  cases h with
  | @answer deadline event hpoint =>
      rcases p.hearAwaiting_welcomes config event with hsame | ⟨info, hinfo, hwelcome⟩
      · exact hnone hsame
      · exact ⟨[info], by simpa using hinfo, by simp [hwelcome, hlog]⟩
  | hear hpoint => exact hnone (p.hearLinked_welcomes _ _)
  | _ => exact hnone (by simp)

end Progress

/-! ## Runs -/

theorem Welcomes.append {inputs later : List Input} {log more : List Entry}
    (h : Welcomes inputs log) (hmore : Welcomes later more) :
    Welcomes (inputs ++ later) (log ++ more) := by
  obtain ⟨infos, hinfos, hlog⟩ := h
  obtain ⟨others, hothers, hmore⟩ := hmore
  refine ⟨infos ++ others, fun info hmem => ?_, by simp [hlog, hmore]⟩
  rcases List.mem_append.mp hmem with hmem | hmem
  · exact (hinfos info hmem).mono later
  · obtain ⟨hreceived, hconnected, hselects⟩ := hothers info hmem
    exact ⟨List.mem_append_right inputs hreceived, hconnected, hselects⟩

namespace Session

variable {session next : Session} {log more : List Entry} {input : Input}

theorem Steps.welcomes (h : session.Steps input next more) : Welcomes [input] more := by
  have hnone (hsilent : seen Entry.welcome? more = []) : Welcomes [input] more :=
    ⟨[], by simp, hsilent⟩
  rcases h.kinds with ⟨hquiet, -⟩ | ⟨hturnover, -⟩ | ⟨task, p, -, hmoves, rfl, rfl⟩
  · exact hnone (hquiet.seen_eq_nil (fun _ _ _ _ => rfl) fun _ _ _ => rfl)
  · exact hnone (hturnover.seen_eq_nil fun time before _ => Entry.welcome?_enter time before)
  · exact hmoves.welcomes rfl

theorem welcomes_of_run? {start : Session} {inputs : List Input}
    (hrun : start.run? inputs = some (session, log)) : Welcomes inputs log := by
  refine run?_induction (motive := fun inputs _ log => Welcomes inputs log)
    ⟨[], by simp, rfl⟩ ?_ hrun
  intro inputs input session next log more _ ih hstep
  exact ih.append (step?_steps hstep).welcomes

theorem versions_of_ofConfig {config : Config} {handlers : Handlers} {start : Session}
    (hstart : ofConfig config handlers = .ok start) : config.versions ≠ [] := by
  intro hnone
  unfold ofConfig Config.validate at hstart
  cases hurl : Config.checkUrl config.url <;>
    simp [hurl, hnone, bind, Except.bind] at hstart

theorem step?_of_awaiting {deadline : Option Instant} {task : Task} (event : Event)
    (hactive : session.active = some task) (hat : task.point = .awaiting deadline) :
    let p := Progress.hearAwaiting ⟨session.now, session.phase, task, []⟩ session.config event
    session.step? (.outcome (.event event)) =
      some ({ session with phase := p.phase, active := some p.task }, p.log) :=
  step?_outcome hactive (by simp [Progress.outcome?, hat])

theorem connects_of_selects {deadline : Option Instant} {frame : Frame} {version : Version}
    (hpoint : session.point? = some (.awaiting deadline)) (hconnected : frame.isConnected = true)
    (hselects : frame.Selects version) :
    ∃ info next made, info.version = version ∧ info.frame = frame ∧
      session.step? (.outcome (.event (.item (.frame frame)))) = some (next, made) ∧
      next.phase = .connected ∧ seen Entry.welcome? made = [.entered, .told info] := by
  obtain ⟨task, hactive, hat⟩ := Option.map_eq_some_iff.mp hpoint
  obtain ⟨info, hinfo, hversion, hframe⟩ :=
    ConnectedInfo.ofFrame?_of_selects session.config.heartbeat.text hselects
  refine ⟨info, _, _, hversion, hframe, step?_of_awaiting _ hactive hat, ?_, ?_⟩
  · simp [Progress.hearAwaiting, hconnected, hinfo, Progress.connect, Progress.goto,
      Progress.report, Progress.note, Progress.enter]
  · simp [Progress.hearAwaiting, hconnected, hinfo]

theorem refuses_unknown {deadline : Option Instant} {frame : Frame} {text : String}
    (hpoint : session.point? = some (.awaiting deadline)) (hphase : session.phase = .connecting)
    (hconnected : frame.isConnected = true) (htext : frame.header? "version" = some text)
    (hunknown : ∀ version, ¬ frame.Selects version) :
    ∃ next last made more,
      session.step? (.outcome (.event (.item (.frame frame)))) = some (next, made) ∧
      seen Entry.deed? made = [.call .close] ∧ next.phase = .connecting ∧
      next.step? (.outcome .closed) = some (last, more) ∧
      seen Entry.deed? more = [.report (.failed (.handshakeFailure
        ("broker selected unsupported STOMP version " ++ text)))] ∧
      last.phase = if session.config.reconnects then .connecting else .idle := by
  obtain ⟨task, hactive, hat⟩ := Option.map_eq_some_iff.mp hpoint
  have hnone : ConnectedInfo.ofFrame? frame session.config.heartbeat.text = none := by
    cases hinfo : ConnectedInfo.ofFrame? frame session.config.heartbeat.text with
    | none => rfl
    | some info => exact absurd (ConnectedInfo.of_ofFrame? hinfo).2 (hunknown _)
  have hrefused : Progress.hearAwaiting ⟨session.now, session.phase, task, []⟩ session.config
      (.item (.frame frame)) = Progress.close ⟨session.now, session.phase, task, []⟩
        (.refused (Progress.versionFault frame)) := by
    simp [Progress.hearAwaiting, hconnected, hnone]
  have hstep := step?_of_awaiting (.item (.frame frame)) hactive hat
  rw [hrefused] at hstep
  refine ⟨_, _, _, _, hstep, ?_, hphase, step?_of_closing rfl rfl, ?_, ?_⟩
  · simp [Progress.close]
  · cases hagain : session.config.reconnects <;>
      simp [Progress.proceed, hagain, Progress.pause, Progress.versionFault, htext]
  · cases hagain : session.config.reconnects <;>
      simp [Progress.proceed, hagain, Progress.pause, Progress.goto, Progress.report,
        Progress.note, Progress.enter, Progress.close, Progress.call, hphase]

/--
Along every run Connected is entered only for a CONNECTED frame that was received, and
reported at once with the version that this frame selects, which is one of those that a
client knows.  Whether CONNECT offered that version does not matter: each known version
is adopted, and with any other one the attempt fails.
-/
theorem adopts_known_version {config : Config} {handlers : Handlers} {start : Session}
    {inputs : List Input} (hstart : ofConfig config handlers = .ok start)
    (hrun : start.run? inputs = some (session, log)) :
    (∀ version, config.connectFrame.offers version = true ↔ version ∈ config.versions) ∧
    (∃ infos : List ConnectedInfo,
      (∀ info ∈ infos, info.Answers inputs ∧ info.version.name ∈ ["1.0", "1.1", "1.2"]) ∧
      seen Entry.welcome? log = infos.flatMap fun info => [.entered, .told info]) ∧
    ∀ deadline frame, session.point? = some (.awaiting deadline) → frame.isConnected = true →
      (∀ version, frame.Selects version → ∃ info next made, info.version = version ∧
        info.frame = frame ∧
        session.step? (.outcome (.event (.item (.frame frame)))) = some (next, made) ∧
        next.phase = .connected ∧ seen Entry.welcome? made = [.entered, .told info]) ∧
      ∀ text, frame.header? "version" = some text → (∀ version, ¬ frame.Selects version) →
        ∃ next last made more,
          session.step? (.outcome (.event (.item (.frame frame)))) = some (next, made) ∧
          seen Entry.deed? made = [.call .close] ∧ next.phase = .connecting ∧
          next.step? (.outcome .closed) = some (last, more) ∧
          seen Entry.deed? more = [.report (.failed (.handshakeFailure
            ("broker selected unsupported STOMP version " ++ text)))] ∧
          last.phase = if config.reconnects then .connecting else .idle := by
  have hdisciplined := disciplined_of_run? hstart hrun
  refine ⟨config.offers_connectFrame (versions_of_ofConfig hstart), ?_, ?_⟩
  · obtain ⟨infos, hinfos, hlog⟩ := welcomes_of_run? hrun
    refine ⟨infos, fun info hmem => ⟨hinfos info hmem, ?_⟩, hlog⟩
    cases info.version <;> simp [Version.name]
  · intro deadline frame hpoint hconnected
    obtain ⟨task, hactive, hat⟩ := Option.map_eq_some_iff.mp hpoint
    have hphase : session.phase = .connecting := by
      rw [phase_of_active hdisciplined.phase_eq hactive, hat]
      rfl
    refine ⟨fun version => connects_of_selects hpoint hconnected, fun text htext hunknown => ?_⟩
    rw [← hdisciplined.config_eq]
    exact refuses_unknown hpoint hphase hconnected htext hunknown

def modernConfig : Config := { plainConfig with versions := [.v12] }

def greeting : List Input :=
  [.request .activate, .branch .start, .branch .dial, .outcome (.opened (.ok ())),
    .outcome (.sent (.ok ()))]

def connectedFrame (version : String) : Frame :=
  { command := "CONNECTED", headers := [("version", version)] }

/-- A version that the client did not offer connects it. -/
theorem connects_with_unoffered_version :
    ∃ start session log info, ofConfig modernConfig {} = .ok start ∧
      start.run? (greeting ++ [.outcome (.event (.item (.frame (connectedFrame "1.1"))))]) =
        some (session, log) ∧
      session.phase = .connected ∧ seen Entry.welcome? log = [.entered, .told info] ∧
      info.version = .v11 ∧ modernConfig.connectFrame.offers info.version = false := by
  have hrun : (((fresh modernConfig).run?
      (greeting ++ [.outcome (.event (.item (.frame (connectedFrame "1.1"))))])).map fun stepped =>
        (stepped.1.phase, seen Entry.welcome? stepped.2)) =
      some (.connected, [.entered,
        .told ⟨.v11, none, none, none, none, connectedFrame "1.1"⟩]) := by
    decide +kernel
  obtain ⟨⟨session, log⟩, hrun, hseen⟩ := Option.map_eq_some_iff.mp hrun
  obtain ⟨hphase, hwelcomes⟩ := Prod.mk.inj hseen
  exact ⟨fresh modernConfig, session, log, _, rfl, hrun, hphase, hwelcomes, rfl, by decide +kernel⟩

theorem adopts_known_version_if_offered :
    ∃ start session log, ofConfig modernConfig {} = .ok start ∧
      start.run? greeting = some (session, log) ∧
      (∃ info next made, info.version = .v12 ∧
        session.step? (.outcome (.event (.item (.frame (connectedFrame " 1.2"))))) =
          some (next, made) ∧
        next.phase = .connected ∧ seen Entry.welcome? made = [.entered, .told info]) ∧
      ∃ next last made more,
        session.step? (.outcome (.event (.item (.frame (connectedFrame "1.3"))))) =
          some (next, made) ∧
        next.step? (.outcome .closed) = some (last, more) ∧
        seen Entry.deed? more = [.report (.failed (.handshakeFailure
          "broker selected unsupported STOMP version 1.3"))] ∧
        last.phase = .idle := by
  have hstart : ofConfig modernConfig {} = .ok (fresh modernConfig) := rfl
  have hpoint : (((fresh modernConfig).run? greeting).map fun stepped => stepped.1.point?) =
      some (some (.awaiting none)) := by
    decide +kernel
  have hknown : (connectedFrame " 1.2").Selects .v12 := by
    decide +kernel
  have hunknown : ∀ version, ¬ (connectedFrame "1.3").Selects version := by
    intro version
    cases version <;> decide +kernel
  obtain ⟨⟨session, log⟩, hrun, hpoint⟩ := Option.map_eq_some_iff.mp hpoint
  obtain ⟨-, -, hanswers⟩ := adopts_known_version hstart hrun
  obtain ⟨info, next, made, hversion, -, hstep, hphase, hwelcomes⟩ :=
    (hanswers none (connectedFrame " 1.2") hpoint rfl).1 .v12 hknown
  obtain ⟨refused, last, closing, more, hrefused, -, -, hclosed, hreport, hidle⟩ :=
    (hanswers none (connectedFrame "1.3") hpoint rfl).2 "1.3" rfl hunknown
  exact ⟨fresh modernConfig, session, log, hstart, hrun,
    ⟨info, next, made, hversion, hstep, hphase, hwelcomes⟩,
    refused, last, closing, more, hrefused, hclosed, hreport, hidle⟩

end Session

end Stomp
