import Mathlib.Data.List.Chain
import Stomp.Proofs.Session.Incidents
import Stomp.Proofs.Session.Timing

/-!
# Another attempt

Each setback is reported for itself.  A session that tries again connects exactly the
configured delay after that report, and no setback ends its activation; one that does
not is idle after the first setback (`Session.tries_again`).
-/

namespace Stomp

def Deed.isConnect : Deed → Bool
  | call (.connect _) => true
  | _ => false

namespace Entry

def isConnect (entry : Entry) : Bool := entry.deed?.any Deed.isConnect

/-- Whether the owner is told of a fault or of the end of a connection. -/
def isBadNews (entry : Entry) : Bool :=
  match entry.effect with
  | .report (.failed _) _ | .report (.disconnected _) _ => true
  | _ => false

def noticed? (entry : Entry) : Option Entry := entry.deed?.map fun _ => entry

/-- A call to connect comes exactly the delay after bad news. -/
def Spaced (config : Config) (first second : Entry) : Prop :=
  second.isConnect = true →
    first.isBadNews = true ∧ second.time = first.time + config.reconnectDelay

end Entry

/-! ## Attempts in a course -/

namespace Course

variable {config : Config} {incidents : List Incident} {stage : Stage}

theorem countP_isConnect (incident : Incident) :
    incident.deeds.countP Deed.isConnect = incident.isDial.toNat := by
  cases incident with
  | yielded phase =>
      by_cases hphase : phase = .connected <;> simp [Incident.deeds, Deed.isConnect,
        Incident.isDial, hphase]
  | _ => simp [Incident.deeds, Deed.isConnect, Incident.isDial]

theorem countP_isDial (h : Course config incidents stage) (honce : config.reconnects = false) :
    incidents.countP Incident.isDial ≤ 1 ∧
      (stage = .apart → incidents.countP Incident.isDial = 0) := by
  induction h with
  | nil => simp
  | @snoc front middle last hfront hmay ih =>
      rw [List.countP_append]
      cases last with
      | dialed url =>
          have hapart : middle = .apart := by
            cases middle <;> first | rfl | exact hmay.elim
          simp [ih.2 hapart, Incident.isDial, Incident.leadsTo]
      | _ => simp [ih.1, Incident.isDial, Incident.leadsTo, Stage.afterSetback, honce]

end Course

/-! ## The pace of attempts -/

/-- How what was noticed last goes with where a task stands between two attempts. -/
def Point.Paces (config : Config) (now : Instant) (noticed : List Entry) : Point → Prop
  | .ready => noticed = []
  | .dialing => ∀ last ∈ noticed.getLast?,
      last.isBadNews = true ∧ now = last.time + config.reconnectDelay
  | .pausing wake => now ≤ wake ∧ ∃ last ∈ noticed.getLast?,
      last.isBadNews = true ∧ wake = last.time + config.reconnectDelay
  | _ => True

namespace Progress

variable {config : Config} {p p' : Progress} {input : Input}

theorem Moves.dial_of_connect {url : Url} (h : Moves config p input p') (hlog : p.log = [])
    (hmem : .connect url ∈ seen Entry.call? p'.log) : input = .branch .dial := by
  cases h with
  | dial hpoint => rfl
  | answer hpoint =>
      exact absurd (Moves.close_of_heard config (.answer hpoint) hlog hmem) Call.noConfusion
  | hear hpoint =>
      exact absurd (Moves.close_of_heard config (.hear hpoint) hlog hmem) Call.noConfusion
  | _ => simp [hlog] at hmem

theorem Moves.not_isConnect (h : Moves config p input p') (hlog : p.log = [])
    (hinput : input ≠ .branch .dial) :
    ∀ entry ∈ seen Entry.noticed? p'.log, entry.isConnect = false := by
  intro entry hmem
  obtain ⟨made, hmade, hsame⟩ := List.mem_filterMap.mp hmem
  obtain ⟨deed, -, rfl⟩ := Option.map_eq_some_iff.mp hsame
  obtain ⟨time, phase, effect⟩ := made
  cases effect with
  | call call =>
      cases call with
      | connect url =>
          have hcall : .connect url ∈ seen Entry.call? p'.log :=
            List.mem_filterMap.mpr ⟨_, hmade, rfl⟩
          exact absurd (h.dial_of_connect hlog hcall) hinput
      | _ => rfl
  | _ => rfl

theorem isChain_append {noticed more : List Entry}
    (h : noticed.IsChain (Entry.Spaced config)) (hmore : ∀ entry ∈ more, entry.isConnect = false) :
    (noticed ++ more).IsChain (Entry.Spaced config) := by
  have hspaced (first second : Entry) (hmem : second ∈ more) : first.Spaced config second := by
    simp [Entry.Spaced, hmore second hmem]
  rw [List.isChain_append]
  refine ⟨h, ?_, fun first _ second hsecond => hspaced first second (List.mem_of_mem_head? hsecond)⟩
  have hpairs : more.Pairwise (Entry.Spaced config) :=
    List.pairwise_of_forall_mem_list fun first _ second hmem => hspaced first second hmem
  exact hpairs.isChain

theorem paces_pause {report : Report} {phase : Phase} {heard : Option Reaction}
    (hnews : Entry.isBadNews ⟨p.now, phase, .report report heard⟩ = true) (before : List Entry) :
    Point.Paces config p.now (before ++ [⟨p.now, phase, .report report heard⟩])
      (.pausing (p.now + config.reconnectDelay)) :=
  ⟨Nat.le_add_right _ _, _, by simp, hnews, rfl⟩

theorem paces_proceed (ending : Ending) (hlog : p.log = []) (before : List Entry) :
    (p.proceed config ending).task.point.Paces config p.now
      (before ++ seen Entry.noticed? (p.proceed config ending).log) := by
  cases ending with
  | shutdown => trivial
  | panicked fault wasConnected => trivial
  | refused fault =>
      cases hagain : config.reconnects with
      | false => simp [proceed, hagain, Point.Paces]
      | true =>
          simp only [proceed, hagain, if_true, pause, goto_log, goto_point, report_log, hlog]
          exact paces_pause rfl before
  | lost close =>
      cases hagain : config.reconnects with
      | false => simp [proceed, hagain, Point.Paces]
      | true =>
          simp only [proceed, hagain, if_true, pause, goto_log, goto_point, enter_log, report_log,
            hlog]
          exact paces_pause rfl before

theorem Moves.paces (h : Moves config p input p') (hlog : p.log = []) {before : List Entry}
    (hspaced : before.IsChain (Entry.Spaced config))
    (hpaces : p.task.point.Paces config p.now before) :
    (before ++ seen Entry.noticed? p'.log).IsChain (Entry.Spaced config) ∧
      p'.task.point.Paces config p.now (before ++ seen Entry.noticed? p'.log) := by
  constructor
  -- only dialing calls connect, and where it starts from the last entry is known
  · by_cases hdial : input = .branch .dial
    · subst hdial
      cases h with
      | dial hpoint =>
          rw [hpoint] at hpaces
          have hmade : seen Entry.noticed? ((p.call (.connect config.url)).goto .opening).log =
              [⟨p.now, p.phase, .call (.connect config.url)⟩] := by
            simp [hlog, Entry.noticed?]
          rw [hmade, List.isChain_append]
          refine ⟨hspaced, List.isChain_singleton _, fun first hfirst second hsecond _ => ?_⟩
          obtain rfl := Option.some.inj hsecond
          exact hpaces first hfirst
    · exact isChain_append hspaced (h.not_isConnect hlog hdial)
  · cases h with
    | start hpoint =>
        rw [hpoint] at hpaces
        obtain rfl : before = [] := hpaces
        simp [hlog, Entry.noticed?, Point.Paces]
    | @resume wake hpoint hdue =>
        rw [hpoint] at hpaces
        obtain ⟨hnow, last, hlast, hnews, hwake⟩ := hpaces
        have hpassed : wake ≤ p.now := by simpa [isDue] using hdue
        have hmade : seen Entry.noticed? p.begin.log = [] := by simp [hlog, Entry.noticed?]
        rw [hmade, List.append_nil]
        intro other hother
        obtain rfl := Option.some.inj (hother.symm.trans hlast)
        exact ⟨hnews, (Nat.le_antisymm hnow hpassed).trans hwake⟩
    | closed hpoint => exact paces_proceed _ hlog before
    | @answer deadline event hpoint =>
        rcases p.hearAwaiting_point config event with hstay | ⟨link, hlinked⟩ | ⟨fault, hclosing⟩
        · simp [hstay, hpoint, Point.Paces]
        · simp [hlinked, Point.Paces]
        · simp [hclosing, Point.Paces]
    | @hear link event hpoint =>
        rcases p.hearLinked_point link event with hstay | ⟨close, hlost⟩
        · simp [hstay, Point.Paces]
        · simp [hlost, Point.Paces]
    | _ => trivial

end Progress

/-! ## The pace of a run -/

namespace Session

variable {session next : Session} {log more : List Entry} {input : Input}

structure Paced (config : Config) (session : Session) (current : List Entry) : Prop where
  spaced : (seen Entry.noticed? current).IsChain (Entry.Spaced config)
  paces : ∀ point, session.point? = some point →
    point.Paces config session.now (seen Entry.noticed? current)

theorem paces_elapse {config : Config} {duration : Duration} {task : Task} {before : List Entry}
    (hactive : session.active = some task) (hkeeps : session.keepsTime (.elapse duration) = true)
    (hpaces : task.point.Paces config session.now before) :
    task.point.Paces config (session.now + duration) before := by
  simp only [keepsTime, nextTimer?, hactive, Option.all_some, Option.elim_some,
    Bool.and_eq_true] at hkeeps
  obtain ⟨hwaits, htimer⟩ := hkeeps
  cases hpoint : task.point with
  | ready => simp [hpoint, Point.waits] at hwaits
  | dialing => simp [hpoint, Point.waits] at hwaits
  | pausing wake =>
      rw [hpoint] at hpaces
      exact ⟨by simpa [Task.timers, hpoint] using htimer, hpaces.2⟩
  | _ => trivial

theorem Paced.quiet {config : Config} {current : List Entry} (h : Paced config session current)
    (hsteps : session.Steps input next more) (hquiet : session.Quiet (next, more))
    (hkeeps : session.keepsTime input = true) : Paced config next (current ++ more) := by
  have hsame : next.point? = session.point? := hquiet.point_eq
  have hsilent : seen Entry.noticed? (current ++ more) = seen Entry.noticed? current := by
    rw [seen_append, hquiet.seen_eq_nil (fun _ _ _ _ => rfl) fun _ _ _ => rfl, List.append_nil]
  constructor
  · rw [hsilent]
    exact h.spaced
  · intro point hat
    rw [hsame] at hat
    have hpaces := h.paces point hat
    rw [hsilent]
    rcases hsteps.now_eq with hnow | ⟨duration, rfl, rfl⟩
    · rwa [hnow]
    · obtain ⟨task, hactive, rfl⟩ := Option.map_eq_some_iff.mp hat
      exact paces_elapse hactive hkeeps hpaces

theorem Paced.turn {config : Config} {chronicle : Chronicle}
    (h : Paced config session chronicle.current) (hturns : session.Turns input (next, more)) :
    Paced config next (chronicle.note input more).current := by
  have hsilent : seen Entry.noticed? more = [] := hturns.seen_eq_nil fun _ _ _ => rfl
  rcases hturns.point?_eq with ⟨hbegins, hnowhere⟩ | ⟨hbegins, hready⟩
  · simp only [Chronicle.note, hbegins, Bool.false_eq_true, if_false]
    exact ⟨by simpa [hsilent] using h.spaced, by simp [hnowhere]⟩
  · simp only [Chronicle.note, hbegins, if_true]
    refine ⟨by simp [hsilent], fun point hat => ?_⟩
    obtain rfl := Option.some.inj (hready.symm.trans hat)
    exact hsilent

theorem paced_of_run? {config : Config} {handlers : Handlers} {start : Session}
    {inputs : List Input} (hstart : ofConfig config handlers = .ok start)
    (hrun : start.run? inputs = some (session, log)) (hpunctual : start.isPunctual inputs = true) :
    Paced config session (start.chronicle inputs).current := by
  refine run?_induction (motive := fun inputs session _ => start.isPunctual inputs = true →
    Paced config session (start.chronicle inputs).current) ?_ ?_ hrun hpunctual
  · obtain rfl := ofConfig_eq_ok hstart
    exact fun _ => ⟨List.isChain_nil, by simp [point?]⟩
  · intro inputs input session next log more hbefore ih hstep hpunctual
    rw [isPunctual, observe_snoc _ _ hbefore hstep, ← isPunctual, Bool.and_eq_true] at hpunctual
    have h := ih hpunctual.1
    have hsteps := step?_steps hstep
    rw [chronicle_snoc hbefore hstep]
    rcases hsteps.ways with
      ⟨hquiet, -⟩ | ⟨hturns, -⟩ | ⟨hbegins, task, p, hactive, hmoves, rfl, rfl⟩
    · rw [Chronicle.note, hquiet.not_begins]
      exact h.quiet hsteps hquiet hpunctual.2
    · exact h.turn hturns
    · rw [(disciplined_of_run? hstart hbefore).config_eq] at hmoves
      obtain ⟨hspaced, hpaces⟩ :=
        hmoves.paces rfl h.spaced (h.paces _ (point?_of_active hactive))
      simp only [Chronicle.note, hbegins, Bool.false_eq_true, if_false]
      refine ⟨by simpa using hspaced, fun point hat => ?_⟩
      obtain rfl := Option.some.inj ((point?_of_active rfl).symm.trans hat)
      simpa using hpaces

/-! ## What follows a setback -/

theorem redial {wake : Instant} (hpoint : session.point? = some (.pausing wake))
    (hdue : wake ≤ session.now) :
    ∃ next more, session.run? [.branch .resume, .branch .dial] =
      some (next, more ++ [⟨session.now, .connecting, .call (.connect session.config.url)⟩]) := by
  obtain ⟨task, hactive, hat⟩ := Option.map_eq_some_iff.mp hpoint
  have hlog : (session.run? [.branch .resume, .branch .dial]).map Prod.snd =
      some ([⟨session.now, session.phase, .enter .connecting⟩] ++
        [⟨session.now, .connecting, .call (.connect session.config.url)⟩]) := by
    simp [run?, step?, advance?, hactive, Progress.branch?, hat, Progress.isDue, hdue,
      Progress.begin, Progress.enter, Progress.goto, Progress.note, Progress.call]
  obtain ⟨⟨next, made⟩, hrun, rfl⟩ := Option.map_eq_some_iff.mp hlog
  exact ⟨next, _, hrun⟩

/-- Another attempt can be made, or after a pause that begins when the transport is closed. -/
def TriesOn (session : Session) : Prop :=
  (∃ wake, session.point? = some (.pausing wake)) ∨
    (∃ next, session.step? (.branch .dial) =
      some (next, [⟨session.now, session.phase, .call (.connect session.config.url)⟩])) ∨
    ∃ next more, session.step? (.outcome .closed) = some (next, more) ∧
      next.point? = some (.pausing (session.now + session.config.reconnectDelay))

theorem step?_of_closing {ending : Ending} {task : Task} (hactive : session.active = some task)
    (hat : task.point = .closing ending) :
    let p := Progress.proceed ⟨session.now, session.phase, task, []⟩ session.config ending
    session.step? (.outcome .closed) =
      some ({ session with phase := p.phase, active := some p.task }, p.log) :=
  step?_outcome hactive (by simp [Progress.outcome?, hat])

theorem triesOn_of_closing {ending : Ending} (hpoint : session.point? = some (.closing ending))
    (hagain : session.config.reconnects = true)
    (hending : ending.stage session.config = .apart) : session.TriesOn := by
  obtain ⟨task, hactive, hat⟩ := Option.map_eq_some_iff.mp hpoint
  refine .inr (.inr ⟨_, _, step?_of_closing hactive hat, ?_⟩)
  rw [point?_of_active rfl]
  cases ending <;>
    simp_all [Progress.proceed, Progress.pause, Progress.goto, Ending.stage, Progress.report,
      Progress.note, Progress.enter]

theorem Recounted.triesOn {chronicle : Chronicle} {incidents : List Incident}
    {last : Incident} (h : Recounted session.config session chronicle incidents)
    (hagain : session.config.reconnects = true) (hlast : incidents.getLast? = some last)
    (hsetback : last.isSetback = true) : session.TriesOn := by
  obtain ⟨stage, hcourse, hstage, hnone⟩ := h.course
  obtain ⟨front, rfl⟩ := List.getLast?_eq_some_iff.mp hlast
  have hapart : stage = .apart := by
    rw [hcourse.of_snoc.1]
    cases last <;> simp_all [Incident.isSetback, Incident.leadsTo, Stage.afterSetback]
  cases hactive : session.active with
  | none =>
      rcases hnone hactive with hover | ⟨-, hnever⟩
      · simp [hapart] at hover
      · simp at hnever
  | some task =>
      have hat := point?_of_active hactive
      have hstage := hstage _ hat
      have hsuits := h.suits _ hat
      rw [hapart] at hstage
      rw [hlast] at hsuits
      cases hpoint : task.point with
      | ready =>
          rw [hpoint] at hsuits
          exact absurd hsuits (Option.some_ne_none last)
      | dialing =>
          have hdial : Progress.branch? ⟨session.now, session.phase, task, []⟩ session.config
              .dial = some ((Progress.call ⟨session.now, session.phase, task, []⟩
                (.connect session.config.url)).goto .opening) := by
            simp [Progress.branch?, hpoint]
          exact .inr (.inl ⟨_, step?_branch hactive hdial⟩)
      | pausing wake => exact .inl ⟨wake, hat.trans (congrArg some hpoint)⟩
      | closing ending =>
          rw [hpoint] at hstage
          exact triesOn_of_closing (hat.trans (congrArg some hpoint)) hagain hstage
      | _ => simp [hpoint, Point.stage] at hstage

/-- After a setback that is not followed by another attempt the session ends idle. -/
def EndsIdle (session : Session) : Prop :=
  session.isBusy = false ∧ session.phase = .idle ∨
    ∃ next more, session.step? (.outcome .closed) = some (next, more) ∧
      next.isBusy = false ∧ next.phase = .idle

theorem endsIdle_of_closing {ending : Ending} (hpoint : session.point? = some (.closing ending))
    (honce : session.config.reconnects = false) : session.EndsIdle := by
  obtain ⟨task, hactive, hat⟩ := Option.map_eq_some_iff.mp hpoint
  refine .inr ⟨_, _, step?_of_closing hactive hat, ?_, ?_⟩
  · rw [isBusy_of_active rfl]
    cases ending <;> simp [Progress.proceed, honce, Task.hasEnded, Progress.goto]
  · cases ending <;> simp [Progress.proceed, honce, Progress.goto, Progress.enter]

theorem Recounted.endsIdle {chronicle : Chronicle} {incidents : List Incident}
    {incident : Incident} (h : Recounted session.config session chronicle incidents)
    (honce : session.config.reconnects = false) (hmem : incident ∈ incidents)
    (hsetback : incident.isSetback = true) : session.EndsIdle := by
  cases hbusy : session.isBusy with
  | false => exact .inl ⟨hbusy, h.idle hbusy⟩
  | true =>
      obtain ⟨task, hactive, hunended⟩ := active_of_isBusy hbusy
      have hat := point?_of_active hactive
      obtain ⟨stage, hcourse, hstage, -⟩ := h.course
      have hleads : incident.leadsTo session.config = .over := by
        cases incident <;> simp_all [Incident.isSetback, Incident.leadsTo, Stage.afterSetback]
      obtain rfl : stage = .over := by
        by_contra hgoing
        exact hcourse.goes_on hgoing incident hmem hleads
      obtain ⟨front, last, rfl, -⟩ := hcourse.of_over
      have hlast : incident = last := by
        rcases List.mem_append.mp hmem with hmem | hmem
        · exact absurd hleads (hcourse.of_snoc.2.1 incident hmem)
        · exact List.mem_singleton.mp hmem
      have hsuits := h.suits _ hat
      have hover := hstage _ hat
      rw [List.getLast?_concat] at hsuits
      cases hpoint : task.point with
      | closing ending => exact endsIdle_of_closing (hat.trans (congrArg some hpoint)) honce
      | parting =>
          rw [hpoint] at hsuits
          have hyield : last.isYield = true := hsuits
          rw [hlast] at hsetback
          cases last <;> simp_all [Incident.isSetback, Incident.isYield]
      | finished => simp [Task.hasEnded, hpoint] at hunended
      | died => simp [Task.hasEnded, hpoint] at hunended
      | _ => simp [hpoint, Point.stage] at hover

/--
Of an activation at any moment of a run: its calls and reports are those of its
incidents, so that each failed attempt is reported by itself as one fault, and each lost
connection as one loss, with the fault before it if there was one.  A session that tries
again does so after each setback and is ended by nothing but the wish to stop; on a
punctual clock it connects exactly the delay after it reported the setback.  One that
does not try again connects once and is idle after its first setback.
-/
theorem tries_again {config : Config} {handlers : Handlers} {start : Session}
    {inputs : List Input} (hstart : ofConfig config handlers = .ok start)
    (hrun : start.run? inputs = some (session, log))
    (hcalm : ∀ input ∈ inputs, input.isPanic = false) :
    let chronicle := start.chronicle inputs
    let incidents := start.incidents inputs
    seen Entry.deed? chronicle.current ++ session.owed = incidents.flatMap Incident.deeds ∧
    (∃ stage, Course config incidents stage) ∧
    (config.reconnects = true →
      (∀ last ∈ incidents.getLast?, last.isSetback = true → session.TriesOn) ∧
      (session.isBusy = false → chronicle.earlier ≠ [] →
        ∃ before last, incidents = before ++ [last] ∧ last.isYield = true)) ∧
    (config.reconnects = false →
      (seen Entry.deed? chronicle.current).countP Deed.isConnect ≤ 1 ∧
      ∀ incident ∈ incidents, incident.isSetback = true → session.EndsIdle) ∧
    (start.isPunctual inputs = true →
      (seen Entry.noticed? chronicle.current).IsChain (Entry.Spaced config) ∧
      ∀ wake, session.point? = some (.pausing wake) → session.now ≤ wake ∧
        (∃ last ∈ (seen Entry.noticed? chronicle.current).getLast?,
          last.isBadNews = true ∧ wake = last.time + config.reconnectDelay) ∧
        (session.now = wake → ∃ next more, session.run? [.branch .resume, .branch .dial] =
          some (next, more ++ [⟨wake, .connecting, .call (.connect config.url)⟩]))) := by
  have hrecounted := recounted_of_run? hstart hrun hcalm
  have hconfig := (disciplined_of_run? hstart hrun).config_eq
  obtain ⟨stage, hcourse, -⟩ := hrecounted.course
  refine ⟨hrecounted.deeds_eq, ⟨stage, hcourse⟩, ?_, ?_, ?_⟩
  · intro hagain
    constructor
    · intro last hlast hsetback
      rw [← hconfig] at hrecounted hagain
      exact hrecounted.triesOn hagain hlast hsetback
    · intro hrest hbegun
      obtain ⟨before, last, heq, hlast⟩ := (hrecounted.of_rest hrest hbegun).2.of_over
      exact ⟨before, last, heq, hlast.resolve_right (by simp [hagain])⟩
  · intro honce
    refine ⟨?_, fun incident hmem hsetback => ?_⟩
    · have hcount := Incident.countP_flatMap fun incident (_ : incident ∈ start.incidents inputs) =>
        Course.countP_isConnect incident
      have hdials := (hcourse.countP_isDial honce).1
      rw [← hrecounted.deeds_eq, List.countP_append] at hcount
      omega
    · rw [← hconfig] at hrecounted honce
      exact hrecounted.endsIdle honce hmem hsetback
  · intro hpunctual
    have hpaced := paced_of_run? hstart hrun hpunctual
    refine ⟨hpaced.spaced, fun wake hpoint => ?_⟩
    obtain ⟨hnow, hlast⟩ := hpaced.paces _ hpoint
    refine ⟨hnow, hlast, ?_⟩
    rintro rfl
    rw [← hconfig]
    exact redial hpoint (Nat.le_refl _)

def unlucky : List Input :=
  [.request .activate, .branch .start, .branch .dial,
      .outcome (.opened (.error .notConnected)), .outcome .closed, .elapse 5, .branch .resume] ++
    connecting.tail.tail ++
    [.elapse 7, .outcome (.event (.failed .notConnected)), .outcome .closed, .elapse 3]

theorem tries_again_when_unlucky :
    ∃ start session log, ofConfig stubbornConfig {} = .ok start ∧
      start.run? unlucky = some (session, log) ∧
      (∀ input ∈ unlucky, input.isPanic = false) ∧ start.isPunctual unlucky = true ∧
      (seen Entry.noticed? (start.chronicle unlucky).current).map
        (fun entry => (entry.time, entry.isConnect)) =
        [(0, true), (0, false), (0, false), (5, true), (5, false), (5, false), (12, false),
          (12, false), (12, false)] ∧
      session.point? = some (.pausing 17) ∧ session.now ≤ 17 ∧
      seen Entry.deed? (start.chronicle unlucky).current ++ session.owed =
        (start.incidents unlucky).flatMap Incident.deeds ∧
      (seen Entry.noticed? (start.chronicle unlucky).current).IsChain
        (Entry.Spaced stubbornConfig) := by
  have hstart : ofConfig stubbornConfig {} = .ok (fresh stubbornConfig) := rfl
  have hrun : (((fresh stubbornConfig).run? unlucky).map fun stepped => stepped.1.point?) =
      some (some (.pausing 17)) := by
    decide +kernel
  have hcalm : ∀ input ∈ unlucky, input.isPanic = false := by decide
  have hpunctual : (fresh stubbornConfig).isPunctual unlucky = true := by
    decide +kernel
  have htimes : (seen Entry.noticed? ((fresh stubbornConfig).chronicle unlucky).current).map
      (fun entry => (entry.time, entry.isConnect)) =
        [(0, true), (0, false), (0, false), (5, true), (5, false), (5, false), (12, false),
          (12, false), (12, false)] := by
    decide +kernel
  obtain ⟨⟨session, log⟩, hrun, hpausing⟩ := Option.map_eq_some_iff.mp hrun
  obtain ⟨hdeeds, -, -, -, hpace⟩ := tries_again hstart hrun hcalm
  obtain ⟨hspaced, hpauses⟩ := hpace hpunctual
  exact ⟨fresh stubbornConfig, session, log, hstart, hrun, hcalm, hpunctual, htimes, hpausing,
    (hpauses 17 hpausing).1, hdeeds, hspaced⟩

end Session

end Stomp
