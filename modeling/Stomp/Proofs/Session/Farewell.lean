import Stomp.Proofs.Session.Hearing
import Stomp.Proofs.Session.Incidents

/-!
# The end of an activation

The owner's wish to stop is taken at most once in an activation, and its report is
the last thing that an activation does; with another attempt after each setback,
nothing else ends it (`Session.ends_with_farewell`).
-/

namespace Stomp

/-- Whether the owner is told that the session ended a connection by itself. -/
def Deed.isLocal : Deed → Bool
  | report (.disconnected close) => close.isLocal
  | _ => false

/-- Whether a transport told of a close as if it were the session's own. -/
def Incident.isPretense : Incident → Bool
  | .closed close => close.isLocal
  | _ => false

def partingCall : Call := .send (.frame Progress.disconnectFrame)

theorem partingCall_ne (config : Config) : partingCall ≠ .send (.frame config.connectFrame) := by
  simp [partingCall, Progress.disconnectFrame, Config.connectFrame]

/-! ## Farewells in a course -/

theorem Incident.countP_deeds (incident : Incident) :
    incident.deeds.countP Deed.isLocal = (incident.isPretense || incident.isYield).toNat := by
  cases incident with
  | closed close =>
      cases hlocal : close.isLocal <;>
        simp [deeds, Deed.isLocal, isPretense, isYield, hlocal]
  | yielded phase =>
      by_cases hphase : phase = .connected <;>
        simp [deeds, Deed.isLocal, isPretense, isYield, CloseInfo.deactivated, hphase]
  | _ => simp [deeds, Deed.isLocal, isPretense, isYield, CloseInfo.failed]

theorem countP_local (incidents : List Incident) :
    (incidents.flatMap Incident.deeds).countP Deed.isLocal =
      incidents.countP Incident.isPretense + incidents.countP Incident.isYield := by
  rw [Incident.countP_flatMap fun incident _ => incident.countP_deeds]
  induction incidents with
  | nil => rfl
  | cons incident incidents ih =>
      rw [List.countP_cons, List.countP_cons, List.countP_cons, ih]
      cases incident with
      | closed close =>
          cases hlocal : close.isLocal <;>
            simp [Incident.isPretense, Incident.isYield, hlocal, Nat.add_right_comm]
      | _ => simp [Incident.isPretense, Incident.isYield, Nat.add_assoc]

theorem last_of_split {α : Type} {kind : α → Bool} {front rest before : List α} {middle last : α}
    (h : front ++ middle :: rest = before ++ [last]) (hmiddle : kind middle = true)
    (hcount : before.countP kind ≤ front.countP kind) :
    rest = [] ∧ front = before ∧ middle = last := by
  rcases List.eq_nil_or_concat rest with rfl | ⟨rest, final, rfl⟩
  · obtain ⟨rfl, hlast⟩ := List.append_inj' h rfl
    exact ⟨rfl, rfl, List.singleton_inj.mp hlast⟩
  · have hsplit : (front ++ middle :: rest) ++ [final] = before ++ [last] := by simpa using h
    obtain ⟨rfl, -⟩ := List.append_inj' hsplit rfl
    rw [List.countP_append, List.countP_cons_of_pos hmiddle] at hcount
    omega

namespace Course

variable {config : Config} {incidents : List Incident} {stage : Stage}

theorem countP_isYield (h : ∀ incident ∈ incidents, incident.leadsTo config ≠ .over) :
    incidents.countP Incident.isYield = 0 := by
  refine List.countP_eq_zero.mpr fun incident hmem => ?_
  have hgoes := h incident hmem
  cases incident <;> simp_all [Incident.isYield, Incident.leadsTo]

theorem last_call (h : Course config incidents stage) (hover : stage ≠ .over)
    (hconnected : stage ≠ .connected) :
    ((incidents.flatMap Incident.deeds).filterMap Deed.call?).getLast? ≠ some partingCall := by
  have hconnect := (partingCall_ne config).symm
  cases h with
  | nil => simp
  | @snoc front middle last hfront hmay =>
      cases last with
      | greeted frame =>
          cases middle <;> simp_all [Incident.MayHappen, Incident.deeds, Deed.call?]
      | _ =>
          simp_all [Incident.leadsTo, Incident.deeds, List.filterMap_cons, Deed.call?, partingCall]

def leaving (phase : Phase) : List Deed :=
  (if phase = .connected then [.call partingCall] else []) ++ [.call .close]

theorem deeds_yielded (phase : Phase) :
    (Incident.yielded phase).deeds = leaving phase ++ [.report (.disconnected .deactivated)] := by
  simp [Incident.deeds, leaving, partingCall]

theorem farewell_cases (h : Course config incidents stage) :
    incidents.countP Incident.isYield = 0 ∨
      ∃ front middle phase, incidents = front ++ [.yielded phase] ∧ Course config front middle ∧
        (Incident.yielded phase).MayHappen config middle ∧
        front.countP Incident.isYield = 0 := by
  cases h with
  | nil => exact .inl rfl
  | @snoc front middle last hfront hmay =>
      have hmiddle : middle ≠ .over := by
        rintro rfl
        exact last.not_mayHappen_over config hmay
      have hbefore := countP_isYield (hfront.goes_on hmiddle)
      cases last with
      | yielded phase => exact .inr ⟨front, middle, phase, rfl, hfront, hmay, hbefore⟩
      | _ => exact .inl (by simp [List.countP_append, hbefore, Incident.isYield])

theorem countP_isYield_le (h : Course config incidents stage) :
    incidents.countP Incident.isYield ≤ 1 := by
  rcases h.farewell_cases with hnone | ⟨front, middle, phase, rfl, -, -, hfront⟩
  · omega
  · simp [List.countP_append, hfront, Incident.isYield]

theorem last_calls {front : List Incident} {middle : Stage} {phase : Phase}
    (h : Course config front middle) (hmay : (Incident.yielded phase).MayHappen config middle) :
    ∃ calls, (front.flatMap Incident.deeds ++ leaving phase).filterMap Deed.call? =
        calls ++ [.close] ∧
      (calls.getLast? = some partingCall ↔ phase = .connected) := by
  by_cases hphase : phase = .connected
  · refine ⟨(front.flatMap Incident.deeds).filterMap Deed.call? ++ [partingCall], ?_, ?_⟩
    · simp [leaving, hphase, Deed.call?]
    · simp [hphase]
  · refine ⟨(front.flatMap Incident.deeds).filterMap Deed.call?, ?_, ?_⟩
    · simp [leaving, hphase, Deed.call?]
    · have hover : middle ≠ .over := by
        rintro rfl
        exact Incident.not_mayHappen_over config _ hmay
      have hconnected : middle ≠ .connected := by
        rintro rfl
        exact hphase hmay
      exact iff_of_false (h.last_call hover hconnected) hphase

theorem countP_local_le (h : Course config incidents stage) {deeds owed : List Deed}
    (hdeeds : deeds ++ owed = incidents.flatMap Incident.deeds) :
    deeds.countP Deed.isLocal ≤ incidents.countP Incident.isPretense + 1 := by
  have hcount := countP_local incidents
  have honce := h.countP_isYield_le
  rw [← hdeeds, List.countP_append] at hcount
  omega

theorem local_last (h : Course config incidents stage) {deeds owed front rest : List Deed}
    {deed : Deed} (hdeeds : deeds ++ owed = incidents.flatMap Incident.deeds)
    (hsplit : deeds = front ++ deed :: rest) (hlocal : deed.isLocal = true)
    (hbeyond : incidents.countP Incident.isPretense ≤ front.countP Deed.isLocal) :
    rest = [] ∧ ∃ phase calls, .yielded phase ∈ incidents ∧
      front.filterMap Deed.call? = calls ++ [.close] ∧
      (calls.getLast? = some partingCall ↔ phase = .connected) := by
  have hwhole : front ++ deed :: (rest ++ owed) = incidents.flatMap Incident.deeds := by
    simp [← hdeeds, hsplit]
  have hcount := countP_local incidents
  rcases h.farewell_cases with hnever | ⟨before, middle, phase, rfl, hbefore, hmay, hfirst⟩
  · rw [← hwhole, List.countP_append, List.countP_cons_of_pos hlocal] at hcount
    omega
  · have hearly : (before.flatMap Incident.deeds ++ leaving phase).countP Deed.isLocal ≤
        front.countP Deed.isLocal := by
      have hnone : (leaving phase).countP Deed.isLocal = 0 := by
        by_cases hphase : phase = .connected <;> simp [leaving, hphase, Deed.isLocal]
      rw [List.countP_append, countP_local, hfirst, hnone]
      simpa [List.countP_append, Incident.isPretense] using hbeyond
    rw [List.flatMap_append, List.flatMap_singleton, deeds_yielded, ← List.append_assoc] at hwhole
    obtain ⟨hrest, rfl, -⟩ := last_of_split hwhole hlocal hearly
    obtain ⟨calls, hcalls, hlast⟩ := hbefore.last_calls hmay
    exact ⟨(List.append_eq_nil_iff.mp hrest).1, phase, calls, by simp, hcalls, hlast⟩

theorem end_cases (h : Course config incidents .over) :
    ∃ before last, incidents = before ++ [last] ∧
      (last.isYield = true ∧ (incidents.flatMap Incident.deeds).countP Deed.isLocal =
          incidents.countP Incident.isPretense + 1 ∨
        last.isSetback = true ∧ config.reconnects = false ∧
          (incidents.flatMap Incident.deeds).countP Deed.isLocal =
            incidents.countP Incident.isPretense) := by
  obtain ⟨before, last, rfl, hlast⟩ := h.of_over
  have hbefore := countP_isYield h.of_snoc.2.1
  refine ⟨before, last, rfl, ?_⟩
  rw [countP_local, List.countP_append (p := Incident.isYield), hbefore]
  rcases hlast with hyield | ⟨hsetback, hagain⟩
  · exact .inl ⟨hyield, by simp [hyield]⟩
  · refine .inr ⟨hsetback, hagain, ?_⟩
    cases last <;> simp_all [Incident.isSetback, Incident.isYield]

end Course

namespace Session

variable {session next : Session} {log more : List Entry} {input : Input}

theorem phase_of_yielded {phase : Phase} (h : session.incident? input = some (.yielded phase)) :
    phase = session.phase := by
  obtain ⟨task, hactive, h⟩ := Option.bind_eq_some_iff.mp h
  unfold Task.incident? at h
  repeat' split at h
  case h_6 => rcases Event.of_answer? h with ⟨info, hwrong⟩ | ⟨fault, hwrong⟩ <;> simp at hwrong
  case h_10 =>
    rcases Event.of_news? h with ⟨error, hwrong⟩ | ⟨fault, hwrong⟩ | ⟨close, hwrong⟩ <;>
      simp at hwrong
  all_goals simp at h
  all_goals exact h.symm

/--
Of an activation at any moment of a run: that the session itself ended a connection is
reported at most once more than a transport pretended it.  What is reported beyond the
pretenses comes after everything else, and before that the transport was closed, with
an attempt to write DISCONNECT first if the session was connected when it took the wish
to stop.  An activation that has ended did so with that report, or, where a setback is
not followed by another attempt, with the first setback.  The owner hears of all this
if there is a handler for it.
-/
theorem ends_with_farewell {config : Config} {handlers : Handlers} {start : Session}
    {inputs : List Input} (hstart : ofConfig config handlers = .ok start)
    (hrun : start.run? inputs = some (session, log))
    (hcalm : ∀ input ∈ inputs, input.isPanic = false) :
    let deeds := seen Entry.deed? (start.chronicle inputs).current
    let incidents := start.incidents inputs
    let pretenses := incidents.countP Incident.isPretense
    deeds.countP Deed.isLocal ≤ pretenses + 1 ∧
    (∀ front deed rest, deeds = front ++ deed :: rest → deed.isLocal = true →
      pretenses ≤ front.countP Deed.isLocal → rest = [] ∧
      ∃ middle calls, start.ComesTo inputs middle (.yielded middle.phase) ∧
        front.filterMap Deed.call? = calls ++ [.close] ∧
        (calls.getLast? = some partingCall ↔ middle.phase = .connected)) ∧
    (session.isBusy = false → (start.chronicle inputs).earlier ≠ [] →
      ∃ before last, incidents = before ++ [last] ∧
        (last.isYield = true ∧ deeds.countP Deed.isLocal = pretenses + 1 ∨
          last.isSetback = true ∧ config.reconnects = false ∧
            deeds.countP Deed.isLocal = pretenses)) ∧
    callsOf .onDisconnect log =
      if handlers.fills .onDisconnect then reportsFor .onDisconnect log else [] := by
  have hrecounted := recounted_of_run? hstart hrun hcalm
  obtain ⟨stage, hcourse, -⟩ := hrecounted.course
  refine ⟨hcourse.countP_local_le hrecounted.deeds_eq, ?_, ?_,
    callsOf_of_run? hstart hrun .onDisconnect⟩
  · intro front deed rest hsplit hlocal hbeyond
    obtain ⟨hrest, phase, calls, hmem, hcalls⟩ :=
      hcourse.local_last hrecounted.deeds_eq hsplit hlocal hbeyond
    obtain ⟨middle, hmiddle⟩ := comesTo_of_mem_incidents hrun hmem
    obtain rfl : phase = middle.phase := by
      obtain ⟨before, input, after, made, -, -, hcause, -⟩ := hmiddle
      exact phase_of_yielded hcause
    exact ⟨hrest, middle, calls, hmiddle, hcalls⟩
  · intro hrest hbegun
    obtain ⟨hdeeds, hover⟩ := hrecounted.of_rest hrest hbegun
    rw [hdeeds]
    exact hover.end_cases

def persevering : List Input :=
  [.request .activate, .branch .start, .branch .dial,
      .outcome (.opened (.error .notConnected)), .outcome .closed, .elapse 5, .branch .resume] ++
    connecting.tail.tail ++
    [.outcome (.event (.closed (.remote none ""))), .outcome .closed, .elapse 5,
      .branch .resume] ++
    connecting.tail.tail ++
    [.request .deactivate, .branch .cancel, .outcome (.sent (.ok ())), .outcome .closed, .reclaim]

def attentive : Handlers := { onDisconnect := some (.steady .returns) }

theorem ends_with_farewell_after_setbacks :
    ∃ start session log, ofConfig stubbornConfig attentive = .ok start ∧
      start.run? persevering = some (session, log) ∧
      (∀ input ∈ persevering, input.isPanic = false) ∧
      session.isBusy = false ∧
      ((start.incidents persevering).map Incident.isSetback).count true = 2 ∧
      (seen Entry.deed? (start.chronicle persevering).current).countP Deed.isLocal ≤ 1 ∧
      (∃ before last, start.incidents persevering = before ++ [last] ∧
        (last.isYield = true ∧
            (seen Entry.deed? (start.chronicle persevering).current).countP Deed.isLocal = 1 ∨
          last.isSetback = true ∧ stubbornConfig.reconnects = false ∧
            (seen Entry.deed? (start.chronicle persevering).current).countP Deed.isLocal = 0)) ∧
      callsOf .onDisconnect log = reportsFor .onDisconnect log := by
  have hstart : ofConfig stubbornConfig attentive =
      .ok ((fresh stubbornConfig).withHandlers attentive) := rfl
  have hrun : ((((fresh stubbornConfig).withHandlers attentive).run? persevering).map
      fun stepped => stepped.1.isBusy) = some false := by
    decide +kernel
  have hcalm : ∀ input ∈ persevering, input.isPanic = false := by decide
  have hpretenses : (((fresh stubbornConfig).withHandlers attentive).incidents
      persevering).countP Incident.isPretense = 0 := by
    decide +kernel
  have hsetbacks : ((((fresh stubbornConfig).withHandlers attentive).incidents persevering).map
      Incident.isSetback).count true = 2 := by
    decide +kernel
  have hbegun :
      (((fresh stubbornConfig).withHandlers attentive).chronicle persevering).earlier ≠ [] := by
    decide +kernel
  obtain ⟨⟨session, log⟩, hrun, hrest⟩ := Option.map_eq_some_iff.mp hrun
  have hfarewell := ends_with_farewell hstart hrun hcalm
  simp only [hpretenses] at hfarewell
  obtain ⟨hatMost, -, hends, hheard⟩ := hfarewell
  exact ⟨_, session, log, hstart, hrun, hcalm, hrest, hsetbacks, hatMost, hends hrest hbegun,
    hheard⟩

/-- A transport passes a close off as the session's own, which is stopped on its next connection. -/
def deceived : List Input :=
  connecting ++
    [.outcome (.event (.closed .deactivated)), .outcome .closed, .elapse 5, .branch .resume] ++
    connecting.tail.tail ++
    [.request .deactivate, .branch .cancel, .outcome (.sent (.ok ())), .outcome .closed, .reclaim]

/--
Two local closes are heard of in one activation, if the transport tells of the first; and
none in another one, if there is nobody to hear of it.
-/
theorem farewell_heard_twice_or_never :
    (∃ start session log, ofConfig stubbornConfig attentive = .ok start ∧
      start.run? deceived = some (session, log) ∧
      (∀ input ∈ deceived, input.isPanic = false) ∧
      (seen Entry.deed? (start.chronicle deceived).current).countP Deed.isLocal = 2 ∧
      (callsOf .onDisconnect (start.chronicle deceived).current).length = 2) ∧
    ∃ start session log, ofConfig stubbornConfig {} = .ok start ∧
      start.run? persevering = some (session, log) ∧
      (∀ input ∈ persevering, input.isPanic = false) ∧
      stubbornConfig.reconnects = true ∧ session.isBusy = false ∧
      callsOf .onDisconnect log = [] := by
  have htwice : ((((fresh stubbornConfig).withHandlers attentive).run? deceived).map
      fun _ => ((seen Entry.deed? (((fresh stubbornConfig).withHandlers attentive).chronicle
          deceived).current).countP Deed.isLocal,
        (callsOf .onDisconnect (((fresh stubbornConfig).withHandlers attentive).chronicle
          deceived).current).length)) = some (2, 2) := by
    decide +kernel
  have hnever : (((fresh stubbornConfig).run? persevering).map fun stepped =>
      (stepped.1.isBusy, callsOf .onDisconnect stepped.2)) = some (false, []) := by
    decide +kernel
  obtain ⟨⟨session, log⟩, hrun, hcounts⟩ := Option.map_eq_some_iff.mp htwice
  obtain ⟨⟨last, unheard⟩, hlast, hsilence⟩ := Option.map_eq_some_iff.mp hnever
  obtain ⟨hlocal, hheard⟩ := Prod.mk.inj hcounts
  obtain ⟨hrest, hsilent⟩ := Prod.mk.inj hsilence
  exact ⟨⟨_, session, log, rfl, hrun, by decide, hlocal, hheard⟩,
    fresh stubbornConfig, last, unheard, rfl, hlast, by decide, rfl, hrest, hsilent⟩

end Session

end Stomp
