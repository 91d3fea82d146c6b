import Stomp.Proofs.Session.Calls
import Stomp.Proofs.Session.Discipline
import Stomp.Proofs.Session.Exchanges

/-!
# Use of the transport

A session closes the transport between two connections, uses it only while one is
open, and after a failure does nothing but close it
(`Session.uses_transport_properly`).
-/

namespace Stomp

/-! ## Exchanges of a session -/

def Input.answers : Input → List Exchange
  | .outcome result => [.answer result]
  | _ => []

/-- What was exchanged in a step: the answer that caused it, and the calls it made. -/
def exchanged (input : Input) (made : List Entry) : List Exchange :=
  input.answers ++ (seen Entry.call? made).map .call

def Session.exchanges (session : Session) (inputs : List Input) : List Exchange :=
  session.observe (fun trace _ input stepped => trace ++ exchanged input stepped.2) [] inputs

def Exchange.call? : Exchange → Option Call
  | .call made => some made
  | .answer _ => none

theorem calls_of_exchanged (input : Input) (made : List Entry) :
    (exchanged input made).filterMap Exchange.call? = seen Entry.call? made := by
  have hanswers : input.answers.filterMap Exchange.call? = [] := by cases input <;> rfl
  have hcalls : (seen Entry.call? made).filterMap (Exchange.call? ∘ Exchange.call) =
      seen Entry.call? made :=
    List.filterMap_some
  rw [exchanged, List.filterMap_append, hanswers, List.nil_append, List.filterMap_map, hcalls]

def Point.line : Point → Line
  | .ready | .dialing | .closing _ | .pausing _ | .finished => .shut
  | .opening | .greeting | .awaiting _ | .linked _ | .writing _ | .parting => .good
  | .died => ⟨false, true⟩

def Point.isSpent : Point → Bool
  | .closing _ | .finished | .died => true
  | _ => false

/-! ## Moves of the task -/

namespace Progress

variable {config : Config} {p p' : Progress} {input : Input}

theorem exchanged_of_calls {calls : List Call} (hlog : p.log = [])
    (hcalls : seen Entry.call? p'.log = seen Entry.call? p.log ++ calls) :
    exchanged input p'.log = input.answers ++ calls.map .call := by
  rw [exchanged, hcalls, hlog]
  rfl

theorem exchanged_of_silence (hlog : p.log = [])
    (hcalls : seen Entry.call? p'.log = seen Entry.call? p.log) :
    exchanged input p'.log = input.answers := by
  rw [exchanged, hcalls, hlog]
  exact List.append_nil _

theorem line_of_answering {deadline : Option Instant} {event : Event} (hlog : p.log = [])
    (hpoint : p.task.point = .awaiting deadline) :
    Line.good.run? (exchanged (.outcome (.event event)) (p.hearAwaiting config event).log) =
      some (p.hearAwaiting config event).task.point.line := by
  cases event with
  | item item =>
      rcases p.hearAwaiting_cases config (.item item) with heq | ⟨info, heq⟩ | ⟨fault, heq⟩
      · rw [heq, exchanged_of_silence hlog rfl, hpoint]
        rfl
      · rw [heq, exchanged_of_silence hlog (by simp)]
        rfl
      · rw [heq, exchanged_of_calls hlog (by simp : _ = _ ++ [Call.close])]
        rfl
  | failed fault =>
      rw [hearAwaiting, exchanged_of_calls hlog (by simp : _ = _ ++ [Call.close])]
      rfl
  | closed close =>
      rw [hearAwaiting, exchanged_of_calls hlog (by simp : _ = _ ++ [Call.close])]
      rfl

theorem line_of_hearing {link : Link} {event : Event} (hlog : p.log = []) :
    Line.good.run? (exchanged (.outcome (.event event)) (p.hearLinked link event).log) =
      some (p.hearLinked link event).task.point.line := by
  have hq : (p.goto (.linked { link with lastReceived := p.now })).log = [] := hlog
  cases event with
  | item item =>
      rcases p.hearLinked_cases link (.item item) with
        heq | ⟨fault, heq⟩ | ⟨frame, heq⟩ | ⟨fault, heq⟩ | ⟨close, heq⟩
      · rw [heq, exchanged_of_silence hlog (by simp)]
        rfl
      · rw [heq, exchanged_of_silence hq (by simp)]
        rfl
      · rw [heq, exchanged_of_silence hq (by simp), deliver_point]
        rfl
      · rw [heq, exchanged_of_calls hq (by simp : _ = _ ++ [Call.close])]
        rfl
      · rw [heq, exchanged_of_calls hq (by simp : _ = _ ++ [Call.close])]
        rfl
  | failed fault =>
      rw [hearLinked, exchanged_of_calls hq (by simp : _ = _ ++ [Call.close])]
      rfl
  | closed close =>
      rw [hearLinked, exchanged_of_calls hq (by simp : _ = _ ++ [Call.close])]
      rfl

theorem line_of_panic {panic : Panic} (hlog : p.log = []) :
    p.task.point.line.run? (exchanged (.outcome (.panicked panic)) (p.recover panic).log) =
      some (p.recover panic).task.point.line := by
  rw [exchanged_of_calls hlog (by simp : _ = _ ++ [Call.close]), recover_point]
  rfl

/-- The exchanges of a move are proper and lead to the line of the point it comes to. -/
theorem Moves.line (h : Moves config p input p') (hlog : p.log = []) :
    p.task.point.line.run? (exchanged input p'.log) = some p'.task.point.line := by
  cases h with
  | start hpoint =>
      rw [hpoint, exchanged_of_silence hlog (by simp)]
      rfl
  | dial hpoint =>
      rw [hpoint, exchanged_of_calls hlog (by simp : _ = _ ++ [Call.connect config.url])]
      rfl
  | abandon hpoint =>
      rw [exchanged_of_calls hlog (by simp : _ = _ ++ [Call.close])]
      rfl
  | part hpoint =>
      rw [hpoint, exchanged_of_calls hlog (by simp : _ = _ ++ [Call.send (.frame disconnectFrame)])]
      rfl
  | timeout hpoint =>
      rw [exchanged_of_calls hlog (by simp : _ = _ ++ [Call.close])]
      rfl
  | @take link frame rest hpoint hqueue =>
      rw [hpoint, exchanged_of_calls hlog (by simp : _ = _ ++ [Call.send (.frame frame)])]
      rfl
  | unattended hpoint =>
      rw [hpoint, exchanged_of_calls hlog (by simp : _ = _ ++ [Call.send (.frame disconnectFrame)])]
      rfl
  | beat hpoint =>
      rw [hpoint, exchanged_of_calls hlog (by simp : _ = _ ++ [Call.send .heartbeat])]
      rfl
  | watchdog hpoint =>
      rw [exchanged_of_calls hlog (by simp : _ = _ ++ [Call.close])]
      rfl
  | resume hpoint =>
      rw [hpoint, exchanged_of_silence hlog (by simp)]
      rfl
  | opened hpoint =>
      rw [hpoint,
        exchanged_of_calls hlog (by simp : _ = _ ++ [Call.send (.frame config.connectFrame)])]
      rfl
  | unopened hpoint =>
      rw [exchanged_of_calls hlog (by simp : _ = _ ++ [Call.close])]
      rfl
  | greeted hpoint =>
      rw [hpoint, exchanged_of_silence hlog (by simp)]
      rfl
  | ungreeted hpoint =>
      rw [exchanged_of_calls hlog (by simp : _ = _ ++ [Call.close])]
      rfl
  | answer hpoint =>
      rw [hpoint]
      exact line_of_answering hlog hpoint
  | hear hpoint =>
      rw [hpoint]
      exact line_of_hearing hlog
  | written hpoint =>
      rw [hpoint, exchanged_of_silence hlog (by simp)]
      rfl
  | unwritten hpoint =>
      rw [exchanged_of_calls hlog (by simp : _ = _ ++ [Call.close])]
      rfl
  | parted hpoint =>
      rw [exchanged_of_calls hlog (by simp : _ = _ ++ [Call.close])]
      rfl
  | @closed ending hpoint =>
      rw [hpoint, exchanged_of_silence hlog (by simp)]
      rcases p.proceed_point config ending with hended | ⟨wake, hpausing⟩
      · rw [hended]
        rfl
      · rw [hpausing]
        rfl
  | panic hpoint => exact line_of_panic hlog
  | death hpoint =>
      rw [hpoint, exchanged_of_silence hlog (by simp)]
      rfl

theorem Moves.last_call (h : Moves config p input p') (hlog : p.log = [])
    (hspent : p'.task.point.isSpent = true) :
    seen Entry.call? p'.log = [.close] ∨
      seen Entry.call? p'.log = [] ∧ p.task.point.isSpent = true := by
  cases h with
  | abandon hpoint => exact .inl (by simp [hlog])
  | timeout hpoint => exact .inl (by simp [hlog])
  | watchdog hpoint => exact .inl (by simp [hlog])
  | unopened hpoint => exact .inl (by simp [hlog])
  | ungreeted hpoint => exact .inl (by simp [hlog])
  | unwritten hpoint => exact .inl (by simp [hlog])
  | parted hpoint => exact .inl (by simp [hlog])
  | panic hpoint => exact .inl (by simp [hlog])
  | closed hpoint => exact .inr ⟨by simp [hlog], by rw [hpoint]; rfl⟩
  | death hpoint => exact .inr ⟨by simp [hlog], by rw [hpoint]; rfl⟩
  | @answer deadline event hpoint =>
      rcases p.hearAwaiting_calls config event with ⟨-, hstay | ⟨link, hlinked⟩⟩ | hcalls
      · rw [hstay, hpoint] at hspent
        exact absurd hspent Bool.false_ne_true
      · rw [hlinked] at hspent
        exact absurd hspent Bool.false_ne_true
      · exact .inl (by simp [hcalls, hlog])
  | @hear link event hpoint =>
      rcases p.hearLinked_calls link event with ⟨-, other, hlinked⟩ | hcalls
      · rw [hlinked] at hspent
        exact absurd hspent Bool.false_ne_true
      · exact .inl (by simp [hcalls, hlog])
  | _ => exact absurd hspent Bool.false_ne_true

end Progress

/-! ## Steps of a session -/

namespace Session

variable {session next : Session} {log more : List Entry} {line : Line}

/--
How a line fits a session.  Without a task nothing is open; and a handle that has
the transport has not lost a task to a panic.
-/
structure Fits (session : Session) (line : Line) : Prop where
  underway : ∀ point, session.point? = some point → line = point.line
  apart : session.point? = none → line.isOpen = false
  mended : session.parts.isSome = true → line.hasFailed = false

theorem rest_cases (hrest : session.isBusy = false) :
    session.point? = none ∨ session.point? = some .finished ∨ session.point? = some .died := by
  cases hactive : session.active with
  | none => exact .inl (by rw [point?, hactive]; rfl)
  | some task =>
      rw [isBusy_of_active hactive, Bool.not_eq_false'] at hrest
      rcases hasEnded_cases hrest with hpoint | hpoint
      · exact .inr (.inl (by rw [point?_of_active hactive, hpoint]))
      · exact .inr (.inr (by rw [point?_of_active hactive, hpoint]))

theorem Fits.isOpen_of_rest (h : session.Fits line) (hrest : session.isBusy = false) :
    line.isOpen = false := by
  rcases rest_cases hrest with hpoint | hpoint | hpoint
  · exact h.apart hpoint
  · rw [h.underway _ hpoint]
    rfl
  · rw [h.underway _ hpoint]
    rfl

theorem Fits.quiet {stepped : Stepped} (h : session.Fits line) (hquiet : session.Quiet stepped) :
    stepped.1.Fits line where
  underway := by
    rw [hquiet.point_eq]
    exact h.underway
  apart := by
    rw [hquiet.point_eq]
    exact h.apart
  mended := by
    rw [hquiet.parts_eq]
    exact h.mended

theorem Fits.turnover {stepped : Stepped} (h : session.Fits line)
    (hturnover : session.Turnover stepped) : stepped.1.Fits line := by
  have hshut : line.isOpen = false := h.isOpen_of_rest hturnover.rest
  have hmended : stepped.1.parts.isSome = true ∨ stepped.1.point? = some .ready →
      line.hasFailed = false := by
    intro hnew
    rcases hturnover.origin hnew with hparts | hfinished
    · exact h.mended hparts
    · rw [h.underway _ hfinished]
      rfl
  refine ⟨fun point hpoint => ?_, fun _ => hshut, fun hparts => hmended (.inl hparts)⟩
  rcases hturnover.point_eq with hnone | hready
  · rw [hnone] at hpoint
    exact absurd hpoint (Option.some_ne_none point).symm
  · obtain rfl := Option.some.inj (hready.symm.trans hpoint)
    exact congrArg₂ Line.mk hshut (hmended (.inr hready))

theorem exchanged_of_rest {input : Input} (hmove : input.isMove = false)
    (hcalls : seen Entry.call? more = []) : exchanged input more = [] := by
  have hanswers : input.answers = [] := by
    cases input with
    | outcome outcome => exact absurd hmove Bool.noConfusion
    | _ => rfl
  rw [exchanged, hanswers, hcalls]
  rfl

theorem Steps.fits {input : Input} (h : session.Steps input next more) (hlent : session.Lent)
    (hfits : session.Fits line) :
    ∃ line', line.run? (exchanged input more) = some line' ∧ next.Fits line' := by
  rcases h.kinds with
    ⟨hquiet, hmove⟩ | ⟨hturnover, hmove⟩ | ⟨task, p, hactive, hmoves, rfl, rfl⟩
  · rw [exchanged_of_rest hmove hquiet.calls_eq]
    exact ⟨line, rfl, hfits.quiet hquiet⟩
  · rw [exchanged_of_rest hmove hturnover.calls_eq]
    exact ⟨line, rfl, hfits.turnover hturnover⟩
  · have hline := hmoves.line rfl
    rw [← hfits.underway _ (point?_of_active hactive)] at hline
    refine ⟨p.task.point.line, hline, ?_, ?_, ?_⟩
    · intro point hpoint
      exact congrArg Point.line (Option.some.inj hpoint)
    · intro hnone
      exact absurd hnone (Option.some_ne_none _)
    · intro hparts
      rw [hlent.parts_eq hactive] at hparts
      exact absurd hparts Bool.false_ne_true

structure Leaves (session : Session) (log : List Entry) : Prop where
  spent : ∀ point, session.point? = some point → point.isSpent = true →
    (seen Entry.call? log).getLast? = some .close
  apart : session.point? = none → ∀ call ∈ (seen Entry.call? log).getLast?, call = .close

theorem Leaves.of_rest (h : session.Leaves log) (hrest : session.isBusy = false) :
    ∀ call ∈ (seen Entry.call? log).getLast?, call = .close := by
  rcases rest_cases hrest with hpoint | hpoint | hpoint
  · exact h.apart hpoint
  · rw [h.spent _ hpoint rfl]
    exact fun call hmem => (Option.mem_some.mp hmem).symm
  · rw [h.spent _ hpoint rfl]
    exact fun call hmem => (Option.mem_some.mp hmem).symm

theorem Leaves.quiet (h : session.Leaves log) (hquiet : session.Quiet (next, more)) :
    next.Leaves (log ++ more) := by
  have hpoint : next.point? = session.point? := hquiet.point_eq
  have hcalls : seen Entry.call? more = [] := hquiet.calls_eq
  constructor
  · rw [hpoint, seen_append, hcalls, List.append_nil]
    exact h.spent
  · rw [hpoint, seen_append, hcalls, List.append_nil]
    exact h.apart

theorem Leaves.turnover (h : session.Leaves log) (hturnover : session.Turnover (next, more)) :
    next.Leaves (log ++ more) := by
  have hcalls : seen Entry.call? more = [] := hturnover.calls_eq
  constructor
  · intro point hpoint hspent
    rcases hturnover.point_eq with hnone | hready
    · exact absurd (hnone.symm.trans hpoint) (Option.some_ne_none point).symm
    · obtain rfl := Option.some.inj (hready.symm.trans hpoint)
      exact absurd hspent Bool.false_ne_true
  · intro _
    rw [seen_append, hcalls, List.append_nil]
    exact h.of_rest hturnover.rest

theorem Steps.leaves {input : Input} (h : session.Steps input next more)
    (hleaves : session.Leaves log) : next.Leaves (log ++ more) := by
  rcases h.kinds with ⟨hquiet, -⟩ | ⟨hturnover, -⟩ | ⟨task, p, hactive, hmoves, rfl, rfl⟩
  · exact hleaves.quiet hquiet
  · exact hleaves.turnover hturnover
  · refine ⟨?_, fun hnone => absurd hnone (Option.some_ne_none _)⟩
    intro point hpoint hspent
    obtain rfl := Option.some.inj hpoint
    rw [seen_append]
    rcases hmoves.last_call rfl hspent with hcalls | ⟨hcalls, hbefore⟩
    · rw [hcalls, List.getLast?_concat]
    · rw [hcalls, List.append_nil]
      exact hleaves.spent _ (point?_of_active hactive) hbefore

/-! ## Runs -/

theorem exchanges_snoc {start : Session} {inputs : List Input} {input : Input}
    (hrun : start.run? inputs = some (session, log))
    (hstep : session.step? input = some (next, more)) :
    start.exchanges (inputs ++ [input]) = start.exchanges inputs ++ exchanged input more :=
  observe_snoc _ _ hrun hstep

theorem calls_of_exchanges {start : Session} {inputs : List Input}
    (hrun : start.run? inputs = some (session, log)) :
    (start.exchanges inputs).filterMap Exchange.call? = seen Entry.call? log := by
  refine run?_induction (motive := fun inputs _ log =>
    (start.exchanges inputs).filterMap Exchange.call? = seen Entry.call? log) rfl ?_ hrun
  intro inputs input session next log more hbefore h hstep
  rw [exchanges_snoc hbefore hstep, List.filterMap_append, h, calls_of_exchanged, seen_append]

theorem fits_of_run? {config : Config} {handlers : Handlers} {start : Session}
    {inputs : List Input} (hstart : ofConfig config handlers = .ok start)
    (hrun : start.run? inputs = some (session, log)) :
    ∃ line, Line.shut.run? (start.exchanges inputs) = some line ∧ session.Fits line := by
  have hnew : start.Fits .shut := by
    obtain rfl := ofConfig_eq_ok hstart
    exact ⟨fun point hpoint => absurd hpoint (Option.some_ne_none point).symm,
      fun _ => rfl, fun _ => rfl⟩
  refine run?_induction (motive := fun inputs session _ =>
    ∃ line, Line.shut.run? (start.exchanges inputs) = some line ∧ session.Fits line)
    ⟨.shut, rfl, hnew⟩ ?_ hrun
  rintro inputs input session next log more hbefore ⟨line, hline, hfits⟩ hstep
  have hlent := (disciplined_of_run? hstart hbefore).lent
  obtain ⟨line', hline', hfits'⟩ := (step?_steps hstep).fits hlent hfits
  refine ⟨line', ?_, hfits'⟩
  rw [exchanges_snoc hbefore hstep]
  exact Line.run?_append hline hline'

theorem leaves_of_run? {config : Config} {handlers : Handlers} {start : Session}
    {inputs : List Input} (hstart : ofConfig config handlers = .ok start)
    (hrun : start.run? inputs = some (session, log)) : session.Leaves log := by
  have hnew : start.Leaves [] := by
    obtain rfl := ofConfig_eq_ok hstart
    exact ⟨fun point hpoint => absurd hpoint (Option.some_ne_none point).symm,
      fun _ call hmem => absurd hmem (Option.not_mem_none call)⟩
  refine run?_induction (motive := fun _ session log => session.Leaves log) hnew ?_ hrun
  intro inputs input session next log more _ h hstep
  exact (step?_steps hstep).leaves h

theorem good_of_listening (hfits : session.Fits line)
    (hlistening : session.active.any Task.isListening = true) : line = .good := by
  obtain ⟨task, hactive, hlistens⟩ := (Option.any_eq_true _ _).mp hlistening
  rw [hfits.underway _ (point?_of_active hactive)]
  unfold Task.isListening at hlistens
  split at hlistens
  · rename_i hpoint
    rw [hpoint]
    rfl
  · rename_i hpoint
    rw [hpoint]
    rfl
  · exact absurd hlistens Bool.false_ne_true

/--
The session uses its transport properly; it has at most one connection open, and none
once its task has ended, which closed the transport as the last thing; and what it
listens to is a connection that is neither closed nor has failed.
-/
theorem uses_transport_properly {config : Config} {handlers : Handlers} {start : Session}
    {inputs : List Input} (hstart : ofConfig config handlers = .ok start)
    (hrun : start.run? inputs = some (session, log)) :
    (start.exchanges inputs).filterMap Exchange.call? = seen Entry.call? log ∧
    Proper (start.exchanges inputs) ∧
    openConnections (start.exchanges inputs) ≤ 1 ∧
    (session.active.any Task.isListening = true → Usable (start.exchanges inputs)) ∧
    (session.point? = some .finished → (seen Entry.call? log).getLast? = some .close) ∧
    (session.isBusy = false → openConnections (start.exchanges inputs) = 0 ∧
      ∀ call ∈ (seen Entry.call? log).getLast?, call = .close) := by
  obtain ⟨line, hline, hfits⟩ := fits_of_run? hstart hrun
  have hleaves := leaves_of_run? hstart hrun
  have hopen := Line.openConnections_of_run? hline
  refine ⟨calls_of_exchanges hrun, Line.proper_of_run? hline, ?_, ?_, ?_, ?_⟩
  · rw [hopen]
    exact Bool.toNat_le line.isOpen
  · intro hlistening
    rw [good_of_listening hfits hlistening] at hline
    exact Line.usable_of_run? hline
  · exact fun hfinished => hleaves.spent _ hfinished rfl
  · intro hrest
    rw [hopen, hfits.isOpen_of_rest hrest]
    exact ⟨rfl, hleaves.of_rest hrest⟩

def mishaps : List Input :=
  connecting ++
    [.outcome (.event (.failed .notConnected)), .outcome .closed, .elapse 5, .branch .resume,
      .branch .dial, .outcome (.panicked .other), .outcome .closed]

theorem uses_transport_properly_in_mishaps :
    ∃ start session log, ofConfig stubbornConfig {} = .ok start ∧
      start.run? mishaps = some (session, log) ∧
      seen Entry.call? log =
        [.connect stubbornConfig.url, .send (.frame stubbornConfig.connectFrame),
        .close, .connect stubbornConfig.url, .close] ∧
      Proper (start.exchanges mishaps) ∧ openConnections (start.exchanges mishaps) = 0 := by
  have hstart : ofConfig stubbornConfig {} = .ok (fresh stubbornConfig) := rfl
  have hrun : (((fresh stubbornConfig).run? mishaps).map fun stepped =>
      (stepped.1.isBusy, seen Entry.call? stepped.2)) =
      some (false, [.connect stubbornConfig.url, .send (.frame stubbornConfig.connectFrame),
        .close, .connect stubbornConfig.url, .close]) := by
    decide +kernel
  obtain ⟨⟨session, log⟩, hrun, hresult⟩ := Option.map_eq_some_iff.mp hrun
  obtain ⟨hrest, hcalls⟩ := Prod.mk.inj hresult
  obtain ⟨-, hproper, -, -, -, hended⟩ := uses_transport_properly hstart hrun
  exact ⟨fresh stubbornConfig, session, log, hstart, hrun, hcalls, hproper, (hended hrest).1⟩

end Session

end Stomp
