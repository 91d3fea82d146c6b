import Mathlib.Data.List.Induction
import Mathlib.Tactic.ByContra
import Stomp.Session.Task

/-!
# Exchanges with the transport

Calls to the transport and their answers, in the order in which they come, and what
a proper sequence of them is.  Properness is kept track of by a `Line`
(`Line.proper_of_run?`).
-/

namespace Stomp

/-! ## Exchanges -/

inductive Exchange where
  | call (call : Call)
  | answer (outcome : Outcome)

namespace Exchange

def isConnect : Exchange → Bool
  | .call (.connect _) => true
  | _ => false

def isClose : Exchange → Bool
  | .call .close => true
  | _ => false

def isUse : Exchange → Bool
  | .call (.send _) | .answer (.event _) => true
  | _ => false

def isFailure : Exchange → Bool
  | .answer (.opened (.error _)) | .answer (.sent (.error _)) | .answer (.event (.failed _))
  | .answer (.event (.closed _)) | .answer (.panicked _) => true
  | _ => false

def isMade (exchange : Exchange) : Bool :=
  exchange.isConnect || exchange.isClose || exchange.isUse

end Exchange

/-- What a session may do with its transport, in the order of its exchanges. -/
structure Proper (trace : List Exchange) : Prop where
  closed : ∀ first between last, first :: (between ++ [last]) <:+: trace →
    first.isConnect = true → last.isConnect = true → ∃ middle ∈ between, middle.isClose = true
  unused : ∀ first between last, first :: (between ++ [last]) <:+: trace →
    first.isClose = true → last.isUse = true → ∃ middle ∈ between, middle.isConnect = true
  abandoned : ∀ first between last, first :: (between ++ [last]) <:+: trace →
    first.isFailure = true → (∀ middle ∈ between, middle.isMade = false) → last.isMade = true →
    last.isClose = true

/-- A connection was made, and since then it was neither closed nor did it fail. -/
def Usable (trace : List Exchange) : Prop :=
  ∃ before first after, trace = before ++ first :: after ∧ first.isConnect = true ∧
    ∀ later ∈ after, later.isClose = false ∧ later.isFailure = false

def openConnections (trace : List Exchange) : Nat :=
  trace.foldl
    (fun count exchange =>
      if exchange.isConnect then count + 1 else if exchange.isClose then 0 else count)
    0

/-! ## The line -/

/-- What the exchanges so far leave of the connection. -/
structure Line where
  isOpen : Bool
  hasFailed : Bool

namespace Line

def shut : Line := ⟨false, false⟩

def good : Line := ⟨true, false⟩

def step? (line : Line) (exchange : Exchange) : Option Line :=
  if exchange.isConnect then if line.isOpen || line.hasFailed then none else some good
  else if exchange.isClose then some shut
  else if exchange.isUse && !(line.isOpen && !line.hasFailed) then none
  else some { line with hasFailed := line.hasFailed || exchange.isFailure }

def run? (line : Line) (trace : List Exchange) : Option Line := trace.foldlM step? line

variable {line line' : Line} {exchange : Exchange} {trace : List Exchange}

theorem run?_append_eq_some {first last : List Exchange}
    (h : line.run? (first ++ last) = some line') :
    ∃ middle, line.run? first = some middle ∧ middle.run? last = some line' := by
  rw [run?, List.foldlM_append] at h
  exact Option.bind_eq_some_iff.mp h

theorem run?_append {first last : List Exchange} {middle : Line}
    (hfirst : line.run? first = some middle) (hlast : middle.run? last = some line') :
    line.run? (first ++ last) = some line' := by
  rw [run?, List.foldlM_append]
  exact Option.bind_eq_some_iff.mpr ⟨middle, hfirst, hlast⟩

theorem run?_cons_eq_some (h : line.run? (exchange :: trace) = some line') :
    ∃ middle, line.step? exchange = some middle ∧ middle.run? trace = some line' := by
  rw [run?, List.foldlM_cons] at h
  exact Option.bind_eq_some_iff.mp h

theorem run?_snoc (h : line.run? trace = some line') (exchange : Exchange) :
    line.run? (trace ++ [exchange]) = line'.step? exchange := by
  rw [run?] at h
  simp [run?, List.foldlM_append, h]

theorem run?_keeps {motive : Line → Prop}
    (hstep : ∀ exchange ∈ trace, ∀ line line', motive line → line.step? exchange = some line' →
      motive line')
    (h : line.run? trace = some line') (hline : motive line) : motive line' := by
  induction trace generalizing line with
  | nil =>
      obtain rfl := Option.some.inj h
      exact hline
  | cons exchange trace ih =>
      obtain ⟨middle, hfirst, hrest⟩ := run?_cons_eq_some h
      refine ih (fun other hmem => hstep other (List.mem_cons_of_mem exchange hmem)) hrest ?_
      exact hstep exchange List.mem_cons_self line middle hline hfirst

theorem step?_of_connect (hconnect : exchange.isConnect = true)
    (h : line.step? exchange = some line') :
    line.isOpen = false ∧ line.hasFailed = false ∧ line' = good := by
  simp only [step?, hconnect, if_true, Option.ite_none_left_eq_some, Option.some.injEq] at h
  simp only [Bool.or_eq_true, not_or, Bool.not_eq_true] at h
  exact ⟨h.1.1, h.1.2, h.2.symm⟩

theorem step?_of_close (hclose : exchange.isClose = true) : line.step? exchange = some shut := by
  have hconnect : exchange.isConnect = false := by
    cases exchange with
    | call call => cases call <;> first | rfl | exact absurd hclose Bool.false_ne_true
    | answer outcome => rfl
  simp [step?, hconnect, hclose]

theorem step?_of_other (hconnect : exchange.isConnect = false) (hclose : exchange.isClose = false)
    (h : line.step? exchange = some line') :
    (exchange.isUse = true → line = good) ∧ line'.isOpen = line.isOpen ∧
      line'.hasFailed = (line.hasFailed || exchange.isFailure) := by
  obtain ⟨isOpen, hasFailed⟩ := line
  cases huse : exchange.isUse with
  | false =>
      simp only [step?, hconnect, hclose, huse, Bool.false_eq_true, if_false, Bool.false_and,
        Option.some.injEq] at h
      subst h
      exact ⟨fun hfalse => absurd hfalse Bool.false_ne_true, rfl, rfl⟩
  | true =>
      cases isOpen <;> cases hasFailed <;> simp_all [step?, good]
      subst h
      exact ⟨rfl, rfl⟩

theorem not_isConnect_of_isUse (huse : exchange.isUse = true) :
    exchange.isConnect = false ∧ exchange.isClose = false := by
  cases exchange with
  | call call => cases call <;> first | exact ⟨rfl, rfl⟩ | exact absurd huse Bool.false_ne_true
  | answer outcome => exact ⟨rfl, rfl⟩

/-! ## What a line says of its trace -/

theorem run?_places {first last : Exchange} {between : List Exchange}
    (hplaces : first :: (between ++ [last]) <:+: trace) (h : line.run? trace = some line') :
    ∃ before after inner final : Line, before.step? first = some after ∧
      after.run? between = some inner ∧ inner.step? last = some final := by
  obtain ⟨front, back, rfl⟩ := hplaces
  obtain ⟨whole, hwhole, -⟩ := run?_append_eq_some h
  obtain ⟨before, -, hmiddle⟩ := run?_append_eq_some hwhole
  obtain ⟨after, hfirst, hrest⟩ := run?_cons_eq_some hmiddle
  obtain ⟨inner, hbetween, hlast⟩ := run?_append_eq_some hrest
  obtain ⟨final, hfinal, -⟩ := run?_cons_eq_some hlast
  exact ⟨before, after, inner, final, hfirst, hbetween, hfinal⟩

theorem isOpen_of_no_close (h : line.run? trace = some line')
    (hnone : ∀ exchange ∈ trace, exchange.isClose = false) (hopen : line.isOpen = true) :
    line'.isOpen = true := by
  refine run?_keeps (motive := fun line => line.isOpen = true) ?_ h hopen
  intro exchange hmem line line' hopen hstep
  cases hconnect : exchange.isConnect with
  | true =>
      rw [(step?_of_connect hconnect hstep).1] at hopen
      exact absurd hopen Bool.false_ne_true
  | false => rw [(step?_of_other hconnect (hnone exchange hmem) hstep).2.1, hopen]

theorem isShut_of_no_connect (h : line.run? trace = some line')
    (hnone : ∀ exchange ∈ trace, exchange.isConnect = false) (hshut : line.isOpen = false) :
    line'.isOpen = false := by
  refine run?_keeps (motive := fun line => line.isOpen = false) ?_ h hshut
  intro exchange hmem line line' hshut hstep
  cases hclose : exchange.isClose with
  | true =>
      rw [step?_of_close hclose] at hstep
      obtain rfl := Option.some.inj hstep
      rfl
  | false => rw [(step?_of_other (hnone exchange hmem) hclose hstep).2.1, hshut]

theorem hasFailed_of_not_made (h : line.run? trace = some line')
    (hnone : ∀ exchange ∈ trace, exchange.isMade = false) (hfailed : line.hasFailed = true) :
    line'.hasFailed = true := by
  refine run?_keeps (motive := fun line => line.hasFailed = true) ?_ h hfailed
  intro exchange hmem line line' hfailed hstep
  have hmade := hnone exchange hmem
  simp only [Exchange.isMade, Bool.or_eq_false_iff] at hmade
  rw [(step?_of_other hmade.1.1 hmade.1.2 hstep).2.2, hfailed, Bool.true_or]

theorem hasFailed_of_isFailure (hfailure : exchange.isFailure = true)
    (h : line.step? exchange = some line') : line'.hasFailed = true := by
  have hanswer : exchange.isConnect = false ∧ exchange.isClose = false := by
    cases exchange with
    | call call => exact absurd hfailure Bool.false_ne_true
    | answer outcome => exact ⟨rfl, rfl⟩
  rw [(step?_of_other hanswer.1 hanswer.2 h).2.2, hfailure, Bool.or_true]

theorem proper_of_run? (h : line.run? trace = some line') : Proper trace where
  closed first between last hplaces hfirst hlast := by
    obtain ⟨before, after, inner, final, hopen, hbetween, hagain⟩ := run?_places hplaces h
    obtain ⟨-, -, rfl⟩ := step?_of_connect hfirst hopen
    by_contra hnone
    have hstill : inner.isOpen = true := by
      refine isOpen_of_no_close hbetween (fun exchange hmem => ?_) rfl
      exact Bool.eq_false_iff.mpr fun hclose => hnone ⟨exchange, hmem, hclose⟩
    rw [(step?_of_connect hlast hagain).1] at hstill
    exact absurd hstill Bool.false_ne_true
  unused first between last hplaces hfirst hlast := by
    obtain ⟨before, after, inner, final, hshut, hbetween, hused⟩ := run?_places hplaces h
    rw [step?_of_close hfirst] at hshut
    obtain rfl := Option.some.inj hshut
    by_contra hnone
    have hstill : inner.isOpen = false := by
      refine isShut_of_no_connect hbetween (fun exchange hmem => ?_) rfl
      exact Bool.eq_false_iff.mpr fun hconnect => hnone ⟨exchange, hmem, hconnect⟩
    obtain ⟨hconnect, hclose⟩ := not_isConnect_of_isUse hlast
    rw [(step?_of_other hconnect hclose hused).1 hlast] at hstill
    exact absurd hstill Bool.noConfusion
  abandoned first between last hplaces hfirst hnone hmade := by
    obtain ⟨before, after, inner, final, hfailed, hbetween, hlast⟩ := run?_places hplaces h
    have hstill : inner.hasFailed = true :=
      hasFailed_of_not_made hbetween hnone (hasFailed_of_isFailure hfirst hfailed)
    cases hclose : last.isClose with
    | true => rfl
    | false =>
        cases hconnect : last.isConnect with
        | true =>
            rw [(step?_of_connect hconnect hlast).2.1] at hstill
            exact absurd hstill Bool.false_ne_true
        | false =>
            have huse : last.isUse = true := by
              simpa [Exchange.isMade, hclose, hconnect] using hmade
            rw [(step?_of_other hconnect hclose hlast).1 huse] at hstill
            exact absurd hstill Bool.false_ne_true

theorem openConnections_of_run? (h : shut.run? trace = some line') :
    openConnections trace = line'.isOpen.toNat := by
  induction trace using List.reverseRecOn generalizing line' with
  | nil =>
      obtain rfl := Option.some.inj h
      rfl
  | append_singleton trace exchange ih =>
      obtain ⟨line, hline, -⟩ := run?_append_eq_some h
      rw [run?_snoc hline] at h
      rw [openConnections, List.foldl_append, ← openConnections, ih hline]
      cases hconnect : exchange.isConnect with
      | true =>
          obtain ⟨hshut, -, rfl⟩ := step?_of_connect hconnect h
          simp [hconnect, hshut, good]
      | false =>
          cases hclose : exchange.isClose with
          | true =>
              rw [step?_of_close hclose] at h
              obtain rfl := Option.some.inj h
              simp [hconnect, hclose, shut]
          | false => simp [hconnect, hclose, (step?_of_other hconnect hclose h).2.1]

theorem usable_of_run? (h : shut.run? trace = some good) : Usable trace := by
  induction trace using List.reverseRecOn with
  | nil => exact absurd (Option.some.inj h) (by simp [shut, good])
  | append_singleton trace exchange ih =>
      obtain ⟨line, hline, -⟩ := run?_append_eq_some h
      rw [run?_snoc hline] at h
      cases hconnect : exchange.isConnect with
      | true =>
          exact ⟨trace, exchange, [], rfl, hconnect,
            fun _ hmem => absurd hmem List.not_mem_nil⟩
      | false =>
          cases hclose : exchange.isClose with
          | true =>
              rw [step?_of_close hclose] at h
              exact absurd (Option.some.inj h) (by simp [shut, good])
          | false =>
              obtain ⟨-, hopen, hfailed⟩ := step?_of_other hconnect hclose h
              obtain ⟨hwhole, hfine⟩ := Bool.or_eq_false_iff.mp hfailed.symm
              have hgood : line = good := by
                cases line with
                | mk isOpen hasFailed => exact congrArg₂ Line.mk hopen.symm hwhole
              rw [hgood] at hline
              obtain ⟨before, first, after, rfl, hfirst, hafter⟩ := ih hline
              refine ⟨before, first, after ++ [exchange], by simp, hfirst, ?_⟩
              intro later hmem
              rcases List.mem_append.mp hmem with hmem | hmem
              · exact hafter later hmem
              · rw [List.mem_singleton.mp hmem]
                exact ⟨hclose, hfine⟩

end Line

end Stomp
