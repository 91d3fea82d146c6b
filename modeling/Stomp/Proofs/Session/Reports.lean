import Stomp.Proofs.Session.Phases

/-!
# Reports of connections

A caller that was told of a connection has to be told of its end before it is told
of another and before the session is idle.  `Paired` says so of a log; what is
still owed to the caller can be read off the entries one by one (`paired_iff`).
-/

namespace Stomp

/-! ## Logs -/

namespace Entry

def opens (entry : Entry) : Bool :=
  match entry.effect with
  | .report (.connected _) _ => true
  | _ => false

def ends (entry : Entry) : Bool :=
  match entry.effect with
  | .report (.disconnected _) _ => true
  | _ => false

/-- Whether the end of an earlier connection has to be reported by now. -/
def isDeadline (entry : Entry) : Bool :=
  match entry.effect with
  | .report (.connected _) _ | .enter .idle => true
  | _ => false

def owes (owed : Bool) (entry : Entry) : Bool := entry.opens || owed && !entry.ends

end Entry

/-- Between being told of a connection and a deadline the caller is told of its end. -/
def Paired (log : List Entry) : Prop :=
  ∀ first between last, first :: (between ++ [last]) <:+: log → first.opens = true →
    last.isDeadline = true → ∃ entry ∈ between, entry.ends = true

def owedAfter (owed : Bool) (log : List Entry) : Bool := log.foldl Entry.owes owed

def Settled : Bool → List Entry → Prop
  | _, [] => True
  | owed, entry :: log =>
      (owed = true → entry.isDeadline = false) ∧ Settled (entry.owes owed) log

@[simp] theorem owedAfter_append (owed : Bool) (first last : List Entry) :
    owedAfter owed (first ++ last) = owedAfter (owedAfter owed first) last := List.foldl_append

theorem settled_append {owed : Bool} {first last : List Entry} :
    Settled owed (first ++ last) ↔ Settled owed first ∧ Settled (owedAfter owed first) last := by
  induction first generalizing owed with
  | nil => exact (and_iff_right trivial).symm
  | cons entry first ih => simp only [List.cons_append, Settled, ih, and_assoc, owedAfter,
      List.foldl_cons]

/-- What is owed at first is paid before the first deadline. -/
def PaidInTime (log : List Entry) : Prop :=
  ∀ between last, between ++ [last] <+: log → last.isDeadline = true →
    ∃ entry ∈ between, entry.ends = true

theorem paidInTime_cons {entry : Entry} {log : List Entry} :
    PaidInTime (entry :: log) ↔
      entry.isDeadline = false ∧ (entry.ends = false → PaidInTime log) := by
  constructor
  · intro h
    refine ⟨?_, ?_⟩
    · cases hdeadline : entry.isDeadline with
      | false => rfl
      | true =>
          obtain ⟨answer, hmem, -⟩ := h [] entry (List.prefix_append [entry] log) hdeadline
          exact absurd hmem List.not_mem_nil
    · intro hends between last hprefix hlast
      obtain ⟨answer, hmem, hanswer⟩ :=
        h (entry :: between) last (List.cons_prefix_cons.mpr ⟨rfl, hprefix⟩) hlast
      rcases List.mem_cons.mp hmem with rfl | hmem
      · rw [hends] at hanswer
        exact absurd hanswer Bool.false_ne_true
      · exact ⟨answer, hmem, hanswer⟩
  · rintro ⟨hentry, hpaid⟩ between last hprefix hlast
    cases between with
    | nil =>
        obtain ⟨rfl, -⟩ := List.cons_prefix_cons.mp hprefix
        rw [hentry] at hlast
        exact absurd hlast Bool.false_ne_true
    | cons second between =>
        obtain ⟨rfl, hrest⟩ := List.cons_prefix_cons.mp hprefix
        cases hends : second.ends with
        | true => exact ⟨second, List.mem_cons_self, hends⟩
        | false =>
            obtain ⟨answer, hmem, hanswer⟩ := hpaid hends between last hrest hlast
            exact ⟨answer, List.mem_cons_of_mem second hmem, hanswer⟩

theorem paired_cons {entry : Entry} {log : List Entry} :
    Paired (entry :: log) ↔ Paired log ∧ (entry.opens = true → PaidInTime log) := by
  constructor
  · intro h
    refine ⟨?_, ?_⟩
    · intro first between last hinfix
      exact h first between last (List.infix_cons hinfix)
    · intro hopens between last hprefix hlast
      have hinfix := (List.cons_prefix_cons.mpr ⟨rfl, hprefix⟩ :
        entry :: (between ++ [last]) <+: entry :: log).isInfix
      exact h entry between last hinfix hopens hlast
  · rintro ⟨hpaired, hpaid⟩ first between last hinfix hopens hlast
    rcases List.infix_cons_iff.mp hinfix with hprefix | hinfix
    · obtain ⟨rfl, hrest⟩ := List.cons_prefix_cons.mp hprefix
      exact hpaid hopens between last hrest hlast
    · exact hpaired first between last hinfix hopens hlast

theorem settled_iff {owed : Bool} {log : List Entry} :
    Settled owed log ↔ Paired log ∧ (owed = true → PaidInTime log) := by
  induction log generalizing owed with
  | nil =>
      refine iff_of_true trivial ⟨?_, ?_⟩
      · intro first between last hinfix
        simp at hinfix
      · intro _ between last hprefix
        simp at hprefix
  | cons entry log ih =>
      simp only [Settled, ih, paired_cons, paidInTime_cons, Entry.owes, Bool.or_eq_true,
        Bool.and_eq_true, Bool.not_eq_eq_eq_not, Bool.not_true]
      grind

theorem paired_iff {log : List Entry} : Paired log ↔ Settled false log := by
  rw [settled_iff]
  exact (and_iff_left (fun h => absurd h Bool.false_ne_true)).symm

end Stomp
