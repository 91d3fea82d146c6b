import Mathlib.Data.List.Forall2

/-!
# Outcomes

What it takes for a computation that can fail to come to a value or to fail, one lemma
for each way in which computations are put together.
-/

namespace Stomp.Except

variable {ε ε' α β : Type} {outcome : Except ε α} {a : α} {b : β} {e : ε}
  {e' : ε'}

theorem ok_bind (a : α) (next : α → Except ε β) : (.ok a >>= next) = next a := rfl

theorem bind_eq_ok {next : α → Except ε β} :
    outcome >>= next = .ok b ↔ ∃ a, outcome = .ok a ∧ next a = .ok b := by
  cases outcome <;> simp [bind, Except.bind]

theorem bind_eq_error {next : α → Except ε β} :
    outcome >>= next = .error e ↔
      outcome = .error e ∨ ∃ a, outcome = .ok a ∧ next a = .error e := by
  cases outcome <;> simp [bind, Except.bind]

theorem map_eq_ok {f : α → β} : outcome.map f = .ok b ↔ ∃ a, outcome = .ok a ∧ f a = b := by
  cases outcome <;> simp [Except.map]

theorem map_eq_error {f : α → β} : outcome.map f = .error e ↔ outcome = .error e := by
  cases outcome <;> simp [Except.map]

theorem mapError_eq_ok {f : ε → ε'} : outcome.mapError f = .ok a ↔ outcome = .ok a := by
  cases outcome <;> simp [Except.mapError]

theorem mapError_eq_error {f : ε → ε'} :
    outcome.mapError f = .error e' ↔ ∃ e, outcome = .error e ∧ f e = e' := by
  cases outcome <;> simp [Except.mapError]

theorem guard_eq_ok {condition : Prop} [Decidable condition] {fault : ε} :
    (if condition then .error fault else outcome) = .ok a ↔ ¬ condition ∧ outcome = .ok a := by
  by_cases h : condition <;> simp [h]

theorem mapM_eq_ok {step : α → Except ε β} {as : List α} {bs : List β} :
    as.mapM step = .ok bs ↔ List.Forall₂ (fun a b => step a = .ok b) as bs := by
  induction as generalizing bs with
  | nil =>
      rw [List.mapM_nil, List.forall₂_nil_left_iff]
      exact ⟨fun h => (Except.ok.inj h).symm, fun h => congrArg _ h.symm⟩
  | cons a as ih =>
      rw [List.mapM_cons, List.forall₂_cons_left_iff, bind_eq_ok]
      constructor
      · rintro ⟨b, hb, h⟩
        obtain ⟨more, hmore, h⟩ := bind_eq_ok.mp h
        exact ⟨b, more, hb, ih.mp hmore, (Except.ok.inj h).symm⟩
      · rintro ⟨b, more, hb, hmore, rfl⟩
        exact ⟨b, hb, bind_eq_ok.mpr ⟨more, ih.mpr hmore, rfl⟩⟩

theorem exists_of_mapM_eq_error {step : α → Except ε β} {as : List α}
    (h : as.mapM step = .error e) : ∃ a ∈ as, step a = .error e := by
  induction as with
  | nil => simp [pure, Except.pure] at h
  | cons a as ih =>
      rw [List.mapM_cons, bind_eq_error] at h
      rcases h with h | ⟨b, -, h⟩
      · exact ⟨a, List.mem_cons_self, h⟩
      rcases bind_eq_error.mp h with h | ⟨more, -, h⟩
      · obtain ⟨other, hother, hstep⟩ := ih h
        exact ⟨other, List.mem_cons_of_mem _ hother, hstep⟩
      · simp [pure, Except.pure] at h

end Stomp.Except
