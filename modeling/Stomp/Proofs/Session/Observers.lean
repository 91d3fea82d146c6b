import Stomp.Proofs.Session.Activations

/-!
# Observers

Someone who looks at the entries of a log one by one sees of it what each of them shows.
-/

namespace Stomp

/-- What is seen of a log by looking at each of its entries. -/
def seen {α : Type} (look : Entry → Option α) (log : List Entry) : List α := log.filterMap look

section Log

variable {α : Type} (look : Entry → Option α)

@[simp] theorem seen_nil : seen look [] = [] := rfl

@[simp] theorem seen_cons (entry : Entry) (log : List Entry) :
    seen look (entry :: log) = (look entry).toList ++ seen look log := by
  cases hentry : look entry with
  | none => simp [seen, hentry]
  | some shown => simp [seen, hentry]

@[simp] theorem seen_append (first last : List Entry) :
    seen look (first ++ last) = seen look first ++ seen look last :=
  List.filterMap_append

end Log

section Session

variable {α : Type} {look : Entry → Option α} {session next : Session} {stepped : Stepped}

theorem seen_eq_nil {log : List Entry} (h : ∀ entry ∈ log, look entry = none) :
    seen look log = [] :=
  List.filterMap_eq_nil_iff.mpr h

theorem Session.Quiet.seen_eq_nil (h : session.Quiet stepped)
    (hsend : ∀ time phase frame answer, look ⟨time, phase, .answeredSend frame answer⟩ = none)
    (hnext : ∀ time phase answer, look ⟨time, phase, .answeredNext answer⟩ = none) :
    seen look stepped.2 = [] := by
  refine Stomp.seen_eq_nil fun entry hmem => ?_
  obtain ⟨-, hanswer⟩ := h.answers entry hmem
  obtain ⟨time, phase, effect⟩ := entry
  cases effect with
  | answeredSend frame answer => exact hsend time phase frame answer
  | answeredNext answer => exact hnext time phase answer
  | _ => exact absurd hanswer not_false

theorem Session.Turnover.seen_eq_nil (h : session.Turnover stepped)
    (henter : ∀ time before phase, phase ≠ .connected →
      look ⟨time, before, .enter phase⟩ = none) : seen look stepped.2 = [] := by
  refine Stomp.seen_eq_nil fun entry hmem => ?_
  obtain ⟨phase, heffect, hphase⟩ := h.enters entry hmem
  obtain ⟨time, before, effect⟩ := entry
  obtain rfl : effect = .enter phase := heffect
  exact henter time before phase (by rintro rfl; simp at hphase)

theorem Session.Turns.seen_eq_nil {input : Input} (h : session.Turns input stepped)
    (henter : ∀ time before phase, look ⟨time, before, .enter phase⟩ = none) :
    seen look stepped.2 = [] := by
  refine Stomp.seen_eq_nil fun entry hmem => ?_
  obtain ⟨phase, heffect⟩ := h.enters entry hmem
  obtain ⟨time, before, effect⟩ := entry
  obtain rfl : effect = .enter phase := heffect
  exact henter time before phase

theorem Progress.seen_proceed (p : Progress) (config : Config) (ending : Ending)
    (hfailed : ∀ time phase fault heard,
      look ⟨time, phase, .report (.failed fault) heard⟩ = none)
    (hdisconnected : ∀ time phase close heard,
      look ⟨time, phase, .report (.disconnected close) heard⟩ = none)
    (henter : ∀ time before phase, phase ≠ .connected →
      look ⟨time, before, .enter phase⟩ = none) :
    seen look (p.proceed config ending).log = seen look p.log := by
  cases ending with
  | refused fault => cases hagain : config.reconnects <;> simp [proceed, pause, *]
  | lost close => cases hagain : config.reconnects <;> simp [proceed, pause, *]
  | shutdown => simp [proceed, *]
  | panicked fault wasConnected => cases wasConnected <;> simp [proceed, *]

end Session

end Stomp
