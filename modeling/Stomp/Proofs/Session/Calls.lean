import Stomp.Proofs.Session.Observers

/-!
# Calls to the transport

Only moves of the task call the transport, and hearing something calls it at most to close it.
-/

namespace Stomp

@[simp] def Entry.call? : Entry → Option Call
  | ⟨_, _, .call call⟩ => some call
  | _ => none

namespace Progress

variable (p : Progress)

@[simp] theorem proceed_calls (config : Config) (ending : Ending) :
    seen Entry.call? (p.proceed config ending).log = seen Entry.call? p.log :=
  p.seen_proceed config ending (fun _ _ _ _ => rfl) (fun _ _ _ _ => rfl) fun _ _ _ _ => rfl

theorem hearAwaiting_calls (config : Config) (event : Event) :
    seen Entry.call? (p.hearAwaiting config event).log = seen Entry.call? p.log ∧
        ((p.hearAwaiting config event).task.point = p.task.point ∨
          ∃ link, (p.hearAwaiting config event).task.point = .linked link) ∨
      seen Entry.call? (p.hearAwaiting config event).log = seen Entry.call? p.log ++ [.close] := by
  rcases p.hearAwaiting_cases config event with heq | ⟨info, heq⟩ | ⟨fault, heq⟩
  · rw [heq]
    exact .inl ⟨rfl, .inl rfl⟩
  · rw [heq]
    exact .inl ⟨by simp, .inr ⟨_, p.connect_point info⟩⟩
  · rw [heq]
    exact .inr (by simp)

theorem hearLinked_calls (link : Link) (event : Event) :
    seen Entry.call? (p.hearLinked link event).log = seen Entry.call? p.log ∧
        (∃ other, (p.hearLinked link event).task.point = .linked other) ∨
      seen Entry.call? (p.hearLinked link event).log = seen Entry.call? p.log ++ [.close] := by
  rcases p.hearLinked_cases link event with
    heq | ⟨fault, heq⟩ | ⟨frame, heq⟩ | ⟨fault, heq⟩ | ⟨close, heq⟩
  · rw [heq]
    exact .inl ⟨rfl, _, rfl⟩
  · rw [heq]
    exact .inl ⟨by simp, _, rfl⟩
  · rw [heq]
    exact .inl ⟨by simp, _, deliver_point ..⟩
  · rw [heq]
    exact .inr (by simp)
  · rw [heq]
    exact .inr (by simp)

variable {p} {p' : Progress}

theorem Moves.close_of_heard (config : Config) {event : Event} {call : Call}
    (h : Moves config p (.outcome (.event event)) p') (hlog : p.log = [])
    (hmem : call ∈ seen Entry.call? p'.log) : call = .close := by
  cases h with
  | answer hpoint =>
      rcases p.hearAwaiting_calls config event with ⟨hcalls, -⟩ | hcalls
      · simp [hcalls, hlog] at hmem
      · simpa [hcalls, hlog] using hmem
  | @hear link _ hpoint =>
      rcases p.hearLinked_calls link event with ⟨hcalls, -⟩ | hcalls
      · simp [hcalls, hlog] at hmem
      · simpa [hcalls, hlog] using hmem

end Progress

namespace Session

variable {session next : Session} {stepped : Stepped}

theorem Quiet.calls_eq (h : session.Quiet stepped) : seen Entry.call? stepped.2 = [] :=
  h.seen_eq_nil (fun _ _ _ _ => rfl) fun _ _ _ => rfl

theorem Turnover.calls_eq (h : session.Turnover stepped) : seen Entry.call? stepped.2 = [] :=
  h.seen_eq_nil fun _ _ _ _ => rfl

theorem Steps.move_of_call {input : Input} {more : List Entry} {call : Call}
    (h : session.Steps input next more) (hmem : call ∈ seen Entry.call? more) :
    ∃ task p, session.active = some task ∧
      Progress.Moves session.config ⟨session.now, session.phase, task, []⟩ input p ∧
      more = p.log := by
  rcases h.kinds with ⟨hquiet, -⟩ | ⟨hturnover, -⟩ | ⟨task, p, hactive, hmoves, -, rfl⟩
  · rw [show seen Entry.call? more = [] from hquiet.calls_eq] at hmem
    exact absurd hmem List.not_mem_nil
  · rw [show seen Entry.call? more = [] from hturnover.calls_eq] at hmem
    exact absurd hmem List.not_mem_nil
  · exact ⟨task, p, hactive, hmoves, rfl⟩

end Session

end Stomp
