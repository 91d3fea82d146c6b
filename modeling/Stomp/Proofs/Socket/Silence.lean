import Stomp.Proofs.Session.Timing
import Stomp.Proofs.Socket.Reading
import Stomp.Socket.Client

/-!
# When a broker counts as silent

A broker is given up only if nothing of what it sent for twice the agreed time completed
an item (`Client.gives_up_on_silence`).  Parts of an item do not count: a frame that takes
longer than that to arrive costs the connection, however steadily its parts come.
-/

namespace Stomp.Socket

open Wire

/-! ## The time of the last event -/

theorem lastReceived_of_follow {known : Option Link} {link : Link} {now : Instant} {input : Input}
    {made : List Entry} (h : Link.follow known now input made = some link) :
    link.lastReceived = now ∨
      (∀ event, input ≠ .outcome (.event event)) ∧
        ∃ before, known = some before ∧ before.lastReceived = link.lastReceived := by
  cases known with
  | none =>
      obtain ⟨info, -, rfl⟩ := Option.map_eq_some_iff.mp h
      exact .inl rfl
  | some before =>
      obtain rfl := Option.some.inj h
      unfold Link.note
      split
      · exact .inr ⟨fun _ heq => (nomatch heq), before, rfl, rfl⟩
      · exact .inl rfl
      · next hother => exact .inr ⟨hother, before, rfl, rfl⟩

namespace Client

variable {client next : Client} {action : Action} {made : List Entry}

/-- What was heard after some time is part of an item that is not complete. -/
def HeardSince (client : Client) (time : Instant) : Prop :=
  ∃ earlier late kept, client.heard = earlier ++ late ∧
    (∀ arrival ∈ earlier, arrival.time ≤ time) ∧
    client.transport.buffer = kept ++ late.flatMap (Transport.carried ·.received)

structure Accounted (client : Client) : Prop where
  past : ∀ arrival ∈ client.heard ++ client.unread, arrival.time ≤ client.session.now
  idle : Item.decode client.transport.buffer = .idle
  heard : ∀ link, client.session.link? = some link → client.HeardSince link.lastReceived

theorem HeardSince.of_past {time : Instant}
    (h : ∀ arrival ∈ client.heard ++ client.unread, arrival.time ≤ time) :
    client.HeardSince time :=
  ⟨client.heard, [], client.transport.buffer, (List.append_nil _).symm,
    fun arrival hmem => h arrival (List.mem_append_left _ hmem), (List.append_nil _).symm⟩

/-! ## Steps -/

inductive Steps (client : Client) : Action → Client → List Entry → Prop
  | arrive (received : Received) :
      Steps client (.arrive received)
        { client with unread := client.unread ++ [⟨client.session.now, received⟩] } []
  | nothing (hevent : client.reading.event = none) : Steps client .poll client.listen []
  | event {event : Event} {next : Client} {made : List Entry}
      (hevent : client.reading.event = some event)
      (hadvance : client.listen.advance? (.outcome (.event event)) = some (next, made)) :
      Steps client .poll next made
  | other {input : Input} {next : Client} {made : List Entry}
      (hadvance : client.advance? input = some (next, made)) :
      Steps client (.other input) next made

theorem step?_steps (h : client.step? action = some (next, made)) :
    client.Steps action next made := by
  unfold Client.step? at h
  split at h
  · next received =>
      obtain ⟨-, heq⟩ := Option.ite_none_right_eq_some.mp h
      obtain ⟨rfl, rfl⟩ := Prod.mk.inj (Option.some.inj heq)
      exact .arrive received
  · obtain ⟨-, hpoll⟩ := Option.ite_none_right_eq_some.mp h
    rw [poll?] at hpoll
    split at hpoll
    · next event hevent => exact .event hevent hpoll
    · next hevent =>
        obtain ⟨rfl, rfl⟩ := Prod.mk.inj (Option.some.inj hpoll)
        exact .nothing hevent
  · exact absurd h (Option.some_ne_none _).symm
  · exact .other h

theorem follow_cases (client : Client) (input : Input) (made : List Entry) :
    client.follow input made = client ∨ client.follow input made = client.hangUp ∨
      client.follow input made = client.pickUp := by
  unfold follow
  split
  · exact .inr (.inl rfl)
  · split
    · exact .inr (.inr rfl)
    · exact .inl rfl

@[simp] theorem follow_session (client : Client) (input : Input) (made : List Entry) :
    (client.follow input made).session = client.session := by
  rcases client.follow_cases input made with heq | heq | heq <;> rw [heq] <;> rfl

theorem accounted_of_nothing (hheard : client.heard = []) (hunread : client.unread = [])
    (hbuffer : client.transport.buffer = []) : client.Accounted where
  past := by
    rw [hheard, hunread]
    exact fun arrival hmem => absurd hmem List.not_mem_nil
  idle := by
    rw [hbuffer]
    rfl
  heard link _ := by
    refine .of_past ?_
    rw [hheard, hunread]
    exact fun arrival hmem => absurd hmem List.not_mem_nil

theorem advance?_eq_some {input : Input} (h : client.advance? input = some (next, made)) :
    ∃ session, client.session.step? input = some (session, made) ∧
      next = { client with session }.follow input made := by
  simp only [advance?, Option.bind_eq_bind, Option.bind_eq_some_iff, Option.pure_def,
    Option.some.injEq, Prod.mk.injEq] at h
  obtain ⟨⟨session, entries⟩, hstep, rfl, rfl⟩ := h
  exact ⟨session, hstep, rfl⟩

theorem accounted_of_advance? {input : Input}
    (hpast : ∀ arrival ∈ client.heard ++ client.unread, arrival.time ≤ client.session.now)
    (hidle : Item.decode client.transport.buffer = .idle)
    (hheard : (∀ event, input ≠ .outcome (.event event)) →
      ∀ link, client.session.link? = some link → client.HeardSince link.lastReceived)
    (h : client.advance? input = some (next, made)) : next.Accounted := by
  obtain ⟨session, hstep, rfl⟩ := advance?_eq_some h
  rcases { client with session }.follow_cases input made with heq | heq | heq
  · rw [heq]
    have hsteps := Session.step?_steps hstep
    have hnow : client.session.now ≤ session.now := by
      rcases hsteps.now_eq with hnow | ⟨duration, -, rfl⟩
      · exact Nat.le_of_eq hnow.symm
      · exact Nat.le_add_right _ _
    refine ⟨fun arrival hmem => Nat.le_trans (hpast arrival hmem) hnow, hidle, ?_⟩
    intro link hlink
    have hfollow := hsteps.link? (Option.isSome_of_eq_some hlink)
    rcases lastReceived_of_follow (hfollow.symm.trans hlink) with
      hnew | ⟨hother, before, hbefore, hsame⟩
    · exact hnew ▸ HeardSince.of_past hpast
    · exact hsame ▸ hheard hother before hbefore
  · rw [heq]
    exact accounted_of_nothing rfl rfl rfl
  · rw [heq]
    exact accounted_of_nothing rfl rfl rfl

/-! ## Reading -/

theorem listen_of_none (hnone : client.reading.event = none) :
    ∃ seen, client.listen.heard = client.heard ++ seen ∧
      client.listen.transport.buffer =
        client.transport.buffer ++ seen.flatMap (Transport.carried ·.received) := by
  obtain ⟨seen, hseen, htransport⟩ := Transport.nextEvent_of_event_eq_none hnone
  obtain ⟨arrivals, rest, hunread, rfl, hrest⟩ := List.map_eq_append_iff.mp hseen
  have hcount : client.unread.length - client.reading.rest.length = arrivals.length := by
    rw [reading, ← hrest, List.length_map, hunread, List.length_append, Nat.add_sub_cancel]
  refine ⟨arrivals, ?_, ?_⟩
  · simp only [listen, hcount]
    rw [hunread, List.take_left]
  · simp only [listen, reading, htransport, List.flatMap_map]

theorem past_of_listen
    (h : ∀ arrival ∈ client.heard ++ client.unread, arrival.time ≤ client.session.now) :
    ∀ arrival ∈ client.listen.heard ++ client.listen.unread,
      arrival.time ≤ client.listen.session.now := by
  intro arrival hmem
  simp only [listen, List.append_assoc, List.take_append_drop] at hmem
  exact h arrival hmem

theorem accounted_of_listen (h : client.Accounted) (hnone : client.reading.event = none) :
    client.listen.Accounted := by
  refine ⟨past_of_listen h.past, Transport.decode_buffer_nextEvent h.idle, ?_⟩
  intro link hlink
  obtain ⟨earlier, late, kept, hheard, hearlier, hbuffer⟩ := h.heard link hlink
  obtain ⟨seen, hmore, hkept⟩ := listen_of_none hnone
  refine ⟨earlier, late ++ seen, kept, ?_, hearlier, ?_⟩
  · rw [hmore, hheard, List.append_assoc]
  · rw [hkept, hbuffer, List.flatMap_append, List.append_assoc]

/-! ## Runs -/

theorem accounted_of_arrive (h : client.Accounted) (received : Received) :
    { client with
      unread := client.unread ++ [Arrival.mk client.session.now received] }.Accounted where
  past arrival hmem := by
    rw [← List.append_assoc] at hmem
    rcases List.mem_append.mp hmem with hmem | hmem
    · exact h.past arrival hmem
    · exact Nat.le_of_eq (congrArg Arrival.time (List.mem_singleton.mp hmem))
  idle := h.idle
  heard := h.heard

theorem Accounted.step? (h : client.Accounted) (hstep : client.step? action = some (next, made)) :
    next.Accounted := by
  cases step?_steps hstep with
  | arrive received => exact accounted_of_arrive h received
  | nothing hevent => exact accounted_of_listen h hevent
  | @event event _ _ hevent hadvance =>
      exact accounted_of_advance? (past_of_listen h.past)
        (Transport.decode_buffer_nextEvent h.idle) (fun hother => absurd rfl (hother event))
        hadvance
  | other hadvance => exact accounted_of_advance? h.past h.idle (fun _ => h.heard) hadvance

theorem run?_cons_eq_some {start : Client} {actions : List Action} {log : List Entry}
    (h : start.run? (action :: actions) = some (client, log)) :
    ∃ middle first rest, start.step? action = some (middle, first) ∧
      middle.run? actions = some (client, rest) ∧ log = first ++ rest := by
  simp only [run?, Option.bind_eq_bind, Option.bind_eq_some_iff, Option.pure_def,
    Option.some.injEq, Prod.mk.injEq] at h
  obtain ⟨⟨middle, first⟩, hfirst, ⟨last, rest⟩, hrest, rfl, rfl⟩ := h
  exact ⟨middle, first, rest, hfirst, hrest, rfl⟩

theorem Accounted.run? (h : client.Accounted) {actions : List Action} {log : List Entry}
    (hrun : client.run? actions = some (next, log)) : next.Accounted := by
  induction actions generalizing client log with
  | nil =>
      obtain ⟨rfl, -⟩ := Prod.mk.inj (Option.some.inj hrun)
      exact h
  | cons action actions ih =>
      obtain ⟨middle, first, rest, hfirst, hrest, -⟩ := run?_cons_eq_some hrun
      exact ih (h.step? hfirst) hrest

theorem session_of_advance? {input : Input} (h : client.advance? input = some (next, made)) :
    client.session.step? input = some (next.session, made) := by
  obtain ⟨session, hstep, rfl⟩ := advance?_eq_some h
  rw [follow_session]
  exact hstep

theorem session_of_step? (h : client.step? action = some (next, made)) :
    (next.session = client.session ∧ made = []) ∨
      ∃ input, client.session.step? input = some (next.session, made) := by
  cases step?_steps h with
  | arrive received => exact .inl ⟨rfl, rfl⟩
  | nothing hevent => exact .inl ⟨rfl, rfl⟩
  | event hevent hadvance =>
      have hsession := session_of_advance? hadvance
      exact .inr ⟨_, hsession⟩
  | other hadvance => exact .inr ⟨_, session_of_advance? hadvance⟩

theorem exists_session_run? {actions : List Action} {log : List Entry}
    (hrun : client.run? actions = some (next, log)) :
    ∃ inputs, client.session.run? inputs = some (next.session, log) := by
  induction actions generalizing client log with
  | nil =>
      obtain ⟨rfl, rfl⟩ := Prod.mk.inj (Option.some.inj hrun)
      exact ⟨[], rfl⟩
  | cons action actions ih =>
      obtain ⟨middle, first, rest, hfirst, hrest, rfl⟩ := run?_cons_eq_some hrun
      obtain ⟨inputs, hinputs⟩ := ih hrest
      rcases session_of_step? hfirst with ⟨hsame, rfl⟩ | ⟨input, hinput⟩
      · rw [hsame] at hinputs
        exact ⟨inputs, hinputs⟩
      · exact ⟨input :: inputs, by simp [Session.run?, hinput, hinputs]⟩

/-! ## Prompt runs -/

theorem unread_of_advance? {input : Input}
    (hunread : ∀ arrival ∈ client.unread, arrival.time = client.session.now)
    (helapse : ∀ duration, input = .elapse duration → client.unread = [])
    (h : client.advance? input = some (next, made)) :
    ∀ arrival ∈ next.unread, arrival.time = next.session.now := by
  obtain ⟨session, hstep, rfl⟩ := advance?_eq_some h
  rcases { client with session }.follow_cases input made with heq | heq | heq
  · rw [heq]
    intro arrival hmem
    rcases (Session.step?_steps hstep).now_eq with hnow | ⟨duration, hinput, -⟩
    · exact (hunread arrival hmem).trans hnow.symm
    · rw [helapse duration hinput] at hmem
      exact absurd hmem List.not_mem_nil
  · rw [heq]
    exact fun arrival hmem => absurd hmem List.not_mem_nil
  · rw [heq]
    exact fun arrival hmem => absurd hmem List.not_mem_nil

/-- In a prompt run what is not read yet has just arrived. -/
theorem unread_of_step? (hallows : client.allows action = true)
    (hunread : ∀ arrival ∈ client.unread, arrival.time = client.session.now)
    (hstep : client.step? action = some (next, made)) :
    ∀ arrival ∈ next.unread, arrival.time = next.session.now := by
  have hlistened : ∀ arrival ∈ client.listen.unread, arrival.time = client.session.now :=
    fun arrival hmem => hunread arrival (List.mem_of_mem_drop hmem)
  cases step?_steps hstep with
  | arrive received =>
      intro arrival hmem
      rcases List.mem_append.mp hmem with hmem | hmem
      · exact hunread arrival hmem
      · rw [List.mem_singleton.mp hmem]
  | nothing hevent => exact hlistened
  | event hevent hadvance =>
      refine unread_of_advance? hlistened ?_ hadvance
      exact fun duration hinput => nomatch hinput
  | other hadvance =>
      refine unread_of_advance? hunread ?_ hadvance
      rintro duration rfl
      rw [allows, isUpToDate, Bool.and_eq_true, List.isEmpty_iff] at hallows
      exact hallows.1

theorem unread_of_run? {actions : List Action} {log : List Entry}
    (hprompt : client.isPrompt actions = true)
    (hunread : ∀ arrival ∈ client.unread, arrival.time = client.session.now)
    (hrun : client.run? actions = some (next, log)) :
    ∀ arrival ∈ next.unread, arrival.time = next.session.now := by
  induction actions generalizing client log with
  | nil =>
      obtain ⟨rfl, -⟩ := Prod.mk.inj (Option.some.inj hrun)
      exact hunread
  | cons action actions ih =>
      obtain ⟨middle, first, rest, hfirst, hrest, -⟩ := run?_cons_eq_some hrun
      rw [isPrompt, hfirst, Option.all_some, Bool.and_eq_true] at hprompt
      exact ih hprompt.2 (unread_of_step? hprompt.1 hunread hfirst) hrest

/-! ## The watchdog -/

theorem due_of_watchdog (h : client.step? (.other (.branch .watchdog)) = some (next, made)) :
    next.session.phase = .disconnecting ∧
      ∃ link interval, client.session.link? = some link ∧ link.info.incoming = some interval ∧
        link.lastReceived + 2 * interval ≤ client.session.now := by
  have hsession : client.session.step? (.branch .watchdog) = some (next.session, made) := by
    cases step?_steps h with
    | other hadvance => exact session_of_advance? hadvance
  generalize next.session = after at hsession ⊢
  cases Session.step?_steps hsession with
  | move hactive hmoves =>
      cases hmoves with
      | @watchdog link hpoint hdue =>
          obtain ⟨timer, htimer, hpassed⟩ := (Option.any_eq_true _ _).mp hdue
          obtain ⟨grace, hgrace, rfl⟩ := Option.map_eq_some_iff.mp htimer
          obtain ⟨interval, hincoming, rfl⟩ := Option.map_eq_some_iff.mp hgrace
          refine ⟨rfl, link, interval, ?_, hincoming, ?_⟩
          · rw [Session.link?_of_active hactive]
            exact congrArg Point.link? hpoint
          · rw [Nat.mul_comm]
            exact of_decide_eq_true hpassed

/--
When a broker is given up for its silence, what it sent on this connection came at least
twice the agreed time ago, or is part of an item that is not complete, or was not read.
If whatever arrives is read before time passes, what was not read arrived just now.
-/
theorem gives_up_on_silence {config : Config} {handlers : Handlers} {start : Session}
    {actions : List Action} {log : List Entry}
    (hstart : Session.ofConfig config handlers = .ok start)
    (hrun : (ofSession start).run? actions = some (client, log))
    (hstep : client.step? (.other (.branch .watchdog)) = some (next, made)) :
    client.session.phase = .connected ∧ next.session.phase = .disconnecting ∧
    ∃ link interval earlier late kept,
      client.session.link? = some link ∧ link.info.incoming = some interval ∧
      client.heard = earlier ++ late ∧
      (∀ arrival ∈ earlier, arrival.time + 2 * interval ≤ client.session.now) ∧
      client.transport.buffer = kept ++ late.flatMap (Transport.carried ·.received) ∧
      Item.decode client.transport.buffer = .idle ∧
      ((ofSession start).isPrompt actions = true →
        ∀ arrival ∈ client.unread, arrival.time = client.session.now) := by
  have hnew : (ofSession start).Accounted := accounted_of_nothing rfl rfl rfl
  have haccounted := hnew.run? hrun
  obtain ⟨hphase, link, interval, hlink, hincoming, hdue⟩ := due_of_watchdog hstep
  obtain ⟨earlier, late, kept, hheard, hearlier, hbuffer⟩ := haccounted.heard link hlink
  obtain ⟨inputs, hinputs⟩ := exists_session_run? hrun
  have hconnected := Session.isSome_link? (Session.disciplined_of_run? hstart hinputs).phase_eq
  rw [hlink, Option.isSome_some] at hconnected
  refine ⟨beq_iff_eq.mp hconnected.symm, hphase, link, interval, earlier, late, kept, hlink,
    hincoming, hheard, ?_, hbuffer, haccounted.idle, ?_⟩
  · intro arrival hmem
    exact Nat.le_trans (Nat.add_le_add_right (hearlier arrival hmem) _) hdue
  · intro hprompt
    exact unread_of_run? hprompt (fun arrival hmem => absurd hmem List.not_mem_nil) hrun

def hearingConfig : Config := { Session.plainConfig with heartbeat := ⟨0, 5⟩ }

def halfHeard : List Action :=
  Session.connecting.dropLast.map .other ++
    [.arrive (.message (.text "CONNECTED\nheart-beat:7,0\n\n\x00")), .poll,
      .other (.elapse (Duration.ofMillis 10)), .arrive (.message (.text "MESSAGE\n")), .poll,
      .other (.elapse (Duration.ofMillis 4))]

theorem gives_up_on_silence_halfHeard :
    ∃ start client log next made link earlier late kept,
      Session.ofConfig hearingConfig {} = .ok start ∧
      (ofSession start).run? halfHeard = some (client, log) ∧
      (ofSession start).isPrompt halfHeard = true ∧
      client.step? (.other (.branch .watchdog)) = some (next, made) ∧
      client.session.phase = .connected ∧ next.session.phase = .disconnecting ∧
      client.session.now = Duration.ofMillis 14 ∧ client.session.link? = some link ∧
      link.info.incoming = some (Duration.ofMillis 7) ∧
      client.heard.map Arrival.time = [0, Duration.ofMillis 10] ∧
      client.heard = earlier ++ late ∧
      (∀ arrival ∈ earlier,
        arrival.time + 2 * Duration.ofMillis 7 ≤ Duration.ofMillis 14) ∧
      client.transport.buffer = Utf8.encode "MESSAGE\n" ∧
      client.transport.buffer = kept ++ late.flatMap (Transport.carried ·.received) := by
  have hstart : Session.ofConfig hearingConfig {} = .ok (Session.fresh hearingConfig) := rfl
  have hprompt : (ofSession (Session.fresh hearingConfig)).isPrompt halfHeard = true := by
    decide +kernel
  have hrun : ((ofSession (Session.fresh hearingConfig)).run? halfHeard).map (fun stepped =>
      (stepped.1.session.now, stepped.1.session.link?.map fun link => link.info.incoming,
        stepped.1.heard.map Arrival.time, stepped.1.transport.buffer,
        (stepped.1.step? (.other (.branch .watchdog))).isSome)) =
      some (Duration.ofMillis 14, some (some (Duration.ofMillis 7)), [0, Duration.ofMillis 10],
        Utf8.encode "MESSAGE\n", true) := by
    decide +kernel
  obtain ⟨⟨client, log⟩, hrun, hresult⟩ := Option.map_eq_some_iff.mp hrun
  simp only [Prod.mk.injEq] at hresult
  obtain ⟨hnow, hincoming, htimes, hbuffer, hcan⟩ := hresult
  obtain ⟨⟨next, made⟩, hstep⟩ := Option.isSome_iff_exists.mp hcan
  obtain ⟨hconnected, hleft, link, interval, earlier, late, kept, hlink, hinterval, hheard,
    hearlier, hkept, -, -⟩ := gives_up_on_silence hstart hrun hstep
  rw [hlink, Option.map_some, hinterval] at hincoming
  obtain rfl := Option.some.inj (Option.some.inj hincoming)
  rw [hnow] at hearlier
  exact ⟨_, client, log, next, made, link, earlier, late, kept, hstart, hrun, hprompt, hstep,
    hconnected, hleft, hnow, hlink, hinterval, htimes, hheard, hearlier, hbuffer, hkept⟩

end Client

end Stomp.Socket
