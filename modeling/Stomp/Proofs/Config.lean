import Mathlib.Data.List.Induction
import Stomp.Config
import Stomp.Proofs.Outcome

/-!
# Building a configuration

Whatever settings are made in whatever order, the configuration that is built says what
they said last, and what is wrong with them is reported in a fixed order
(`Draft.build_setAll`).
-/

namespace Stomp

/-! ## What settings say -/

namespace Setting

def outgoing? : Setting → Option Int
  | .outgoing ms => some ms
  | .heartbeat offer => some offer.send.toNat
  | _ => none

def incoming? : Setting → Option Int
  | .incoming ms => some ms
  | .heartbeat offer => some offer.receive.toNat
  | _ => none

def reconnectDelay? : Setting → Option Int
  | .reconnectDelay ms => some ms
  | _ => none

def completesFrames? : Setting → Option Bool
  | .completesFrames on => some on
  | _ => none

def versions? : Setting → Option (List Version)
  | .versions offered => some offered
  | _ => none

def host? : Setting → Option String
  | .host name => some name
  | _ => none

def connectHeader? : Setting → Option Header
  | .connectHeader header => some header
  | _ => none

def handshakeTimeout? : Setting → Option Duration
  | .handshakeTimeout limit => some limit
  | _ => none

def last? {α : Type} (topic : Setting → Option α) (settings : List Setting) : Option α :=
  (settings.filterMap topic).getLast?

theorem last?_concat {α : Type} (topic : Setting → Option α) (settings : List Setting)
    (setting : Setting) :
    last? topic (settings ++ [setting]) = (topic setting).or (last? topic settings) := by
  rw [last?, List.filterMap_append]
  cases h : topic setting with
  | none => simp [h, last?]
  | some value => simp [h]

end Setting

/-- What settings ask for: the last word on each matter, or the standard if there is none. -/
def Draft.requested (url userId : String) (settings : List Setting) : Draft :=
  { url
    userId
    outgoing := (Setting.last? Setting.outgoing? settings).getD 4000
    incoming := (Setting.last? Setting.incoming? settings).getD 4000
    reconnectDelay := (Setting.last? Setting.reconnectDelay? settings).getD 5000
    completesFrames := (Setting.last? Setting.completesFrames? settings).getD true
    versions := (Setting.last? Setting.versions? settings).getD [.v12, .v11, .v10]
    host := Setting.last? Setting.host? settings
    connectHeaders := settings.filterMap Setting.connectHeader?
    handshakeTimeout :=
      (Setting.last? Setting.handshakeTimeout? settings).getD (Duration.ofMillis 10000) }

theorem Draft.set_requested (url userId : String) (settings : List Setting) (setting : Setting) :
    (requested url userId settings).set setting = requested url userId (settings ++ [setting]) := by
  simp only [requested, Setting.last?_concat, List.filterMap_append]
  cases setting <;>
    simp [set, Setting.outgoing?, Setting.incoming?, Setting.reconnectDelay?,
      Setting.completesFrames?, Setting.versions?, Setting.host?, Setting.connectHeader?,
      Setting.handshakeTimeout?]

theorem Draft.setAll_eq_requested (url userId : String) (settings : List Setting) :
    setAll { url, userId } settings = requested url userId settings := by
  induction settings using List.reverseRecOn with
  | nil => rfl
  | append_singleton settings setting ih =>
      rw [← set_requested, ← ih, setAll, setAll, List.foldl_append, List.foldl_cons,
        List.foldl_nil]

/-! ## What is checked -/

inductive Check where
  | urlSyntax
  | interval (interval : Interval)
  | scheme
  | host
  | versions
  deriving DecidableEq, Repr

def Draft.value (draft : Draft) : Interval → Int
  | .outgoing => draft.outgoing
  | .incoming => draft.incoming
  | .reconnect => draft.reconnectDelay

namespace Check

def order : List Check :=
  [.urlSyntax, .interval .outgoing, .interval .incoming, .interval .reconnect, .scheme, .host,
    .versions]

inductive Fails (parse : Url.Parser) (draft : Draft) : Check → Rejection → Prop
  | urlSyntax {fault : String} (h : parse draft.url = .error fault) :
      Fails parse draft .urlSyntax (.badUrl draft.url fault)
  | negative {interval : Interval} (h : draft.value interval < 0) :
      Fails parse draft (.interval interval) (.negative interval (draft.value interval))
  | tooLarge {interval : Interval} (hbound : interval ≠ .reconnect)
      (h : 4294967295 < draft.value interval) :
      Fails parse draft (.interval interval) (.tooLarge interval (draft.value interval))
  | scheme {url : Url} (hurl : parse draft.url = .ok url) (hws : url.scheme ≠ "ws")
      (hwss : url.scheme ≠ "wss") : Fails parse draft .scheme (.foreignScheme url.scheme)
  | host {url : Url} (hurl : parse draft.url = .ok url)
      (h : ∀ name, url.host? = some name → name = "") : Fails parse draft .host (.noHost url.text)
  | versions (h : draft.versions = []) : Fails parse draft .versions .noVersion

def Passes (parse : Url.Parser) (draft : Draft) (check : Check) : Prop :=
  ∀ rejection, ¬ Fails parse draft check rejection

def FirstFailing (parse : Url.Parser) (draft : Draft) (checks : List Check)
    (rejection : Rejection) : Prop :=
  ∃ before check after, checks = before ++ check :: after ∧
    (∀ earlier ∈ before, Passes parse draft earlier) ∧ Fails parse draft check rejection

variable {parse : Url.Parser} {draft : Draft} {check : Check} {checks : List Check}
  {rejection : Rejection}

theorem firstFailing_cons :
    FirstFailing parse draft (check :: checks) rejection ↔
      Fails parse draft check rejection ∨
        Passes parse draft check ∧ FirstFailing parse draft checks rejection := by
  constructor
  · rintro ⟨_ | ⟨earlier, before⟩, failing, after, hsplit, hbefore, hfails⟩
    · obtain ⟨rfl, -⟩ := List.cons.inj hsplit
      exact .inl hfails
    · obtain ⟨rfl, rfl⟩ := List.cons.inj hsplit
      obtain ⟨hpasses, hbefore⟩ := List.forall_mem_cons.mp hbefore
      exact .inr ⟨hpasses, before, failing, after, rfl, hbefore, hfails⟩
  · rintro (hfails | ⟨hpasses, before, failing, after, rfl, hbefore, hfails⟩)
    · exact ⟨[], check, checks, rfl, by simp, hfails⟩
    · exact ⟨check :: before, failing, after, rfl, List.forall_mem_cons.mpr ⟨hpasses, hbefore⟩,
        hfails⟩

theorem not_firstFailing_nil : ¬ FirstFailing parse draft [] rejection := by
  rintro ⟨before, check, after, hsplit, -⟩
  simp at hsplit

theorem bind_eq_error_iff {α β : Type} {step : Except Rejection α} {next : α → Except Rejection β}
    (hstep : ∀ rejection, step = .error rejection ↔ Fails parse draft check rejection)
    (hnext : ∀ a, step = .ok a →
      (next a = .error rejection ↔ FirstFailing parse draft checks rejection)) :
    step >>= next = .error rejection ↔ FirstFailing parse draft (check :: checks) rejection := by
  rw [Except.bind_eq_error, firstFailing_cons, hstep]
  refine or_congr_right ?_
  have hpasses : Passes parse draft check ↔ ∃ a, step = .ok a := by
    simp only [Passes, ← hstep]
    cases step <;> simp
  rw [hpasses, ← exists_and_right]
  exact exists_congr fun a => and_congr_right (hnext a)

theorem guard_eq_error_iff {α : Type} {fails : Bool} {fault : Rejection}
    {outcome : Except Rejection α}
    (hfails : ∀ rejection, Fails parse draft check rejection ↔ fails = true ∧ rejection = fault)
    (hrest : outcome = .error rejection ↔ FirstFailing parse draft checks rejection) :
    (if fails then .error fault else outcome) = .error rejection ↔
      FirstFailing parse draft (check :: checks) rejection := by
  rw [firstFailing_cons, hfails, ← hrest, Passes]
  cases fails <;> simp [hfails, eq_comm]

end Check

/-! ## One check at a time -/

namespace Draft

variable {parse : Url.Parser} {draft : Draft} {config : Config} {rejection : Rejection}

theorem readUrl_eq_error_iff :
    readUrl parse draft.url = .error rejection ↔ Check.Fails parse draft .urlSyntax rejection := by
  rw [readUrl, Except.mapError_eq_error]
  constructor
  · rintro ⟨fault, hurl, rfl⟩
    exact .urlSyntax hurl
  · rintro ⟨hurl⟩
    exact ⟨_, hurl, rfl⟩

theorem millis_eq_ok_iff {interval : Interval} {value : Int} {ms : Nat} :
    millis interval value = .ok ms ↔ (ms : Int) = value := by
  unfold millis
  split
  · simp only [reduceCtorEq, false_iff]
    omega
  · rw [Except.ok.injEq]
    omega

theorem millis_eq_error_iff {interval : Interval} {value : Int} :
    millis interval value = .error rejection ↔
      value < 0 ∧ rejection = .negative interval value := by
  by_cases hnegative : value < 0 <;> simp [millis, hnegative, eq_comm]

theorem millis_reconnect_eq_error_iff :
    millis .reconnect draft.reconnectDelay = .error rejection ↔
      Check.Fails parse draft (.interval .reconnect) rejection := by
  rw [millis_eq_error_iff]
  constructor
  · rintro ⟨hnegative, rfl⟩
    exact .negative hnegative
  · intro h
    cases h with
    | negative hnegative => exact ⟨hnegative, rfl⟩
    | tooLarge hbound => exact absurd rfl hbound

theorem millis32_eq_ok_iff {interval : Interval} {value : Int} {ms : UInt32} :
    millis32 interval value = .ok ms ↔ (ms.toNat : Int) = value := by
  have hword : Numeral.word32 = 2 ^ 32 := by decide
  rw [millis32, Except.bind_eq_ok]
  simp only [millis_eq_ok_iff, hword]
  constructor
  · rintro ⟨n, rfl, h⟩
    split at h
    · next hn =>
        obtain rfl := Except.ok.inj h
        rw [UInt32.toNat_ofNat_of_lt' hn]
    · simp at h
  · rintro rfl
    exact ⟨ms.toNat, rfl, by rw [if_pos ms.toNat_lt, UInt32.ofNat_toNat]⟩

theorem millis32_eq_error_iff (interval : Interval) (hbound : interval ≠ .reconnect) :
    millis32 interval (draft.value interval) = .error rejection ↔
      Check.Fails parse draft (.interval interval) rejection := by
  have hword : Numeral.word32 = 2 ^ 32 := by decide
  rw [millis32, Except.bind_eq_error]
  simp only [millis_eq_ok_iff, millis_eq_error_iff, hword]
  constructor
  · rintro (⟨hnegative, rfl⟩ | ⟨ms, hms, h⟩)
    · exact .negative hnegative
    · split at h
      · simp at h
      · obtain rfl := Except.error.inj h
        exact .tooLarge hbound (by omega)
  · intro h
    cases h with
    | negative hnegative => exact .inl ⟨hnegative, rfl⟩
    | tooLarge _ hlarge => exact .inr ⟨(draft.value interval).toNat, by omega, if_neg (by omega)⟩

end Draft

structure Config.IsValid (config : Config) : Prop where
  scheme : config.url.scheme = "ws" ∨ config.url.scheme = "wss"
  host : ∃ name, config.url.host? = some name ∧ name ≠ ""
  versions : config.versions ≠ []

theorem Config.validate_eq (config : Config) :
    config.validate =
      if config.url.scheme != "ws" && config.url.scheme != "wss" then
        .error (.foreignScheme config.url.scheme)
      else if (config.url.host?.getD "").isEmpty then .error (.noHost config.url.text)
      else if config.versions.isEmpty then .error .noVersion
      else .ok () := by
  unfold validate checkUrl
  split
  · rfl
  · split <;> rfl

theorem Url.isEmpty_getD_host? (url : Url) :
    (url.host?.getD "").isEmpty = true ↔ ∀ name, url.host? = some name → name = "" := by
  cases url.host? <;> simp

theorem Config.validate_eq_ok_iff {config : Config} :
    config.validate = .ok () ↔ config.IsValid := by
  rw [validate_eq, Except.guard_eq_ok, Except.guard_eq_ok, Except.guard_eq_ok,
    Url.isEmpty_getD_host?]
  constructor
  · rintro ⟨hscheme, hhost, hversions, -⟩
    exact ⟨by simpa [or_iff_not_imp_left] using hscheme, by simpa using hhost,
      by simpa using hversions⟩
  · rintro ⟨hscheme, hhost, hversions⟩
    exact ⟨by simpa [or_iff_not_imp_left] using hscheme, by simpa using hhost,
      by simpa using hversions, rfl⟩

theorem Config.validate_eq_error_iff {config : Config} {rejection : Rejection} (draft : Draft)
    (hurl : parse draft.url = .ok config.url) (hversions : config.versions = draft.versions) :
    config.validate = .error rejection ↔
      Check.FirstFailing parse draft [.scheme, .host, .versions] rejection := by
  rw [validate_eq]
  refine Check.guard_eq_error_iff (fun rejection => ?scheme) <|
    Check.guard_eq_error_iff (fun rejection => ?host) <|
    Check.guard_eq_error_iff (fun rejection => ?versions) (by simp [Check.not_firstFailing_nil])
  case scheme =>
    rw [Bool.and_eq_true, bne_iff_ne, bne_iff_ne]
    constructor
    · intro h
      cases h with
      | scheme hread hws hwss =>
          obtain rfl := Except.ok.inj (hurl.symm.trans hread)
          exact ⟨⟨hws, hwss⟩, rfl⟩
    · rintro ⟨⟨hws, hwss⟩, rfl⟩
      exact .scheme hurl hws hwss
  case host =>
    rw [Url.isEmpty_getD_host?]
    constructor
    · intro h
      cases h with
      | host hread hhost =>
          obtain rfl := Except.ok.inj (hurl.symm.trans hread)
          exact ⟨hhost, rfl⟩
    · rintro ⟨hhost, rfl⟩
      exact .host hurl hhost
  case versions =>
    rw [List.isEmpty_iff, hversions]
    constructor
    · intro h
      cases h with
      | versions hnone => exact ⟨hnone, rfl⟩
    · rintro ⟨hnone, rfl⟩
      exact .versions hnone

/-! ## What is built -/

/-- A configuration that says what a draft says; no interval is cut short or wraps around. -/
structure Config.Keeps (parse : Url.Parser) (config : Config) (draft : Draft) : Prop where
  url : parse draft.url = .ok config.url
  userId : config.userId = draft.userId
  send : (config.heartbeat.send.toNat : Int) = draft.outgoing
  receive : (config.heartbeat.receive.toNat : Int) = draft.incoming
  reconnectDelay : ∃ ms : Nat, (ms : Int) = draft.reconnectDelay ∧
    config.reconnectDelay = Duration.ofMillis ms
  completesFrames : config.completesFrames = draft.completesFrames
  versions : config.versions = draft.versions
  host : config.host = draft.host
  connectHeaders : config.connectHeaders = draft.connectHeaders
  handshakeTimeout : config.handshakeTimeout = draft.handshakeTimeout

namespace Draft

variable {parse : Url.Parser} {draft : Draft} {config : Config} {rejection : Rejection}

theorem build_eq_ok_iff :
    draft.build parse = .ok config ↔ config.Keeps parse draft ∧ config.IsValid := by
  simp only [build, Except.bind_eq_ok, readUrl, Except.mapError_eq_ok, millis32_eq_ok_iff,
    millis_eq_ok_iff]
  constructor
  · rintro ⟨url, hurl, send, hsend, receive, hreceive, delay, hdelay, ⟨⟩, hvalid, h⟩
    obtain rfl := Except.ok.inj h
    exact ⟨⟨hurl, rfl, hsend, hreceive, ⟨delay, hdelay, rfl⟩, rfl, rfl, rfl, rfl, rfl⟩,
      Config.validate_eq_ok_iff.mp hvalid⟩
  · rintro ⟨⟨hurl, huser, hsend, hreceive, ⟨delay, hdelay, hpause⟩, hcompletes, hversions, hhost,
      hheaders, htimeout⟩, hvalid⟩
    refine ⟨_, hurl, _, hsend, _, hreceive, _, hdelay, (), ?_⟩
    rw [← huser, ← hpause, ← hcompletes, ← hversions, ← hhost, ← hheaders, ← htimeout]
    exact ⟨Config.validate_eq_ok_iff.mpr hvalid, rfl⟩

theorem build_eq_error_iff :
    draft.build parse = .error rejection ↔
      Check.FirstFailing parse draft Check.order rejection := by
  refine Check.bind_eq_error_iff (fun _ => readUrl_eq_error_iff) fun url hurl => ?_
  refine Check.bind_eq_error_iff
    (fun _ => millis32_eq_error_iff .outgoing (by simp)) fun send _ => ?_
  refine Check.bind_eq_error_iff
    (fun _ => millis32_eq_error_iff .incoming (by simp)) fun receive _ => ?_
  refine Check.bind_eq_error_iff (fun _ => millis_reconnect_eq_error_iff)
    fun delay _ => ?_
  dsimp only
  rw [Except.bind_eq_error, Config.validate_eq_error_iff draft ?url rfl]
  case url => exact Except.mapError_eq_ok.mp hurl
  simp [pure, Except.pure]

structure IsSound (parse : Url.Parser) (draft : Draft) : Prop where
  url : ∃ url, parse draft.url = .ok url ∧ (url.scheme = "ws" ∨ url.scheme = "wss") ∧
    ∃ name, url.host? = some name ∧ name ≠ ""
  outgoing : 0 ≤ draft.outgoing ∧ draft.outgoing ≤ 4294967295
  incoming : 0 ≤ draft.incoming ∧ draft.incoming ≤ 4294967295
  reconnectDelay : 0 ≤ draft.reconnectDelay
  versions : draft.versions ≠ []

theorem exists_word_iff {value : Int} :
    (∃ ms : UInt32, (ms.toNat : Int) = value) ↔ 0 ≤ value ∧ value ≤ 4294967295 := by
  constructor
  · rintro ⟨ms, rfl⟩
    have hlt := ms.toNat_lt
    omega
  · rintro ⟨hpositive, hbound⟩
    have hlt : value.toNat < 2 ^ 32 := by omega
    exact ⟨UInt32.ofNat value.toNat, by rw [UInt32.toNat_ofNat_of_lt' hlt]; omega⟩

theorem exists_build_iff : (∃ config, draft.build parse = .ok config) ↔ draft.IsSound parse := by
  simp only [build_eq_ok_iff]
  constructor
  · rintro ⟨config, hkeeps, hvalid⟩
    obtain ⟨ms, hms, -⟩ := hkeeps.reconnectDelay
    exact
      { url := ⟨config.url, hkeeps.url, hvalid.scheme, hvalid.host⟩
        outgoing := exists_word_iff.mp ⟨_, hkeeps.send⟩
        incoming := exists_word_iff.mp ⟨_, hkeeps.receive⟩
        reconnectDelay := hms ▸ Int.natCast_nonneg _
        versions := hkeeps.versions ▸ hvalid.versions }
  · intro hsound
    obtain ⟨url, hurl, hscheme, hhost⟩ := hsound.url
    obtain ⟨send, hsend⟩ := exists_word_iff.mpr hsound.outgoing
    obtain ⟨receive, hreceive⟩ := exists_word_iff.mpr hsound.incoming
    obtain ⟨delay, hdelay⟩ := Int.eq_ofNat_of_zero_le hsound.reconnectDelay
    exact ⟨⟨url, draft.userId, ⟨send, receive⟩, Duration.ofMillis delay, draft.completesFrames,
      draft.versions, draft.host, draft.connectHeaders, draft.handshakeTimeout⟩,
      ⟨hurl, rfl, hsend, hreceive, ⟨delay, hdelay.symm, rfl⟩, rfl, rfl, rfl, rfl, rfl⟩,
      ⟨hscheme, hhost, hsound.versions⟩⟩

/--
Building a configuration from any settings comes to a result if and only if what the settings
ask for is sound.  What is built is valid and says what was asked for; otherwise the fault is
that of the first check that fails.
-/
theorem build_setAll (parse : Url.Parser) (url userId : String) (settings : List Setting) :
    let asked := requested url userId settings
    let outcome := (setAll { url, userId } settings).build parse
    ((∃ config, outcome = .ok config) ↔ asked.IsSound parse) ∧
      (∀ config, outcome = .ok config → config.validate = .ok () ∧ config.Keeps parse asked) ∧
      ∀ fault, outcome.mapError Rejection.fault = .error fault ↔
        ∃ rejection, Check.FirstFailing parse asked Check.order rejection ∧
          .invalidConfig rejection.reason = fault := by
  intro asked outcome
  have houtcome : outcome = asked.build parse := by
    simp only [outcome, asked, setAll_eq_requested]
  rw [houtcome]
  refine ⟨exists_build_iff, fun config hbuild => ?_, fun fault => ?_⟩
  · obtain ⟨hkeeps, hvalid⟩ := build_eq_ok_iff.mp hbuild
    exact ⟨Config.validate_eq_ok_iff.mpr hvalid, hkeeps⟩
  · simp only [Except.mapError_eq_error, build_eq_error_iff, Rejection.fault]

end Draft

/-- Of three things that are wrong, the interval that was set last is the first to be found. -/
example :
    (Draft.setAll { url := "http://broker", userId := "user" }
      [.outgoing 7, .incoming (-1), .outgoing 4294967296]).build
        (fun text => .ok ⟨text, "http", some "broker"⟩) =
      .error (.tooLarge .outgoing 4294967296) := by
  decide +kernel

end Stomp
