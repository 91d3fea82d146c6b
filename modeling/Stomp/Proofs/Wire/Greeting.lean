import Stomp.Proofs.Config
import Stomp.Proofs.Text.Visible
import Stomp.Proofs.Wire.RoundTrip

/-!
# The frame that opens a session

CONNECT is written without escapes, and a configuration is built whatever its
texts hold.  So the frame does not always come back as it was configured:
`Draft.greeting_survives_iff` says for which drafts it does.
-/

namespace Stomp.Wire

open Bytes

/-! ## What a head can hold -/

theorem wholeLine_of_readHeaders {input rest : Bytes} {raws : List (Bytes × Bytes)}
    (h : readHeaders input = .complete raws rest) : ∀ raw ∈ raws, WholeLine raw.1 raw.2 := by
  obtain ⟨lines, blank, -, hlines, -⟩ := readHeaders_eq_complete_iff.mp h
  intro raw hraw
  obtain ⟨line, -, hline⟩ := exists_left_of_mem hlines hraw
  exact hline.wholeLine

theorem lineSafe_of_readHeaders {raws : List (Bytes × Bytes)} {rest after : Bytes}
    (h : readHeaders (lines raws ++ lf :: rest) = .complete raws after) :
    after = rest ∧ ∀ raw ∈ raws, LineSafe raw.1 raw.2 := by
  have hwhole := wholeLine_of_readHeaders h
  rw [readHeaders_wholeLines hwhole] at h
  obtain ⟨hraws, hrest⟩ := Reading.complete.inj h
  refine ⟨hrest.symm, fun raw hraw => ?_⟩
  have hvalue : chomp raw.2 = raw.2 := by
    have hmap : raws.map (fun raw => (raw.1, chomp raw.2)) = raws.map id := by
      rw [hraws, List.map_id]
    exact congrArg Prod.snd (List.map_inj_left.mp hmap raw hraw)
  have hlast : raw.2.getLast? ≠ some cr := by
    intro hcr
    rw [chomp, if_pos hcr] at hvalue
    have hlength := congrArg List.length hvalue
    obtain ⟨before, hbefore⟩ := List.getLast?_eq_some_iff.mp hcr
    simp [hbefore] at hlength
  exact (hwhole raw hraw).lineSafe hlast

theorem verbatimSafe_of_lineSafe {header : Header}
    (h : LineSafe (Utf8.encode header.1) (Utf8.encode header.2)) : VerbatimSafe header where
  lf_notMem_name := mt (Utf8.mem_encode (b := lf) (by decide)) h.lf_notMem_key
  colon_notMem_name := mt (Utf8.mem_encode (b := colon) (by decide)) h.colon_notMem_key
  lf_notMem_value := mt (Utf8.mem_encode (b := lf) (by decide)) h.lf_notMem_value
  getLast_value_ne_cr := mt (Utf8.getLast_encode (b := cr) (by decide)) h.getLast_value_ne_cr

theorem Decodes.raws_eq {raws : List (Bytes × Bytes)} {headers : List Header}
    (h : Decodes true raws headers) : raws = headers.map (rawHeader true) := by
  simp only [Decodes, decodeHeader_verbatim_iff] at h
  rwa [← List.forall₂_map_right_iff, List.forall₂_eq_eq_eq] at h

/-! ## No length, or length zero -/

def DeclaresNothing (headers : List Header) : Prop :=
  ∀ header, headers.find? (DeclaresLength ·) = some header →
    Numeral.read Numeral.word64 (Text.trim header.2) = .ok 0

theorem declaresNothing_iff {headers : List Header} :
    DeclaresNothing headers ↔
      ∃ declared, declaredLength (headers.map (rawHeader true)) = .ok declared ∧
        declared.getD 0 = 0 := by
  rw [declaredLength, find?_isContentLength]
  cases hfind : headers.find? (DeclaresLength ·) with
  | none => simp [DeclaresNothing, hfind]
  | some header =>
      have hempty : (Text.trim header.2).isEmpty = true →
          Numeral.read Numeral.word64 (Text.trim header.2) = .error .empty := by
        intro h
        rw [String.isEmpty_iff.mp h]
        rfl
      simp only [DeclaresNothing, hfind, Option.some.injEq, forall_eq', Option.map_some, rawHeader,
        encodeText_verbatim, Utf8.decode_encode]
      by_cases h : (Text.trim header.2).isEmpty = true
      · simp [h, hempty h]
      · rw [if_neg h]
        cases Numeral.read Numeral.word64 (Text.trim header.2) <;> simp

theorem readBody_nul {headEnd : Nat} {declared : Option Nat} (h : declared.getD 0 = 0)
    (hsize : headEnd + 1 < Numeral.word64) :
    ∃ body, body.getD [] = [] ∧ readBody headEnd declared [nul] = .complete body [] := by
  have hbody : ∃ body, Delimits headEnd [] declared body := by
    cases declared with
    | none => exact ⟨_, .nul List.not_mem_nil⟩
    | some length =>
        obtain rfl : length = 0 := h
        exact ⟨_, .length (Nat.zero_le _) hsize⟩
  obtain ⟨body, hbody⟩ := hbody
  exact ⟨body, hbody.getD_body, readBody_eq_complete_iff.mpr ⟨[], [], rfl, rfl, hbody⟩⟩

theorem declared_of_readBody {headEnd : Nat} {declared : Option Nat} {body : Option Bytes}
    {rest : Bytes} (h : readBody headEnd declared [nul] = .complete body rest) :
    declared.getD 0 = 0 := by
  obtain ⟨content, tail, hinput, -, hdelimits⟩ := readBody_eq_complete_iff.mp h
  cases declared with
  | none => rfl
  | some length =>
      have hlength := hdelimits.length_eq
      have htotal := congrArg List.length hinput
      simp only [List.length_append, List.length_cons, List.length_nil] at htotal
      rw [Option.getD_some]
      omega

/-! ## The opening frame -/

section Opening

variable {headers : List Header}

theorem received_connect (headers : List Header) :
    received ⟨"CONNECT", headers, []⟩ = ⟨"CONNECT", headers, []⟩ := by
  exact if_neg fun h => h.2.elim (by simp) fun hno => hno ⟨"", rfl⟩

theorem wireSafe_bare : WireSafe ⟨"CONNECT", [], []⟩ where
  command_ne_empty := by decide
  lf_notMem_command := by decide
  head_command_ne_cr := by decide
  getLast_command_ne_cr := by decide
  verbatim := by simp
  declared := by simp
  bounded := by simp

theorem encodeFrame_connect (headers : List Header) :
    encodeFrame ⟨"CONNECT", headers, []⟩ =
      Utf8.encode "CONNECT" ++ lf ::
        (lines (headers.map (rawHeader true)) ++ lf :: [nul]) := by
  have h := encodeFrame_append ⟨"CONNECT", headers, []⟩ []
  rw [List.append_nil, headerLines, received_connect] at h
  exact h

theorem read_connect (headers : List Header) :
    RawFrame.read (encodeFrame ⟨"CONNECT", headers, []⟩) =
      RawFrame.readTail (encodeFrame ⟨"CONNECT", headers, []⟩).length (Utf8.encode "CONNECT")
        (lines (headers.map (rawHeader true)) ++ lf :: [nul]) := by
  rw [encodeFrame_connect, List.append_cons]
  exact RawFrame.read_of_opens wireSafe_bare.legible.command _

theorem RawFrame.of_readTail {total : Nat} {command input rest : Bytes} {raw : RawFrame}
    (h : RawFrame.readTail total command input = .complete raw rest) :
    raw.command = command ∧
      ∃ after declared, readHeaders input = .complete raw.headers after ∧
        declaredLength raw.headers = .ok declared ∧
        readBody (total - after.length) declared after = .complete raw.body rest := by
  obtain ⟨raws, after, hraws, h⟩ := Reading.bind_eq_complete.mp h
  split at h
  · simp at h
  · rename_i declared hdeclared
    obtain ⟨body, hbody, rfl⟩ := Reading.map_eq_complete.mp h
    exact ⟨rfl, after, declared, hraws, hdeclared, hbody⟩

theorem rawHeaders_connect (headers : List Header) :
    rawHeaders ⟨"CONNECT", headers, []⟩ = headers.map (rawHeader true) := by
  rw [rawHeaders, sentHeaders_eq, received_connect]
  rfl

theorem legible_connect (hsafe : ∀ header ∈ headers, VerbatimSafe header) :
    Legible ⟨"CONNECT", headers, []⟩ where
  command := wireSafe_bare.legible.command
  headers := by
    rw [rawHeaders_connect]
    intro raw hraw
    obtain ⟨header, hheader, rfl⟩ := List.mem_map.mp hraw
    exact lineSafe_verbatim (hsafe header hheader)

theorem decode_connect_of_safe (hsafe : ∀ header ∈ headers, VerbatimSafe header)
    (hnothing : DeclaresNothing headers)
    (hsize : (encodeFrame ⟨"CONNECT", headers, []⟩).length < Numeral.word64) :
    Item.decode (encodeFrame ⟨"CONNECT", headers, []⟩) =
      .item (.frame ⟨"CONNECT", headers, []⟩) [] := by
  have hlegible := legible_connect hsafe
  obtain ⟨declared, hdeclared, hzero⟩ := declaresNothing_iff.mp hnothing
  have hend : (encodeHead ⟨"CONNECT", headers, []⟩).length + 1 < Numeral.word64 := by
    rwa [length_encodeFrame] at hsize
  obtain ⟨body, hbody, hread⟩ := readBody_nul hzero hend
  have hcomplete : RawFrame.read (encodeHead ⟨"CONNECT", headers, []⟩ ++ [nul]) =
      .complete ⟨Utf8.encode "CONNECT", rawHeaders ⟨"CONNECT", headers, []⟩, body⟩ [] := by
    rw [hlegible.read_eq, rawHeaders_connect, hdeclared]
    simp only [hread, Reading.map]
  have hdecode := hlegible.decode_of_read hcomplete
  rw [hbody, sentHeaders_eq, received_connect] at hdecode
  rwa [encodeFrame, List.append_nil]

theorem safe_of_decode_connect {rest : Bytes}
    (h : Item.decode (encodeFrame ⟨"CONNECT", headers, []⟩) =
      .item (.frame ⟨"CONNECT", headers, []⟩) rest) :
    (∀ header ∈ headers, VerbatimSafe header) ∧ DeclaresNothing headers := by
  obtain ⟨raw, hread, hframe⟩ := exists_read_of_decode h
  have hdecodes : Decodes true raw.headers headers := (decodeFrame_eq_ok_iff.mp hframe).2.1
  rw [read_connect] at hread
  obtain ⟨-, input, declared, hhead, hdeclared, hbody⟩ := RawFrame.of_readTail hread
  rw [hdecodes.raws_eq] at hhead hdeclared
  obtain ⟨rfl, hlines⟩ := lineSafe_of_readHeaders hhead
  constructor
  · intro header hmem
    exact verbatimSafe_of_lineSafe (hlines _ (List.mem_map_of_mem hmem))
  · exact declaresNothing_iff.mpr ⟨declared, hdeclared, declared_of_readBody hbody⟩

end Opening

theorem drain_connect_iff {headers : List Header}
    (hsize : (encodeFrame ⟨"CONNECT", headers, []⟩).length < Numeral.word64) :
    drain (encodeFrame ⟨"CONNECT", headers, []⟩) =
        ⟨[.frame ⟨"CONNECT", headers, []⟩], [], none⟩ ↔
      (∀ header ∈ headers, VerbatimSafe header) ∧ DeclaresNothing headers := by
  constructor
  · intro h
    cases hdecode : Item.decode (encodeFrame ⟨"CONNECT", headers, []⟩) with
    | idle => simp [drain_idle hdecode] at h
    | fault fault rest => simp [drain_fault hdecode] at h
    | item item rest =>
        simp only [drain_item hdecode, Drained.mk.injEq, List.cons.injEq] at h
        obtain ⟨⟨rfl, -⟩, -⟩ := h
        exact safe_of_decode_connect hdecode
  · rintro ⟨hsafe, hnothing⟩
    rw [drain_item (decode_connect_of_safe hsafe hnothing hsize), drain_idle (by rfl)]

end Stomp.Wire

namespace Stomp

open Text Wire

/-! ## Texts of a configuration -/

/-- Nothing in a text ends its line, and the end of the line takes nothing from it. -/
structure StaysInLine (text : String) : Prop where
  lf_notMem : '\n' ∉ text.toList
  getLast_ne_cr : text.toList.getLast? ≠ some '\r'

theorem verbatimSafe_iff {name value : String} (hlf : '\n' ∉ name.toList)
    (hcolon : ':' ∉ name.toList) : VerbatimSafe (name, value) ↔ StaysInLine value := by
  constructor
  · intro h
    exact ⟨h.lf_notMem_value, h.getLast_value_ne_cr⟩
  · intro h
    exact ⟨hlf, hcolon, h.lf_notMem, h.getLast_ne_cr⟩

theorem declaresNothing_append {first more : List Header}
    (h : ∀ header ∈ first, ¬ DeclaresLength header) :
    DeclaresNothing (first ++ more) ↔ DeclaresNothing more := by
  have hnone : first.find? (DeclaresLength ·) = none := by simpa [List.find?_eq_none] using h
  rw [DeclaresNothing, DeclaresNothing, List.find?_append, hnone, Option.none_or]

theorem staysInLine_of_allVisible {text : String} (h : AllVisible text) : StaysInLine text where
  lf_notMem hmem := absurd (h _ hmem) (by decide)
  getLast_ne_cr hlast := absurd (h _ (List.mem_of_getLast? hlast)) (by decide)

namespace Config

theorem allVisible_acceptVersion (config : Config) : AllVisible config.acceptVersion := by
  refine AllVisible.intercalate (by decide) fun text htext => ?_
  obtain ⟨version, -, rfl⟩ := List.mem_map.mp htext
  cases version <;> decide

theorem allVisible_heartbeat (offer : Heartbeat) : AllVisible offer.text :=
  ((allVisible_write _).append (by decide)).append (allVisible_write _)

def mandatoryHeaders (config : Config) : List Header :=
  [("accept-version", config.acceptVersion), ("host", config.hostHeader),
    ("heart-beat", config.heartbeat.text), (userIdHeader, config.userId)]

theorem not_declaresLength_mandatory (config : Config) :
    ∀ header ∈ config.mandatoryHeaders, ¬ DeclaresLength header := by
  have hnames : ∀ name ∈ ["accept-version", "host", "heart-beat", userIdHeader],
      name.toLower ≠ "content-length" := by decide +kernel
  intro header hmem
  exact hnames header.1 (List.mem_map_of_mem (f := Prod.fst) hmem)

theorem verbatimSafe_mandatory_iff (config : Config) :
    (∀ header ∈ config.mandatoryHeaders, VerbatimSafe header) ↔
      StaysInLine config.hostHeader ∧ StaysInLine config.userId := by
  have hversion := staysInLine_of_allVisible config.allVisible_acceptVersion
  have hheartbeat := staysInLine_of_allVisible (allVisible_heartbeat config.heartbeat)
  simp only [mandatoryHeaders, List.forall_mem_cons, List.not_mem_nil, false_imp_iff,
    implies_true, and_true]
  rw [verbatimSafe_iff (by decide) (by decide), verbatimSafe_iff (by decide) (by decide),
    verbatimSafe_iff (by decide) (by decide), verbatimSafe_iff (by decide) (by decide)]
  simp [hversion, hheartbeat]

end Config

/-- What a draft may hold for its frame to come back as it was configured. -/
structure Draft.IsPlain (draft : Draft) : Prop where
  userId : StaysInLine draft.userId
  host : ∀ name ∈ draft.host, StaysInLine name
  verbatim : ∀ header ∈ draft.connectHeaders, VerbatimSafe header
  declared : DeclaresNothing draft.connectHeaders

/-- The host of a URL is written in visible ASCII characters, whatever the text was. -/
def Url.Parser.ShowsHosts (parse : Url.Parser) : Prop :=
  ∀ text url name, parse text = .ok url → url.host? = some name → AllVisible name

namespace Draft

variable {parse : Url.Parser} {draft : Draft} {config : Config}

theorem of_build (h : draft.build parse = .ok config) :
    parse draft.url = .ok config.url ∧ config.userId = draft.userId ∧
      config.host = draft.host ∧ config.connectHeaders = draft.connectHeaders := by
  obtain ⟨hkeeps, -⟩ := build_eq_ok_iff.mp h
  exact ⟨hkeeps.url, hkeeps.userId, hkeeps.host, hkeeps.connectHeaders⟩

theorem staysInLine_hostHeader (hhosts : parse.ShowsHosts) (h : draft.build parse = .ok config) :
    StaysInLine config.hostHeader ↔ ∀ name ∈ draft.host, StaysInLine name := by
  obtain ⟨hurl, -, hhost, -⟩ := of_build h
  rw [Config.hostHeader, hhost]
  cases draft.host with
  | some name => simp
  | none =>
      have hdefault : AllVisible (config.url.host?.getD "/") := by
        cases hname : config.url.host? with
        | none => decide
        | some name => exact hhosts _ _ name hurl hname
      simpa using staysInLine_of_allVisible hdefault

/--
For a draft that is built, the frame that opens a session comes back as the one frame
that was configured, with nothing left over, exactly if the texts of the draft are plain.
In that frame the configured values are the first of their names.  The length of a
buffer is a 64-bit word.
-/
theorem greeting_survives_iff (hhosts : parse.ShowsHosts) (hbuild : draft.build parse = .ok config)
    (hsize : (encodeFrame config.connectFrame).length < Numeral.word64) :
    (drain (encodeFrame config.connectFrame) = ⟨[.frame config.connectFrame], [], none⟩ ↔
        draft.IsPlain) ∧
      config.connectFrame.header? Config.userIdHeader = some draft.userId ∧
      config.connectFrame.header? "accept-version" = some config.acceptVersion ∧
      config.connectFrame.header? "host" = some config.hostHeader ∧
      config.connectFrame.header? "heart-beat" = some config.heartbeat.text := by
  obtain ⟨-, huser, -, hextra⟩ := of_build hbuild
  have hsafe :
      (∀ header ∈ config.mandatoryHeaders ++ config.connectHeaders, VerbatimSafe header) ∧
          DeclaresNothing (config.mandatoryHeaders ++ config.connectHeaders) ↔
        draft.IsPlain := by
    rw [List.forall_mem_append, config.verbatimSafe_mandatory_iff,
      staysInLine_hostHeader hhosts hbuild,
      declaresNothing_append config.not_declaresLength_mandatory, huser, hextra]
    constructor
    · rintro ⟨⟨⟨hhost, huser⟩, hverbatim⟩, hdeclared⟩
      exact ⟨huser, hhost, hverbatim, hdeclared⟩
    · rintro ⟨huser, hhost, hverbatim, hdeclared⟩
      exact ⟨⟨⟨hhost, huser⟩, hverbatim⟩, hdeclared⟩
  refine ⟨(drain_connect_iff hsize).trans hsafe, ?_⟩
  rw [← huser]
  simp [Config.connectFrame, Frame.header?, Config.userIdHeader]

def shadowing : Draft :=
  { url := "ws://broker/", userId := "user", host := some "broker\nX-User-Id:mallory" }

def parseBroker : Url.Parser := fun text =>
  if text = "ws://broker/" then .ok ⟨"ws://broker/", "ws", some "broker"⟩
  else .error "relative URL without a base"

def shadowed : Config :=
  { url := ⟨"ws://broker/", "ws", some "broker"⟩
    userId := "user"
    heartbeat := ⟨4000, 4000⟩
    reconnectDelay := Duration.ofMillis 5000
    completesFrames := true
    versions := [.v12, .v11, .v10]
    host := some "broker\nX-User-Id:mallory"
    connectHeaders := []
    handshakeTimeout := Duration.ofMillis 10000 }

def peerHeaders : List Header :=
  [("accept-version", "1.2,1.1,1.0"), ("host", "broker"), ("X-User-Id", "mallory"),
    ("heart-beat", "4000,4000"), ("X-User-Id", "user")]

theorem greeting_broken_of_shadowing :
    parseBroker.ShowsHosts ∧ shadowing.build parseBroker = .ok shadowed ∧
      (encodeFrame shadowed.connectFrame).length < Numeral.word64 ∧
      drain (encodeFrame shadowed.connectFrame) ≠
        ⟨[.frame shadowed.connectFrame], [], none⟩ ∧
      ∃ frame, drain (encodeFrame shadowed.connectFrame) = ⟨[.frame frame], [], none⟩ ∧
        frame.header? Config.userIdHeader = some "mallory" := by
  have hhosts : parseBroker.ShowsHosts := by
    intro text url name hurl hname
    rw [parseBroker] at hurl
    split at hurl
    · obtain rfl := Except.ok.inj hurl
      obtain rfl := Option.some.inj hname
      decide
    · simp at hurl
  have hbuild : shadowing.build parseBroker = .ok shadowed := by decide +kernel
  have hsize : (encodeFrame shadowed.connectFrame).length < Numeral.word64 := by decide +kernel
  refine ⟨hhosts, hbuild, hsize, fun hsame => ?_, ?_⟩
  · have hplain := (greeting_survives_iff hhosts hbuild hsize).1.mp hsame
    exact absurd (hplain.host _ rfl).lf_notMem (by decide)
  · have hsame : encodeFrame shadowed.connectFrame = encodeFrame ⟨"CONNECT", peerHeaders, []⟩ := by
      decide +kernel
    have hplain : (∀ header ∈ peerHeaders, VerbatimSafe header) ∧ DeclaresNothing peerHeaders := by
      constructor
      · simp only [peerHeaders, List.forall_mem_cons, List.not_mem_nil, false_imp_iff, implies_true,
          and_true]
        refine ⟨?_, ?_, ?_, ?_, ?_⟩ <;> constructor <;> decide
      · have hnone : peerHeaders.find? (DeclaresLength ·) = none := by decide +kernel
        simp [DeclaresNothing, hnone]
    refine ⟨⟨"CONNECT", peerHeaders, []⟩, ?_, by decide +kernel⟩
    rw [hsame] at hsize ⊢
    exact (drain_connect_iff hsize).mpr hplain

end Draft

end Stomp
