import Stomp.Proofs.Session.Versions
import Stomp.Proofs.Text.Decimal

/-!
# Heartbeat intervals

What a client offers and what the heart-beat header of a CONNECTED frame says settle how
often each side has to send something (`ConnectedInfo.settles_intervals`).
-/

namespace Stomp

/-! ## Fields of a header -/

/-- A number of 64 bits in one of the fields of a header, which are counted from zero. -/
def Heartbeat.Names (header : List Char) (index ms : Nat) : Prop :=
  ∃ field, (header.splitOn ',')[index]? = some field ∧ Numeral.IsPadded field ms ∧ ms < 2 ^ 64

def Frame.NamesInterval (frame : Frame) (index ms : Nat) : Prop :=
  ∃ before header after, frame.headers = before ++ ("heart-beat", header) :: after ∧
    (∀ other ∈ before, other.1 ≠ "heart-beat") ∧ Heartbeat.Names header.toList index ms

theorem Frame.header?_eq_some_iff {frame : Frame} {name value : String} :
    frame.header? name = some value ↔
      ∃ before after, frame.headers = before ++ (name, value) :: after ∧
        ∀ other ∈ before, other.1 ≠ name := by
  simp only [header?, Option.map_eq_some_iff, Prod.exists, List.find?_eq_some_iff_append,
    beq_iff_eq, Bool.not_eq_true', beq_eq_false_iff_ne]
  constructor
  · rintro ⟨_, _, ⟨rfl, before, after, hsplit, hbefore⟩, rfl⟩
    exact ⟨before, after, hsplit, hbefore⟩
  · rintro ⟨before, after, hsplit, hbefore⟩
    exact ⟨name, value, ⟨rfl, before, after, hsplit, hbefore⟩, rfl⟩

theorem Frame.namesInterval_iff {frame : Frame} {index ms : Nat} :
    frame.NamesInterval index ms ↔
      ∃ header, frame.header? "heart-beat" = some header ∧
        Heartbeat.Names header.toList index ms := by
  simp only [NamesInterval, header?_eq_some_iff]
  constructor
  · rintro ⟨before, header, after, hsplit, hbefore, hnames⟩
    exact ⟨header, ⟨before, after, hsplit, hbefore⟩, hnames⟩
  · rintro ⟨header, ⟨before, after, hsplit, hbefore⟩, hnames⟩
    exact ⟨before, header, after, hsplit, hbefore, hnames⟩

namespace Heartbeat

variable {field header : List Char} {n ms ours theirs : Nat}

theorem bne_comma_of_notMem (hfield : ',' ∉ field) : ∀ c ∈ field, (c != ',') = true :=
  fun _ hc => bne_iff_ne.mpr fun hcomma => hfield (hcomma ▸ hc)

theorem firstField_append (hfield : ',' ∉ field) (rest : List Char) :
    firstField (field ++ ',' :: rest) = field ∧
      afterFirstField? (field ++ ',' :: rest) = some rest := by
  have hkeep := bne_comma_of_notMem hfield
  rw [firstField, afterFirstField?, List.takeWhile_append_of_pos hkeep,
    List.dropWhile_append_of_pos hkeep]
  simp

theorem firstField_eq_self (hheader : ',' ∉ header) :
    firstField header = header ∧ afterFirstField? header = none := by
  have hkeep := bne_comma_of_notMem hheader
  have hdrop : header.dropWhile (· != ',') = [] := List.dropWhile_eq_nil_iff.mpr hkeep
  exact ⟨List.takeWhile_eq_self_iff.mpr hkeep, by rw [afterFirstField?, hdrop]⟩

theorem splitOn_eq_cons (header : List Char) :
    header.splitOn ',' =
      firstField header :: ((afterFirstField? header).map (List.splitOn ',')).getD [] := by
  by_cases hcomma : ',' ∈ header
  · obtain ⟨field, rest, rfl, hfield⟩ := List.eq_append_cons_of_mem hcomma
    obtain ⟨hfirst, hafter⟩ := firstField_append hfield rest
    rw [hfirst, hafter, List.splitOn_append_cons_self_of_not_mem hfield]
    rfl
  · obtain ⟨hfirst, hafter⟩ := firstField_eq_self hcomma
    rw [hfirst, hafter, List.splitOn_eq_singleton hcomma]
    rfl

theorem fieldValue_lt (field : List Char) : fieldValue field < 2 ^ 64 := by
  unfold fieldValue
  split
  · next n hread => exact ((Numeral.read_trim_eq_ok_iff (by decide)).mp hread).2
  · exact Nat.two_pow_pos 64

theorem fieldValue_eq_iff (hn : n ≠ 0) :
    fieldValue field = n ↔ Numeral.IsPadded field n ∧ n < 2 ^ 64 := by
  have hword : Numeral.word64 = 2 ^ 64 := by decide
  have hread : Numeral.read Numeral.word64 (Text.trim (String.ofList field)) = .ok n ↔
      Numeral.IsPadded field n ∧ n < 2 ^ 64 := by
    rw [Numeral.read_trim_eq_ok_iff (by decide), String.toList_ofList, hword]
  rw [← hread, fieldValue]
  cases Numeral.read Numeral.word64 (Text.trim (String.ofList field)) with
  | ok m => rw [Except.ok.injEq]
  | error fault => simp [hn.symm]

theorem fieldValue_write (hn : n < 2 ^ 64) : fieldValue (Numeral.write n).toList = n := by
  have hlt : n < Numeral.word64 := hn
  rw [fieldValue, String.ofList_toList, Numeral.trim_write, Numeral.read_write hlt]

/-! ## Reading a header -/

theorem readHeader_lt (header : String) :
    (readHeader header).1 < 2 ^ 64 ∧ (readHeader header).2 < 2 ^ 64 := by
  simp only [readHeader, fieldValue_lt, true_and]
  split
  · exact Nat.two_pow_pos 64
  · exact fieldValue_lt _

theorem readHeader_fst_eq_iff {header : String} (hms : ms ≠ 0) :
    (readHeader header).1 = ms ↔ Names header.toList 0 ms := by
  rw [Names, splitOn_eq_cons]
  simp [readHeader, fieldValue_eq_iff hms]

theorem readHeader_snd_eq_iff {header : String} (hms : ms ≠ 0) :
    (readHeader header).2 = ms ↔ Names header.toList 1 ms := by
  rw [Names, splitOn_eq_cons]
  cases hafter : afterFirstField? header.toList with
  | none => simp [readHeader, hafter, hms.symm]
  | some rest =>
      simp only [readHeader, hafter, Option.map_some, Option.getD_some, List.getElem?_cons_succ]
      rw [splitOn_eq_cons]
      simp [fieldValue_eq_iff hms]

theorem readHeader_text (offer : Heartbeat) :
    readHeader offer.text = (offer.send.toNat, offer.receive.toNat) := by
  have hcomma (n : Nat) : ',' ∉ (Numeral.write n).toList := Numeral.notMem_write (by decide) n
  have hvalue (word : UInt32) : fieldValue (Numeral.write word.toNat).toList = word.toNat :=
    fieldValue_write (word.toNat_lt.trans (by decide))
  have htext : offer.text.toList =
      (Numeral.write offer.send.toNat).toList ++
        ',' :: (Numeral.write offer.receive.toNat).toList := by
    simp [text]
  obtain ⟨hfirst, hafter⟩ := firstField_append (hcomma offer.send.toNat)
    (Numeral.write offer.receive.toNat).toList
  rw [readHeader, htext, hfirst, hafter, hvalue]
  dsimp only
  rw [(firstField_eq_self (hcomma offer.receive.toNat)).1, hvalue]

theorem readHeader_of_frame (frame : Frame) (hms : ms ≠ 0) :
    let theirs := readHeader ((frame.header? "heart-beat").getD "0,0")
    (theirs.1 = ms ↔ frame.NamesInterval 0 ms) ∧ (theirs.2 = ms ↔ frame.NamesInterval 1 ms) := by
  have hzero : readHeader "0,0" = (0, 0) := by decide +kernel
  simp only [Frame.namesInterval_iff]
  cases frame.header? "heart-beat" with
  | none => simp [hzero, hms.symm]
  | some header => simp [readHeader_fst_eq_iff hms, readHeader_snd_eq_iff hms]

/-! ## Settling -/

/--
How often one side sends in a direction, if it offers `ours` and the other side wants one of
the intervals `wanted`: not at all if either side takes no part, else as the slower side says.
-/
structure Settles (ours : Nat) (wanted : Nat → Prop) (interval : Option Duration) : Prop where
  off : interval = none ↔ ours = 0 ∨ ∀ ms, wanted ms → ms = 0
  on : ∀ ms, ours ≠ 0 → wanted ms → ms ≠ 0 → interval = some (Duration.ofMillis (max ours ms))

theorem settles_settle {wanted : Nat → Prop} (h : ∀ ms, ms ≠ 0 → (theirs = ms ↔ wanted ms)) :
    Settles ours wanted (settle ours theirs) where
  off := by
    have hnone : theirs = 0 ↔ ∀ ms, wanted ms → ms = 0 := by
      constructor
      · rintro rfl ms hwanted
        by_contra hms
        exact hms ((h ms hms).mpr hwanted).symm
      · intro hzero
        by_contra htheirs
        exact htheirs (hzero theirs ((h theirs htheirs).mp rfl))
    rw [← hnone, settle]
    split <;> simp_all
  on ms hours hwanted hms := by
    obtain rfl := (h ms hms).mpr hwanted
    rw [settle, if_neg (by simp [hours, hms])]

theorem settle_comm (ours theirs : Nat) : settle ours theirs = settle theirs ours := by
  simp only [settle, or_comm, max_comm]

theorem ofMillis_of_settle {bound : Nat} {interval : Duration} (hours : ours < bound)
    (htheirs : theirs < bound) (h : settle ours theirs = some interval) :
    ∃ ms < bound, interval = Duration.ofMillis ms := by
  rw [settle] at h
  split at h
  · simp at h
  · obtain rfl := Option.some.inj h
    exact ⟨_, max_lt hours htheirs, rfl⟩

end Heartbeat

/-- Whole seconds in 64 bits, and nanoseconds that make less than a second. -/
def Duration.IsRepresentable (d : Duration) : Prop :=
  ∃ seconds nanoseconds : Nat, seconds < 2 ^ 64 ∧ nanoseconds < 10 ^ 9 ∧
    d = Duration.ofParts seconds nanoseconds

theorem Heartbeat.isRepresentable_of_settle {ours theirs : Nat} {interval : Duration}
    (hours : ours < 2 ^ 64) (htheirs : theirs < 2 ^ 64)
    (h : settle ours theirs = some interval) : Duration.IsRepresentable (interval * 2) := by
  obtain ⟨ms, hlt, rfl⟩ := ofMillis_of_settle hours htheirs h
  refine ⟨ms * 2 / 1000, ms * 2 % 1000 * 1000000, by omega, by omega, ?_⟩
  show ms * 1000000 * 2 = ms * 2 / 1000 * 1000000000 + ms * 2 % 1000 * 1000000
  omega

/--
A frame that selects a known version settles the intervals of a client with its offer: the
client sends as often as it offers and the second field of the heart-beat header wants, the
broker as often as the first field says and the client wants.  Whatever 64-bit numbers two
sides offer, each comes to the same intervals as the other, with the directions swapped, and
twice such an interval is a duration still.
-/
theorem ConnectedInfo.settles_intervals (offer : Heartbeat) {frame : Frame} {version : Version}
    (hselects : frame.Selects version) :
    (∃ info, ofFrame? frame offer.text = some info ∧
      info.version = version ∧ info.frame = frame ∧
      Heartbeat.Settles offer.send.toNat (frame.NamesInterval 1) info.outgoing ∧
      Heartbeat.Settles offer.receive.toNat (frame.NamesInterval 0) info.incoming ∧
      ∀ interval, info.outgoing = some interval ∨ info.incoming = some interval →
        Duration.IsRepresentable (interval * 2)) ∧
    ∀ clientOut clientIn serverOut serverIn : UInt64,
      let client := Heartbeat.negotiate clientOut.toNat clientIn.toNat serverOut.toNat
        serverIn.toNat
      let server := Heartbeat.negotiate serverOut.toNat serverIn.toNat clientOut.toNat
        clientIn.toNat
      server = ⟨client.incoming, client.outgoing⟩ ∧
      ∀ interval, client.outgoing = some interval ∨ client.incoming = some interval →
        Duration.IsRepresentable (interval * 2) := by
  constructor
  · rw [← Frame.selectedVersion?_eq_some_iff] at hselects
    obtain ⟨hfirst, hsecond⟩ :=
      Heartbeat.readHeader_lt ((frame.header? "heart-beat").getD "0,0")
    have hword (word : UInt32) : word.toNat < 2 ^ 64 := word.toNat_lt.trans (by decide)
    have hread {ms : Nat} (hms : ms ≠ 0) := Heartbeat.readHeader_of_frame frame hms
    refine ⟨_, by rw [ofFrame?, hselects, Heartbeat.readHeader_text, Option.map_some], rfl, rfl,
      Heartbeat.settles_settle fun ms hms => (hread hms).2,
      Heartbeat.settles_settle fun ms hms => (hread hms).1, ?_⟩
    rintro interval (h | h)
    · exact Heartbeat.isRepresentable_of_settle (hword _) hsecond h
    · exact Heartbeat.isRepresentable_of_settle (hword _) hfirst h
  · intro clientOut clientIn serverOut serverIn client server
    refine ⟨?_, ?_⟩
    · simp only [client, server, Heartbeat.negotiate, Heartbeat.settle_comm serverOut.toNat,
        Heartbeat.settle_comm serverIn.toNat]
    · rintro interval (h | h)
      · exact Heartbeat.isRepresentable_of_settle clientOut.toNat_lt serverIn.toNat_lt h
      · exact Heartbeat.isRepresentable_of_settle clientIn.toNat_lt serverOut.toNat_lt h

theorem ConnectedInfo.settles_intervals_padded :
    let frame : Frame :=
      { command := "CONNECTED"
        headers := [("version", "1.1\t"), ("heart-beat", "\u00A0+18446744073709551615 , 300,7"),
          ("heart-beat", "0,0")] }
    frame.Selects .v11 ∧
      ∃ info, ofFrame? frame (Heartbeat.text ⟨4000, 60000⟩) = some info ∧
        info.outgoing = some (Duration.ofMillis 4000) ∧
        info.incoming = some (Duration.ofMillis 18446744073709551615) ∧
        Duration.IsRepresentable (Duration.ofMillis 18446744073709551615 * 2) := by
  intro frame
  have hselects : frame.Selects .v11 := by decide +kernel
  have hread : Heartbeat.readHeader ((frame.header? "heart-beat").getD "0,0") =
      (18446744073709551615, 300) := by decide +kernel
  obtain ⟨⟨info, hinfo, -, -, houtgoing, hincoming, hdouble⟩, -⟩ :=
    settles_intervals ⟨4000, 60000⟩ hselects
  have hout := houtgoing.on 300 (by decide)
    ((Heartbeat.readHeader_of_frame frame (by decide)).2.mp (by rw [hread])) (by decide)
  have hin := hincoming.on 18446744073709551615 (by decide)
    ((Heartbeat.readHeader_of_frame frame (by decide)).1.mp (by rw [hread])) (by decide)
  exact ⟨hselects, info, hinfo, hout, hin, hdouble _ (.inr hin)⟩

end Stomp
