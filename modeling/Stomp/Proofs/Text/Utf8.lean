import Stomp.Text.Utf8

/-!
# Writing and reading UTF-8

Reading accepts exactly what writing produces and gives the text back
(`decode_eq_ok_iff`).  A byte below 0x80 stands for an ASCII character and for
nothing else, so it cuts a text into two texts (`split_of_ascii`).
-/

namespace Stomp.Utf8

/-! ## One character -/

theorem sequenceSize_cases (b : UInt8) :
    b.toNat < 0x80 ∧ sequenceSize b = 1 ∨
      0xC2 ≤ b.toNat ∧ b.toNat ≤ 0xDF ∧ sequenceSize b = 2 ∨
      0xE0 ≤ b.toNat ∧ b.toNat ≤ 0xEF ∧ sequenceSize b = 3 ∨
      0xF0 ≤ b.toNat ∧ b.toNat ≤ 0xF4 ∧ sequenceSize b = 4 ∨
      (0x80 ≤ b.toNat ∧ b.toNat < 0xC2 ∨ 0xF4 < b.toNat) ∧ sequenceSize b = 0 := by
  have hb := b.toNat_lt
  simp only [sequenceSize, UInt8.lt_iff_toNat_lt, UInt8.le_iff_toNat_le, UInt8.reduceToNat,
    Bool.and_eq_true, decide_eq_true_eq]
  split
  · omega
  split
  · omega
  split
  · omega
  split <;> omega

theorem isTail_iff {b : UInt8} : isTail b = true ↔ 0x80 ≤ b.toNat ∧ b.toNat ≤ 0xBF := by
  simp [isTail, UInt8.le_iff_toNat_le]

theorem admitsSecond_iff {first second : UInt8} :
    admitsSecond first second = true ↔
      0x80 ≤ second.toNat ∧ second.toNat ≤ 0xBF ∧
        (first.toNat = 0xE0 → 0xA0 ≤ second.toNat) ∧
        (first.toNat = 0xED → second.toNat ≤ 0x9F) ∧
        (first.toNat = 0xF0 → 0x90 ≤ second.toNat) ∧
        (first.toNat = 0xF4 → second.toNat ≤ 0x8F) := by
  simp only [admitsSecond, isTail, UInt8.le_iff_toNat_le, UInt8.reduceToNat,
    ← UInt8.toNat_inj]
  split
  · simp [*]; omega
  split
  · simp [*]; omega
  split
  · simp [*]; omega
  split
  · simp [*]; omega
  · simp [*]

theorem ofNat_eq_iff {n : Nat} (h : n < 256) {b : UInt8} : UInt8.ofNat n = b ↔ n = b.toNat := by
  rw [← UInt8.toNat_inj, UInt8.toNat_ofNat', Nat.mod_eq_of_lt h]

theorem val_ofNat {n : Nat} (h : n.isValidChar) : (Char.ofNat n).val.toNat = n := by
  rw [Char.ofNat, dif_pos h]
  rfl

theorem encodeChar_one {a : UInt8} (h : sequenceSize a = 1) :
    String.utf8EncodeChar (Char.ofNat a.toNat) = [a] := by
  have ha := sequenceSize_cases a
  simp only [String.utf8EncodeChar, val_ofNat (n := a.toNat) (.inl (by omega))]
  rw [if_pos (by omega), UInt8.ofNat_toNat]

theorem encodeChar_two {a b : UInt8} (h : sequenceSize a = 2) (hb : isTail b = true) :
    String.utf8EncodeChar (Char.ofNat (lowBits 5 a * 64 + lowBits 6 b)) = [a, b] := by
  have ha := sequenceSize_cases a
  rw [isTail_iff] at hb
  simp only [lowBits, Nat.reduceShiftLeft]
  generalize hn : a.toNat % 32 * 64 + b.toNat % 64 = n
  simp only [String.utf8EncodeChar, val_ofNat (n := n) (.inl (by omega))]
  rw [if_neg (by omega), if_pos (by omega)]
  simp only [List.cons.injEq, and_true]
  constructor
  · rw [ofNat_eq_iff (by omega)]; omega
  · rw [ofNat_eq_iff (by omega)]; omega

theorem encodeChar_three {a b c : UInt8} (h : sequenceSize a = 3)
    (hb : admitsSecond a b = true) (hc : isTail c = true) :
    String.utf8EncodeChar
      (Char.ofNat ((lowBits 4 a * 64 + lowBits 6 b) * 64 + lowBits 6 c)) = [a, b, c] := by
  have ha := sequenceSize_cases a
  rw [isTail_iff] at hc
  rw [admitsSecond_iff] at hb
  simp only [lowBits, Nat.reduceShiftLeft]
  generalize hn : (a.toNat % 16 * 64 + b.toNat % 64) * 64 + c.toNat % 64 = n
  have hvalid : n.isValidChar := by
    unfold Nat.isValidChar
    omega
  simp only [String.utf8EncodeChar, val_ofNat hvalid]
  rw [if_neg (by omega), if_neg (by omega), if_pos (by omega)]
  simp only [List.cons.injEq, and_true]
  refine ⟨?_, ?_, ?_⟩
  · rw [ofNat_eq_iff (by omega)]; omega
  · rw [ofNat_eq_iff (by omega)]; omega
  · rw [ofNat_eq_iff (by omega)]; omega

theorem encodeChar_four {a b c d : UInt8} (h : sequenceSize a = 4)
    (hb : admitsSecond a b = true) (hc : isTail c = true) (hd : isTail d = true) :
    String.utf8EncodeChar
      (Char.ofNat
        (((lowBits 3 a * 64 + lowBits 6 b) * 64 + lowBits 6 c) * 64 + lowBits 6 d)) =
      [a, b, c, d] := by
  have ha := sequenceSize_cases a
  rw [isTail_iff] at hc hd
  rw [admitsSecond_iff] at hb
  simp only [lowBits, Nat.reduceShiftLeft]
  generalize hn :
    ((a.toNat % 8 * 64 + b.toNat % 64) * 64 + c.toNat % 64) * 64 + d.toNat % 64 = n
  have hvalid : n.isValidChar := by
    unfold Nat.isValidChar
    omega
  simp only [String.utf8EncodeChar, val_ofNat hvalid]
  rw [if_neg (by omega), if_neg (by omega), if_neg (by omega)]
  simp only [List.cons.injEq, and_true]
  refine ⟨?_, ?_, ?_, ?_⟩
  · rw [ofNat_eq_iff (by omega)]; omega
  · rw [ofNat_eq_iff (by omega)]; omega
  · rw [ofNat_eq_iff (by omega)]; omega
  · rw [ofNat_eq_iff (by omega)]; omega

section

variable {first : UInt8}

theorem front_of_size_one (h : sequenceSize first = 1) (rest : Bytes) :
    front first rest = .scalar (Char.ofNat first.toNat) 1 := by
  unfold front
  rw [h]
  rfl

theorem front_of_size_two (h : sequenceSize first = 2) (b : UInt8) (tail : Bytes) :
    front first (b :: tail) =
      if isTail b then .scalar (Char.ofNat (lowBits 5 first * 64 + lowBits 6 b)) 2
      else .broken 1 := by
  unfold front
  rw [h]
  rfl

theorem front_of_size_three (h : sequenceSize first = 3) (b c : UInt8) (tail : Bytes) :
    front first (b :: c :: tail) =
      if !admitsSecond first b then .broken 1
      else if !isTail c then .broken 2
      else
        .scalar (Char.ofNat ((lowBits 4 first * 64 + lowBits 6 b) * 64 + lowBits 6 c)) 3 := by
  unfold front
  rw [h]
  rfl

theorem front_of_size_four (h : sequenceSize first = 4) (b c d : UInt8) (tail : Bytes) :
    front first (b :: c :: d :: tail) =
      if !admitsSecond first b then .broken 1
      else if !isTail c then .broken 2
      else if !isTail d then .broken 3
      else
        .scalar
          (Char.ofNat
            (((lowBits 3 first * 64 + lowBits 6 b) * 64 + lowBits 6 c) * 64 + lowBits 6 d)) 4 := by
  unfold front
  rw [h]
  rfl

theorem front_of_size_zero (h : sequenceSize first = 0) (rest : Bytes) :
    front first rest = .broken 1 := by
  unfold front
  rw [h]
  cases rest <;> rfl

theorem front_of_short {rest : Bytes} (h : rest.length + 1 < sequenceSize first) (c : Char)
    (size : Nat) : front first rest ≠ .scalar c size := by
  have hfirst := sequenceSize_cases first
  match rest with
  | [] =>
      have hsize : sequenceSize first = 2 ∨ sequenceSize first = 3 ∨ sequenceSize first = 4 := by
        simp only [List.length_nil] at h
        omega
      have hshort : front first [] = .unfinished := by
        unfold front
        rcases hsize with hs | hs | hs <;> rw [hs] <;> rfl
      rw [hshort]
      exact Front.noConfusion
  | [b] =>
      have hsize : sequenceSize first = 3 ∨ sequenceSize first = 4 := by
        simp only [List.length_cons, List.length_nil] at h
        omega
      have hshort : front first [b] = if admitsSecond first b then .unfinished else .broken 1 := by
        unfold front
        rcases hsize with hs | hs <;> rw [hs] <;> rfl
      rw [hshort]
      split <;> exact Front.noConfusion
  | [b, c] =>
      have hsize : sequenceSize first = 4 := by
        simp only [List.length_cons, List.length_nil] at h
        omega
      have hshort : front first [b, c] =
          if !admitsSecond first b then .broken 1
          else if !isTail c then .broken 2
          else .unfinished := by
        unfold front
        rw [hsize]
        rfl
      rw [hshort]
      split
      · exact Front.noConfusion
      · split <;> exact Front.noConfusion
  | b :: c :: d :: tail =>
      simp only [List.length_cons] at h
      omega

end

theorem encodeChar_of_front {first : UInt8} {rest : Bytes} {c : Char} {size : Nat}
    (h : front first rest = .scalar c size) :
    first :: rest = String.utf8EncodeChar c ++ rest.drop (size - 1) := by
  have hlong : sequenceSize first ≤ rest.length + 1 :=
    Nat.le_of_not_lt fun hshort => front_of_short hshort c size h
  rcases sequenceSize_cases first with
    ⟨-, hs⟩ | ⟨-, -, hs⟩ | ⟨-, -, hs⟩ | ⟨-, -, hs⟩ | ⟨-, hs⟩
  · rw [front_of_size_one hs] at h
    obtain ⟨rfl, rfl⟩ := Front.scalar.inj h
    simp [encodeChar_one hs]
  · obtain ⟨b, tail, rfl⟩ : ∃ b tail, rest = b :: tail := by
      match rest with
      | [] => simp [hs] at hlong
      | b :: tail => exact ⟨b, tail, rfl⟩
    rw [front_of_size_two hs] at h
    split at h
    · rename_i hb
      obtain ⟨rfl, rfl⟩ := Front.scalar.inj h
      simp [encodeChar_two hs hb]
    · simp at h
  · obtain ⟨b, c', tail, rfl⟩ : ∃ b c' tail, rest = b :: c' :: tail := by
      match rest with
      | [] | [_] => simp [hs] at hlong
      | b :: c' :: tail => exact ⟨b, c', tail, rfl⟩
    rw [front_of_size_three hs] at h
    split at h
    · simp at h
    split at h
    · simp at h
    rename_i hb hc
    obtain ⟨rfl, rfl⟩ := Front.scalar.inj h
    simp [encodeChar_three hs (by simpa using hb) (by simpa using hc)]
  · obtain ⟨b, c', d, tail, rfl⟩ : ∃ b c' d tail, rest = b :: c' :: d :: tail := by
      match rest with
      | [] | [_] | [_, _] => simp [hs] at hlong
      | b :: c' :: d :: tail => exact ⟨b, c', d, tail, rfl⟩
    rw [front_of_size_four hs] at h
    split at h
    · simp at h
    split at h
    · simp at h
    split at h
    · simp at h
    rename_i hb hc hd
    obtain ⟨rfl, rfl⟩ := Front.scalar.inj h
    simp [encodeChar_four hs (by simpa using hb) (by simpa using hc) (by simpa using hd)]
  · rw [front_of_size_zero hs] at h
    simp at h

theorem toNat_tail (n : Nat) : (UInt8.ofNat (n % 0x40 + 0x80)).toNat = n % 0x40 + 0x80 :=
  ((ofNat_eq_iff (by omega)).mp rfl).symm

theorem isTail_tail (n : Nat) : isTail (UInt8.ofNat (n % 0x40 + 0x80)) = true := by
  rw [isTail_iff, toNat_tail]
  omega

section

variable {v : Nat}

theorem front_written_one (h : v ≤ 0x7f) (rest : Bytes) :
    front (UInt8.ofNat v) rest = .scalar (Char.ofNat v) 1 := by
  generalize hlead : UInt8.ofNat v = lead
  rw [ofNat_eq_iff (by omega)] at hlead
  have hsize : sequenceSize lead = 1 := by
    have := sequenceSize_cases lead
    omega
  rw [front_of_size_one hsize, ← hlead]

theorem front_written_two (hlow : 0x7f < v) (hhigh : v ≤ 0x7ff) (rest : Bytes) :
    front (UInt8.ofNat (v / 64 % 0x20 + 0xc0)) (UInt8.ofNat (v % 0x40 + 0x80) :: rest) =
      .scalar (Char.ofNat v) 2 := by
  generalize hlead : UInt8.ofNat (v / 64 % 0x20 + 0xc0) = lead
  rw [ofNat_eq_iff (by omega)] at hlead
  have hsize : sequenceSize lead = 2 := by
    have := sequenceSize_cases lead
    omega
  simp only [front_of_size_two hsize, isTail_tail, if_true, lowBits, Nat.reduceShiftLeft,
    toNat_tail, ← hlead]
  congr 2
  omega

theorem front_written_three (hlow : 0x7ff < v) (hhigh : v ≤ 0xffff)
    (hvalid : v < 0xD800 ∨ 0xDFFF < v) (rest : Bytes) :
    front (UInt8.ofNat (v / 4096 % 0x10 + 0xe0))
        (UInt8.ofNat (v / 64 % 0x40 + 0x80) :: UInt8.ofNat (v % 0x40 + 0x80) :: rest) =
      .scalar (Char.ofNat v) 3 := by
  generalize hlead : UInt8.ofNat (v / 4096 % 0x10 + 0xe0) = lead
  rw [ofNat_eq_iff (by omega)] at hlead
  have hsize : sequenceSize lead = 3 := by
    have := sequenceSize_cases lead
    omega
  have hsecond : admitsSecond lead (UInt8.ofNat (v / 64 % 0x40 + 0x80)) = true := by
    rw [admitsSecond_iff, toNat_tail]
    omega
  simp only [front_of_size_three hsize, hsecond, isTail_tail, Bool.not_true, Bool.false_eq_true,
    if_false, lowBits, Nat.reduceShiftLeft, toNat_tail, ← hlead]
  congr 2
  omega

theorem front_written_four (hlow : 0xffff < v) (hhigh : v < 0x110000) (rest : Bytes) :
    front (UInt8.ofNat (v / 262144 % 0x08 + 0xf0))
        (UInt8.ofNat (v / 4096 % 0x40 + 0x80) :: UInt8.ofNat (v / 64 % 0x40 + 0x80) ::
          UInt8.ofNat (v % 0x40 + 0x80) :: rest) =
      .scalar (Char.ofNat v) 4 := by
  generalize hlead : UInt8.ofNat (v / 262144 % 0x08 + 0xf0) = lead
  rw [ofNat_eq_iff (by omega)] at hlead
  have hsize : sequenceSize lead = 4 := by
    have := sequenceSize_cases lead
    omega
  have hsecond : admitsSecond lead (UInt8.ofNat (v / 4096 % 0x40 + 0x80)) = true := by
    rw [admitsSecond_iff, toNat_tail]
    omega
  simp only [front_of_size_four hsize, hsecond, isTail_tail, Bool.not_true, Bool.false_eq_true,
    if_false, lowBits, Nat.reduceShiftLeft, toNat_tail, ← hlead]
  congr 2
  omega

end

theorem front_encodeChar (c : Char) :
    ∃ first tail, String.utf8EncodeChar c = first :: tail ∧
      ∀ rest, front first (tail ++ rest) = .scalar c (tail.length + 1) := by
  have hvalid : c.val.toNat < 0xD800 ∨ 0xDFFF < c.val.toNat ∧ c.val.toNat < 0x110000 :=
    c.valid
  have hc : Char.ofNat c.val.toNat = c := Char.ofNat_toNat c
  unfold String.utf8EncodeChar
  generalize c.val.toNat = v at hvalid hc
  dsimp only
  rw [← hc]
  split
  · rename_i hone
    exact ⟨_, _, rfl, front_written_one hone⟩
  split
  · rename_i hone htwo
    exact ⟨_, _, rfl, front_written_two (by omega) htwo⟩
  split
  · rename_i hone htwo hthree
    exact ⟨_, _, rfl, front_written_three (by omega) hthree (by omega)⟩
  · rename_i hone htwo hthree
    exact ⟨_, _, rfl, front_written_four (by omega) (by omega)⟩

/-! ## Whole texts -/

theorem encode_ofList (chars : List Char) :
    encode (String.ofList chars) = chars.flatMap String.utf8EncodeChar := by
  rw [encode, String.toList_ofList]

theorem decodeFrom_encode (chars : List Char) (offset : Nat) :
    decodeFrom offset (chars.flatMap String.utf8EncodeChar) = .ok chars := by
  induction chars generalizing offset with
  | nil => rw [List.flatMap_nil, decodeFrom]
  | cons c chars ih =>
      obtain ⟨first, tail, hchar, hfront⟩ := front_encodeChar c
      rw [List.flatMap_cons, hchar, List.cons_append, decodeFrom, hfront]
      simp [ih, Except.map]

theorem eq_encode_of_decodeFrom {offset : Nat} {input : Bytes} {chars : List Char}
    (h : decodeFrom offset input = .ok chars) :
    input = chars.flatMap String.utf8EncodeChar := by
  fun_induction decodeFrom offset input generalizing chars with
  | case1 =>
      obtain rfl := Except.ok.inj h
      rfl
  | case2 offset first rest c size hfront ih =>
      cases hrest : decodeFrom (offset + size) (rest.drop (size - 1)) with
      | error defect => simp [hrest, Except.map] at h
      | ok more =>
          simp only [hrest, Except.map, Except.ok.injEq] at h
          subst h
          rw [encodeChar_of_front hfront, List.flatMap_cons, ← ih hrest]
  | case3 => simp at h
  | case4 => simp at h

/-- Reading accepts what writing produces and nothing else. -/
theorem decode_eq_ok_iff {input : Bytes} {text : String} :
    decode input = .ok text ↔ encode text = input := by
  constructor
  · intro h
    cases hchars : decodeFrom 0 input with
    | error defect => simp [decode, hchars, Except.map] at h
    | ok chars =>
        simp only [decode, hchars, Except.map, Except.ok.injEq] at h
        rw [← h, encode_ofList, ← eq_encode_of_decodeFrom hchars]
  · rintro rfl
    rw [decode, encode, decodeFrom_encode, Except.map, String.ofList_toList]

@[simp] theorem decode_encode (text : String) : decode (encode text) = .ok text :=
  decode_eq_ok_iff.mpr rfl

theorem encode_inj {first second : String} : encode first = encode second ↔ first = second := by
  constructor
  · intro h
    have hdecode := congrArg decode h
    rw [decode_encode, decode_encode] at hdecode
    exact Except.ok.inj hdecode
  · rintro rfl
    rfl

theorem isText_iff {input : Bytes} : isText input = true ↔ ∃ text, encode text = input := by
  unfold isText
  cases h : decode input with
  | ok text => simpa [Except.toBool] using ⟨text, decode_eq_ok_iff.mp h⟩
  | error defect =>
      simp only [Except.toBool, Bool.false_eq_true, false_iff, not_exists]
      intro text htext
      rw [decode_eq_ok_iff.mpr htext] at h
      simp at h

instance (input : Bytes) : Decidable (∃ text, encode text = input) :=
  decidable_of_iff _ isText_iff

/-! ## ASCII -/

theorem encodeChar_ascii {c : Char} (h : c.val.toNat < 0x80) :
    String.utf8EncodeChar c = [UInt8.ofNat c.val.toNat] := by
  simp only [String.utf8EncodeChar]
  rw [if_pos (by omega)]

theorem not_ascii_of_mem_encodeChar {c : Char} (h : ¬ c.val.toNat < 0x80) {b : UInt8}
    (hb : b ∈ String.utf8EncodeChar c) : 0x80 ≤ b.toNat := by
  have hvalid : c.val.toNat < 0xD800 ∨ 0xDFFF < c.val.toNat ∧ c.val.toNat < 0x110000 :=
    c.valid
  simp only [String.utf8EncodeChar] at hb
  rw [if_neg (by omega)] at hb
  repeat' split at hb
  all_goals
    simp only [List.mem_cons, List.not_mem_nil, or_false] at hb
    rcases hb with rfl | rfl | rfl | rfl
    all_goals
      rw [UInt8.toNat_ofNat']
      omega

theorem split_of_ascii {b : UInt8} (hb : b.toNat < 0x80) {chars : List Char}
    {before after : Bytes}
    (h : chars.flatMap String.utf8EncodeChar = before ++ b :: after) :
    ∃ first last, chars = first ++ Char.ofNat b.toNat :: last ∧
      before = first.flatMap String.utf8EncodeChar ∧
      after = last.flatMap String.utf8EncodeChar := by
  induction chars generalizing before with
  | nil => simp at h
  | cons c chars ih =>
      have later {more : Bytes} (hbefore : before = String.utf8EncodeChar c ++ more)
          (hmore : chars.flatMap String.utf8EncodeChar = more ++ b :: after) :
          ∃ first last, c :: chars = first ++ Char.ofNat b.toNat :: last ∧
            before = first.flatMap String.utf8EncodeChar ∧
            after = last.flatMap String.utf8EncodeChar := by
        obtain ⟨first, last, rfl, rfl, hafter⟩ := ih hmore
        exact ⟨c :: first, last, rfl, hbefore, hafter⟩
      rw [List.flatMap_cons, List.append_eq_append_iff] at h
      rcases h with ⟨more, hbefore, hmore⟩ | ⟨part, hchar, hafter⟩
      · exact later hbefore hmore
      cases part with
      | nil =>
          have hbefore : before = String.utf8EncodeChar c ++ [] := by simpa using hchar.symm
          exact later hbefore (by simpa using hafter.symm)
      | cons x part =>
          obtain ⟨rfl, hafter⟩ := List.cons.inj hafter
          by_cases hc : c.val.toNat < 0x80
          · rw [encodeChar_ascii hc] at hchar
            have hlen := congrArg List.length hchar
            simp only [List.length_append, List.length_cons, List.length_nil] at hlen
            obtain rfl : before = [] := List.length_eq_zero_iff.mp (by omega)
            obtain rfl : part = [] := List.length_eq_zero_iff.mp (by omega)
            have hvalue : c.val.toNat = b.toNat :=
              (ofNat_eq_iff (by omega)).mp (List.cons.inj hchar).1
            refine ⟨[], chars, ?_, rfl, by simpa using hafter⟩
            rw [← hvalue]
            exact congrArg (· :: chars) (Char.ofNat_toNat c).symm
          · have hmem : b ∈ String.utf8EncodeChar c := by simp [hchar]
            have := not_ascii_of_mem_encodeChar hc hmem
            omega

theorem mem_of_mem_encode {b : UInt8} (hb : b.toNat < 0x80) {text : String}
    (h : b ∈ encode text) : Char.ofNat b.toNat ∈ text.toList := by
  obtain ⟨before, after, hsplit⟩ := List.append_of_mem h
  obtain ⟨first, last, hchars, -, -⟩ := split_of_ascii hb hsplit
  simp [hchars]

theorem notMem_encodeChar {b : UInt8} (hb : b.toNat < 0x80) {c : Char}
    (h : c ≠ Char.ofNat b.toNat) : b ∉ String.utf8EncodeChar c := by
  intro hmem
  have htext : b ∈ encode (String.ofList [c]) := by
    rw [encode_ofList, List.flatMap_singleton]
    exact hmem
  have hc := mem_of_mem_encode hb htext
  rw [String.toList_ofList, List.mem_singleton] at hc
  exact h hc.symm

theorem head_of_encode {b : UInt8} (hb : b.toNat < 0x80) {text : String}
    (h : (encode text).head? = some b) : text.toList.head? = some (Char.ofNat b.toNat) := by
  obtain ⟨rest, hrest⟩ := List.head?_eq_some_iff.mp h
  have hsplit : text.toList.flatMap String.utf8EncodeChar = [] ++ b :: rest := hrest
  obtain ⟨first, last, hchars, hfirst, -⟩ := split_of_ascii hb hsplit
  cases first with
  | nil => rw [hchars, List.nil_append, List.head?_cons]
  | cons c first =>
      obtain ⟨b, tail, hchar, -⟩ := front_encodeChar c
      simp [hchar] at hfirst

theorem getLast_of_encode {b : UInt8} (hb : b.toNat < 0x80) {text : String}
    (h : (encode text).getLast? = some b) :
    text.toList.getLast? = some (Char.ofNat b.toNat) := by
  obtain ⟨before, hbefore⟩ := List.getLast?_eq_some_iff.mp h
  obtain ⟨first, last, hchars, -, hlast⟩ := split_of_ascii hb hbefore
  cases last with
  | nil => rw [hchars, List.getLast?_concat]
  | cons c last =>
      obtain ⟨b, tail, hchar, -⟩ := front_encodeChar c
      simp [hchar] at hlast

theorem encodeChar_ofNat {b : UInt8} (hb : b.toNat < 0x80) :
    String.utf8EncodeChar (Char.ofNat b.toNat) = [b] := by
  have hlow : b < 0x80 := UInt8.lt_iff_toNat_lt.mpr hb
  exact encodeChar_one (if_pos hlow)

/-- What stands on both sides of an ASCII byte is text if the whole is, and only then. -/
theorem encodes_ascii_iff {b : UInt8} (hb : b.toNat < 0x80) {before after : Bytes} :
    (∃ text, encode text = before ++ b :: after) ↔
      (∃ text, encode text = before) ∧ ∃ text, encode text = after := by
  constructor
  · rintro ⟨text, htext⟩
    obtain ⟨first, last, -, rfl, rfl⟩ := split_of_ascii hb htext
    exact ⟨⟨_, encode_ofList first⟩, _, encode_ofList last⟩
  · rintro ⟨⟨first, rfl⟩, last, rfl⟩
    refine ⟨first ++ String.ofList (Char.ofNat b.toNat :: last.toList), ?_⟩
    rw [encode, String.toList_append, String.toList_ofList, List.flatMap_append,
      List.flatMap_cons, encodeChar_ofNat hb]
    rfl

theorem mem_encode {b : UInt8} (hb : b.toNat < 0x80) {text : String}
    (h : Char.ofNat b.toNat ∈ text.toList) : b ∈ encode text :=
  List.mem_flatMap.mpr ⟨_, h, by simp [encodeChar_ofNat hb]⟩

theorem getLast_encode {b : UInt8} (hb : b.toNat < 0x80) {text : String}
    (h : text.toList.getLast? = some (Char.ofNat b.toNat)) :
    (encode text).getLast? = some b := by
  obtain ⟨before, hbefore⟩ := List.getLast?_eq_some_iff.mp h
  rw [encode, hbefore, List.flatMap_append, List.flatMap_singleton, encodeChar_ofNat hb,
    List.getLast?_concat]

/-! ## Case -/

theorem map_lowerAscii_encodeChar (c : Char) :
    (String.utf8EncodeChar c).map Bytes.lowerAscii = String.utf8EncodeChar c.toLower := by
  by_cases hc : c.val.toNat < 0x80
  · have hall : ∀ n < 0x80, (String.utf8EncodeChar (Char.ofNat n)).map Bytes.lowerAscii =
        String.utf8EncodeChar (Char.ofNat n).toLower := by decide
    simpa only [Char.ofNat_toNat] using hall c.toNat hc
  · have hlower : c.toLower = c := by
      have hle : ¬ c.val ≤ 'Z'.val := by
        rw [UInt32.le_iff_toNat_le]
        have : 'Z'.val.toNat = 0x5A := rfl
        omega
      exact dif_neg fun h => hle h.2
    have hsame : ∀ b ∈ String.utf8EncodeChar c, Bytes.lowerAscii b = b := by
      intro b hb
      have hhigh := not_ascii_of_mem_encodeChar hc hb
      have hle : ¬ b ≤ 0x5A := by
        rw [UInt8.le_iff_toNat_le]
        have : (0x5A : UInt8).toNat = 0x5A := rfl
        omega
      simp [Bytes.lowerAscii, hle]
    rw [hlower, List.map_congr_left hsame, List.map_id']

theorem map_lowerAscii_encode (text : String) :
    (encode text).map Bytes.lowerAscii = encode text.toLower := by
  have hlower : text.toLower.toList = text.toList.map Char.toLower := String.toList_map
  rw [encode, encode, hlower, List.map_flatMap, List.flatMap_map]
  simp only [map_lowerAscii_encodeChar]

end Stomp.Utf8
