/-!
# Byte strings

The octets that have a meaning on the wire, and cutting a byte string at the
first occurrence of one of them.
-/

namespace Stomp

abbrev Bytes := List UInt8

namespace Bytes

@[match_pattern] abbrev nul : UInt8 := 0x00

@[match_pattern] abbrev lf : UInt8 := 0x0A

@[match_pattern] abbrev cr : UInt8 := 0x0D

@[match_pattern] abbrev colon : UInt8 := 0x3A

@[match_pattern] abbrev backslash : UInt8 := 0x5C

def isEol (b : UInt8) : Bool := b == lf || b == cr

/-- The parts before and after the first `mark`, or nothing where there is none. -/
def cut? (mark : UInt8) (input : Bytes) : Option (Bytes × Bytes) :=
  match input.dropWhile (· != mark) with
  | [] => none
  | _ :: rest => some (input.takeWhile (· != mark), rest)

def chomp (line : Bytes) : Bytes :=
  if line.getLast? = some cr then line.dropLast else line

def lowerAscii (b : UInt8) : UInt8 :=
  if 0x41 ≤ b && b ≤ 0x5A then b + 0x20 else b

def sameIgnoringCase (a b : Bytes) : Bool :=
  a.map lowerAscii == b.map lowerAscii

theorem cut?_cons (mark b : UInt8) (rest : Bytes) :
    cut? mark (b :: rest) =
      if b = mark then some ([], rest)
      else (cut? mark rest).map fun parts => (b :: parts.1, parts.2) := by
  by_cases h : b = mark
  · simp [cut?, h]
  · simp only [cut?, if_neg h]
    rw [List.dropWhile_cons_of_pos (by simpa using h),
      List.takeWhile_cons_of_pos (by simpa using h)]
    cases List.dropWhile (fun c => c != mark) rest <;> rfl

theorem cut?_eq_none_iff {mark : UInt8} {input : Bytes} :
    cut? mark input = none ↔ mark ∉ input := by
  induction input with
  | nil => simp [cut?]
  | cons b rest ih =>
      rw [cut?_cons]
      by_cases h : b = mark
      · simp [h]
      · simp [h, ih, Ne.symm h]

theorem cut?_eq_some_iff {mark : UInt8} {input before after : Bytes} :
    cut? mark input = some (before, after) ↔
      input = before ++ mark :: after ∧ mark ∉ before := by
  induction input generalizing before with
  | nil => simp [cut?]
  | cons b rest ih =>
      rw [cut?_cons]
      by_cases h : b = mark
      · cases before <;> simp_all [eq_comm]
      · rw [if_neg h, Option.map_eq_some_iff]
        constructor
        · rintro ⟨⟨first, last⟩, hcut, hparts⟩
          obtain ⟨rfl, rfl⟩ := Prod.mk.inj hparts
          obtain ⟨rfl, hfree⟩ := ih.mp hcut
          exact ⟨rfl, by simp [hfree, Ne.symm h]⟩
        · rintro ⟨hsplit, hfree⟩
          cases before with
          | nil => exact absurd (List.cons.inj hsplit).1 h
          | cons c before =>
              obtain ⟨rfl, rfl⟩ := List.cons.inj hsplit
              exact ⟨(before, after),
                ih.mpr ⟨rfl, fun hm => hfree (List.mem_cons_of_mem _ hm)⟩, rfl⟩

theorem cut?_length {mark : UInt8} {input before after : Bytes}
    (h : cut? mark input = some (before, after)) :
    input.length = before.length + after.length + 1 := by
  rw [(cut?_eq_some_iff.mp h).1]
  simp
  omega

end Bytes

end Stomp
