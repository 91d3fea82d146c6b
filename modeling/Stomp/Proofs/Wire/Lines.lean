import Mathlib.Data.List.Forall2
import Mathlib.Data.List.TakeWhile
import Stomp.Wire.RawFrame

/-!
# Lines

The lines of a head, said without a reader: each goes up to its line feed, and a
carriage return right before that is not part of it.  `readHeaders_eq_complete_iff`
and the lemmas beside it say what the readers make of them.
-/

namespace Stomp.Wire

open Bytes

namespace Reading

variable {α β : Type} {reading : Reading α} {b : β} {rest : Bytes} {cause : Malformed}

theorem map_eq_complete {f : α → β} :
    reading.map f = .complete b rest ↔ ∃ a, reading = .complete a rest ∧ f a = b := by
  cases reading <;> simp [Reading.map, and_comm]

theorem map_eq_malformed {f : α → β} :
    reading.map f = .malformed cause ↔ reading = .malformed cause := by
  cases reading <;> simp [Reading.map]

theorem bind_eq_complete {next : α → Bytes → Reading β} :
    reading.bind next = .complete b rest ↔
      ∃ a after, reading = .complete a after ∧ next a after = .complete b rest := by
  cases reading <;> simp [Reading.bind]

end Reading

/-! ## Lines -/

def IsLineEnd (eol : Bytes) : Prop := eol = [lf] ∨ eol = [cr, lf]

theorem afterEol?_eq_some_iff {input rest : Bytes} :
    afterEol? input = some rest ↔ ∃ eol, IsLineEnd eol ∧ input = eol ++ rest := by
  constructor
  · intro h
    unfold afterEol? at h
    split at h
    · obtain rfl := Option.some.inj h
      exact ⟨[lf], .inl rfl, rfl⟩
    · obtain rfl := Option.some.inj h
      exact ⟨[cr, lf], .inr rfl, rfl⟩
    · simp at h
  · rintro ⟨eol, rfl | rfl, rfl⟩
    · rfl
    · rfl

theorem afterEol?_of_not_isEol {b : UInt8} (hb : isEol b = false) (rest : Bytes) :
    afterEol? (b :: rest) = none := by
  simp only [isEol, Bool.or_eq_false_iff, beq_eq_false_iff_ne] at hb
  unfold afterEol?
  split <;> simp_all

theorem skipEol_eq_self {b : UInt8} (hb : isEol b = false) (rest : Bytes) :
    skipEol (b :: rest) = b :: rest := by
  rw [skipEol, afterEol?_of_not_isEol hb, Option.getD_none]

/-- The line end that stands before `rest`; nothing stands there only if `rest` starts with none. -/
def TakesEol (eol rest : Bytes) : Prop :=
  IsLineEnd eol ∨ eol = [] ∧ ¬ ∃ line more, IsLineEnd line ∧ rest = line ++ more

theorem skipEol_eq_iff {input rest : Bytes} :
    skipEol input = rest ↔ ∃ eol, input = eol ++ rest ∧ TakesEol eol rest := by
  cases h : afterEol? input with
  | some after =>
      rw [skipEol, h, Option.getD_some]
      obtain ⟨eol, heol, rfl⟩ := afterEol?_eq_some_iff.mp h
      constructor
      · rintro rfl
        exact ⟨eol, rfl, .inl heol⟩
      · rintro ⟨other, hinput, hother | ⟨rfl, hnone⟩⟩
        · exact Option.some.inj (h.symm.trans (afterEol?_eq_some_iff.mpr ⟨other, hother, hinput⟩))
        · exact absurd ⟨eol, after, heol, hinput.symm⟩ hnone
  | none =>
      have hnone : ¬ ∃ line more, IsLineEnd line ∧ input = line ++ more := by
        rintro ⟨line, more, hline⟩
        rw [afterEol?_eq_some_iff.mpr ⟨line, hline⟩] at h
        simp at h
      rw [skipEol, h, Option.getD_none]
      constructor
      · rintro rfl
        exact ⟨[], rfl, .inr ⟨rfl, hnone⟩⟩
      · rintro ⟨eol, hinput, heol | ⟨rfl, -⟩⟩
        · exact absurd ⟨eol, rest, heol, hinput⟩ hnone
        · exact hinput

theorem TakesEol.skipEol_eq_nil {eol rest : Bytes} (h : TakesEol eol rest) : skipEol eol = [] := by
  rcases h with heol | ⟨rfl, -⟩
  · rcases heol with rfl | rfl <;> rfl
  · rfl

theorem chomp_eq_self {line : Bytes} (h : line.getLast? ≠ some cr) : chomp line = line := by
  rw [chomp, if_neg h]

/-- A line and what it holds: all but its line feed and one carriage return before that. -/
structure IsLine (line content : Bytes) : Prop where
  lf_notMem : lf ∉ content
  ending : line = content ++ [cr, lf] ∨ line = content ++ [lf] ∧ content.getLast? ≠ some cr

theorem isLine_iff {line content : Bytes} :
    IsLine line content ↔ ∃ text, line = text ++ [lf] ∧ lf ∉ text ∧ chomp text = content := by
  constructor
  · rintro ⟨hlf, rfl | ⟨rfl, hcr⟩⟩
    · refine ⟨content ++ [cr], by simp, ?_, by simp [chomp]⟩
      simp only [List.mem_append, List.mem_singleton, not_or]
      exact ⟨hlf, by decide⟩
    · exact ⟨content, rfl, hlf, chomp_eq_self hcr⟩
  · rintro ⟨text, rfl, hlf, rfl⟩
    by_cases hcr : text.getLast? = some cr
    · obtain ⟨content, rfl⟩ := List.getLast?_eq_some_iff.mp hcr
      have hchomp : chomp (content ++ [cr]) = content := by simp [chomp]
      rw [hchomp]
      exact ⟨fun hmem => hlf (List.mem_append_left _ hmem), .inl (by simp)⟩
    · rw [chomp_eq_self hcr]
      exact ⟨hlf, .inr ⟨rfl, hcr⟩⟩

theorem IsLine.unique {line content rest line' content' rest' : Bytes} (h : IsLine line content)
    (h' : IsLine line' content') (hsame : line ++ rest = line' ++ rest') :
    line = line' ∧ content = content' ∧ rest = rest' := by
  obtain ⟨text, rfl, hlf, rfl⟩ := isLine_iff.mp h
  obtain ⟨text', rfl, hlf', rfl⟩ := isLine_iff.mp h'
  simp only [List.append_assoc, List.singleton_append] at hsame
  have hcut := cut?_eq_some_iff.mpr ⟨hsame, hlf'⟩
  rw [cut?_eq_some_iff.mpr ⟨rfl, hlf⟩] at hcut
  obtain ⟨rfl, rfl⟩ := Prod.mk.inj (Option.some.inj hcut)
  exact ⟨rfl, rfl, rfl⟩

theorem IsLine.mem_iff {line content : Bytes} (h : IsLine line content) {b : UInt8}
    (hcr : b ≠ cr) (hlf : b ≠ lf) : b ∈ line ↔ b ∈ content := by
  rcases h.ending with rfl | ⟨rfl, -⟩
  · simp [hcr, hlf]
  · simp [hlf]

theorem isLineEnd_iff {line : Bytes} : IsLineEnd line ↔ IsLine line [] := by
  constructor
  · rintro (rfl | rfl)
    · exact ⟨by simp, .inr ⟨rfl, by simp⟩⟩
    · exact ⟨by simp, .inl rfl⟩
  · rintro ⟨-, rfl | ⟨rfl, -⟩⟩
    · exact .inr rfl
    · exact .inl rfl

/-! ## Command lines -/

structure Opens (eols line command : Bytes) : Prop where
  eols : ∀ b ∈ eols, b = cr ∨ b = lf
  head_ne_cr : line.head? ≠ some cr
  head_ne_lf : line.head? ≠ some lf
  line : IsLine line command

theorem isEol_iff {b : UInt8} : isEol b = true ↔ b = cr ∨ b = lf := by
  simp [isEol, or_comm]

theorem Opens.command_ne_nil {eols line command : Bytes} (h : Opens eols line command) :
    command ≠ [] := by
  rintro rfl
  rcases isLineEnd_iff.mpr h.line with hend | hend
  · exact h.head_ne_lf (by rw [hend, List.head?_cons])
  · exact h.head_ne_cr (by rw [hend, List.head?_cons])

theorem Opens.dropWhile {eols line command : Bytes} (h : Opens eols line command) (rest : Bytes) :
    (eols ++ line ++ rest).dropWhile isEol = line ++ rest := by
  rw [List.append_assoc, List.dropWhile_append_of_pos fun b hb => isEol_iff.mpr (h.eols b hb)]
  obtain ⟨text, hline, -⟩ := isLine_iff.mp h.line
  cases hbytes : line with
  | nil => simp [hbytes] at hline
  | cons b more =>
      have hcr := h.head_ne_cr
      have hlf := h.head_ne_lf
      rw [hbytes, List.head?_cons, ne_eq, Option.some.injEq] at hcr hlf
      rw [List.cons_append, List.dropWhile_cons_of_neg (by simp [isEol, hcr, hlf])]

theorem opens_command {command : Bytes} (hne : command ≠ []) (hcr : command.head? ≠ some cr)
    (hlast : command.getLast? ≠ some cr) (hlf : lf ∉ command) :
    Opens [] (command ++ [lf]) command := by
  have hhead : (command ++ [lf]).head? = command.head? := List.head?_append_of_ne_nil _ hne
  exact
    { eols := by simp
      head_ne_cr := hhead ▸ hcr
      head_ne_lf := fun h => hlf (List.mem_of_head? (hhead ▸ h))
      line := isLine_iff.mpr ⟨command, rfl, hlf, chomp_eq_self hlast⟩ }

namespace RawFrame

theorem read_of_opens {eols line command : Bytes} (h : Opens eols line command) (rest : Bytes) :
    read (eols ++ line ++ rest) = readTail (eols ++ line ++ rest).length command rest := by
  obtain ⟨text, hline, hlf, hchomp⟩ := isLine_iff.mp h.line
  have hcut : cut? lf (line ++ rest) = some (text, rest) :=
    cut?_eq_some_iff.mpr ⟨by simp [hline], hlf⟩
  rw [read, h.dropWhile, hcut]
  simp only [hchomp, List.isEmpty_iff, if_neg h.command_ne_nil]

theorem opens_of_read {input : Bytes} (h : read input ≠ .incomplete) :
    ∃ eols line command rest, Opens eols line command ∧ input = eols ++ line ++ rest := by
  cases hcut : cut? lf (input.dropWhile isEol) with
  | none => simp [read, hcut] at h
  | some parts =>
      obtain ⟨hsplit, hlf⟩ := cut?_eq_some_iff.mp hcut
      have hinput := List.takeWhile_append_dropWhile (p := isEol) (l := input)
      have hhead : ∀ b, (parts.1 ++ [lf]).head? = some b → isEol b = false := by
        intro b hb
        have hfirst : (input.dropWhile isEol).head? = (parts.1 ++ [lf]).head? := by
          rw [hsplit]
          cases parts.1 <;> rfl
        simpa [hfirst, hb] using List.head?_dropWhile_not isEol input
      refine ⟨input.takeWhile isEol, parts.1 ++ [lf], chomp parts.1, parts.2, ?_, ?_⟩
      · exact
          { eols := fun b hb => isEol_iff.mp (List.mem_takeWhile_imp hb)
            head_ne_cr := fun hb => absurd (hhead _ hb) (by decide)
            head_ne_lf := fun hb => absurd (hhead _ hb) (by decide)
            line := isLine_iff.mpr ⟨parts.1, rfl, hlf, rfl⟩ }
      · rw [List.append_assoc, List.append_assoc, List.singleton_append, ← hsplit, hinput]

end RawFrame

/-! ## Header lines -/

structure IsHeaderLine (line : Bytes) (header : Bytes × Bytes) : Prop where
  line : IsLine line (header.1 ++ colon :: header.2)
  colon_notMem : colon ∉ header.1

/-- The halves of a line that goes up to its line feed and is cut at the colon between them. -/
structure WholeLine (key value : Bytes) : Prop where
  lf_notMem_key : lf ∉ key
  colon_notMem_key : colon ∉ key
  lf_notMem_value : lf ∉ value

/-- The halves of a line that comes back as it was written. -/
structure LineSafe (key value : Bytes) : Prop where
  lf_notMem_key : lf ∉ key
  colon_notMem_key : colon ∉ key
  lf_notMem_value : lf ∉ value
  getLast_value_ne_cr : value.getLast? ≠ some cr

theorem LineSafe.wholeLine {key value : Bytes} (h : LineSafe key value) : WholeLine key value :=
  ⟨h.lf_notMem_key, h.colon_notMem_key, h.lf_notMem_value⟩

theorem WholeLine.lineSafe {key value : Bytes} (h : WholeLine key value)
    (hlast : value.getLast? ≠ some cr) : LineSafe key value :=
  ⟨h.lf_notMem_key, h.colon_notMem_key, h.lf_notMem_value, hlast⟩

theorem IsHeaderLine.wholeLine {line : Bytes} {header : Bytes × Bytes}
    (h : IsHeaderLine line header) : WholeLine header.1 header.2 := by
  have hlf := h.line.lf_notMem
  simp only [List.mem_append, List.mem_cons, not_or] at hlf
  exact ⟨hlf.1, h.colon_notMem, hlf.2.2⟩

theorem WholeLine.chomp_line (key value : Bytes) :
    chomp (key ++ colon :: value) = key ++ colon :: chomp value := by
  have hcolon : ¬ colon = cr := by decide
  cases value with
  | nil => simp [chomp, hcolon]
  | cons b value =>
      have hlast : (key ++ colon :: b :: value).getLast? = (b :: value).getLast? := by
        rw [List.getLast?_append, List.getLast?_cons_cons, List.getLast?_cons, Option.some_or]
      unfold chomp
      rw [hlast]
      split
      · simp [List.dropLast_append_of_ne_nil]
      · rfl

theorem WholeLine.isHeaderLine {key value : Bytes} (h : WholeLine key value) :
    IsHeaderLine (key ++ colon :: value ++ [lf]) (key, chomp value) := by
  refine ⟨isLine_iff.mpr ⟨key ++ colon :: value, rfl, ?_, chomp_line key value⟩,
    h.colon_notMem_key⟩
  simp only [List.mem_append, List.mem_cons, not_or]
  exact ⟨h.lf_notMem_key, by decide, h.lf_notMem_value⟩

theorem exists_left_of_mem {α β : Type} {R : α → β → Prop} {as : List α} {bs : List β}
    (h : List.Forall₂ R as bs) {b : β} (hb : b ∈ bs) : ∃ a ∈ as, R a b := by
  induction h with
  | nil => simp at hb
  | @cons a other as bs hab _ ih =>
      rcases List.mem_cons.mp hb with rfl | hb
      · exact ⟨a, List.mem_cons_self, hab⟩
      · obtain ⟨found, hfound, hother⟩ := ih hb
        exact ⟨found, List.mem_cons_of_mem _ hfound, hother⟩

theorem afterEol?_of_isLine {line content : Bytes} (h : IsLine line content) (hne : content ≠ [])
    (rest : Bytes) : afterEol? (line ++ rest) = none := by
  cases heol : afterEol? (line ++ rest) with
  | none => rfl
  | some after =>
      obtain ⟨eol, hend, hsame⟩ := afterEol?_eq_some_iff.mp heol
      obtain ⟨-, hcontent, -⟩ := h.unique (isLineEnd_iff.mp hend) hsame
      exact absurd hcontent hne

theorem readHeaders_lineEnd {blank : Bytes} (h : IsLineEnd blank) (rest : Bytes) :
    readHeaders (blank ++ rest) = .complete [] rest := by
  rw [readHeaders_eq, afterEol?_eq_some_iff.mpr ⟨blank, h, rfl⟩]

theorem readHeaders_line {line content : Bytes} (h : IsLine line content) (hne : content ≠ [])
    (rest : Bytes) :
    readHeaders (line ++ rest) =
      match cut? colon content with
      | none => .malformed (.noColon content)
      | some header => (readHeaders rest).map (header :: ·) := by
  obtain ⟨text, hline, hlf, hchomp⟩ := isLine_iff.mp h
  have hcut : cut? lf (line ++ rest) = some (text, rest) :=
    cut?_eq_some_iff.mpr ⟨by simp [hline], hlf⟩
  rw [readHeaders_eq, afterEol?_of_isLine h hne, hcut]
  cases hcolon : cut? colon content with
  | none => simp only [hchomp, hcolon]
  | some header => simp only [hchomp, hcolon]

theorem readHeaders_headerLine {line : Bytes} {header : Bytes × Bytes}
    (h : IsHeaderLine line header) (rest : Bytes) :
    readHeaders (line ++ rest) = (readHeaders rest).map (header :: ·) := by
  rw [readHeaders_line h.line (by simp), cut?_eq_some_iff.mpr ⟨rfl, h.colon_notMem⟩]

theorem readHeaders_eq_complete_iff {input rest : Bytes} {headers : List (Bytes × Bytes)} :
    readHeaders input = .complete headers rest ↔
      ∃ lines blank, input = lines.flatten ++ blank ++ rest ∧
        List.Forall₂ IsHeaderLine lines headers ∧ IsLineEnd blank := by
  constructor
  · intro h
    fun_induction readHeaders input generalizing headers rest with
    | case1 input after heol =>
        obtain ⟨rfl, rfl⟩ := Reading.complete.inj h
        obtain ⟨blank, hblank, rfl⟩ := afterEol?_eq_some_iff.mp heol
        exact ⟨[], blank, rfl, .nil, hblank⟩
    | case2 => simp at h
    | case3 => simp at h
    | case4 input heol text after hcut header hcolon ih =>
        obtain ⟨more, hmore, rfl⟩ := Reading.map_eq_complete.mp h
        obtain ⟨lines, blank, rfl, hlines, hblank⟩ := ih hmore
        obtain ⟨rfl, hlf⟩ := cut?_eq_some_iff.mp hcut
        obtain ⟨hchomp, hkey⟩ := cut?_eq_some_iff.mp hcolon
        have hline : IsHeaderLine (text ++ [lf]) header :=
          ⟨isLine_iff.mpr ⟨text, rfl, hlf, hchomp⟩, hkey⟩
        exact ⟨(text ++ [lf]) :: lines, blank, by simp, .cons hline hlines, hblank⟩
  · rintro ⟨lines, blank, rfl, hlines, hblank⟩
    induction hlines with
    | nil => exact readHeaders_lineEnd hblank rest
    | @cons line header lines headers hline _ ih =>
        rw [List.flatten_cons, List.append_assoc, List.append_assoc, readHeaders_headerLine hline,
          ← List.append_assoc, ih]
        rfl

def lines (raws : List (Bytes × Bytes)) : Bytes :=
  raws.flatMap fun raw => raw.1 ++ colon :: raw.2 ++ [lf]

theorem readHeaders_wholeLines {raws : List (Bytes × Bytes)}
    (h : ∀ raw ∈ raws, WholeLine raw.1 raw.2) (rest : Bytes) :
    readHeaders (lines raws ++ lf :: rest) =
      .complete (raws.map fun raw => (raw.1, chomp raw.2)) rest := by
  refine readHeaders_eq_complete_iff.mpr
    ⟨raws.map fun raw => raw.1 ++ colon :: raw.2 ++ [lf], [lf], ?_, ?_, .inl rfl⟩
  · rw [lines, List.flatMap_def, List.append_assoc, List.singleton_append]
  · rw [List.forall₂_map_left_iff, List.forall₂_map_right_iff, List.forall₂_same]
    exact fun raw hraw => (h raw hraw).isHeaderLine

structure LacksColon (lines : List Bytes) : Prop where
  complete : ∀ line ∈ lines, ∃ content, IsLine line content
  not_isLineEnd : ∀ line ∈ lines, ¬ IsLineEnd line
  colon_notMem : ∃ line ∈ lines, colon ∉ line

theorem LacksColon.cons {line : Bytes} {lines : List Bytes} (h : LacksColon lines)
    (hline : ∃ content, IsLine line content) (hend : ¬ IsLineEnd line) :
    LacksColon (line :: lines) where
  complete := List.forall_mem_cons.mpr ⟨hline, h.complete⟩
  not_isLineEnd := List.forall_mem_cons.mpr ⟨hend, h.not_isLineEnd⟩
  colon_notMem :=
    let ⟨other, hother, hcolon⟩ := h.colon_notMem
    ⟨other, List.mem_cons_of_mem _ hother, hcolon⟩

theorem not_isLineEnd_of_afterEol? {text after : Bytes}
    (h : afterEol? (text ++ lf :: after) = none) : ¬ IsLineEnd (text ++ [lf]) := by
  intro hend
  rw [afterEol?_eq_some_iff.mpr ⟨text ++ [lf], hend, List.append_cons text lf after⟩] at h
  simp at h

theorem exists_lacksColon_of_readHeaders {input : Bytes} {cause : Malformed}
    (h : readHeaders input = .malformed cause) :
    ∃ lines rest, input = lines.flatten ++ rest ∧ LacksColon lines := by
  fun_induction readHeaders input with
  | case1 => simp at h
  | case2 => simp at h
  | case3 input heol text after hcut hcolon =>
      obtain ⟨rfl, hlf⟩ := cut?_eq_some_iff.mp hcut
      have hline : IsLine (text ++ [lf]) (chomp text) := isLine_iff.mpr ⟨text, rfl, hlf, rfl⟩
      have hnone : colon ∉ text ++ [lf] :=
        mt (hline.mem_iff (by decide) (by decide)).mp (cut?_eq_none_iff.mp hcolon)
      refine ⟨[text ++ [lf]], after, by simp, ?_⟩
      exact
        { complete := List.forall_mem_singleton.mpr ⟨_, hline⟩
          not_isLineEnd := List.forall_mem_singleton.mpr (not_isLineEnd_of_afterEol? heol)
          colon_notMem := ⟨_, List.mem_singleton_self _, hnone⟩ }
  | case4 input heol text after hcut header hcolon ih =>
      obtain ⟨rfl, hlf⟩ := cut?_eq_some_iff.mp hcut
      obtain ⟨lines, rest, rfl, hlacks⟩ := ih (Reading.map_eq_malformed.mp h)
      have hline : IsLine (text ++ [lf]) (chomp text) := isLine_iff.mpr ⟨text, rfl, hlf, rfl⟩
      exact ⟨(text ++ [lf]) :: lines, rest, by simp,
        hlacks.cons ⟨_, hline⟩ (not_isLineEnd_of_afterEol? heol)⟩

theorem LacksColon.readHeaders {lines : List Bytes} (h : LacksColon lines) (rest : Bytes) :
    ∃ cause, readHeaders (lines.flatten ++ rest) = .malformed cause := by
  induction lines with
  | nil => simpa using h.colon_notMem
  | cons line lines ih =>
      obtain ⟨content, hline⟩ := h.complete line List.mem_cons_self
      have hne : content ≠ [] := by
        rintro rfl
        exact h.not_isLineEnd line List.mem_cons_self (isLineEnd_iff.mpr hline)
      rw [List.flatten_cons, List.append_assoc, readHeaders_line hline hne]
      cases hcut : cut? colon content with
      | none => exact ⟨_, rfl⟩
      | some header =>
          have hcolon : colon ∈ line := by
            rw [hline.mem_iff (by decide) (by decide), (cut?_eq_some_iff.mp hcut).1]
            simp
          obtain ⟨other, hother, hnone⟩ := h.colon_notMem
          have hlater : other ∈ lines :=
            (List.mem_cons.mp hother).resolve_left fun hsame => hnone (hsame ▸ hcolon)
          obtain ⟨cause, hcause⟩ := ih
            { complete := fun l hl => h.complete l (List.mem_cons_of_mem _ hl)
              not_isLineEnd := fun l hl => h.not_isLineEnd l (List.mem_cons_of_mem _ hl)
              colon_notMem := ⟨other, hlater, hnone⟩ }
          exact ⟨cause, Reading.map_eq_malformed.mpr hcause⟩

end Stomp.Wire
