import Mathlib.Tactic

/-!
# Search for a line

A text is a list over any alphabet with one symbol that ends a line.
`findLine` is the position of the first line that starts with a pattern.

The search is stable under extension: a line that is found in a text is found
at the same place in every text that starts with it (`findLine_append`).  So
what a reader finds in a cut-off text it also finds in the whole one.
`findLine_lines` passes over whole lines that do not match.
-/

namespace RobotOs.Lib.Lines

section Join

variable {α : Type} (nl : α)

/-- The text that consists of some lines. -/
def joinLines (lines : List (List α)) : List α := (lines.map (· ++ [nl])).flatten

@[simp] theorem joinLines_nil : joinLines nl [] = [] := rfl

@[simp] theorem joinLines_cons (line : List α) (lines : List (List α)) :
    joinLines nl (line :: lines) = line ++ nl :: joinLines nl lines := by
  simp [joinLines]

end Join

variable {α : Type} [DecidableEq α] (nl : α) (pat : List α)

/-- The position of the first line that starts with the pattern.  The flag says
whether the text begins at the start of a line. -/
def findLine : Bool → List α → Option Nat
  | _, [] => none
  | atStart, x :: xs =>
    if atStart && pat.isPrefixOf (x :: xs) then some 0
    else (findLine (x == nl) xs).map (· + 1)

/-- The pattern stands at the position that is found. -/
theorem prefix_of_findLine {atStart : Bool} {text : List α} {k : Nat}
    (h : findLine nl pat atStart text = some k) : pat <+: text.drop k := by
  induction text generalizing atStart k with
  | nil => simp [findLine] at h
  | cons x xs ih =>
    unfold findLine at h
    split_ifs at h with hhere
    · obtain rfl := Option.some.inj h
      exact List.isPrefixOf_iff_prefix.mp (Bool.and_eq_true_iff.mp hhere).2
    · obtain ⟨j, hj, rfl⟩ := Option.map_eq_some_iff.mp h
      exact ih hj

/-- A line that is found in a text is found in every longer text. -/
theorem findLine_append {atStart : Bool} {text : List α} {k : Nat}
    (h : findLine nl pat atStart text = some k) (rest : List α) :
    findLine nl pat atStart (text ++ rest) = some k := by
  induction text generalizing atStart k with
  | nil => simp [findLine] at h
  | cons x xs ih =>
    rw [List.cons_append]
    unfold findLine at h ⊢
    split_ifs at h with hhere
    · obtain ⟨hstart, hpat⟩ := Bool.and_eq_true_iff.mp hhere
      have hlong : pat <+: x :: (xs ++ rest) :=
        (List.isPrefixOf_iff_prefix.mp hpat).trans (List.prefix_append (x :: xs) rest)
      rw [if_pos (by simp [hstart, List.isPrefixOf_iff_prefix.mpr hlong])]
      exact h
    · obtain ⟨j, hj, rfl⟩ := Option.map_eq_some_iff.mp h
      rw [ih hj, if_neg]
      · rfl
      · -- The match further on is long enough to decide the one here.
        intro hlong
        obtain ⟨hstart, hpat⟩ := Bool.and_eq_true_iff.mp hlong
        have hlen : pat.length ≤ (x :: xs).length :=
          le_trans (prefix_of_findLine nl pat hj).length_le (by simp; omega)
        have hshort : pat <+: x :: xs := List.prefix_of_prefix_length_le
          (List.isPrefixOf_iff_prefix.mp hpat) (List.prefix_append (x :: xs) rest) hlen
        exact hhere (by simp [hstart, List.isPrefixOf_iff_prefix.mpr hshort])

variable {nl pat}

/-- Inside a line nothing is found. -/
theorem findLine_inside {line : List α} (hline : nl ∉ line) (rest : List α) :
    findLine nl pat false (line ++ nl :: rest) =
      (findLine nl pat true rest).map (· + (line.length + 1)) := by
  induction line with
  | nil => simp [findLine]
  | cons x xs ih =>
    rw [List.mem_cons, not_or] at hline
    have hne : (x == nl) = false := by simpa using Ne.symm hline.1
    rw [List.cons_append, findLine, hne, ih hline.2]
    simp only [Bool.false_and, Bool.false_eq_true, if_false, Option.map_map]
    congr 1

/-- A line that does not start with the pattern is passed over. -/
theorem findLine_line (hpat : nl ∉ pat) {line : List α} (hline : nl ∉ line)
    (hno : ¬ pat <+: line) (rest : List α) :
    findLine nl pat true (line ++ nl :: rest) =
      (findLine nl pat true rest).map (· + (line.length + 1)) := by
  have hskip : ¬ pat <+: line ++ nl :: rest := by
    intro h
    have hline' : line ++ [nl] <+: line ++ nl :: rest := ⟨rest, by simp⟩
    rcases List.prefix_or_prefix_of_prefix h hline' with h | h
    · rcases List.prefix_concat_iff.mp h with h | h
      · exact hpat (by simp [h])
      · exact hno h
    · exact hpat (h.subset (by simp))
  have hinside : findLine nl pat false (line ++ nl :: rest) = _ := findLine_inside hline rest
  cases line with
  | nil =>
    rw [List.nil_append, findLine, if_neg (by simpa using hskip)]
    simp
  | cons x xs =>
    rw [List.cons_append] at hskip hinside ⊢
    rw [findLine, if_neg (by simpa using hskip)]
    rw [findLine] at hinside
    simpa using hinside

/-- Lines that do not start with the pattern are passed over. -/
theorem findLine_lines (hpat : nl ∉ pat) {lines : List (List α)}
    (hlines : ∀ line ∈ lines, nl ∉ line ∧ ¬ pat <+: line) (rest : List α) :
    findLine nl pat true (joinLines nl lines ++ rest) =
      (findLine nl pat true rest).map (· + (joinLines nl lines).length) := by
  induction lines with
  | nil => simp
  | cons line lines ih =>
    obtain ⟨hline, hno⟩ := hlines line List.mem_cons_self
    rw [joinLines_cons, List.append_assoc, List.cons_append, findLine_line hpat hline hno,
      ih fun l hl => hlines l (List.mem_cons_of_mem _ hl), Option.map_map]
    congr 1
    funext k
    simp only [Function.comp_apply, List.length_append, List.length_cons]
    omega

/-- The pattern at the start of a line is found. -/
theorem findLine_here (hpat : pat ≠ []) (rest : List α) :
    findLine nl pat true (pat ++ rest) = some 0 := by
  cases pat with
  | nil => exact absurd rfl hpat
  | cons x xs =>
    rw [List.cons_append, findLine, if_pos (by simp)]

end RobotOs.Lib.Lines
