import Mathlib.Tactic

/-!
# Positional numerals

Digit lists in a base, most significant digit first.  `fixedDigits` has a fixed
width, `shortDigits` has no leading zero, and `ofDigits` is the value.  The two
round trips are `ofDigits_fixedDigits` and `ofDigits_shortDigits`.

A reader of a bounded word may clamp after each digit.  `foldl_clampDigit` says
that this is the value, clamped once.
-/

namespace RobotOs.Lib.Radix

/-- The value of a digit list. -/
def ofDigits (base : Nat) (digits : List Nat) : Nat :=
  digits.foldl (fun value digit => value * base + digit) 0

/-- The low `width` digits of `n`. -/
def fixedDigits (base : Nat) : Nat → Nat → List Nat
  | 0, _ => []
  | width + 1, n => fixedDigits base width (n / base) ++ [n % base]

/-- The digits of `n` without leading zeros, at most `width` of them. -/
def shortDigits (base : Nat) : Nat → Nat → List Nat
  | 0, _ => []
  | width + 1, n => if n = 0 then [] else shortDigits base width (n / base) ++ [n % base]

theorem ofDigits_append_singleton (base : Nat) (digits : List Nat) (digit : Nat) :
    ofDigits base (digits ++ [digit]) = ofDigits base digits * base + digit := by
  simp [ofDigits]

@[simp] theorem length_fixedDigits (base width n : Nat) :
    (fixedDigits base width n).length = width := by
  induction width generalizing n with
  | zero => rfl
  | succ width ih => simp [fixedDigits, ih]

theorem length_shortDigits_le (base width n : Nat) :
    (shortDigits base width n).length ≤ width := by
  induction width generalizing n with
  | zero => exact le_refl 0
  | succ width ih =>
    unfold shortDigits
    split_ifs
    · exact Nat.zero_le _
    · simpa using ih (n / base)

section Values

variable {base : Nat}

theorem lt_of_mem_fixedDigits (hbase : 0 < base) {width n digit : Nat}
    (h : digit ∈ fixedDigits base width n) : digit < base := by
  induction width generalizing n with
  | zero => simp [fixedDigits] at h
  | succ width ih =>
    rcases List.mem_append.mp h with h | h
    · exact ih h
    · rw [List.mem_singleton.mp h]
      exact Nat.mod_lt _ hbase

theorem lt_of_mem_shortDigits (hbase : 0 < base) {width n digit : Nat}
    (h : digit ∈ shortDigits base width n) : digit < base := by
  induction width generalizing n with
  | zero => simp [shortDigits] at h
  | succ width ih =>
    unfold shortDigits at h
    split_ifs at h
    · simp at h
    · rcases List.mem_append.mp h with h | h
      · exact ih h
      · rw [List.mem_singleton.mp h]
        exact Nat.mod_lt _ hbase

/-- Dropping the last digit leaves a number with one digit less. -/
theorem div_lt_pow {width n : Nat} (h : n < base ^ (width + 1)) : n / base < base ^ width := by
  apply Nat.div_lt_of_lt_mul
  rwa [pow_succ, Nat.mul_comm] at h

theorem ofDigits_fixedDigits {width n : Nat} (h : n < base ^ width) :
    ofDigits base (fixedDigits base width n) = n := by
  induction width generalizing n with
  | zero =>
    have hn : n = 0 := by simpa using h
    simp [hn, fixedDigits, ofDigits]
  | succ width ih =>
    rw [fixedDigits, ofDigits_append_singleton, ih (div_lt_pow h), Nat.mul_comm]
    exact Nat.div_add_mod n base

theorem ofDigits_shortDigits {width n : Nat} (h : n < base ^ width) :
    ofDigits base (shortDigits base width n) = n := by
  induction width generalizing n with
  | zero =>
    have hn : n = 0 := by simpa using h
    simp [hn, shortDigits, ofDigits]
  | succ width ih =>
    unfold shortDigits
    split_ifs with hn
    · simp [hn, ofDigits]
    · rw [ofDigits_append_singleton, ih (div_lt_pow h), Nat.mul_comm]
      exact Nat.div_add_mod n base

end Values

/-- One digit more, clamped after the product and after the sum. -/
def clampDigit (base limit value digit : Nat) : Nat :=
  min (min (value * base) limit + digit) limit

/-- Clamping after each digit clamps the value. -/
theorem foldl_clampDigit {base : Nat} (hbase : 0 < base) (limit : Nat) (digits : List Nat) :
    digits.foldl (clampDigit base limit) 0 = min (ofDigits base digits) limit := by
  induction digits using List.reverseRecOn with
  | nil => simp [ofDigits]
  | append_singleton digits digit ih =>
    rw [List.foldl_append, ih, ofDigits_append_singleton]
    simp only [List.foldl_cons, List.foldl_nil, clampDigit]
    generalize ofDigits base digits = value
    rcases Nat.le_total value limit with hle | hle
    · rw [Nat.min_eq_left hle]
      omega
    · have hlimit : limit ≤ limit * base := Nat.le_mul_of_pos_right _ hbase
      have hvalue : limit ≤ value * base := le_trans hle (Nat.le_mul_of_pos_right _ hbase)
      rw [Nat.min_eq_right hle]
      omega

end RobotOs.Lib.Radix
