import Mathlib.Tactic

/-!
# Clamping and saturating arithmetic

`clamp lo hi x` as Rust computes it, over any linear order, and the 64-bit
saturating operations built from it.
-/

namespace RobotOs.Lib.Saturating

section Clamp

variable {α : Type} [LinearOrder α]

/-- `x.clamp(lo, hi)`. -/
def clamp (lo hi x : α) : α := if x < lo then lo else if hi < x then hi else x

theorem clamp_le {lo hi : α} (h : lo ≤ hi) (x : α) : clamp lo hi x ≤ hi := by
  unfold clamp
  split_ifs with hlo hhi
  · exact h
  · exact le_refl hi
  · exact le_of_not_gt hhi

theorem le_clamp {lo hi : α} (h : lo ≤ hi) (x : α) : lo ≤ clamp lo hi x := by
  unfold clamp
  split_ifs with hlo hhi
  · exact le_refl lo
  · exact h
  · exact le_of_not_gt hlo

end Clamp

/-- The value of an `i64` that saturates instead of overflowing. -/
def satI64 (x : Int) : Int := clamp (-2 ^ 63) (2 ^ 63 - 1) x

/-- A clamp to a symmetric range bounds the magnitude. -/
theorem natAbs_clamp_le {cap : Int} (h : 0 ≤ cap) (x : Int) :
    ((clamp (-cap) cap x).natAbs : Int) ≤ cap := by
  have hlo := le_clamp (show -cap ≤ cap by omega) x
  have hhi := clamp_le (show -cap ≤ cap by omega) x
  omega

end RobotOs.Lib.Saturating
