import Mathlib.Tactic

/-!
# The graded degrade policy

`crates/degrade-policy/src/lib.rs`, and the global level of
`crates/ipc/src/cap.rs` that the policy is applied to.  The brain selects a
level, the capability table reads it at every dereference and the motor
envelope reads it at every command.
-/

namespace RobotOs.DegradePolicy

def DEGRADE_LEVEL_FULL : UInt8 := 0
def DEGRADE_LEVEL_CAUTIOUS : UInt8 := 1
def DEGRADE_LEVEL_SLOW : UInt8 := 2
def DEGRADE_LEVEL_CONTAINED : UInt8 := 3
def DEGRADE_LEVEL_MAX : UInt8 := DEGRADE_LEVEL_CONTAINED

def DEGRADE_SPEED_CAP_FULL_PCT : Int := 100
def DEGRADE_SPEED_CAP_CAUTIOUS_PCT : Int := 70
def DEGRADE_SPEED_CAP_SLOW_PCT : Int := 30
def DEGRADE_SPEED_CAP_CONTAINED_PCT : Int := 0

/-- `level_cap_pct`: the speed ceiling of a level.  An unknown level stops
the robot. -/
def levelCapPct (level : UInt8) : Int :=
  if level = DEGRADE_LEVEL_FULL then DEGRADE_SPEED_CAP_FULL_PCT
  else if level = DEGRADE_LEVEL_CAUTIOUS then DEGRADE_SPEED_CAP_CAUTIOUS_PCT
  else if level = DEGRADE_LEVEL_SLOW then DEGRADE_SPEED_CAP_SLOW_PCT
  else DEGRADE_SPEED_CAP_CONTAINED_PCT

/-- `degrade_level_set`: the level that is stored for a requested one. -/
def degradeLevelSet (level : UInt8) : UInt8 := min level DEGRADE_LEVEL_MAX

/-- `degraded_set`: the level that the armed/cleared shim stores. -/
def degradedSet (on : Bool) : UInt8 :=
  if on then degradeLevelSet DEGRADE_LEVEL_CONTAINED
  else degradeLevelSet DEGRADE_LEVEL_FULL

/-- `degraded_active`: whether full containment is in force. -/
def degradedActive (level : UInt8) : Bool := level == DEGRADE_LEVEL_CONTAINED

/-- A ceiling is a percentage. -/
theorem levelCapPct_range (level : UInt8) :
    0 ≤ levelCapPct level ∧ levelCapPct level ≤ 100 := by
  unfold levelCapPct
  split_ifs <;> decide

end RobotOs.DegradePolicy
