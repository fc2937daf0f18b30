import RobotOs.DegradePolicy
import RobotOs.Lib.Saturating

/-!
# The motor envelope

The part of `safety.rs` of the behavior crate that stands between a motor
command and the motors: the ESTOP latch, the robot type, the confidence flag of
the last command and the degrade level, and `motor_envelope`, which clamps a
command to what they allow.
-/

namespace RobotOs.Behavior

open DegradePolicy Lib.Saturating

def ROBOT_TYPE_WHEELED : UInt8 := 0
def ROBOT_TYPE_DRONE : UInt8 := 1
def ROBOT_TYPE_HUMANOID : UInt8 := 2
def ROBOT_TYPE_ACKERMANN : UInt8 := 3
def SAFETY_WHEELED_MAX_SPEED_PCT : Int := 80
def SAFETY_LOW_CONFIDENCE_CAP_PCT : Int := 40

/-- The flags that the envelope reads. -/
structure Safety where
  estopActive : Bool
  robotType : UInt8
  lowConfidence : Bool
  degradeLevel : UInt8

/-- The speed cap in force, from the robot type, the confidence flag and the
degrade level. -/
def envelopeCap (s : Safety) : Int :=
  let typeCap :=
    if s.robotType = ROBOT_TYPE_WHEELED ∨ s.robotType = ROBOT_TYPE_ACKERMANN then
      SAFETY_WHEELED_MAX_SPEED_PCT
    else 100
  let confCap := if s.lowConfidence then min typeCap SAFETY_LOW_CONFIDENCE_CAP_PCT else typeCap
  min confCap (levelCapPct s.degradeLevel)

/-- `motor_envelope`. -/
def motorEnvelope (s : Safety) (speedL speedR : Int) : Int × Int :=
  if s.estopActive then (0, 0)
  else
    let cap := envelopeCap s
    (clamp (-cap) cap speedL, clamp (-cap) cap speedR)

theorem envelopeCap_nonneg (s : Safety) : 0 ≤ envelopeCap s := by
  have hlevel := (levelCapPct_range s.degradeLevel).1
  simp only [envelopeCap, SAFETY_WHEELED_MAX_SPEED_PCT, SAFETY_LOW_CONFIDENCE_CAP_PCT]
  split_ifs <;> omega

/-- What the envelope lets through is within the cap. -/
theorem natAbs_motorEnvelope_le (s : Safety) (speedL speedR : Int) :
    ((motorEnvelope s speedL speedR).1.natAbs : Int) ≤ envelopeCap s ∧
      ((motorEnvelope s speedL speedR).2.natAbs : Int) ≤ envelopeCap s := by
  have hcap := envelopeCap_nonneg s
  unfold motorEnvelope
  split
  · simpa using hcap
  · exact ⟨natAbs_clamp_le hcap speedL, natAbs_clamp_le hcap speedR⟩

/-- Under ESTOP the envelope lets nothing through. -/
theorem motorEnvelope_of_estop {s : Safety} (h : s.estopActive = true) (speedL speedR : Int) :
    motorEnvelope s speedL speedR = (0, 0) := by
  simp [motorEnvelope, h]

end RobotOs.Behavior
