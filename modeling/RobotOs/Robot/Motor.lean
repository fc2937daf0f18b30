import RobotOs.Lib.Saturating

/-!
# Motors and the motor command channel

`motor.rs` and `lib.rs` of the robot crate.  `motorSet` is the only way a duty
reaches a motor outside the panic handler; it returns the duties it applied, so
that a run of the system can be read as the list of them.  The direction pins
and the return codes are not modelled.
-/

namespace RobotOs.Robot

open Lib.Saturating

def MAX_MOTORS : Nat := 4

inductive MotorDir where
  | Forward
  | Backward
  | Brake
  | Coast
  deriving DecidableEq, Repr

structure Motor where
  pwmCh : UInt32
  dirPinA : UInt32
  dirPinB : UInt32
  direction : MotorDir
  speedPct : Nat
  initialized : Bool
  deriving DecidableEq, Repr

def Motor.new : Motor := ⟨0, 0, 0, .Coast, 0, false⟩

/-- The motor table and the panic flag that every driver consults. -/
structure Motors where
  panicked : Bool
  motors : Fin MAX_MOTORS → Motor

/-- A duty that `motor_set` wrote to the PWM channel of a motor. -/
structure Applied where
  motor : Fin MAX_MOTORS
  pwmCh : UInt32
  duty : Nat
  deriving DecidableEq, Repr

/-- `motor_init`.  It writes duty 0 itself, not through `motor_set`. -/
def motorInit (m : Motors) (id pwmCh dirA dirB : UInt32) : Motors :=
  if h : id.toNat < MAX_MOTORS then
    { m with motors := Function.update m.motors ⟨id.toNat, h⟩ ⟨pwmCh, dirA, dirB, .Coast, 0, true⟩ }
  else m

/-- `motor_set`: what it applied and the table after. -/
def motorSet (m : Motors) (id : UInt32) (dir : MotorDir) (speedPct : Nat) :
    List Applied × Motors :=
  if m.panicked then ([], m)
  else if h : id.toNat < MAX_MOTORS then
    let i : Fin MAX_MOTORS := ⟨id.toNat, h⟩
    if !(m.motors i).initialized then ([], m)
    else
      let speed := min speedPct 100
      let motor := { m.motors i with direction := dir, speedPct := speed }
      ([⟨i, motor.pwmCh, speed⟩], { m with motors := Function.update m.motors i motor })
  else ([], m)

/-- `motor_stop`. -/
def motorStop (m : Motors) (id : UInt32) : List Applied × Motors := motorSet m id .Coast 0

/-- `motor_set` on the left and then on the right wheel. -/
def motorSetBoth (m : Motors) (dirL dirR : MotorDir) (speedL speedR : Nat) :
    List Applied × Motors :=
  let (appliedL, m) := motorSet m 0 dirL speedL
  let (appliedR, m) := motorSet m 1 dirR speedR
  (appliedL ++ appliedR, m)

/-- `motor_stop` on both wheels. -/
def motorStopBoth (m : Motors) : List Applied × Motors := motorSetBoth m .Coast .Coast 0 0

/-- The direction and the magnitude of a signed speed, as the loop splits it. -/
def splitSpeed (speed : Int) : MotorDir × Nat :=
  if 0 ≤ speed then (.Forward, speed.natAbs) else (.Backward, speed.natAbs)

/-- A duty that `motor_set` applies is the one asked for, cut at 100. -/
theorem duty_of_mem_motorSet {m : Motors} {id : UInt32} {dir : MotorDir} {speedPct : Nat}
    {a : Applied} (h : a ∈ (motorSet m id dir speedPct).1) : a.duty = min speedPct 100 := by
  simp only [motorSet] at h
  split_ifs at h with hp hid hinit
  · simp at h
  · simp at h
  · have ha : a = ⟨⟨id.toNat, hid⟩, (m.motors ⟨id.toNat, hid⟩).pwmCh, min speedPct 100⟩ := by
      simpa using h
    rw [ha]
  · simp at h

/-- A duty that reaches the wheels is at most the larger of the two asked for. -/
theorem duty_le_of_mem_motorSetBoth {m : Motors} {dirL dirR : MotorDir} {speedL speedR : Nat}
    {a : Applied} (h : a ∈ (motorSetBoth m dirL dirR speedL speedR).1) :
    a.duty ≤ speedL ∨ a.duty ≤ speedR := by
  simp only [motorSetBoth, List.mem_append] at h
  rcases h with hl | hr
  · rw [duty_of_mem_motorSet hl]
    exact Or.inl (min_le_left _ _)
  · rw [duty_of_mem_motorSet hr]
    exact Or.inr (min_le_left _ _)

/-! ## The command channel -/

/-- A single-slot channel, `Channel<T>`: sequence number 0 means that nothing
was published. -/
structure Channel (α : Type) where
  val : α
  seq : Nat
  timestamp : UInt64

/-- `Channel::publish`. -/
def Channel.publish {α : Type} (c : Channel α) (val : α) (timestamp : UInt64) : Channel α :=
  ⟨val, c.seq + 1, timestamp⟩

/-- `Channel::age`: the largest `u64` when nothing was published. -/
def Channel.age {α : Type} (c : Channel α) (now : UInt64) : Nat :=
  if c.seq = 0 then 2 ^ 64 - 1 else now.toNat - c.timestamp.toNat

def Channel.isValid {α : Type} (c : Channel α) : Bool := 0 < c.seq

structure MotorCmd where
  speedL : Int
  speedR : Int
  deriving DecidableEq, Repr

/-- `motor_cmd_publish`. -/
def motorCmdPublish (c : Channel MotorCmd) (speedL speedR : Int) (now : UInt64) :
    Channel MotorCmd :=
  c.publish ⟨clamp (-100) 100 speedL, clamp (-100) 100 speedR⟩ now

/-- `motor_watchdog_fired`, for a timer of `freq` ticks a second. -/
def motorWatchdogFired (freq : Nat) (c : Channel MotorCmd) (now : UInt64) : Bool :=
  decide (freq / 2 ≤ c.age now)

end RobotOs.Robot
