import RobotOs.Lib.Saturating

/-!
# The motor velocity controller

`motor_pid.rs` of the drivers crate: one fixed-point PID controller for each
side of the drive, the two target speeds, and the encoder baseline from which
the velocity is measured.  All products and sums saturate at 64 bits, divisions
truncate towards zero.

The result that the motor loop needs is `motorPidTick_mem`: whatever the gains,
the readings and the times, the output lies between `PID_OUTPUT_MIN` and
`PID_OUTPUT_MAX`.  It says nothing tighter; the controller does not know the
envelope.
-/

namespace RobotOs.Drivers

open Lib.Saturating

def DEFAULT_KP : Int := 1
def DEFAULT_KI : Int := 0
def DEFAULT_KD : Int := 0
def PID_OUTPUT_MIN : Int := -100
def PID_OUTPUT_MAX : Int := 100
def PID_DT_MS : Nat := 10
def INTEGRAL_WINDUP_LIMIT : Int := 10000
def ERROR_LIMIT : Int := 1000000
def FIXED_SCALE : Int := 65536

/-! ## One controller -/

/-- `PidController`.  The fields are private and every controller comes from
`new`, so the output limits are the two constants. -/
structure PidController where
  kp : Int
  ki : Int
  kd : Int
  integral : Int
  prevError : Int
  outputMin : Int
  outputMax : Int
  limits : outputMin = PID_OUTPUT_MIN ∧ outputMax = PID_OUTPUT_MAX

namespace PidController

/-- `PidController::new`. -/
def new (kp ki kd : Int) : PidController where
  kp := kp * FIXED_SCALE
  ki := ki * FIXED_SCALE
  kd := kd * FIXED_SCALE
  integral := 0
  prevError := 0
  outputMin := PID_OUTPUT_MIN
  outputMax := PID_OUTPUT_MAX
  limits := ⟨rfl, rfl⟩

/-- `PidController::update`. -/
def update (c : PidController) (setpoint measurement : Int) (dtMs : Nat) : Int × PidController :=
  if dtMs = 0 then (0, c)
  else
    let error := clamp (-ERROR_LIMIT) ERROR_LIMIT (setpoint - measurement)
    let p := (satI64 (c.kp * error)).tdiv FIXED_SCALE
    let iStep := (satI64 (satI64 (c.ki * error) * dtMs)).tdiv (FIXED_SCALE * 1000)
    let windupLimit := INTEGRAL_WINDUP_LIMIT * FIXED_SCALE
    let integral := clamp (-windupLimit) windupLimit (satI64 (c.integral + iStep))
    let i := integral.tdiv FIXED_SCALE
    let de := error - c.prevError
    let d := ((satI64 (satI64 (c.kd * de) * 1000)).tdiv (FIXED_SCALE * dtMs)).tdiv FIXED_SCALE
    let output := satI64 (satI64 (p + i) + d)
    (clamp c.outputMin c.outputMax output, { c with integral := integral, prevError := error })

/-- `PidController::reset`. -/
def reset (c : PidController) : PidController := { c with integral := 0, prevError := 0 }

/-- The output keeps to the limits, whatever the gains and the inputs. -/
theorem update_mem (c : PidController) (setpoint measurement : Int) (dtMs : Nat) :
    PID_OUTPUT_MIN ≤ (c.update setpoint measurement dtMs).1 ∧
      (c.update setpoint measurement dtMs).1 ≤ PID_OUTPUT_MAX := by
  obtain ⟨hmin, hmax⟩ := c.limits
  have hle : PID_OUTPUT_MIN ≤ PID_OUTPUT_MAX := by decide
  unfold update
  split
  · show PID_OUTPUT_MIN ≤ 0 ∧ 0 ≤ PID_OUTPUT_MAX
    decide
  · simp only [hmin, hmax]
    exact ⟨le_clamp hle _, clamp_le hle _⟩

end PidController

/-! ## The two channels -/

/-- The encoder baseline; time 0 means that there is none yet. -/
structure TickState where
  prevTicksL : Int
  prevTicksR : Int
  prevTime : UInt64

/-- The statics of the module. -/
structure MotorPid where
  targetL : Int16
  targetR : Int16
  enabled : Bool
  left : PidController
  right : PidController
  ticks : TickState

def TickState.new : TickState := ⟨0, 0, 0⟩

/-- `motor_pid_set_target`. -/
def motorPidSetTarget (m : MotorPid) (speedL speedR : Int16) : MotorPid :=
  { m with targetL := speedL, targetR := speedR }

/-- `motor_pid_enable`: turning the loop on clears the controllers. -/
def motorPidEnable (m : MotorPid) (en : Bool) : MotorPid :=
  if en && !m.enabled then
    { m with
      left := m.left.reset, right := m.right.reset, ticks := { m.ticks with prevTime := 0 },
      enabled := en }
  else { m with enabled := en }

/-- `motor_pid_set_gains`. -/
def motorPidSetGains (m : MotorPid) (kp ki kd : Int) : MotorPid :=
  { m with left := .new kp ki kd, right := .new kp ki kd }

/-- `motor_pid_reset`. -/
def motorPidReset (m : MotorPid) : MotorPid :=
  { m with
    left := m.left.reset, right := m.right.reset, targetL := 0, targetR := 0, ticks := .new }

/-- The time since the baseline in milliseconds, for a timer of `freq` ticks a
second. -/
def elapsedMs (freq : Nat) (prevTime now : UInt64) : Nat :=
  if 0 < freq then min (min ((now - prevTime).toNat * 1000) (2 ^ 64 - 1) / freq) (2 ^ 32 - 1)
  else PID_DT_MS

/-- A velocity in ticks a second, saturated to 32 bits. -/
def velocity (ticks prevTicks : Int) (dtMs : Nat) : Int :=
  clamp (-2 ^ 31) (2 ^ 31 - 1) ((satI64 (satI64 (ticks - prevTicks) * 1000)).tdiv dtMs)

/-- `motor_pid_tick`: the two outputs and the state after. -/
def motorPidTick (freq : Nat) (m : MotorPid) (ticksL ticksR : Int) (now : UInt64) :
    (Int × Int) × MotorPid :=
  if !m.enabled then ((0, 0), m)
  else if m.ticks.prevTime = 0 then ((0, 0), { m with ticks := ⟨ticksL, ticksR, now⟩ })
  else
    let dtMs := elapsedMs freq m.ticks.prevTime now
    if dtMs = 0 then ((0, 0), m)
    else
      let velL := velocity ticksL m.ticks.prevTicksL dtMs
      let velR := velocity ticksR m.ticks.prevTicksR dtMs
      let (pwmL, left) := m.left.update m.targetL.toInt velL dtMs
      let (pwmR, right) := m.right.update m.targetR.toInt velR dtMs
      ((pwmL, pwmR), { m with left := left, right := right, ticks := ⟨ticksL, ticksR, now⟩ })

/-- Both outputs of a tick are a duty of at most 100 per cent either way. -/
theorem motorPidTick_mem (freq : Nat) (m : MotorPid) (ticksL ticksR : Int) (now : UInt64) :
    ((motorPidTick freq m ticksL ticksR now).1.1.natAbs : Int) ≤ PID_OUTPUT_MAX ∧
      ((motorPidTick freq m ticksL ticksR now).1.2.natAbs : Int) ≤ PID_OUTPUT_MAX := by
  have habs : ∀ x : Int, PID_OUTPUT_MIN ≤ x ∧ x ≤ PID_OUTPUT_MAX →
      (x.natAbs : Int) ≤ PID_OUTPUT_MAX := by
    intro x hx
    simp only [PID_OUTPUT_MIN, PID_OUTPUT_MAX] at *
    omega
  have hzero := habs 0 (by decide)
  simp only [motorPidTick]
  split_ifs
  · exact ⟨hzero, hzero⟩
  · exact ⟨hzero, hzero⟩
  · exact ⟨hzero, hzero⟩
  · exact ⟨habs _ (PidController.update_mem _ _ _ _), habs _ (PidController.update_mem _ _ _ _)⟩

end RobotOs.Drivers
