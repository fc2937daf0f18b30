import RobotOs.Lib.Run
import RobotOs.Flight.Pid

/-!
# The flight loop

`flight_control_task` of the kernel with everything it reads and writes: the
four channels with their sequence numbers and timestamps, the receiver driver,
the armed flag and the flight mode, the failsafe chain, the controllers and the
speed controllers of the motors.  One iteration is `iterate`; it has no value
when an arithmetic check fires, which is the panic of the kernel.  Between two
iterations other tasks publish samples, feed the receiver driver and change the
mode.

Clock readings are `u64` values and sequence numbers are taken as unbounded.
-/

namespace RobotOs.Flight

open Lib.Checked

/-! ## Channels -/

/-- `Channel`: one slot with the number of publications and the time of the last. -/
structure Channel (α : Type) where
  val : α
  seq : Nat
  timestamp : Nat

namespace Channel

variable {α : Type}

/-- `Channel::new`. -/
def new (default : α) : Channel α := ⟨default, 0, 0⟩

/-- `Channel::publish`. -/
def publish (ch : Channel α) (val : α) (timestamp : Nat) : Channel α :=
  ⟨val, ch.seq + 1, timestamp⟩

/-- `Channel::age`: `u64::MAX` for a channel that was never published to. -/
def age (ch : Channel α) (now : Nat) : Nat :=
  if ch.seq = 0 then 2 ^ 64 - 1 else now - ch.timestamp

end Channel

/-- The timer of a board. -/
inductive Platform where
  | qemu
  | vf2
  | k1
deriving DecidableEq

/-- `TIMER_FREQ`. -/
def Platform.timerFreq : Platform → Nat
  | .qemu => 10000000
  | .vf2 => 4000000
  | .k1 => 24000000

/-- `ch.age(now) * 1_000_000 / TIMER_FREQ`. -/
def ageUs {α : Type} (p : Platform) (ch : Channel α) (now : Nat) : Option Nat := do
  let n ← checkedU 64 (ch.age now * 1000000)
  return n / p.timerFreq

/-! ## Samples -/

/-- `Attitude`; the loop reads the two angles. -/
structure Attitude where
  rollCdeg : Int
  pitchCdeg : Int
deriving DecidableEq

/-- `ImuData`; the loop reads the gyro. -/
structure ImuData where
  gyroMdps : Axis → Int

/-- `FlightTarget`. -/
structure FlightTarget where
  rollCdeg : Int
  pitchCdeg : Int
  yawRateMdps : Int
  throttle : UInt16
  altMm : Int
deriving DecidableEq

/-- `FlightTarget::new`. -/
def FlightTarget.new : FlightTarget := ⟨0, 0, 0, 0, 0⟩

/-- `RcInput`. -/
structure RcInput where
  channels : List UInt16
  rssi : Nat
  failsafe : Bool
deriving DecidableEq

namespace RcInput

/-- `RcInput::new`. -/
def new : RcInput := ⟨List.replicate 16 1500, 0, true⟩

/-- `channel_signed`. -/
def channelSigned (rc : RcInput) (ch : Nat) : Int :=
  if 16 ≤ ch then 0 else (rc.channels.getD ch 0).toNat - 1500

/-- `channel_unsigned`. -/
def channelUnsigned (rc : RcInput) (ch : Nat) : UInt16 :=
  if 16 ≤ ch then 0
  else
    let v := rc.channels.getD ch 0
    if v ≤ 1000 then 0 else if v ≥ 2000 then 1000 else v - 1000

end RcInput

def RC_CH_ROLL : Nat := 0
def RC_CH_PITCH : Nat := 1
def RC_CH_THROTTLE : Nat := 2
def RC_CH_YAW : Nat := 3

/-- `rc_to_target`. -/
def rcToTarget (rc : RcInput) : Option FlightTarget := do
  let roll ← checked 32 (rc.channelSigned RC_CH_ROLL * 9)
  let pitch ← checked 32 (rc.channelSigned RC_CH_PITCH * 9)
  let yaw ← checked 32 (rc.channelSigned RC_CH_YAW * 60)
  return ⟨roll, pitch, yaw, rc.channelUnsigned RC_CH_THROTTLE, 0⟩

/-! ## The receiver driver -/

/-- `RC_READY`, `RC_CHANNELS`, `RC_FAILSAFE` and `RC_LAST_UPDATE`. -/
structure RcDriver where
  ready : Bool
  channels : List UInt16
  failsafe : Bool
  lastUpdate : Nat
deriving DecidableEq

namespace RcDriver

/-- The statics before `rc_init`: neutral sticks, throttle and mode switch low. -/
def off : RcDriver where
  ready := false
  channels := [1500, 1500, 1000, 1500, 1000, 1500, 1500, 1500, 1500, 1500, 1500, 1500, 1500,
    1500, 1500, 1500]
  failsafe := true
  lastUpdate := 0

/-- `rc_init`. -/
def init (rc : RcDriver) (now : Nat) : RcDriver :=
  { rc with ready := true, failsafe := false, lastUpdate := now }

/-- `rc_set_channels`: a frame that is not flagged arrives. -/
def setChannels (rc : RcDriver) (channels : List UInt16) (now : Nat) : RcDriver :=
  { rc with channels := channels, failsafe := false, lastUpdate := now }

/-- `rc_set_failsafe`: the receiver flags its frames, or stops doing so. -/
def setFailsafe (rc : RcDriver) (fs : Bool) : RcDriver := { rc with failsafe := fs }

/-- `rc_read`: what arrived last, whenever that was. -/
def read (rc : RcDriver) : Option (List UInt16 × Bool) :=
  if rc.ready then some (rc.channels, rc.failsafe) else none

end RcDriver

/-! ## The speed controllers -/

def ESC_MAX_CH : Nat := 8

/-- `ESC_READY`, `ESC_ARMED`, `ESC_COUNT` and `ESC_THROTTLE`. -/
structure Esc where
  ready : Bool
  armed : Bool
  count : Nat
  throttle : List Nat
deriving DecidableEq

namespace Esc

/-- `esc_init`. -/
def init (count : Nat) : Esc := ⟨true, false, min ESC_MAX_CH count, List.replicate ESC_MAX_CH 0⟩

/-- The first `count` channels at zero, in `esc_arm` and `esc_disarm`. -/
def zeroed (esc : Esc) : List Nat :=
  List.replicate esc.count 0 ++ esc.throttle.drop esc.count

/-- `esc_arm`. -/
def arm (esc : Esc) : Esc :=
  if esc.ready then { esc with throttle := esc.zeroed, armed := true } else esc

/-- `esc_disarm`. -/
def disarm (esc : Esc) : Esc := { esc with throttle := esc.zeroed, armed := false }

/-- `esc_set_throttle` of a kernel that has not panicked. -/
def setThrottle (esc : Esc) (ch : Nat) (pct : Nat) : Esc :=
  if !esc.armed then esc
  else if ESC_MAX_CH ≤ ch then esc
  else { esc with throttle := esc.throttle.set ch (if pct > 1000 then 1000 else pct) }

/-- `esc_set_throttle(i, values[i])` for every `i`. -/
def setAll (esc : Esc) (values : List Int) : Esc :=
  values.zipIdx.foldl (fun e v => e.setThrottle v.2 v.1.toNat) esc

end Esc

/-! ## Modes and failsafes -/

/-- `FlightMode`. -/
inductive FlightMode where
  | disarmed
  | manual
  | stabilize
  | altHold
  | posHold
  | auto
  | rtl
  | land
deriving DecidableEq

/-- `FailsafeAction`. -/
inductive FailsafeAction where
  | none
  | posHold
  | rtl
  | land
  | disarm
deriving DecidableEq

/-- `check_failsafe`. -/
def checkFailsafe (attitudeAgeUs rcAgeUs serverAgeUs : Nat) : FailsafeAction :=
  if attitudeAgeUs > 50000 then .land
  else if rcAgeUs > 1000000 then .rtl
  else if serverAgeUs > 3000000 then .posHold
  else .none

/-! ## One iteration -/

/-- The locals of `flight_control_task` and the statics it uses. -/
structure FlightState where
  pid : FlightPid
  lastTime : Nat
  armed : Bool
  mode : FlightMode
  attitude : Channel Attitude
  imu : Channel ImuData
  rcInput : Channel RcInput
  target : Channel FlightTarget
  rc : RcDriver
  esc : Esc

namespace FlightState

/-- `flight_arm`. -/
def flightArm (s : FlightState) : FlightState :=
  { s with armed := true, mode := if s.mode = .disarmed then .stabilize else s.mode }

/-- `flight_disarm`. -/
def flightDisarm (s : FlightState) : FlightState := { s with armed := false, mode := .disarmed }

/-- The receiver is read and what it holds is published with the time of the loop. -/
def readRc (s : FlightState) (now : Nat) : FlightState :=
  match s.rc.read with
  | some (channels, failsafe) =>
    { s with rcInput :=
        s.rcInput.publish ⟨channels, if failsafe then 0 else 100, failsafe⟩ now }
  | none => s

/-- The mode after a failsafe that does not disarm. -/
def heed (s : FlightState) (action : FailsafeAction) : FlightState :=
  match action with
  | .land => if s.mode ≠ .land then { s with mode := .land } else s
  | .rtl => if s.mode ≠ .rtl ∧ s.mode ≠ .land then { s with mode := .rtl } else s
  | .posHold => if s.mode = .auto then { s with mode := .posHold } else s
  | .none => s
  | .disarm => s

/-- The target of RTL and Land: level, descend slowly. -/
def levelTarget (mode : FlightMode) : FlightTarget :=
  ⟨0, 0, 0, if mode = .land then 300 else 400, 0⟩

/-- Where the target comes from in each mode. -/
def flightTarget (s : FlightState) : Option FlightTarget :=
  match s.mode with
  | .manual | .stabilize | .altHold => rcToTarget s.rcInput.val
  | .auto | .posHold => some s.target.val
  | .rtl | .land => some (levelTarget s.mode)
  | .disarmed => some FlightTarget.new

/-- What the loop did. -/
inductive Outcome where
  | skipped
  | idle
  | disarmed
  | flew (target : FlightTarget) (roll pitch yaw : Int) (motors : List Int)
deriving DecidableEq

/-- The part after the failsafes: target, controllers, mixer, motors. -/
def fly (s : FlightState) (dtUs : Nat) : Option (Outcome × FlightState) := do
  let target ← s.flightTarget
  let att := s.attitude.val
  let imu := s.imu.val
  let rollError ← checked 32 (target.rollCdeg - att.rollCdeg)
  let (roll, pid) ← s.pid.updateAxis rollError (imu.gyroMdps .roll) .roll dtUs
  let pitchError ← checked 32 (target.pitchCdeg - att.pitchCdeg)
  let (pitch, pid) ← pid.updateAxis pitchError (imu.gyroMdps .pitch) .pitch dtUs
  let (yaw, pid) ← pid.updateRate target.yawRateMdps (imu.gyroMdps .yaw) .yaw dtUs
  let motors ← mixerCompute s.armed .quadX target.throttle.toNat roll pitch yaw
  return (.flew target roll pitch yaw motors, { s with pid := pid, esc := s.esc.setAll motors })

/-- The ticks since the last iteration: `now.wrapping_sub(last_time)`. -/
def elapsed (s : FlightState) (now : Nat) : Nat := (now + 2 ^ 64 - s.lastTime) % 2 ^ 64

/-- `(dt_ticks * 1_000_000 / TIMER_FREQ) as u32`. -/
def dtUs (p : Platform) (s : FlightState) (now : Nat) : Option Nat := do
  let n ← checkedU 64 (s.elapsed now * 1000000)
  return n / p.timerFreq % 2 ^ 32

/-- The failsafe check and what follows it. -/
def guardedFly (p : Platform) (s : FlightState) (now dt : Nat) :
    Option (Outcome × FlightState) := do
  let attAge ← ageUs p s.attitude now
  let rcAge ← ageUs p s.rcInput now
  let srvAge ← ageUs p s.target now
  let action := checkFailsafe attAge rcAge srvAge
  if action = .disarm then
    return (.disarmed, { s.flightDisarm with esc := s.esc.disarm })
  (s.heed action).fly dt

/-- One iteration of the loop of `flight_control_task`. -/
def iterate (p : Platform) (s : FlightState) (now : Nat) : Option (Outcome × FlightState) := do
  let dt ← s.dtUs p now
  let s := { s with lastTime := now }
  if dt = 0 ∨ dt > 1000000 then
    return (.skipped, s)
  let s := s.readRc now
  if !s.armed then
    return (.idle, { s with esc := s.esc.setAll [0, 0, 0, 0] })
  s.guardedFly p now dt

/-! ## Runs -/

/-- The flight task as it starts on a machine whose drivers are not set up. -/
def boot : FlightState where
  pid := .new
  lastTime := 0
  armed := false
  mode := .disarmed
  attitude := .new ⟨0, 0⟩
  imu := .new ⟨fun _ => 0⟩
  rcInput := .new .new
  target := .new .new
  rc := .off
  esc := .init 4

/-- What happens to the flight state: an iteration, a publication, a change of
the receiver driver, a command of the shell. -/
inductive Op where
  | iterate (now : Nat)
  | publishAttitude (att : Attitude) (now : Nat)
  | publishImu (imu : ImuData) (now : Nat)
  | publishTarget (target : FlightTarget) (now : Nat)
  | rcInit (now : Nat)
  | rcFrame (channels : List UInt16) (now : Nat)
  | rcFailsafe (fs : Bool)
  | setFlightMode (mode : FlightMode)
  | arm
  | disarm

/-- One operation.  A panic of the kernel ends the flight task: the state stays. -/
def step (p : Platform) (s : FlightState) : Op → FlightState
  | .iterate now => ((s.iterate p now).map Prod.snd).getD s
  | .publishAttitude att now => { s with attitude := s.attitude.publish att now }
  | .publishImu imu now => { s with imu := s.imu.publish imu now }
  | .publishTarget target now => { s with target := s.target.publish target now }
  | .rcInit now => { s with rc := s.rc.init now }
  | .rcFrame channels now => { s with rc := s.rc.setChannels channels now }
  | .rcFailsafe fs => { s with rc := s.rc.setFailsafe fs }
  | .setFlightMode mode => { s with mode := mode }
  | .arm => { s.flightArm with esc := s.esc.arm }
  | .disarm => { s.flightDisarm with esc := s.esc.disarm }

end FlightState

end RobotOs.Flight
