import RobotOs.Brain.Protocol
import RobotOs.Lib.Saturating

/-!
# Remote actions and the arbiter

The actuator command of the brain protocol, the action slot it is stored in,
and the four-layer arbiter of the behavior crate that turns sensors and actions
into one motor output.  What the sensors decide enters as data: the action of
the safety check (layer 0) and the output of the offline patrol (layer 3).
-/

namespace RobotOs.Behavior

open Brain Lib.Framing Lib.Saturating

/-! ## Actuator and mode commands -/

def FLAG_EMERGENCY : UInt8 := 0x01
def FLAG_LOW_CONFIDENCE : UInt8 := 0x04
def MAX_CHANNELS : Nat := 8

/-- `ActuatorCmd`; the list holds the channels that were sent. -/
structure ActuatorCmd where
  actuatorType : UInt8
  flags : UInt8
  channels : List Int16

/-- `decode_actuator_cmd`. -/
def decodeActuatorCmd (payload : Bytes) : Option ActuatorCmd :=
  if payload.length < 3 then none
  else
    let n := (payload.getD 1 0).toNat
    if payload.length < 3 + n * 2 then none
    else
      some
        { actuatorType := payload.getD 0 0
          flags := payload.getD 2 0
          channels := (List.range (min n MAX_CHANNELS)).map fun i =>
            Int16.ofNat (ofLE (slice payload (3 + i * 2) 2)) }

def ActuatorCmd.isEmergency (c : ActuatorCmd) : Bool := c.flags &&& FLAG_EMERGENCY != 0

def ActuatorCmd.isLowConfidence (c : ActuatorCmd) : Bool := c.flags &&& FLAG_LOW_CONFIDENCE != 0

/-- `diff_drive`: the first two channels in per cent, or nothing. -/
def ActuatorCmd.diffDrive (c : ActuatorCmd) : Int × Int :=
  match c.channels with
  | l :: r :: _ => (clamp (-100) 100 l.toInt, clamp (-100) 100 r.toInt)
  | _ => (0, 0)

/-- `decode_mode_cmd`: the mode id. -/
def decodeModeCmd (payload : Bytes) : Option UInt8 := payload.head?

/-! ## The action slot -/

def CMD_NONE : UInt8 := 0
def CMD_MOTOR : UInt8 := 1
def CMD_STOP : UInt8 := 2
def REMOTE_PCT_TO_MILLI : Int := 10

/-- `VlaAction`, with the two wheel entries of its action vector. -/
structure VlaAction where
  cmd : UInt8
  actionL : Int16
  actionR : Int16
  receivedAt : UInt64
  valid : Bool

/-- The action that an actuator command leaves in the slot. -/
def ActuatorCmd.toAction (c : ActuatorCmd) (now : UInt64) : VlaAction :=
  let (sl, sr) := c.diffDrive
  { cmd := CMD_MOTOR
    actionL := Int16.ofInt (sl * REMOTE_PCT_TO_MILLI)
    actionR := Int16.ofInt (sr * REMOTE_PCT_TO_MILLI)
    receivedAt := now
    valid := true }

/-! ## The layers -/

/-- A motor output, `none` when a layer has nothing to say. -/
abbrev MotorOutput := Option (Int × Int)

/-- `SafetyAction`. -/
inductive SafetyAction where
  | None
  | EmergencyStop
  | ReturnToLaunch
  | LandNow
  | SpeedLimit (maxSpeed : Int)
  deriving DecidableEq, Repr

/-- `layer_emergency_stop`, from the action of the safety check. -/
def layerEmergencyStop : SafetyAction → MotorOutput
  | .None => none
  | .EmergencyStop => some (0, 0)
  | .LandNow => some (0, 0)
  | .ReturnToLaunch => some (0, 0)
  | .SpeedLimit maxSpeed => some (maxSpeed, maxSpeed)

/-- `layer_avoid_obstacle`, from the class of a valid inference. -/
def layerAvoidObstacle : Option UInt8 → MotorOutput
  | none => none
  | some cls =>
    if cls = 0 then some (70, 70)
    else if cls = 1 then some (80, 30)
    else if cls = 2 then some (0, 0)
    else none

/-- `layer_remote_vla`: an action older than two seconds is ignored. -/
def layerRemoteVla (act : VlaAction) (timestamp : UInt64) : MotorOutput :=
  if !act.valid || act.cmd == CMD_NONE then none
  else if 20000000 < timestamp.toNat - act.receivedAt.toNat then none
  else if act.cmd = CMD_STOP then some (0, 0)
  else if act.cmd = CMD_MOTOR then some (act.actionL.toInt.tdiv 10, act.actionR.toInt.tdiv 10)
  else none

/-- `layer_explore`. -/
def layerExplore : MotorOutput := some (30, 30)

/-- What one round of the arbiter senses: the action of the safety check, the
class of the inference, the time, and the output of the offline patrol when it
is active. -/
structure Sensed where
  safety : SafetyAction
  mlp : Option UInt8
  timestamp : UInt64
  offline : Option MotorOutput

/-- `arbitrate`: the first layer with an output wins.  Layer 0 is always on. -/
def arbitrate (enabled : Fin 4 → Bool) (act : VlaAction) (sensed : Sensed) : MotorOutput :=
  layerEmergencyStop sensed.safety <|>
    (if enabled 1 then layerAvoidObstacle sensed.mlp else none) <|>
    (if enabled 2 then layerRemoteVla act sensed.timestamp else none) <|>
    (if enabled 3 then sensed.offline.getD layerExplore else none)

end RobotOs.Behavior
