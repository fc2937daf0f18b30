import RobotOs.Behavior.Arbiter
import RobotOs.Behavior.Safety
import RobotOs.Drivers.MotorPid
import RobotOs.Ipc.Handle
import RobotOs.Lib.Run
import RobotOs.Robot.Motor

/-!
# From commands to motor duties

The parts of the kernel through which a duty can reach a motor, as one machine:
the packet handlers and the arbiter of `behavior_task`, the iterations of
`rt_motor_task`, the watchdog, and the motor system calls.  One event is one
packet, one round of the arbiter, one iteration of the motor loop or one system
call.  A step returns the duties that `motor_set` applied in it.

The envelope is evaluated in one place, the motor loop, on the command before
the PID stage.  `Confined` says what the other two ways to a motor must keep to:
a granted motor call asks for no more than the cap, and for nothing under ESTOP,
and the PID stage runs only where its own limit of 100 per cent is within the
cap.  `duty_within_envelope` proves that this is enough over every run.
-/

namespace RobotOs.Kernel.MotorControl

open Behavior Brain DegradePolicy Drivers Ipc.Handle Lib.Run Lib.Saturating Robot

/-! ## The machine -/

/-- The state that commands pass through on their way to the motors. -/
structure System where
  motors : Motors
  handles : Handles
  safety : Safety
  motorCmd : Channel MotorCmd
  pid : MotorPid
  /-- The slot that remote handlers write. -/
  lastAction : VlaAction
  /-- The action that `behavior_task` has taken over from it. -/
  remoteAction : VlaAction
  layerEnabled : Fin 4 → Bool
  /-- The local flag of `rt_motor_task`. -/
  safeMode : Bool

inductive Event where
  /-- A brain packet is handled, from TCP or from the UART bridge. -/
  | packet (p : Packet) (now : UInt64)
  /-- Another remote protocol stores an action. -/
  | storeAction (act : VlaAction)
  /-- One round of the arbiter. -/
  | arbitrate (sensed : Sensed) (now : UInt64)
  /-- One iteration of `rt_motor_task`. -/
  | rtMotor (ticksL ticksR : Int) (now : UInt64)
  /-- `system_wdt_task` stops the wheels. -/
  | wdtStop
  /-- A fault handler publishes a stop. -/
  | faultStop (now : UInt64)
  | panic
  | motorCreate (caller : Caller) (id pwmCh dirA dirB : UInt64)
  | motorEnable (caller : Caller) (id dir : UInt64)
  | motorSpeed (caller : Caller) (id speedPct : UInt64)
  /-- The typed motor calls, once the pair of capabilities was found. -/
  | pidSetTarget (speedL speedR : Int16)
  | pidTick (ticksL ticksR : Int) (now : UInt64)
  | pidEnable (en : Bool)
  | pidSetGains (kp ki kd : Int32)
  | pidReset
  | grantHandle (tid : UInt32) (kind : HandleKind) (perms : HandlePerms)
  | revokeHandles (tid : UInt32)
  | setRobotType (robotType : UInt8)
  | setLayer (layer : Fin 4) (enabled : Bool)

/-- A mode command leaves full containment. -/
def clearDegraded (level : UInt8) : UInt8 :=
  if degradedActive level then degradedSet false else level

/-- The packet handlers of `behavior_task`, as far as motors are concerned. -/
def handlePacket (s : System) (p : Packet) (now : UInt64) : List Applied × System :=
  if p.pktType = PKT_ACTUATOR then
    match decodeActuatorCmd p.payload with
    | none => ([], s)
    | some cmd =>
      let safety := { s.safety with lowConfidence := cmd.isLowConfidence }
      if cmd.isEmergency then
        ([], { s with safety := safety, motorCmd := motorCmdPublish s.motorCmd 0 0 now })
      else
        let act := cmd.toAction now
        ([], { s with safety := safety, lastAction := act, remoteAction := act })
  else if p.pktType = PKT_ESTOP then
    let (applied, motors) := motorStopBoth s.motors
    (applied, { s with motors := motors, safety := { s.safety with estopActive := true } })
  else if p.pktType = PKT_DEGRADE then
    let level := degradedSet (p.payload.headD 0 != 0)
    ([], { s with safety := { s.safety with degradeLevel := level } })
  else if p.pktType = PKT_SEMANTIC_LEVEL then
    let level := degradeLevelSet (p.payload.headD DEGRADE_LEVEL_CONTAINED)
    ([], { s with safety := { s.safety with degradeLevel := level } })
  else if p.pktType = PKT_MODE then
    match decodeModeCmd p.payload with
    | none => ([], s)
    | some _ =>
      let level := clearDegraded s.safety.degradeLevel
      ([], { s with safety := { s.safety with estopActive := false, degradeLevel := level } })
  else ([], s)

/-- One iteration of `rt_motor_task`, for a timer of `freq` ticks a second. -/
def rtMotorIteration (freq : Nat) (s : System) (ticksL ticksR : Int) (now : UInt64) :
    List Applied × System :=
  let fired := motorWatchdogFired freq s.motorCmd now
  if fired && !s.safeMode then
    let (applied, motors) := motorStopBoth s.motors
    (applied, { s with motors := motors, pid := motorPidReset s.pid, safeMode := true })
  else if !fired then
    let s := { s with safeMode := false }
    if s.motorCmd.isValid then
      let (envL, envR) := motorEnvelope s.safety s.motorCmd.val.speedL s.motorCmd.val.speedR
      if s.pid.enabled then
        let target := motorPidSetTarget s.pid (Int16.ofInt envL) (Int16.ofInt envR)
        let ((pwmL, pwmR), pid) := motorPidTick freq target ticksL ticksR now
        let (applied, motors) := motorSetBoth s.motors (splitSpeed pwmL).1 (splitSpeed pwmR).1
          (splitSpeed pwmL).2 (splitSpeed pwmR).2
        (applied, { s with motors := motors, pid := pid })
      else
        let (applied, motors) := motorSetBoth s.motors (splitSpeed envL).1 (splitSpeed envR).1
          (splitSpeed envL).2 (splitSpeed envR).2
        (applied, { s with motors := motors })
    else ([], s)
  else ([], s)

/-- `motor_set` on behalf of a system call. -/
def setMotor (s : System) (id : UInt64) (dir : MotorDir) (speedPct : Nat) :
    List Applied × System :=
  let (applied, motors) := motorSet s.motors id.toUInt32 dir speedPct
  (applied, { s with motors := motors })

/-- The direction argument of `SYS_MOTOR_ENABLE`. -/
def motorDirOf (dir : UInt64) : MotorDir :=
  if dir = 0 then .Forward else if dir = 1 then .Backward else if dir = 2 then .Brake else .Coast

/-- `SYS_MOTOR_ENABLE` drives at 50 per cent. -/
def ENABLE_SPEED_PCT : Nat := 50

/-- Whether a motor call of `caller` on motor `id` is let through. -/
def motorGranted (s : System) (caller : Caller) (id : UInt64) : Bool :=
  capCheck s.handles caller (.Motor id.toUInt32) true

/-- One event: the duties applied and the state after. -/
def step (freq : Nat) (s : System) : Event → List Applied × System
  | .packet p now => handlePacket s p now
  | .storeAction act => ([], { s with lastAction := act })
  | .arbitrate sensed now =>
    let act := if s.lastAction.valid then s.lastAction else s.remoteAction
    let s := { s with remoteAction := act }
    match Behavior.arbitrate s.layerEnabled act sensed with
    | none => ([], s)
    | some (sl, sr) =>
      ([], { s with
        motorCmd := motorCmdPublish s.motorCmd (clamp (-100) 100 sl) (clamp (-100) 100 sr) now })
  | .rtMotor ticksL ticksR now => rtMotorIteration freq s ticksL ticksR now
  | .wdtStop =>
    let (applied, motors) := motorStopBoth s.motors
    (applied, { s with motors := motors })
  | .faultStop now => ([], { s with motorCmd := motorCmdPublish s.motorCmd 0 0 now })
  | .panic => ([], { s with motors := { s.motors with panicked := true } })
  | .motorCreate caller id pwmCh dirA dirB =>
    if motorGranted s caller id then
      ([], { s with
        motors := motorInit s.motors id.toUInt32 pwmCh.toUInt32 dirA.toUInt32 dirB.toUInt32 })
    else ([], s)
  | .motorEnable caller id dir =>
    if motorGranted s caller id then setMotor s id (motorDirOf dir) ENABLE_SPEED_PCT else ([], s)
  | .motorSpeed caller id speedPct =>
    if motorGranted s caller id then
      if speedPct = 0 then setMotor s id .Coast 0
      else setMotor s id .Forward speedPct.toUInt32.toNat
    else ([], s)
  | .pidSetTarget speedL speedR => ([], { s with pid := motorPidSetTarget s.pid speedL speedR })
  | .pidTick ticksL ticksR now =>
    ([], { s with pid := (motorPidTick freq s.pid ticksL ticksR now).2 })
  | .pidEnable en => ([], { s with pid := motorPidEnable s.pid en })
  | .pidSetGains kp ki kd =>
    ([], { s with pid := motorPidSetGains s.pid kp.toInt ki.toInt kd.toInt })
  | .pidReset => ([], { s with pid := motorPidReset s.pid })
  | .grantHandle tid kind perms =>
    ([], { s with handles := (handleGrant s.handles tid kind perms).2 })
  | .revokeHandles tid => ([], { s with handles := handleRevokeAll s.handles tid })
  | .setRobotType robotType => ([], { s with safety := { s.safety with robotType := robotType } })
  | .setLayer layer enabled =>
    if layer.val = 0 then ([], s)
    else ([], { s with layerEnabled := Function.update s.layerEnabled layer enabled })

/-- The state after an event. -/
def next (freq : Nat) (s : System) (e : Event) : System := (step freq s e).2

/-! ## The ESTOP latch follows the packets -/

/-- How one event moves the latch: ESTOP sets it, a mode command clears it. -/
def latch (pending : Bool) : Event → Bool
  | .packet p _ =>
    if p.pktType = PKT_ESTOP then true
    else if p.pktType = PKT_MODE ∧ (decodeModeCmd p.payload).isSome then false
    else pending
  | _ => pending

/-- An ESTOP was handled and no mode command since. -/
def estopPending (events : List Event) : Bool := events.foldl latch false

/-- The flag of the safety module moves as the packets say. -/
theorem estopActive_handlePacket (s : System) (p : Packet) (now : UInt64) :
    (handlePacket s p now).2.safety.estopActive = latch s.safety.estopActive (.packet p now) := by
  by_cases hactuator : p.pktType = PKT_ACTUATOR
  · have hlatch : latch s.safety.estopActive (.packet p now) = s.safety.estopActive := by
      simp [latch, hactuator, PKT_ACTUATOR, PKT_ESTOP, PKT_MODE]
    rw [hlatch, handlePacket, if_pos hactuator]
    cases decodeActuatorCmd p.payload with
    | none => rfl
    | some cmd =>
      simp only
      split <;> rfl
  · by_cases hmode : p.pktType = PKT_MODE
    · cases hdec : decodeModeCmd p.payload <;>
        simp [handlePacket, latch, hmode, hdec, PKT_ACTUATOR, PKT_ESTOP, PKT_MODE, PKT_DEGRADE,
          PKT_SEMANTIC_LEVEL]
    · simp only [handlePacket, latch, hactuator, hmode, false_and, if_false]
      split_ifs <;> rfl

/-- Every event moves the flag as the latch says. -/
theorem estopActive_next (freq : Nat) (s : System) (e : Event) :
    (next freq s e).safety.estopActive = latch s.safety.estopActive e := by
  cases e with
  | packet p now => exact estopActive_handlePacket s p now
  | arbitrate sensed now =>
    simp only [next, step]
    split <;> rfl
  | rtMotor ticksL ticksR now =>
    simp only [next, step, rtMotorIteration]
    split_ifs <;> rfl
  | motorCreate caller id pwmCh dirA dirB =>
    simp only [next, step]
    split <;> rfl
  | motorEnable caller id dir =>
    simp only [next, step]
    split <;> rfl
  | motorSpeed caller id speedPct =>
    simp only [next, step]
    split_ifs <;> rfl
  | setLayer layer enabled =>
    simp only [next, step]
    split <;> rfl
  | _ => rfl

/-- The flag after a run is the latch of the packets handled, from the flag at
its start. -/
theorem estopActive_run (freq : Nat) (s : System) (events : List Event) :
    (run (next freq) s events).safety.estopActive = events.foldl latch s.safety.estopActive := by
  induction events generalizing s with
  | nil => rfl
  | cons e events ih => rw [run_cons, ih, estopActive_next, List.foldl_cons]

theorem latch_mono {b b' : Bool} (h : b = true → b' = true) (e : Event)
    (hb : latch b e = true) : latch b' e = true := by
  cases e with
  | packet p now =>
    simp only [latch] at hb ⊢
    split_ifs at hb ⊢
    · rfl
    · exact h hb
  | _ => exact h hb

/-- A latch that starts higher ends higher. -/
theorem foldl_latch_mono {b b' : Bool} (h : b = true → b' = true) (events : List Event)
    (hb : events.foldl latch b = true) : events.foldl latch b' = true := by
  induction events generalizing b b' with
  | nil => exact h hb
  | cons e events ih => exact ih (latch_mono h e) hb

/-- While an ESTOP is pending the flag is set, whatever it was at the start. -/
theorem estopActive_of_pending (freq : Nat) (s : System) {events : List Event}
    (h : estopPending events = true) : (run (next freq) s events).safety.estopActive = true := by
  rw [estopActive_run]
  exact foldl_latch_mono (by simp) events h

/-! ## What keeps a duty within the envelope -/

/-- The condition on an event in the state it starts from.  A granted motor call
asks for at most the cap in force, and for nothing under ESTOP.  The motor loop
runs its PID stage only when the cap is the controller's own limit and no ESTOP
is in force. -/
def Confined (s : System) : Event → Prop
  | .rtMotor _ _ _ =>
    s.pid.enabled = true → s.safety.estopActive = false ∧ envelopeCap s.safety = PID_OUTPUT_MAX
  | .motorEnable caller id _ =>
    motorGranted s caller id = true →
      s.safety.estopActive = false ∧ (ENABLE_SPEED_PCT : Int) ≤ envelopeCap s.safety
  | .motorSpeed caller id speedPct =>
    motorGranted s caller id = true →
      (s.safety.estopActive = true → speedPct.toUInt32 = 0) ∧
        (min speedPct.toUInt32.toNat 100 : Int) ≤ envelopeCap s.safety
  | _ => True

/-- What is asked of a duty that a step applies: it is within the cap in force,
and 0 under ESTOP. -/
def Within (s : System) (estop : Bool) (a : Applied) : Prop :=
  (a.duty : Int) ≤ envelopeCap s.safety ∧ (estop = true → a.duty = 0)

/-- A duty of 0 is always within the envelope. -/
theorem within_of_duty_eq_zero (s : System) (estop : Bool) {a : Applied} (h : a.duty = 0) :
    Within s estop a := by
  have hcap := envelopeCap_nonneg s.safety
  exact ⟨by rw [h]; exact_mod_cast hcap, fun _ => h⟩

theorem duty_of_mem_motorStopBoth {m : Motors} {a : Applied} (h : a ∈ (motorStopBoth m).1) :
    a.duty = 0 := by
  rcases duty_le_of_mem_motorSetBoth h with hle | hle <;> omega

theorem splitSpeed_snd (speed : Int) : (splitSpeed speed).2 = speed.natAbs := by
  unfold splitSpeed
  split <;> rfl

/-- One iteration of the motor loop stays within the envelope. -/
theorem within_of_mem_rtMotor {freq : Nat} {s : System} {ticksL ticksR : Int} {now : UInt64}
    (hpid : s.pid.enabled = true →
      s.safety.estopActive = false ∧ envelopeCap s.safety = PID_OUTPUT_MAX)
    {a : Applied} (ha : a ∈ (rtMotorIteration freq s ticksL ticksR now).1) :
    Within s s.safety.estopActive a := by
  simp only [rtMotorIteration] at ha
  split_ifs at ha with hfired hnot hvalid hen
  · exact within_of_duty_eq_zero s _ (duty_of_mem_motorStopBoth ha)
  · -- the PID stage answers with anything up to its own limit
    obtain ⟨hestop, hcap⟩ := hpid hen
    have hduty : (a.duty : Int) ≤ PID_OUTPUT_MAX := by
      rcases duty_le_of_mem_motorSetBoth ha with hle | hle <;> rw [splitSpeed_snd] at hle
      · exact le_trans (Int.ofNat_le.mpr hle) (motorPidTick_mem freq _ ticksL ticksR now).1
      · exact le_trans (Int.ofNat_le.mpr hle) (motorPidTick_mem freq _ ticksL ticksR now).2
    exact ⟨by rw [hcap]; exact hduty, by simp [hestop]⟩
  · -- without it the duty is the magnitude of what the envelope let through
    have henv := natAbs_motorEnvelope_le s.safety s.motorCmd.val.speedL s.motorCmd.val.speedR
    have hduty : a.duty ≤
          (motorEnvelope s.safety s.motorCmd.val.speedL s.motorCmd.val.speedR).1.natAbs ∨
        a.duty ≤
          (motorEnvelope s.safety s.motorCmd.val.speedL s.motorCmd.val.speedR).2.natAbs := by
      simpa only [splitSpeed_snd] using duty_le_of_mem_motorSetBoth ha
    constructor
    · omega
    · intro hestop
      rw [motorEnvelope_of_estop hestop] at hduty
      simpa using hduty
  · simp at ha
  · simp at ha

/-- The only packet that applies a duty is ESTOP, and it applies 0. -/
theorem duty_of_mem_handlePacket {s : System} {p : Packet} {now : UInt64} {a : Applied}
    (ha : a ∈ (handlePacket s p now).1) : a.duty = 0 := by
  unfold handlePacket at ha
  split_ifs at ha
  · cases hdec : decodeActuatorCmd p.payload with
    | none => simp [hdec] at ha
    | some cmd =>
      simp only [hdec] at ha
      split at ha <;> simp at ha
  · exact duty_of_mem_motorStopBoth ha
  · simp at ha
  · simp at ha
  · cases hdec : decodeModeCmd p.payload <;> simp [hdec] at ha
  · simp at ha

/-- A duty that a system call applies. -/
theorem within_of_mem_setMotor {s : System} {id : UInt64} {dir : MotorDir} {speedPct : Nat}
    (hcap : (min speedPct 100 : Int) ≤ envelopeCap s.safety)
    (hestop : s.safety.estopActive = true → speedPct = 0) {a : Applied}
    (ha : a ∈ (setMotor s id dir speedPct).1) : Within s s.safety.estopActive a := by
  have hduty : a.duty = min speedPct 100 := duty_of_mem_motorSet ha
  constructor
  · omega
  · intro h
    have hzero := hestop h
    omega

/-- Every duty that a confined event applies is within the envelope of the state
it starts from. -/
theorem within_of_confined {freq : Nat} {s : System} {e : Event} (h : Confined s e)
    {a : Applied} (ha : a ∈ (step freq s e).1) : Within s (latch s.safety.estopActive e) a := by
  cases e with
  | packet p now =>
    exact within_of_duty_eq_zero s _ (duty_of_mem_handlePacket ha)
  | rtMotor ticksL ticksR now => exact within_of_mem_rtMotor h ha
  | wdtStop => exact within_of_duty_eq_zero s _ (duty_of_mem_motorStopBoth ha)
  | arbitrate sensed now =>
    simp only [step] at ha
    split at ha <;> simp at ha
  | motorCreate caller id pwmCh dirA dirB =>
    simp only [step] at ha
    split at ha <;> simp at ha
  | motorEnable caller id dir =>
    simp only [step] at ha
    split_ifs at ha with hgrant
    · obtain ⟨hestop, hcap⟩ := h hgrant
      exact within_of_mem_setMotor (by simpa [ENABLE_SPEED_PCT] using hcap) (by simp [hestop]) ha
    · simp at ha
  | motorSpeed caller id speedPct =>
    simp only [step] at ha
    split_ifs at ha with hgrant hzero
    · exact within_of_mem_setMotor (by simpa using envelopeCap_nonneg s.safety) (by simp) ha
    · obtain ⟨hestop, hcap⟩ := h hgrant
      exact within_of_mem_setMotor hcap (fun hs => by simp [hestop hs]) ha
    · simp at ha
  | setLayer layer enabled =>
    simp only [step] at ha
    split at ha <;> simp at ha
  | _ => simp [step] at ha

/-- In every run whose events are all confined, every duty that is applied is
within the cap in force when it is applied, and it is 0 from an ESTOP on until a
mode command. -/
theorem duty_within_envelope (freq : Nat) (s₀ : System) (events : List Event)
    (hok : Guarded (next freq) Confined s₀ events) (pre post : List Event) (e : Event)
    (hsplit : events = pre ++ e :: post) :
    ∀ a ∈ (step freq (run (next freq) s₀ pre) e).1,
      (a.duty : Int) ≤ envelopeCap (run (next freq) s₀ pre).safety ∧
        (estopPending (pre ++ [e]) = true → a.duty = 0) := by
  intro a ha
  rw [hsplit] at hok
  obtain ⟨hcap, hzero⟩ := within_of_confined (guarded_split hok).2 ha
  refine ⟨hcap, fun hpending => hzero ?_⟩
  have hactive := estopActive_of_pending freq s₀ hpending
  rwa [run_concat, estopActive_next] at hactive

/-! ## Two ways around the envelope -/

/-- A wheeled robot after boot: both wheels are set up and the PID stage is as
given. -/
def bootSystem (pidEnabled : Bool) : System where
  motors := motorInit (motorInit ⟨false, fun _ => .new⟩ 0 0 0 1) 1 1 2 3
  handles := fun _ => .empty
  safety := ⟨false, ROBOT_TYPE_WHEELED, false, DEGRADE_LEVEL_FULL⟩
  motorCmd := ⟨⟨0, 0⟩, 0, 0⟩
  pid := ⟨0, 0, pidEnabled, .new DEFAULT_KP DEFAULT_KI DEFAULT_KD,
    .new DEFAULT_KP DEFAULT_KI DEFAULT_KD, .new⟩
  lastAction := ⟨CMD_NONE, 0, 0, 0, false⟩
  remoteAction := ⟨CMD_NONE, 0, 0, 0, false⟩
  layerEnabled := fun _ => true
  safeMode := false

/-- The timer of the emulated board. -/
def sampleFreq : Nat := 10000000

/-- An ESTOP of the operator. -/
def sampleEstop (now : UInt64) : Event := .packet ⟨PKT_ESTOP, [0]⟩ now

/-- Task 7 gets a handle on the left wheel, and an ESTOP is handled. -/
def syscallPrefix : List Event := [.grantHandle 7 (.Motor 0) .RW, sampleEstop 1000000]

/-- The explore layer drives, the motor loop takes its baseline, and an ESTOP is
handled. -/
def pidPrefix : List Event :=
  [.arbitrate ⟨.None, none, 1000000, none⟩ 1000000, .rtMotor 0 0 1000001, sampleEstop 1000002]

/-- Under ESTOP a motor call drives the wheel at full duty, and so does the PID
stage when the wheel still turns. -/
theorem envelope_bypassed :
    (∃ a ∈ (step sampleFreq (run (next sampleFreq) (bootSystem false) syscallPrefix)
        (.motorSpeed ⟨7, false⟩ 0 100)).1,
      estopPending (syscallPrefix ++ [.motorSpeed ⟨7, false⟩ 0 100]) = true ∧ a.duty = 100 ∧
        envelopeCap (run (next sampleFreq) (bootSystem false) syscallPrefix).safety = 80) ∧
    (∃ a ∈ (step sampleFreq (run (next sampleFreq) (bootSystem true) pidPrefix)
        (.rtMotor 10 10 1100001)).1,
      estopPending (pidPrefix ++ [.rtMotor 10 10 1100001]) = true ∧ a.duty = 100 ∧
        envelopeCap (run (next sampleFreq) (bootSystem true) pidPrefix).safety = 80) := by
  decide +kernel

/-- With the PID stage off, the loop stops the wheels after the same prefix. -/
theorem duty_within_envelope_open_loop :
    ∃ a ∈ (step sampleFreq (run (next sampleFreq) (bootSystem false) pidPrefix)
        (.rtMotor 10 10 1100001)).1,
      (a.duty : Int) ≤ envelopeCap (run (next sampleFreq) (bootSystem false) pidPrefix).safety ∧
        (estopPending (pidPrefix ++ [.rtMotor 10 10 1100001]) = true → a.duty = 0) := by
  refine ⟨⟨⟨0, by decide⟩, 0, 0⟩, by decide +kernel, ?_⟩
  apply duty_within_envelope sampleFreq (bootSystem false) (pidPrefix ++ [.rtMotor 10 10 1100001])
    ?_ pidPrefix [] (.rtMotor 10 10 1100001) rfl _ (by decide +kernel)
  refine ⟨trivial, ?_, trivial, ?_, trivial⟩
  · intro h
    exact absurd h (by decide)
  · intro h
    exact absurd h (by decide)

end RobotOs.Kernel.MotorControl
