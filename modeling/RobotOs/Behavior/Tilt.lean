import RobotOs.Behavior.Arbiter
import RobotOs.Behavior.Safety
import RobotOs.Lib.Checked

/-!
# The safety check and the tilt of the robot

`safety_check` of `safety.rs` with the checks of the three kinds of robots, the geofence, and
the integer square root under the tilt.

`tilt_from_accel` takes the ratio of the horizontal to the vertical acceleration in per cent
times 573 / 100 for centidegrees.  That is a tenth of the angle: a ratio of one is 573 and
not 5730.  So the limit of 45 degrees is passed at a ratio of 7.86, and the one of 35 degrees
at a ratio of 6.11.
-/

namespace RobotOs.Behavior

open Lib.Checked

def SAFETY_FALL_ACCEL_Z_MG : Int := 500
def SAFETY_MAX_GYRO_MDPS : Nat := 90000
def SAFETY_WHEELED_MIN_BATTERY_MV : Nat := 6500
def SAFETY_WHEELED_MAX_TILT_CDEG : Nat := 4500
def SAFETY_WHEELED_OBSTACLE_MM : Nat := 150
def SAFETY_DRONE_LOW_BATTERY_MV : Nat := 7000
def SAFETY_DRONE_CRITICAL_BATTERY_MV : Nat := 6500
def SAFETY_DRONE_MAX_TILT_CDEG : Nat := 3500
def SAFETY_DRONE_COMMS_TIMEOUT_TICKS : Nat := 30000000
def SAFETY_HUMANOID_MIN_BATTERY_MV : Nat := 6500
def SAFETY_HUMANOID_FALL_ACCEL_MG : Nat := 4000
def SAFETY_MAX_TEMP_CDEG : Int := 8500
def GEOFENCE_MIN_FIX : Nat := 2
def GEOFENCE_MIN_SATELLITES : Nat := 3

/-- `SafetyViolation`. -/
inductive SafetyViolation where
  | None
  | Falling
  | Spinning
  | LowBattery
  | CriticalBattery
  | ObstacleTooClose
  | ExcessiveTilt
  | NoGpsFix
  | AltitudeCeiling
  | CommsTimeout
  | FallDetected
  | Overheated
  | RemoteEstop
  | GeofenceViolation
  deriving DecidableEq, Repr

structure SafetyResult where
  action : SafetyAction
  violation : SafetyViolation
  deriving DecidableEq, Repr

def SafetyResult.safe : SafetyResult := ⟨.None, .None⟩

def SafetyResult.isViolation (r : SafetyResult) : Bool := r.violation ≠ .None

/-- The three axes of a sensor. -/
structure Axes where
  x : Int
  y : Int
  z : Int
  deriving DecidableEq, Repr

/-- The fields of `SensorState` that the checks read. -/
structure SensorState where
  camDistFront : Nat
  accelMg : Axes
  gyroMdps : Axes
  imuValid : Bool
  batteryMv : Nat
  tempCdeg : Int
  gpsLatUdeg : Int
  gpsLonUdeg : Int
  gpsFix : Nat
  gpsSatellites : Nat
  remoteAction : VlaAction
  timestamp : UInt64

/-- `GeofenceConfig`. -/
structure GeofenceConfig where
  centerLatUdeg : Int
  centerLonUdeg : Int
  radiusM : Nat
  deriving DecidableEq, Repr

/-! ## Arithmetic -/

/-- The loop of `isqrt`.  The fuel is never used up, since `x` falls. -/
def isqrtLoop (n : Nat) : Nat → Nat → Nat → Nat
  | 0, x, _ => x
  | fuel + 1, x, y => if y < x then isqrtLoop n fuel y ((y + n / y) / 2) else x

/-- `isqrt`. -/
def isqrt (n : Nat) : Nat := if n ≤ 1 then n else isqrtLoop n n n ((n + 1) / 2)

def horizSq (a : Axes) : Nat := a.x.natAbs * a.x.natAbs + a.y.natAbs * a.y.natAbs

def vertSq (a : Axes) : Nat := a.z.natAbs * a.z.natAbs

/-- `tilt_from_accel`. -/
def tiltFromAccel (a : Axes) : Option Nat :=
  if vertSq a = 0 then some 9000
  else do
    let scaled ← checkedU 64 (horizSq a * 10000)
    let ratioPct := isqrt (scaled / vertSq a)
    return min (ratioPct * 573 / 100 % 2 ^ 32) 9000

/-- `accel_magnitude`. -/
def accelMagnitude (a : Axes) : Option Nat := do
  let sum ← checked 64 (a.x * a.x + a.y * a.y + a.z * a.z)
  return isqrt sum.toNat % 2 ^ 32

/-- The squared distance from the centre, from the differences in micro-degrees. -/
def distSqM2 (g : GeofenceConfig) (dlatUdeg dlonUdeg : Int) : Int :=
  let dlatMm := (dlatUdeg * 111000).tdiv 1000000
  let latDegAbs : Int := g.centerLatUdeg.natAbs / 1000000
  let cosFactor := max 500 (min 1000 (1000 - latDegAbs * latDegAbs / 20000))
  let dlonMm := (dlonUdeg * 111000 * cosFactor).tdiv (1000000 * 1000)
  dlatMm * dlatMm + dlonMm * dlonMm

/-- `geofence_check`. -/
def geofenceCheck (g : GeofenceConfig) (latUdeg lonUdeg : Int) : Option Bool :=
  if g.radiusM = 0 then some false
  else do
    let dlatUdeg ← checked 32 (latUdeg - g.centerLatUdeg)
    let dlonUdeg ← checked 32 (lonUdeg - g.centerLonUdeg)
    let radiusM2 ← checked 64 (g.radiusM * g.radiusM)
    return decide (radiusM2 < distSqM2 g dlatUdeg dlonUdeg)

/-- `check_geofence_from_gps`. -/
def checkGeofenceFromGps (g : GeofenceConfig) (s : SensorState) : Option (Option SafetyResult) :=
  if ¬(s.gpsFix ≥ GEOFENCE_MIN_FIX ∧ s.gpsSatellites ≥ GEOFENCE_MIN_SATELLITES) then some none
  else do
    let outside ← geofenceCheck g s.gpsLatUdeg s.gpsLonUdeg
    return if outside then some ⟨.ReturnToLaunch, .GeofenceViolation⟩ else none

/-! ## The checks -/

/-- `check_common`. -/
def checkCommon (s : SensorState) : SafetyResult :=
  if s.tempCdeg > SAFETY_MAX_TEMP_CDEG then ⟨.EmergencyStop, .Overheated⟩
  else if !s.imuValid then .safe
  else if s.accelMg.z < SAFETY_FALL_ACCEL_Z_MG then ⟨.EmergencyStop, .Falling⟩
  else if s.gyroMdps.x.natAbs > SAFETY_MAX_GYRO_MDPS ∨ s.gyroMdps.y.natAbs > SAFETY_MAX_GYRO_MDPS ∨
      s.gyroMdps.z.natAbs > SAFETY_MAX_GYRO_MDPS then ⟨.EmergencyStop, .Spinning⟩
  else .safe

/-- The tilt check: whether the tilt is above the limit. -/
def tilted (s : SensorState) (limit : Nat) : Option Bool :=
  if s.imuValid then (tiltFromAccel s.accelMg).map fun tilt => decide (tilt > limit) else some false

/-- `check_wheeled`. -/
def checkWheeled (g : GeofenceConfig) (s : SensorState) : Option SafetyResult :=
  if s.batteryMv > 0 ∧ s.batteryMv < SAFETY_WHEELED_MIN_BATTERY_MV then
    some ⟨.EmergencyStop, .LowBattery⟩
  else if s.camDistFront > 0 ∧ s.camDistFront < SAFETY_WHEELED_OBSTACLE_MM then
    some ⟨.EmergencyStop, .ObstacleTooClose⟩
  else do
    if ← tilted s SAFETY_WHEELED_MAX_TILT_CDEG then return ⟨.EmergencyStop, .ExcessiveTilt⟩
    match ← checkGeofenceFromGps g s with
    | some r => return { r with action := .EmergencyStop }
    | none => return .safe

/-- `check_drone`. -/
def checkDrone (g : GeofenceConfig) (s : SensorState) : Option SafetyResult :=
  if s.batteryMv > 0 ∧ s.batteryMv < SAFETY_DRONE_CRITICAL_BATTERY_MV then
    some ⟨.LandNow, .CriticalBattery⟩
  else if s.batteryMv > 0 ∧ s.batteryMv < SAFETY_DRONE_LOW_BATTERY_MV then
    some ⟨.ReturnToLaunch, .LowBattery⟩
  else do
    if ← tilted s SAFETY_DRONE_MAX_TILT_CDEG then return ⟨.EmergencyStop, .ExcessiveTilt⟩
    if s.remoteAction.valid ∧ s.timestamp.toNat - s.remoteAction.receivedAt.toNat >
        SAFETY_DRONE_COMMS_TIMEOUT_TICKS then
      return ⟨.ReturnToLaunch, .CommsTimeout⟩
    match ← checkGeofenceFromGps g s with
    | some r => return r
    | none => return .safe

/-- `check_humanoid`. -/
def checkHumanoid (s : SensorState) : Option SafetyResult :=
  if s.batteryMv > 0 ∧ s.batteryMv < SAFETY_HUMANOID_MIN_BATTERY_MV then
    some ⟨.EmergencyStop, .LowBattery⟩
  else do
    if s.imuValid then
      if (← accelMagnitude s.accelMg) > SAFETY_HUMANOID_FALL_ACCEL_MG then
        return ⟨.EmergencyStop, .FallDetected⟩
    return .safe

/-- `safety_check`. -/
def safetyCheck (flags : Safety) (g : GeofenceConfig) (s : SensorState) : Option SafetyResult :=
  if flags.estopActive then some ⟨.EmergencyStop, .RemoteEstop⟩
  else if (checkCommon s).isViolation then some (checkCommon s)
  else if flags.robotType = ROBOT_TYPE_DRONE then checkDrone g s
  else if flags.robotType = ROBOT_TYPE_HUMANOID then checkHumanoid s
  else checkWheeled g s

/-! ## The square root -/

/-- A step of the loop does not fall below the root. -/
theorem lt_succ_newton {n x : Nat} (hx : 0 < x) :
    n < ((x + n / x) / 2 + 1) * ((x + n / x) / 2 + 1) := by
  have hdiv : n < x * (n / x + 1) := Nat.lt_mul_div_succ n hx
  generalize n / x = k at hdiv ⊢
  have hhalf : x + k + 1 ≤ 2 * ((x + k) / 2 + 1) := by omega
  generalize (x + k) / 2 + 1 = y at hhalf ⊢
  have hsq : (x + (k + 1)) * (x + (k + 1)) ≤ 2 * y * (2 * y) := Nat.mul_le_mul hhalf hhalf
  have hmean : 4 * (x * (k + 1)) ≤ (x + (k + 1)) * (x + (k + 1)) := by
    nlinarith [sq_nonneg ((x : Int) - (k + 1))]
  nlinarith

/-- From above the root the loop ends at the root. -/
theorem isqrtLoop_eq {n fuel x : Nat} (hn : 0 < n) (hfuel : x ≤ fuel)
    (habove : n < (x + 1) * (x + 1)) : isqrtLoop n fuel x ((x + n / x) / 2) = Nat.sqrt n := by
  induction fuel generalizing x with
  | zero =>
    obtain rfl : x = 0 := by omega
    omega
  | succ fuel ih =>
    have hx : 0 < x := by
      by_contra hzero
      obtain rfl : x = 0 := by omega
      omega
    unfold isqrtLoop
    split_ifs with hless
    · exact ih (by omega) (lt_succ_newton hx)
    · have hroot : x ≤ n / x := by omega
      refine Nat.eq_sqrt.mpr ⟨?_, habove⟩
      exact (Nat.le_div_iff_mul_le hx).mp hroot

theorem isqrt_eq (n : Nat) : isqrt n = Nat.sqrt n := by
  unfold isqrt
  split_ifs with hsmall
  · interval_cases n <;> decide
  · have hfirst : (n + 1) / 2 = (n + n / n) / 2 := by rw [Nat.div_self (by omega)]
    rw [hfirst]
    exact isqrtLoop_eq (by omega) le_rfl (by nlinarith)

/-! ## The tilt -/

/-- No component is beyond 16 g. -/
def InRange (a : Axes) : Prop := a.x.natAbs ≤ 16000 ∧ a.y.natAbs ≤ 16000 ∧ a.z.natAbs ≤ 16000

instance (a : Axes) : Decidable (InRange a) := inferInstanceAs (Decidable (_ ∧ _ ∧ _))

theorem horizSq_le {a : Axes} (h : InRange a) : horizSq a ≤ 512000000 := by
  obtain ⟨hx, hy, -⟩ := h
  have hxx := Nat.mul_le_mul hx hx
  have hyy := Nat.mul_le_mul hy hy
  unfold horizSq
  omega

/-- The tilt is above the limit when the ratio in per cent is at least `k`. -/
theorem tilted_eq {s : SensorState} {limit k : Nat} (himu : s.imuValid = true)
    (hrange : InRange s.accelMg) (hvert : vertSq s.accelMg ≠ 0) (hlimit : limit < 9000)
    (hk : ∀ r, limit < r * 573 / 100 ↔ k ≤ r) :
    tilted s limit = some (decide (k * k * vertSq s.accelMg ≤ horizSq s.accelMg * 10000)) := by
  have hhoriz := horizSq_le hrange
  have hfits : checkedU 64 (horizSq s.accelMg * 10000) = some (horizSq s.accelMg * 10000) :=
    if_pos (by omega)
  have hroot : Nat.sqrt (horizSq s.accelMg * 10000 / vertSq s.accelMg) < 2300000 := by
    refine Nat.sqrt_lt'.mpr (Nat.lt_of_le_of_lt (Nat.div_le_self _ _) ?_)
    omega
  have hratio : k ≤ Nat.sqrt (horizSq s.accelMg * 10000 / vertSq s.accelMg) ↔
      k * k * vertSq s.accelMg ≤ horizSq s.accelMg * 10000 := by
    rw [Nat.le_sqrt, Nat.le_div_iff_mul_le (Nat.pos_of_ne_zero hvert)]
  unfold tilted tiltFromAccel
  rw [if_pos himu, if_neg hvert, hfits]
  simp only [isqrt_eq, Option.bind_eq_bind, Option.bind_some, Option.pure_def, Option.map_some]
  refine congrArg some (decide_eq_decide.mpr ?_)
  rw [← hratio, ← hk]
  generalize Nat.sqrt _ = r at hroot
  have hcast : r * 573 / 100 % 2 ^ 32 = r * 573 / 100 := Nat.mod_eq_of_lt (by omega)
  rw [hcast]
  omega

/-! ## The other reasons to stop -/

def Spinning (s : SensorState) : Prop :=
  s.gyroMdps.x.natAbs > SAFETY_MAX_GYRO_MDPS ∨ s.gyroMdps.y.natAbs > SAFETY_MAX_GYRO_MDPS ∨
    s.gyroMdps.z.natAbs > SAFETY_MAX_GYRO_MDPS

/-- What stops every kind of robot with a valid IMU. -/
def CommonReason (flags : Safety) (s : SensorState) : Prop :=
  flags.estopActive = true ∨ s.tempCdeg > SAFETY_MAX_TEMP_CDEG ∨
    s.accelMg.z < SAFETY_FALL_ACCEL_Z_MG ∨ Spinning s

/-- The position is known and outside of the fence. -/
def LeftFence (g : GeofenceConfig) (s : SensorState) : Prop :=
  (s.gpsFix ≥ GEOFENCE_MIN_FIX ∧ s.gpsSatellites ≥ GEOFENCE_MIN_SATELLITES) ∧ g.radiusM ≠ 0 ∧
    Fits 32 (s.gpsLatUdeg - g.centerLatUdeg) ∧ Fits 32 (s.gpsLonUdeg - g.centerLonUdeg) ∧
    Fits 64 (g.radiusM * g.radiusM) ∧ (g.radiusM : Int) * g.radiusM <
      distSqM2 g (s.gpsLatUdeg - g.centerLatUdeg) (s.gpsLonUdeg - g.centerLonUdeg)

theorem checkGeofenceFromGps_cases (g : GeofenceConfig) (s : SensorState) :
    LeftFence g s ∧
        checkGeofenceFromGps g s = some (some ⟨.ReturnToLaunch, .GeofenceViolation⟩) ∨
      ¬LeftFence g s ∧
        (checkGeofenceFromGps g s = none ∨ checkGeofenceFromGps g s = some none) := by
  unfold checkGeofenceFromGps geofenceCheck LeftFence checked
  by_cases hfix : s.gpsFix ≥ GEOFENCE_MIN_FIX ∧ s.gpsSatellites ≥ GEOFENCE_MIN_SATELLITES
  · by_cases hradius : g.radiusM = 0
    · simp [hfix, hradius]
    by_cases hlat : Fits 32 (s.gpsLatUdeg - g.centerLatUdeg)
    · by_cases hlon : Fits 32 (s.gpsLonUdeg - g.centerLonUdeg)
      · by_cases hsq : Fits 64 ((g.radiusM : Int) * g.radiusM)
        · simp only [hfix, hradius, hlat, hlon, hsq]
          by_cases hfar : (g.radiusM : Int) * g.radiusM < distSqM2 g
              (s.gpsLatUdeg - g.centerLatUdeg) (s.gpsLonUdeg - g.centerLonUdeg) <;>
            simp [hradius, hfar]
        · simp [hfix, hradius, hlat, hlon, hsq]
      · simp [hfix, hradius, hlat, hlon]
    · simp [hfix, hradius, hlat]
  · simp [hfix]

/-- The common check finds the common reasons, and stops the robot for each. -/
theorem checkCommon_cases {s : SensorState} (himu : s.imuValid = true) (flags : Safety)
    (hestop : flags.estopActive = false) :
    CommonReason flags s ∧ (checkCommon s).isViolation = true ∧
        (checkCommon s).action = .EmergencyStop ∨
      ¬CommonReason flags s ∧ (checkCommon s).isViolation = false := by
  unfold CommonReason Spinning checkCommon
  simp only [hestop, himu, Bool.false_eq_true, Bool.not_true, if_false, false_or]
  by_cases htemp : s.tempCdeg > SAFETY_MAX_TEMP_CDEG
  · exact .inl ⟨.inl htemp, by rw [if_pos htemp]; decide⟩
  by_cases hfall : s.accelMg.z < SAFETY_FALL_ACCEL_Z_MG
  · exact .inl ⟨.inr (.inl hfall), by rw [if_neg htemp, if_pos hfall]; decide⟩
  by_cases hspin : s.gyroMdps.x.natAbs > SAFETY_MAX_GYRO_MDPS ∨
      s.gyroMdps.y.natAbs > SAFETY_MAX_GYRO_MDPS ∨ s.gyroMdps.z.natAbs > SAFETY_MAX_GYRO_MDPS
  · exact .inl ⟨.inr (.inr hspin), by rw [if_neg htemp, if_neg hfall, if_pos hspin]; decide⟩
  · refine .inr ⟨?_, ?_⟩
    · simp only [htemp, hfall, hspin, or_self, not_false_eq_true]
    · rw [if_neg htemp, if_neg hfall, if_neg hspin]
      rfl

/-- A robot stops for a common reason, and without one its own check decides. -/
theorem safetyCheck_cases (flags : Safety) (g : GeofenceConfig) {s : SensorState}
    (himu : s.imuValid = true) :
    CommonReason flags s ∧
        (∃ r, safetyCheck flags g s = some r ∧ r.action = .EmergencyStop) ∨
      ¬CommonReason flags s ∧ safetyCheck flags g s =
        if flags.robotType = ROBOT_TYPE_DRONE then checkDrone g s
        else if flags.robotType = ROBOT_TYPE_HUMANOID then checkHumanoid s
        else checkWheeled g s := by
  unfold safetyCheck
  cases hestop : flags.estopActive with
  | true => exact .inl ⟨.inl hestop, _, rfl, rfl⟩
  | false =>
    rw [if_neg Bool.false_ne_true]
    obtain ⟨hreason, hviolation, haction⟩ | ⟨hreason, hviolation⟩ :=
      checkCommon_cases himu flags hestop
    · rw [if_pos hviolation]
      exact .inl ⟨hreason, _, rfl, haction⟩
    · rw [hviolation, if_neg Bool.false_ne_true]
      exact .inr ⟨hreason, rfl⟩

/-- A robot that stands up far enough not to be falling has a vertical component. -/
theorem vertSq_ne_zero {flags : Safety} {s : SensorState} (h : ¬CommonReason flags s) :
    vertSq s.accelMg ≠ 0 := by
  have hz : ¬s.accelMg.z < 500 := fun hlow => h (.inr (.inr (.inl hlow)))
  have hpos : 0 < s.accelMg.z.natAbs := by omega
  exact (Nat.mul_pos hpos hpos).ne'

/-! ## When the robot stops -/

/-- What stops a wheeled robot that is not tilted. -/
def WheeledReason (flags : Safety) (g : GeofenceConfig) (s : SensorState) : Prop :=
  CommonReason flags s ∨ (s.batteryMv > 0 ∧ s.batteryMv < SAFETY_WHEELED_MIN_BATTERY_MV) ∨
    (s.camDistFront > 0 ∧ s.camDistFront < SAFETY_WHEELED_OBSTACLE_MM) ∨ LeftFence g s

/-- What makes a drone that is not tilted act. -/
def DroneReason (flags : Safety) (g : GeofenceConfig) (s : SensorState) : Prop :=
  CommonReason flags s ∨ (s.batteryMv > 0 ∧ s.batteryMv < SAFETY_DRONE_LOW_BATTERY_MV) ∨
    (s.remoteAction.valid = true ∧ s.timestamp.toNat - s.remoteAction.receivedAt.toNat >
      SAFETY_DRONE_COMMS_TIMEOUT_TICKS) ∨
    LeftFence g s

theorem wheeled_stops_iff {flags : Safety} {g : GeofenceConfig} {s : SensorState}
    (htype : flags.robotType = ROBOT_TYPE_WHEELED) (himu : s.imuValid = true)
    (hrange : InRange s.accelMg) :
    (∃ r, safetyCheck flags g s = some r ∧ r.action = .EmergencyStop) ↔
      WheeledReason flags g s ∨ 786 * 786 * vertSq s.accelMg ≤ horizSq s.accelMg * 10000 := by
  have hkind : ROBOT_TYPE_WHEELED ≠ ROBOT_TYPE_DRONE ∧
      ROBOT_TYPE_WHEELED ≠ ROBOT_TYPE_HUMANOID := by
    decide
  have hk : ∀ r, SAFETY_WHEELED_MAX_TILT_CDEG < r * 573 / 100 ↔ 786 ≤ r := by
    unfold SAFETY_WHEELED_MAX_TILT_CDEG
    omega
  unfold WheeledReason
  obtain ⟨hreason, r, hcheck, haction⟩ | ⟨hreason, hcheck⟩ := safetyCheck_cases flags g himu
  · simp [hreason, hcheck, haction]
  have htilt := tilted_eq himu hrange (vertSq_ne_zero hreason) (by decide) hk
  rw [hcheck, htype, if_neg hkind.1, if_neg hkind.2]
  simp only [hreason, false_or]
  unfold checkWheeled
  rw [htilt]
  by_cases hbattery : s.batteryMv > 0 ∧ s.batteryMv < SAFETY_WHEELED_MIN_BATTERY_MV
  · simp [hbattery]
  by_cases hobstacle : s.camDistFront > 0 ∧ s.camDistFront < SAFETY_WHEELED_OBSTACLE_MM
  · simp only [if_neg hbattery, if_pos hobstacle]
    simp [hobstacle]
  simp only [hbattery, hobstacle, if_false, false_or]
  by_cases hsteep : 786 * 786 * vertSq s.accelMg ≤ horizSq s.accelMg * 10000
  · simp [hsteep]
  · obtain ⟨hfence, hcheck⟩ | ⟨hfence, hcheck | hcheck⟩ := checkGeofenceFromGps_cases g s <;>
      simp [hsteep, hfence, hcheck, SafetyResult.safe]

theorem drone_acts_iff {flags : Safety} {g : GeofenceConfig} {s : SensorState}
    (htype : flags.robotType = ROBOT_TYPE_DRONE) (himu : s.imuValid = true)
    (hrange : InRange s.accelMg) :
    (∃ r, safetyCheck flags g s = some r ∧ r.action ≠ .None) ↔
      DroneReason flags g s ∨ 611 * 611 * vertSq s.accelMg ≤ horizSq s.accelMg * 10000 := by
  have hk : ∀ r, SAFETY_DRONE_MAX_TILT_CDEG < r * 573 / 100 ↔ 611 ≤ r := by
    unfold SAFETY_DRONE_MAX_TILT_CDEG
    omega
  unfold DroneReason
  obtain ⟨hreason, r, hcheck, haction⟩ | ⟨hreason, hcheck⟩ := safetyCheck_cases flags g himu
  · simp [hreason, hcheck, haction]
  have htilt := tilted_eq himu hrange (vertSq_ne_zero hreason) (by decide) hk
  rw [hcheck, if_pos htype]
  simp only [hreason, false_or]
  unfold checkDrone
  rw [htilt]
  by_cases hbattery : s.batteryMv > 0 ∧ s.batteryMv < SAFETY_DRONE_LOW_BATTERY_MV
  · by_cases hcritical : s.batteryMv > 0 ∧ s.batteryMv < SAFETY_DRONE_CRITICAL_BATTERY_MV
    · simp [hbattery, hcritical]
    · simp only [if_neg hcritical, if_pos hbattery]
      simp [hbattery]
  have hcritical : ¬(s.batteryMv > 0 ∧ s.batteryMv < SAFETY_DRONE_CRITICAL_BATTERY_MV) := by
    unfold SAFETY_DRONE_LOW_BATTERY_MV at hbattery
    unfold SAFETY_DRONE_CRITICAL_BATTERY_MV
    omega
  simp only [if_neg hcritical, hbattery, if_false, false_or]
  by_cases hsteep : 611 * 611 * vertSq s.accelMg ≤ horizSq s.accelMg * 10000
  · simp [hsteep]
  by_cases hcomms : s.remoteAction.valid = true ∧ s.timestamp.toNat -
      s.remoteAction.receivedAt.toNat > SAFETY_DRONE_COMMS_TIMEOUT_TICKS
  · simp only [hsteep, if_pos hcomms]
    simp [hcomms]
  · simp only [hsteep, hcomms]
    obtain ⟨hfence, hcheck⟩ | ⟨hfence, hcheck | hcheck⟩ := checkGeofenceFromGps_cases g s <;>
      simp [hfence, hcheck, SafetyResult.safe]

/-- A tilt above 45 degrees stops a wheeled robot, and one above 35.3 degrees makes a drone act,
exactly when there is another reason or the tilt is above 82.7 and 80.7 degrees. -/
theorem tilt_stops_iff (flags : Safety) (g : GeofenceConfig) (s : SensorState)
    (himu : s.imuValid = true) (hrange : InRange s.accelMg) :
    (flags.robotType = ROBOT_TYPE_WHEELED →
      ((vertSq s.accelMg < horizSq s.accelMg →
          ∃ r, safetyCheck flags g s = some r ∧ r.action = .EmergencyStop) ↔
        (vertSq s.accelMg < horizSq s.accelMg → WheeledReason flags g s ∨
          786 * 786 * vertSq s.accelMg ≤ horizSq s.accelMg * 10000))) ∧
    (flags.robotType = ROBOT_TYPE_DRONE →
      ((vertSq s.accelMg < 2 * horizSq s.accelMg →
          ∃ r, safetyCheck flags g s = some r ∧ r.action ≠ .None) ↔
        (vertSq s.accelMg < 2 * horizSq s.accelMg → DroneReason flags g s ∨
          611 * 611 * vertSq s.accelMg ≤ horizSq s.accelMg * 10000))) := by
  constructor
  · intro htype
    rw [wheeled_stops_iff htype himu hrange]
  · intro htype
    rw [drone_acts_iff htype himu hrange]

/-- A robot at a tilt of 63 degrees, with nothing else wrong. -/
def leaning : SensorState :=
  { camDistFront := 1000
    accelMg := ⟨1000, 0, 500⟩
    gyroMdps := ⟨0, 0, 0⟩
    imuValid := true
    batteryMv := 8000
    tempCdeg := 2500
    gpsLatUdeg := 0
    gpsLonUdeg := 0
    gpsFix := 0
    gpsSatellites := 0
    remoteAction := ⟨CMD_NONE, 0, 0, 0, false⟩
    timestamp := 0 }

/-- A wheeled robot that is turned over further stops. -/
theorem tilt_stops_iff_overturned :
    ∃ r, safetyCheck ⟨false, ROBOT_TYPE_WHEELED, false, 0⟩ ⟨0, 0, 0⟩
      { leaning with accelMg := ⟨16000, 0, 500⟩ } = some r ∧ r.action = .EmergencyStop :=
  ((tilt_stops_iff _ _ _ rfl (by decide)).1 rfl).mpr (fun _ => .inr (by decide)) (by decide)

/-- Neither a wheeled robot nor a drone reacts to it. -/
theorem leaning_not_stopped :
    let wheeled : Safety := ⟨false, ROBOT_TYPE_WHEELED, false, 0⟩
    let drone : Safety := ⟨false, ROBOT_TYPE_DRONE, false, 0⟩
    leaning.imuValid = true ∧ InRange leaning.accelMg ∧
      vertSq leaning.accelMg < horizSq leaning.accelMg ∧
      safetyCheck wheeled ⟨0, 0, 0⟩ leaning = some .safe ∧
      safetyCheck drone ⟨0, 0, 0⟩ leaning = some .safe := by
  decide

end RobotOs.Behavior
