import RobotOs.Lib.Checked

/-!
# The flight controllers and the motor mixer

The arithmetic of the flight crate: the integer PID controller, the cascade of
an angle and a rate controller for each axis, and the mixer that turns the
throttle and three corrections into one value for each motor.  The kernel is
built with overflow checks, so every `i32` and `i64` operation is a checked one
and `none` is the panic; an `as` cast keeps the low bits.

`Pid.Keeps e` is the invariant of a controller that is fed errors up to `e`: the
gains leave room for them, the integral stays within its windup limit and the
previous error within `e`.  `Pid.update_yields` is the only proof about
`update`: it does not stop, its output is within the limits and the invariant
is kept.  `mixerCompute_yields` is the same for the mixer, for every frame.
-/

namespace RobotOs.Flight

open Lib.Checked

/-! ## One controller -/

/-- `Pid`.  Gains are stored times 1000. -/
structure Pid where
  kp : Int
  ki : Int
  kd : Int
  integral : Int
  prevError : Int
  outMin : Int
  outMax : Int
  iMax : Int
deriving DecidableEq

/-- `(a as i64 * b as i64 / d) as i32`. -/
def mulDiv (a b d : Int) : Option Int := do
  let n ← checked 64 (a * b)
  return truncate 32 (n.tdiv d)

/-- `i32::saturating_mul`. -/
def saturatingMul (a b : Int) : Int := max (-2 ^ 31) (min (2 ^ 31 - 1) (a * b))

namespace Pid

/-- `Pid::new`. -/
def new (kp ki kd outMin outMax : Int) : Pid where
  kp := kp
  ki := ki
  kd := kd
  integral := 0
  prevError := 0
  outMin := outMin
  outMax := outMax
  iMax := (saturatingMul outMax 1000).tdiv (if 0 < ki then ki else 1)

/-- The anti-windup clamp of `update`: `low` is `-i_max`. -/
def antiWindup (pid : Pid) (low raw : Int) : Int :=
  let capped := if raw > pid.iMax then pid.iMax else raw
  if capped < low then low else capped

/-- The output clamp of `update`. -/
def limit (pid : Pid) (out : Int) : Int :=
  if out > pid.outMax then pid.outMax else if out < pid.outMin then pid.outMin else out

/-- `Pid::update`: the output and the controller after it. -/
def update (pid : Pid) (error : Int) (dtUs : Nat) : Option (Int × Pid) :=
  if dtUs = 0 then some (0, pid)
  else do
    let p ← mulDiv pid.kp error 1000
    let growth ← mulDiv error dtUs 1000000
    let raw ← checked 32 (pid.integral + growth)
    let low ← checked 32 (-pid.iMax)
    let integral := pid.antiWindup low raw
    let i ← mulDiv pid.ki integral 1000
    let change ← checked 32 (error - pid.prevError)
    let dError ← mulDiv change 1000000 dtUs
    let d ← mulDiv pid.kd dError 1000
    let pi ← checked 32 (p + i)
    let out ← checked 32 (pi + d)
    return (pid.limit out, { pid with integral := integral, prevError := error })

/-- The controller has room for errors up to `e`, and its memory is that of a
controller that was only fed such errors. -/
structure Keeps (e : Int) (pid : Pid) : Prop where
  error_nonneg : 0 ≤ e
  kp_nonneg : 0 ≤ pid.kp
  ki_nonneg : 0 ≤ pid.ki
  kd_nonneg : 0 ≤ pid.kd
  gain_small : pid.kp < 2 ^ 31 ∧ pid.ki < 2 ^ 31 ∧ pid.kd < 2 ^ 31
  outs : pid.outMin ≤ pid.outMax
  iMax_nonneg : 0 ≤ pid.iMax
  integral_room : pid.iMax + e < 2 ^ 31
  change_room : e + e < 2 ^ 31
  terms_room : pid.kp * e / 1000 + pid.ki * pid.iMax / 1000 + pid.kd * 2 ^ 31 / 1000 < 2 ^ 31
  integral : Within pid.iMax pid.integral
  prevError : Within e pid.prevError

/-- The two values that `update` writes. -/
theorem Keeps.memory {e : Int} {pid : Pid} (h : pid.Keeps e) {i err : Int}
    (hi : Within pid.iMax i) (herr : Within e err) :
    Keeps e { pid with integral := i, prevError := err } where
  error_nonneg := h.error_nonneg
  kp_nonneg := h.kp_nonneg
  ki_nonneg := h.ki_nonneg
  kd_nonneg := h.kd_nonneg
  gain_small := h.gain_small
  outs := h.outs
  iMax_nonneg := h.iMax_nonneg
  integral_room := h.integral_room
  change_room := h.change_room
  terms_room := h.terms_room
  integral := hi
  prevError := herr

/-- `mulDiv` on bounded factors whose quotient fits. -/
theorem mulDiv_yields {a b d ba bb : Int} (ha : Within ba a) (hb : Within bb b) (hd : 0 < d)
    (hroom : ba * bb < 2 ^ 63) (hquot : ba * bb / d < 2 ^ 31) :
    Yields (mulDiv a b d) (Within (ba * bb / d)) :=
  (yields_checked (ha.mul hb) hroom).bind fun _ hn =>
    Yields.of_some ((hn.tdiv hd).truncate (by omega) hquot)

/-- `mulDiv` on factors whose quotient is cut to 32 bits. -/
theorem mulDiv_yields_cut {a b d ba bb : Int} (ha : Within ba a) (hb : Within bb b)
    (hroom : ba * bb < 2 ^ 63) : Yields (mulDiv a b d) (Within (2 ^ 31)) :=
  (yields_checked (ha.mul hb) hroom).bind fun _ _ =>
    Yields.of_some (within_of_fits (truncate_fits 32 (by omega) _))

theorem antiWindup_within {pid : Pid} {low : Int} (hmax : 0 ≤ pid.iMax)
    (hlow : low = -pid.iMax) (raw : Int) : Within pid.iMax (pid.antiWindup low raw) := by
  unfold antiWindup
  dsimp only
  constructor
  · split_ifs <;> omega
  · split_ifs <;> omega

theorem limit_mem {pid : Pid} (h : pid.outMin ≤ pid.outMax) (out : Int) :
    pid.outMin ≤ pid.limit out ∧ pid.limit out ≤ pid.outMax := by
  unfold limit
  constructor
  · split_ifs <;> omega
  · split_ifs <;> omega

/-- A product of a gain and a bounded value leaves room in 64 bits. -/
theorem gain_room {k b : Int} (hk : 0 ≤ k) (hk' : k < 2 ^ 31) (hb : 0 ≤ b) (hb' : b ≤ 2 ^ 31) :
    k * b < 2 ^ 63 := by
  have h : k * b ≤ (2 ^ 31 - 1) * 2 ^ 31 :=
    mul_le_mul (by omega) hb' hb (by norm_num)
  exact lt_of_le_of_lt h (by norm_num)

theorem within_self {b : Int} (hb : 0 ≤ b) : Within b b := ⟨by omega, le_refl b⟩

/-- What the output of an update is bounded by, and what it leaves. -/
structure Updated (e : Int) (pid : Pid) (r : Int × Pid) : Prop where
  out_ge : pid.outMin ≤ r.1
  out_le : r.1 ≤ pid.outMax
  keeps : r.2.Keeps e
  outMin : r.2.outMin = pid.outMin
  outMax : r.2.outMax = pid.outMax

/-- An update on an error and a time step in range does not overflow. -/
theorem update_yields {e : Int} {pid : Pid} (h : pid.Keeps e) {error : Int}
    (herror : Within e error) {dtUs : Nat} (hpos : 0 < dtUs) (hdt : dtUs ≤ 1000000) :
    Yields (pid.update error dtUs) (pid.Updated e) := by
  obtain ⟨hkp', hki', hkd'⟩ := h.gain_small
  have he := h.error_nonneg
  have hmax := h.iMax_nonneg
  have hroom := h.integral_room
  have hchange := h.change_room
  have hterms := h.terms_room
  have hp0 : 0 ≤ pid.kp * e / 1000 := Int.ediv_nonneg (mul_nonneg h.kp_nonneg he) (by omega)
  have hi0 : 0 ≤ pid.ki * pid.iMax / 1000 :=
    Int.ediv_nonneg (mul_nonneg h.ki_nonneg hmax) (by omega)
  have hd0 : 0 ≤ pid.kd * 2 ^ 31 / 1000 :=
    Int.ediv_nonneg (mul_nonneg h.kd_nonneg (by norm_num)) (by omega)
  have hdt' : Within 1000000 (dtUs : Int) := ⟨by omega, by omega⟩
  unfold update
  rw [if_neg (by omega)]
  -- the proportional term
  refine (mulDiv_yields (within_self h.kp_nonneg) herror (by omega)
    (gain_room h.kp_nonneg hkp' he (by omega)) (by omega)).bind fun p hp => ?_
  -- the integral grows by at most the error, since the step is at most a second
  refine (mulDiv_yields herror hdt' (by omega) (by omega) (by omega)).bind fun growth hgrowth => ?_
  rw [Int.mul_ediv_cancel e (by omega)] at hgrowth
  refine (yields_checked (h.integral.add hgrowth) hroom).bind fun raw _ => ?_
  have hlow : Fits 32 (-pid.iMax) := ⟨by omega, by omega⟩
  refine Yields.bind (Q := fun low => low = -pid.iMax) ⟨_, if_pos hlow, rfl⟩ fun low hlow => ?_
  have hintegral := antiWindup_within hmax hlow raw
  refine (mulDiv_yields (within_self h.ki_nonneg) hintegral (by omega)
    (gain_room h.ki_nonneg hki' hmax (by omega)) (by omega)).bind fun i hi => ?_
  -- the derivative may be cut to 32 bits, and the gain keeps it small all the same
  refine (yields_checked (herror.sub h.prevError) hchange).bind fun change hc => ?_
  refine (mulDiv_yields_cut hc (within_self (b := 1000000) (by omega)) (by omega)).bind
    fun dError hdError => ?_
  refine (mulDiv_yields (within_self h.kd_nonneg) hdError (by omega)
    (gain_room h.kd_nonneg hkd' (by norm_num) (le_refl _)) (by omega)).bind fun d hd => ?_
  refine (yields_checked (hp.add hi) (by omega)).bind fun pi hpi => ?_
  refine (yields_checked (hpi.add hd) hterms).bind fun out _ => ?_
  obtain ⟨hge, hle⟩ := limit_mem h.outs out
  exact Yields.of_some ⟨hge, hle, h.memory hintegral herror, rfl, rfl⟩

end Pid

/-! ## The cascade -/

/-- The index of a controller: 0, 1 and 2 in the source. -/
inductive Axis where
  | roll
  | pitch
  | yaw
deriving DecidableEq

/-- `FlightPid`.  The altitude controller has no caller in the flight loop. -/
structure FlightPid where
  anglePid : Axis → Pid
  ratePid : Axis → Pid

namespace FlightPid

/-- `FlightPid::new`: the default tuning. -/
def new : FlightPid where
  anglePid := fun _ => Pid.new 4500 500 0 (-30000) 30000
  ratePid := fun _ => Pid.new 1200 300 100 (-500) 500

def setAngle (pid : FlightPid) (axis : Axis) (p : Pid) : FlightPid :=
  { pid with anglePid := fun a => if a = axis then p else pid.anglePid a }

def setRate (pid : FlightPid) (axis : Axis) (p : Pid) : FlightPid :=
  { pid with ratePid := fun a => if a = axis then p else pid.ratePid a }

/-- `(target as i64 - gyro as i64).clamp(i32::MIN, i32::MAX) as i32`. -/
def rateError (target gyro : Int) : Int := max (-2 ^ 31) (min (2 ^ 31 - 1) (target - gyro))

/-- The inner loop: a rate controller on a target rate and a measured rate. -/
def updateRate (pid : FlightPid) (target gyro : Int) (axis : Axis) (dtUs : Nat) :
    Option (Int × FlightPid) := do
  let (out, p) ← (pid.ratePid axis).update (rateError target gyro) dtUs
  return (out, pid.setRate axis p)

/-- `FlightPid::update_axis`. -/
def updateAxis (pid : FlightPid) (angleError gyroRate : Int) (axis : Axis) (dtUs : Nat) :
    Option (Int × FlightPid) := do
  let (targetRate, p) ← (pid.anglePid axis).update angleError dtUs
  (pid.setAngle axis p).updateRate targetRate gyroRate axis dtUs

/-- The largest angle error and rate error that the tuning leaves room for, in
round numbers. -/
def MAX_ANGLE_ERROR : Int := 400000000
def MAX_RATE_ERROR : Int := 1000000000

/-- The invariant of the six controllers. -/
structure Keeps (pid : FlightPid) : Prop where
  angle : ∀ axis, (pid.anglePid axis).Keeps MAX_ANGLE_ERROR
  rate : ∀ axis, (pid.ratePid axis).Keeps MAX_RATE_ERROR
  angle_out : ∀ axis, (pid.anglePid axis).outMin = -30000 ∧ (pid.anglePid axis).outMax = 30000
  rate_out : ∀ axis, (pid.ratePid axis).outMin = -500 ∧ (pid.ratePid axis).outMax = 500

theorem keeps_anglePid : (Pid.new 4500 500 0 (-30000) 30000).Keeps MAX_ANGLE_ERROR := by
  constructor <;> decide

theorem keeps_ratePid : (Pid.new 1200 300 100 (-500) 500).Keeps MAX_RATE_ERROR := by
  constructor <;> decide

theorem keeps_new : Keeps new where
  angle _ := keeps_anglePid
  rate _ := keeps_ratePid
  angle_out _ := ⟨rfl, rfl⟩
  rate_out _ := ⟨rfl, rfl⟩

theorem Keeps.setAngle {pid : FlightPid} (h : pid.Keeps) {axis : Axis} {p : Pid} {out : Int}
    (hp : (pid.anglePid axis).Updated MAX_ANGLE_ERROR (out, p)) : (pid.setAngle axis p).Keeps where
  angle a := by
    unfold FlightPid.setAngle
    dsimp only
    split_ifs
    · exact hp.keeps
    · exact h.angle a
  rate := h.rate
  angle_out a := by
    unfold FlightPid.setAngle
    dsimp only
    split_ifs
    · rw [hp.outMin, hp.outMax]
      exact h.angle_out axis
    · exact h.angle_out a
  rate_out := h.rate_out

theorem Keeps.setRate {pid : FlightPid} (h : pid.Keeps) {axis : Axis} {p : Pid} {out : Int}
    (hp : (pid.ratePid axis).Updated MAX_RATE_ERROR (out, p)) : (pid.setRate axis p).Keeps where
  angle := h.angle
  rate a := by
    unfold FlightPid.setRate
    dsimp only
    split_ifs
    · exact hp.keeps
    · exact h.rate a
  angle_out := h.angle_out
  rate_out a := by
    unfold FlightPid.setRate
    dsimp only
    split_ifs
    · rw [hp.outMin, hp.outMax]
      exact h.rate_out axis
    · exact h.rate_out a

/-- A correction within the mixer's range, and controllers that keep their
invariant. -/
def Corrects (r : Int × FlightPid) : Prop := Within 500 r.1 ∧ r.2.Keeps

theorem rateError_within {b target gyro : Int} (h : Within b (target - gyro))
    (hb : b < 2 ^ 31) : Within b (rateError target gyro) := by
  obtain ⟨hlo, hhi⟩ := h
  unfold rateError
  exact ⟨by omega, by omega⟩

theorem updateRate_yields {pid : FlightPid} (h : pid.Keeps) {target gyro : Int} {axis : Axis}
    (herror : Within MAX_RATE_ERROR (target - gyro)) {dtUs : Nat} (hpos : 0 < dtUs)
    (hdt : dtUs ≤ 1000000) : Yields (pid.updateRate target gyro axis dtUs) Corrects := by
  have herror' := rateError_within herror (by decide)
  refine (Pid.update_yields (h.rate axis) herror' hpos hdt).bind ?_
  rintro ⟨out, p⟩ hp
  obtain ⟨hmin, hmax⟩ := h.rate_out axis
  have hge := hp.out_ge
  have hle := hp.out_le
  rw [hmin] at hge
  rw [hmax] at hle
  exact Yields.of_some ⟨⟨hge, hle⟩, h.setRate hp⟩

theorem updateAxis_yields {pid : FlightPid} (h : pid.Keeps) {angleError gyroRate : Int}
    {axis : Axis} (herror : Within MAX_ANGLE_ERROR angleError) (hgyro : Within 800000000 gyroRate)
    {dtUs : Nat} (hpos : 0 < dtUs) (hdt : dtUs ≤ 1000000) :
    Yields (pid.updateAxis angleError gyroRate axis dtUs) Corrects := by
  refine (Pid.update_yields (h.angle axis) herror hpos hdt).bind ?_
  rintro ⟨rate, p⟩ hp
  obtain ⟨hmin, hmax⟩ := h.angle_out axis
  have hrate : Within 30000 rate := ⟨hmin ▸ hp.out_ge, hmax ▸ hp.out_le⟩
  have hdiff : Within MAX_RATE_ERROR (rate - gyroRate) := (hrate.sub hgyro).mono (by decide)
  exact updateRate_yields (h.setAngle hp) hdiff hpos hdt

end FlightPid

/-! ## The mixer -/

def THROTTLE_MAX : Int := 1000
def THROTTLE_IDLE : Int := 50

/-- `FrameType`. -/
inductive FrameType where
  | quadX
  | quadPlus
  | hex
  | octo
  | tri
  | y6
  | hexX
  | coax
deriving DecidableEq

/-- `clamp_throttle`; `armed` is what `is_armed` answers. -/
def clampThrottle (armed : Bool) (v : Int) : Int :=
  let floor := if armed then THROTTLE_IDLE else 0
  if v ≤ floor then floor else if v ≥ THROTTLE_MAX then THROTTLE_MAX else v

/-- `x * c / 1000`. -/
def scaled (x c : Int) : Option Int := do
  let n ← checked 32 (x * c)
  return n.tdiv 1000

/-- `x - t` adds this term. -/
def minus (t : Option Int) : Option Int := t.map (-·)

/-- The corrections of an arm given by its roll, pitch and yaw factors. -/
def arm (roll pitch yaw : Int) (factors : Int × Int × Int) : List (Option Int) :=
  [scaled roll factors.1, scaled pitch factors.2.1, checked 32 (yaw * factors.2.2)]

/-- The two motors of a co-axial arm. -/
def coaxialArm (roll pitch yaw : Int) (factors : Int × Int) : List (List (Option Int)) :=
  [[scaled roll factors.1, scaled pitch factors.2, some (-yaw)],
    [scaled roll factors.1, scaled pitch factors.2, some yaw]]

/-- The throttle from which the motors of a frame start. -/
def baseThrottle (frame : FrameType) (throttle : Int) : Int :=
  match frame with
  | .y6 | .coax => throttle.tdiv 2
  | _ => throttle

/-- What each motor of a frame adds to the throttle, from left to right. -/
def corrections (frame : FrameType) (roll pitch yaw : Int) : List (List (Option Int)) :=
  match frame with
  | .quadX =>
    [[some (-roll), some pitch, some (-yaw)],
      [some roll, some pitch, some yaw],
      [some roll, some (-pitch), some (-yaw)],
      [some (-roll), some (-pitch), some yaw]]
  | .quadPlus =>
    [[some pitch, some (-yaw)], [some roll, some yaw], [some (-roll), some yaw],
      [some (-pitch), some (-yaw)]]
  | .hex =>
    [[some pitch, some (-yaw)],
      [some (roll.tdiv 2), some (pitch.tdiv 2), some yaw],
      [some (roll.tdiv 2), some (-pitch.tdiv 2), some (-yaw)],
      [some (-pitch), some yaw],
      [some (-roll.tdiv 2), some (-pitch.tdiv 2), some (-yaw)],
      [some (-roll.tdiv 2), some (pitch.tdiv 2), some yaw]]
  | .octo =>
    [(0, 1000, -1), (707, 707, 1), (1000, 0, -1), (707, -707, 1), (0, -1000, -1),
      (-707, -707, 1), (-1000, 0, -1), (-707, 707, 1)].map (arm roll pitch yaw)
  | .tri =>
    [[some (-roll), some pitch, some (-yaw.tdiv 2)],
      [some roll, some pitch, some (yaw.tdiv 2)],
      [some (-pitch)]]
  | .y6 =>
    [[some pitch, some (-yaw)], [some pitch, some yaw],
      [minus (scaled roll 866), scaled pitch (-500), some (-yaw)],
      [minus (scaled roll 866), scaled pitch (-500), some yaw],
      [scaled roll 866, scaled pitch (-500), some (-yaw)],
      [scaled roll 866, scaled pitch (-500), some yaw]]
  | .hexX =>
    [(500, 866, -1), (1000, 0, 1), (500, -866, -1), (-500, -866, 1), (-1000, 0, -1),
      (-500, 866, 1)].map (arm roll pitch yaw)
  | .coax =>
    [(-707, 707), (707, 707), (707, -707), (-707, -707)].flatMap (coaxialArm roll pitch yaw)

/-- `mixer_compute`: the values of the active motors. -/
def mixerCompute (armed : Bool) (frame : FrameType) (throttle roll pitch yaw : Int) :
    Option (List Int) := do
  let sums ← (corrections frame roll pitch yaw).mapM
    (sumChecked 32 (baseThrottle frame throttle))
  return sums.map (clampThrottle armed)

theorem clampThrottle_mem (v : Int) :
    THROTTLE_IDLE ≤ clampThrottle true v ∧ clampThrottle true v ≤ THROTTLE_MAX := by
  unfold clampThrottle THROTTLE_IDLE THROTTLE_MAX
  rw [if_pos rfl]
  dsimp only
  constructor
  · split_ifs <;> omega
  · split_ifs <;> omega

section Mixer

variable {roll pitch yaw : Int}

theorem scaled_yields {x c : Int} (hx : Within 500 x) (hc : Within 1000 c) :
    Yields (scaled x c) (Within 500) :=
  (yields_checked (hx.mul hc) (by norm_num)).bind fun _ hn => Yields.of_some (hn.tdiv (by omega))

theorem minus_yields {t : Option Int} {b : Int} (h : Yields t (Within b)) :
    Yields (minus t) (Within b) := by
  obtain ⟨n, rfl, hn⟩ := h
  exact ⟨-n, rfl, hn.neg⟩

/-- Every term of an arm is a correction or a share of one. -/
theorem arm_yields (hroll : Within 500 roll) (hpitch : Within 500 pitch) (hyaw : Within 500 yaw)
    {factors : Int × Int × Int} (hr : Within 1000 factors.1) (hp : Within 1000 factors.2.1)
    (hy : Within 1 factors.2.2) : ∀ t ∈ arm roll pitch yaw factors, Yields t (Within 500) := by
  intro t ht
  simp only [arm, List.mem_cons, List.not_mem_nil, or_false] at ht
  rcases ht with rfl | rfl | rfl
  · exact scaled_yields hroll hr
  · exact scaled_yields hpitch hp
  · exact yields_checked (hyaw.mul hy) (by norm_num)

/-- A motor adds at most three terms, each within the range of a correction. -/
def Gentle (terms : List (Option Int)) : Prop :=
  terms.length ≤ 3 ∧ ∀ t ∈ terms, Yields t (Within 500)

theorem gentle_arms (hroll : Within 500 roll) (hpitch : Within 500 pitch)
    (hyaw : Within 500 yaw) {table : List (Int × Int × Int)}
    (htable : ∀ f ∈ table, Within 1000 f.1 ∧ Within 1000 f.2.1 ∧ Within 1 f.2.2) :
    ∀ terms ∈ table.map (arm roll pitch yaw), Gentle terms := by
  intro terms hterms
  obtain ⟨f, hf, rfl⟩ := List.mem_map.mp hterms
  obtain ⟨hr, hp, hy⟩ := htable f hf
  exact ⟨le_refl 3, arm_yields hroll hpitch hyaw hr hp hy⟩

theorem gentle_coaxialArm (hroll : Within 500 roll) (hpitch : Within 500 pitch)
    (hyaw : Within 500 yaw) {f : Int × Int} (hr : Within 1000 f.1) (hp : Within 1000 f.2) :
    ∀ terms ∈ coaxialArm roll pitch yaw f, Gentle terms := by
  have hr' := scaled_yields hroll hr
  have hp' := scaled_yields hpitch hp
  have hy := Yields.of_some hyaw
  have hny := Yields.of_some hyaw.neg
  simp [coaxialArm, Gentle, hr', hp', hy, hny]

/-- Every motor of every frame. -/
theorem gentle_corrections (frame : FrameType) (hroll : Within 500 roll)
    (hpitch : Within 500 pitch) (hyaw : Within 500 yaw) :
    ∀ terms ∈ corrections frame roll pitch yaw, Gentle terms := by
  have hr := Yields.of_some hroll
  have hnr := Yields.of_some hroll.neg
  have hp := Yields.of_some hpitch
  have hnp := Yields.of_some hpitch.neg
  have hy := Yields.of_some hyaw
  have hny := Yields.of_some hyaw.neg
  have half {x : Int} (hx : Within 500 x) : Within 500 (x.tdiv 2) :=
    hx.tdiv_self (by omega) (by omega)
  cases frame with
  | quadX => simp [corrections, Gentle, hr, hnr, hp, hnp, hy, hny]
  | quadPlus => simp [corrections, Gentle, hr, hnr, hp, hnp, hy, hny]
  | hex =>
    have hhr := Yields.of_some (half hroll)
    have hhnr := Yields.of_some (half hroll).neg
    have hhp := Yields.of_some (half hpitch)
    have hhnp := Yields.of_some (half hpitch).neg
    simp [corrections, Gentle, hp, hnp, hy, hny, hhr, hhnr, hhp, hhnp]
  | octo => exact gentle_arms hroll hpitch hyaw (by decide)
  | tri =>
    have hhy := Yields.of_some (half hyaw)
    have hhny := Yields.of_some (half hyaw).neg
    simp [corrections, Gentle, hr, hnr, hp, hnp, hhy, hhny]
  | y6 =>
    have hsr := scaled_yields (c := 866) hroll (by decide)
    have hsp := scaled_yields (c := -500) hpitch (by decide)
    have hmr := minus_yields hsr
    simp [corrections, Gentle, hp, hy, hny, hsr, hsp, hmr]
  | hexX => exact gentle_arms hroll hpitch hyaw (by decide)
  | coax =>
    intro terms hterms
    obtain ⟨f, hf, hterms⟩ := List.mem_flatMap.mp hterms
    have hfactors : Within 1000 f.1 ∧ Within 1000 f.2 := by
      clear hterms
      revert f
      decide
    exact gentle_coaxialArm hroll hpitch hyaw hfactors.1 hfactors.2 terms hterms

theorem baseThrottle_within (frame : FrameType) {throttle : Int} (h : Within 65535 throttle) :
    Within 65535 (baseThrottle frame throttle) := by
  cases frame with
  | y6 => exact h.tdiv_self (by omega) (by omega)
  | coax => exact h.tdiv_self (by omega) (by omega)
  | _ => exact h

/-- The armed mixer does not overflow on corrections in their range, and every
motor turns between idle and full power. -/
theorem mixerCompute_yields (frame : FrameType) {throttle : Int} (hthrottle : Within 65535 throttle)
    (hroll : Within 500 roll) (hpitch : Within 500 pitch) (hyaw : Within 500 yaw) :
    Yields (mixerCompute true frame throttle roll pitch yaw)
      fun motors => ∀ m ∈ motors, THROTTLE_IDLE ≤ m ∧ m ≤ THROTTLE_MAX := by
  have hsums : ∀ terms ∈ corrections frame roll pitch yaw,
      Yields (sumChecked 32 (baseThrottle frame throttle) terms) fun _ => True := by
    intro terms hterms
    obtain ⟨hlen, hgentle⟩ := gentle_corrections frame hroll hpitch hyaw terms hterms
    exact yields_sum (by omega) terms 65535 _ (baseThrottle_within frame hthrottle)
      (by norm_num; omega) hgentle
  refine (Yields.mapM _ hsums).bind fun sums _ => Yields.of_some ?_
  intro m hm
  obtain ⟨v, -, rfl⟩ := List.mem_map.mp hm
  exact clampThrottle_mem v

end Mixer

end RobotOs.Flight
