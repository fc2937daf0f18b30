import RobotOs.Drivers.MotorPid
import RobotOs.Lib.Checked
import RobotOs.Lib.Run

/-!
# The control law of the motor controller

`PidController::update` against the law that its comments give.

The gains are scaled by 65536.  The proportional term is scaled back once, as it should be;
the step of the integral and the derivative are scaled back twice.  So the integral and the
derivative count for almost nothing, and the law holds exactly when both gains are zero.
-/

namespace RobotOs.Drivers.PidController

open Lib.Saturating Lib.Checked Lib.Run

/-- A call of `update`. -/
structure Sample where
  setpoint : Int
  measurement : Int
  dtMs : Nat
  deriving DecidableEq, Repr

def Sample.error (x : Sample) : Int := x.setpoint - x.measurement

/-- Errors of at most 1000, and steps of 1 to 1000 milliseconds. -/
def Sample.InRange (x : Sample) : Prop := Within 1000 x.error ∧ 1 ≤ x.dtMs ∧ x.dtMs ≤ 1000

instance (x : Sample) : Decidable x.InRange := inferInstanceAs (Decidable (_ ∧ _ ∧ _))

def step (c : PidController) (x : Sample) : PidController :=
  (c.update x.setpoint x.measurement x.dtMs).2

def output (c : PidController) (x : Sample) : Int := (c.update x.setpoint x.measurement x.dtMs).1

/-- The law: the terms of the sample `x` after the samples `xs`. -/
def law (kp ki kd : Int) (xs : List Sample) (x : Sample) : ℚ :=
  let sum := ((xs ++ [x]).map fun y => y.error * (y.dtMs : Int)).sum
  let prev := (xs.getLast?.map Sample.error).getD 0
  clamp (-100) 100 (kp * x.error + ki * sum / 1000 + kd * (x.error - prev) * 1000 / x.dtMs)

/-- The integral has not come to its limit. -/
def Unwound (c : PidController) : Prop :=
  c.integral.natAbs < (INTEGRAL_WINDUP_LIMIT * FIXED_SCALE).natAbs

instance (c : PidController) : Decidable c.Unwound := inferInstanceAs (Decidable (_ < _))

/-- Each output is as close to the law as the number of steps so far, and two. -/
def FollowsLaw (kp ki kd : Int) : Prop :=
  ∀ xs x, (∀ y ∈ xs ++ [x], y.InRange) →
    Guarded step (fun c y => Unwound (step c y)) (new kp ki kd) (xs ++ [x]) →
    |(output (run step (new kp ki kd) xs) x : ℚ) - law kp ki kd xs x| ≤ xs.length + 1 + 2

/-! ## A step without saturation -/

theorem satI64_of_within {n : Int} (h : Within (2 ^ 63 - 1) n) : satI64 n = n := by
  obtain ⟨hlo, hhi⟩ := h
  unfold satI64 clamp
  rw [if_neg (by omega), if_neg (by omega)]

/-- Gains of at most 1000, and a state that the samples can lead to. -/
structure Tame (kp ki kd : Int) (c : PidController) : Prop where
  gains : c.kp = kp * FIXED_SCALE ∧ c.ki = ki * FIXED_SCALE ∧ c.kd = kd * FIXED_SCALE
  kp : Within 1000 kp
  ki : Within 1000 ki
  kd : Within 1000 kd
  prev : Within 1000 c.prevError
  integral : Within (INTEGRAL_WINDUP_LIMIT * FIXED_SCALE) c.integral

variable {kp ki kd : Int} {c : PidController} {x : Sample}

theorem tame_new (hkp : Within 1000 kp) (hki : Within 1000 ki) (hkd : Within 1000 kd) :
    Tame kp ki kd (new kp ki kd) :=
  ⟨⟨rfl, rfl, rfl⟩, hkp, hki, hkd, by show Within 1000 0; decide,
    by show Within _ 0; decide⟩

theorem within_scale : Within FIXED_SCALE FIXED_SCALE := by decide

theorem Sample.InRange.dt (h : x.InRange) : Within 1000 (x.dtMs : Int) ∧ (0 : Int) < x.dtMs := by
  obtain ⟨-, hpos, hshort⟩ := h
  exact ⟨⟨by omega, by omega⟩, by omega⟩

theorem Sample.InRange.clamp_error (h : x.InRange) :
    clamp (-ERROR_LIMIT) ERROR_LIMIT (x.setpoint - x.measurement) = x.error := by
  obtain ⟨⟨hlo, hhi⟩, -⟩ := h
  unfold Sample.error at hlo hhi ⊢
  unfold clamp ERROR_LIMIT
  rw [if_neg (by omega), if_neg (by omega)]

/-- The proportional term is exact. -/
theorem Tame.proportional (h : Tame kp ki kd c) (hx : x.InRange) :
    (satI64 (c.kp * x.error)).tdiv FIXED_SCALE = kp * x.error := by
  have hproduct := (h.kp.mul within_scale).mul hx.1
  rw [h.gains.1, satI64_of_within (hproduct.mono (by decide)), mul_right_comm]
  exact Int.mul_tdiv_cancel _ (by decide)

/-- The step of the integral is not scaled any more. -/
theorem Tame.integralStep (h : Tame kp ki kd c) (hx : x.InRange) :
    (satI64 (satI64 (c.ki * x.error) * x.dtMs)).tdiv (FIXED_SCALE * 1000) =
      (ki * x.error * x.dtMs).tdiv 1000 := by
  have hproduct := (h.ki.mul within_scale).mul hx.1
  have hscaled : ki * FIXED_SCALE * x.error * x.dtMs =
      FIXED_SCALE * (ki * x.error * x.dtMs) := by ring
  rw [h.gains.2.1, satI64_of_within (hproduct.mono (by decide)),
    satI64_of_within ((hproduct.mul hx.dt.1).mono (by decide)), hscaled]
  exact Int.mul_tdiv_mul_of_pos _ _ (by decide)

/-- Nor is the derivative. -/
theorem Tame.derivative (h : Tame kp ki kd c) (hx : x.InRange) :
    (satI64 (satI64 (c.kd * (x.error - c.prevError)) * 1000)).tdiv (FIXED_SCALE * x.dtMs) =
      (kd * (x.error - c.prevError) * 1000).tdiv x.dtMs := by
  have hproduct := (h.kd.mul within_scale).mul (hx.1.sub h.prev)
  have hscaled : kd * FIXED_SCALE * (x.error - c.prevError) * 1000 =
      FIXED_SCALE * (kd * (x.error - c.prevError) * 1000) := by ring
  have hthousand : Within 1000 1000 := by decide
  rw [h.gains.2.2, satI64_of_within (hproduct.mono (by decide)),
    satI64_of_within ((hproduct.mul hthousand).mono (by decide)), hscaled]
  exact Int.mul_tdiv_mul_of_pos _ _ (by decide)

/-- The integral after a sample. -/
def nextIntegral (ki : Int) (c : PidController) (x : Sample) : Int :=
  clamp (-(INTEGRAL_WINDUP_LIMIT * FIXED_SCALE)) (INTEGRAL_WINDUP_LIMIT * FIXED_SCALE)
    (c.integral + (ki * x.error * x.dtMs).tdiv 1000)

theorem within_nextIntegral (ki : Int) (c : PidController) (x : Sample) :
    Within (INTEGRAL_WINDUP_LIMIT * FIXED_SCALE) (nextIntegral ki c x) :=
  ⟨le_clamp (by decide) _, clamp_le (by decide) _⟩

/-- What `update` computes. -/
theorem Tame.update_eq (h : Tame kp ki kd c) (hx : x.InRange) :
    c.update x.setpoint x.measurement x.dtMs =
      (clamp (-100) 100 (kp * x.error + (nextIntegral ki c x).tdiv FIXED_SCALE +
          ((kd * (x.error - c.prevError) * 1000).tdiv x.dtMs).tdiv FIXED_SCALE),
        { c with integral := nextIntegral ki c x, prevError := x.error }) := by
  obtain ⟨hdt, hpos⟩ := hx.dt
  have hne : x.dtMs ≠ 0 := by omega
  have hscale : 0 < FIXED_SCALE := by decide
  have hsum : satI64 (c.integral + (ki * x.error * x.dtMs).tdiv 1000) =
      c.integral + (ki * x.error * x.dtMs).tdiv 1000 := by
    have hterm := ((h.ki.mul hx.1).mul hdt).tdiv_self (by decide) (show 0 < (1000 : Int) by decide)
    exact satI64_of_within ((h.integral.add hterm).mono (by decide))
  have hpi := (h.kp.mul hx.1).add ((within_nextIntegral ki c x).tdiv_self (by decide) hscale)
  have hd := (((h.kd.mul (hx.1.sub h.prev)).mul (show Within 1000 1000 by decide)).tdiv_self
    (by decide) hpos).tdiv_self (by decide) hscale
  have hpi' := satI64_of_within (hpi.mono (by decide))
  have hpid := satI64_of_within ((hpi.add hd).mono (by decide))
  unfold update
  rw [if_neg hne]
  simp only [hx.clamp_error, h.proportional hx, h.integralStep hx, h.derivative hx, hsum,
    c.limits.1, c.limits.2]
  show (clamp _ _ (satI64 (satI64 (_ + (nextIntegral ki c x).tdiv _) + _)), _) = _
  rw [hpi', hpid]
  rfl

theorem Tame.integral_step (h : Tame kp ki kd c) (hx : x.InRange) :
    (step c x).integral = nextIntegral ki c x ∧ (step c x).prevError = x.error := by
  unfold step
  rw [h.update_eq hx]
  exact ⟨rfl, rfl⟩

theorem Tame.step (h : Tame kp ki kd c) (hx : x.InRange) :
    Tame kp ki kd (PidController.step c x) := by
  unfold PidController.step
  rw [h.update_eq hx]
  exact ⟨h.gains, h.kp, h.ki, h.kd, hx.1, within_nextIntegral ki c x⟩

/-- A sample moves the integral by no more than its own step. -/
theorem within_nextIntegral_add {a b : Int} (ha : Within a c.integral)
    (hb : Within b (ki * x.error * x.dtMs)) :
    Within (a + b / 1000) (nextIntegral ki c x) := by
  obtain ⟨hlo, hhi⟩ := ha.add (hb.tdiv (show 0 < (1000 : Int) by decide))
  unfold nextIntegral clamp INTEGRAL_WINDUP_LIMIT FIXED_SCALE
  split_ifs
  · exact ⟨by omega, by omega⟩
  · exact ⟨by omega, by omega⟩
  · exact ⟨hlo, hhi⟩

/-- Without a proportional term the output is what is left of the other two. -/
theorem Tame.within_output {a b : Int} (h : Tame kp ki kd c) (hx : x.InRange) (hzero : x.error = 0)
    (ha : Within a (nextIntegral ki c x)) (hb : Within b (kd * (x.error - c.prevError) * 1000))
    (hnonneg : 0 ≤ b) :
    Within (a / FIXED_SCALE + b / FIXED_SCALE) (output c x) := by
  obtain ⟨hlo, hhi⟩ := (ha.tdiv (show 0 < FIXED_SCALE by decide)).add
    ((hb.tdiv_self hnonneg hx.dt.2).tdiv (show 0 < FIXED_SCALE by decide))
  unfold output
  rw [h.update_eq hx, hzero, mul_zero, zero_add]
  rw [hzero] at hlo hhi
  unfold clamp
  dsimp only
  split_ifs
  · exact ⟨by omega, by omega⟩
  · exact ⟨by omega, by omega⟩
  · exact ⟨hlo, hhi⟩

/-! ## The law -/

theorem cast_clamp (n : Int) : ((clamp (-100) 100 n : Int) : ℚ) = clamp (-100) 100 (n : ℚ) := by
  have hlo : (n : ℚ) < -100 ↔ n < -100 := by exact_mod_cast Iff.rfl
  have hhi : (100 : ℚ) < n ↔ 100 < n := by exact_mod_cast Iff.rfl
  unfold clamp
  simp only [hlo, hhi]
  split_ifs <;> norm_num

/-- Without a gain the integral stays zero. -/
theorem tame_run {xs : List Sample} (h : Tame kp 0 0 c) (hc : c.integral = 0)
    (hxs : ∀ y ∈ xs, y.InRange) :
    Tame kp 0 0 (run PidController.step c xs) ∧ (run PidController.step c xs).integral = 0 := by
  induction xs generalizing c with
  | nil => exact ⟨h, hc⟩
  | cons x xs ih =>
    obtain ⟨hx, hrest⟩ := List.forall_mem_cons.mp hxs
    refine ih (h.step hx) ?_ hrest
    rw [(h.integral_step hx).1, nextIntegral, hc, zero_mul, zero_mul]
    rfl

theorem followsLaw_of_zero (hkp : Within 1000 kp) : FollowsLaw kp 0 0 := by
  intro xs x hrange _
  have hx : x.InRange := hrange x (by simp)
  obtain ⟨htame, hzero⟩ := tame_run (tame_new hkp (by decide) (by decide)) rfl
    fun y hy => hrange y (List.mem_append_left _ hy)
  have hout : output (run PidController.step (new kp 0 0) xs) x =
      clamp (-100) 100 (kp * x.error) := by
    unfold output
    rw [htame.update_eq hx]
    simp [nextIntegral, hzero, clamp, INTEGRAL_WINDUP_LIMIT, FIXED_SCALE]
  rw [hout, cast_clamp]
  simp only [law, Int.cast_mul, Int.cast_zero, zero_mul, zero_div, add_zero, sub_self, abs_zero]
  positivity

/-! ## Runs that miss the law -/

/-- A sample adds at most a million to the integral. -/
theorem Tame.within_integral {a : Int} (h : Tame kp ki kd c) (hx : x.InRange)
    (ha : Within a c.integral) : Within (a + 1000000) (PidController.step c x).integral := by
  rw [(h.integral_step hx).1]
  exact within_nextIntegral_add ha ((h.ki.mul hx.1).mul hx.dt.1)

theorem unwound_of_within {a : Int} (h : Within a c.integral) (ha : a ≤ 3000000) : Unwound c := by
  obtain ⟨hlo, hhi⟩ := h
  show c.integral.natAbs < 655360000
  omega

theorem within_integral_new (kp ki kd : Int) : Within 0 (new kp ki kd).integral := by
  show Within 0 0
  decide

/-- An output that the law puts at the limit is missed by far. -/
theorem far_from_limit {out : Int} (hout : Within 60 out) {limit : ℚ} (hlimit : |limit| = 100)
    (hclose : |(out : ℚ) - limit| ≤ 5) : False := by
  have hsmall : |(out : ℚ)| ≤ 60 := by exact_mod_cast within_iff_abs.mp hout
  have htriangle := abs_sub_abs_le_abs_sub limit out
  rw [abs_sub_comm] at htriangle
  linarith

theorem clamp_of_ge {v : ℚ} (h : 100 ≤ v) : clamp (-100) 100 v = 100 := by
  unfold clamp
  split_ifs <;> linarith

theorem clamp_of_le {v : ℚ} (h : v ≤ -100) : clamp (-100) 100 v = -100 := by
  unfold clamp
  split_ifs <;> linarith

/-- A push that has stopped: the law keeps at least 100 for its integral. -/
theorem not_followsLaw_of_ki (hkp : Within 1000 kp) (hki : 1 ≤ ki ∧ ki ≤ 1000)
    (hkd : Within 1000 kd) : ¬FollowsLaw kp ki kd := by
  intro hlaw
  have hpush : Sample.InRange ⟨1000, 0, 100⟩ := by decide
  have hrest : Sample.InRange ⟨0, 0, 1⟩ := by decide
  have h0 := tame_new hkp (show Within 1000 ki from ⟨by omega, hki.2⟩) hkd
  have h1 := h0.step hpush
  have h2 := h1.step hrest
  have hi1 := h0.within_integral hpush (within_integral_new kp ki kd)
  have hi2 := h1.within_integral hrest hi1
  have hi3 := h2.within_integral hrest hi2
  have hclose := hlaw [⟨1000, 0, 100⟩, ⟨0, 0, 1⟩] ⟨0, 0, 1⟩ (by decide)
    ⟨unwound_of_within hi1 (by decide), unwound_of_within hi2 (by decide),
      unwound_of_within hi3 (by decide), trivial⟩
  have hvalue : law kp ki kd [⟨1000, 0, 100⟩, ⟨0, 0, 1⟩] ⟨0, 0, 1⟩ = 100 := by
    have hki' : (1 : ℚ) ≤ ki := by exact_mod_cast hki.1
    refine clamp_of_ge ?_
    simp [Sample.error]
    linarith
  have hout : Within 60 (output (run PidController.step (new kp ki kd)
      [⟨1000, 0, 100⟩, ⟨0, 0, 1⟩]) ⟨0, 0, 1⟩) := by
    rw [(h2.integral_step hrest).1] at hi3
    refine (h2.within_output hrest rfl hi3 (b := 0) ?_ le_rfl).mono (by decide)
    rw [(h1.integral_step hrest).2]
    simp [Sample.error, Within]
  rw [hvalue] at hclose
  exact far_from_limit hout (by norm_num) (hclose.trans (by norm_num))

/-- A small error that has gone: the law answers with all it has. -/
theorem not_followsLaw_of_kd (hkp : Within 1000 kp) (hki : 0 ≤ ki ∧ ki ≤ 1000)
    (hkd : 1 ≤ kd ∧ kd ≤ 1000) : ¬FollowsLaw kp ki kd := by
  intro hlaw
  have hsmall : Sample.InRange ⟨1, 0, 1⟩ := by decide
  have hrest : Sample.InRange ⟨0, 0, 1⟩ := by decide
  have hgain : Within 1000 kd := ⟨by omega, hkd.2⟩
  have h0 := tame_new hkp (show Within 1000 ki from ⟨by omega, hki.2⟩) hgain
  have h1 := h0.step hsmall
  have hi1 := h0.within_integral hsmall (within_integral_new kp ki kd)
  have hi2 := h1.within_integral hrest hi1
  have hclose := hlaw [⟨1, 0, 1⟩] ⟨0, 0, 1⟩ (by decide)
    ⟨unwound_of_within hi1 (by decide), unwound_of_within hi2 (by decide), trivial⟩
  have hvalue : law kp ki kd [⟨1, 0, 1⟩] ⟨0, 0, 1⟩ = -100 := by
    have hki' : (ki : ℚ) ≤ 1000 := by exact_mod_cast hki.2
    have hkd' : (1 : ℚ) ≤ kd := by exact_mod_cast hkd.1
    refine clamp_of_le ?_
    simp [Sample.error]
    linarith
  have hout : Within 60 (output (run PidController.step (new kp ki kd) [⟨1, 0, 1⟩])
      ⟨0, 0, 1⟩) := by
    rw [(h1.integral_step hrest).1] at hi2
    refine (h1.within_output hrest rfl hi2 (b := 1000000) ?_ (by decide)).mono (by decide)
    rw [(h0.integral_step hsmall).2]
    exact (hgain.mul (show Within 1 (0 - 1) by decide)).mul (show Within 1000 1000 by decide)
  rw [hvalue] at hclose
  exact far_from_limit hout (by norm_num) (hclose.trans (by norm_num))

/-- For gains of at most 1000 the controller follows its law, in every run that stays below the
limit of the integral, exactly when it is proportional only. -/
theorem followsLaw_iff (kp ki kd : Int) (hkp : 0 ≤ kp ∧ kp ≤ 1000) (hki : 0 ≤ ki ∧ ki ≤ 1000)
    (hkd : 0 ≤ kd ∧ kd ≤ 1000) : FollowsLaw kp ki kd ↔ ki = 0 ∧ kd = 0 := by
  have hgain : Within 1000 kp := ⟨by omega, hkp.2⟩
  constructor
  · intro hlaw
    constructor
    · by_contra hne
      exact not_followsLaw_of_ki hgain ⟨by omega, hki.2⟩ ⟨by omega, hkd.2⟩ hlaw
    · by_contra hne
      exact not_followsLaw_of_kd hgain hki ⟨by omega, hkd.2⟩ hlaw
  · intro hzero
    obtain ⟨rfl, rfl⟩ := hzero
    exact followsLaw_of_zero hgain

theorem followsLaw_iff_one : FollowsLaw 1 0 0 :=
  (followsLaw_iff 1 0 0 (by decide) (by decide) (by decide)).mpr ⟨rfl, rfl⟩

/-- With an integral gain of one, a push that has stopped is forgotten. -/
theorem integral_gain_ignored :
    ∃ xs x, (∀ y ∈ xs ++ [x], Sample.InRange y) ∧
      Guarded PidController.step (fun c y => Unwound (PidController.step c y)) (new 1 1 0)
        (xs ++ [x]) ∧
      ¬|(output (run PidController.step (new 1 1 0) xs) x : ℚ) - law 1 1 0 xs x| ≤
        xs.length + 1 + 2 := by
  refine ⟨[⟨1000, 0, 100⟩, ⟨0, 0, 1⟩], ⟨0, 0, 1⟩, by decide, by decide, ?_⟩
  have hout : output (run PidController.step (new 1 1 0) [⟨1000, 0, 100⟩, ⟨0, 0, 1⟩])
      ⟨0, 0, 1⟩ = 0 := by decide
  have hlaw : law 1 1 0 [⟨1000, 0, 100⟩, ⟨0, 0, 1⟩] ⟨0, 0, 1⟩ = 100 := by
    norm_num [law, Sample.error, clamp]
  rw [hout, hlaw]
  norm_num

end RobotOs.Drivers.PidController
