import RobotOs.Flight.Control

/-!
# What holds in every iteration of the flight loop

Two results about runs of the loop, each with the condition under which the code
has it.

* `iterations_in_range`: when the samples of an armed iteration are in range
  (`Sampled`), the iteration does not panic, the corrections are within the range
  of the mixer and the motors between idle and full power.  The invariant is
  `FlightPid.Keeps`, which every such iteration keeps.  A channel that was never
  published to has the age `u64::MAX`, whose conversion to microseconds
  overflows, and a jump of the gyro overflows the derivative.
* `rcLoss_heeded_iff`: with a fresh attitude, an iteration ends in RTL or Land
  only if it began there, or if the driver returned nothing for a second.  The
  driver returns its last frame for ever, with or without the failsafe flag, and
  the loop publishes it with the time of the loop, so the age of the RC sample
  says nothing about the receiver.
-/

namespace RobotOs.Flight

open Lib.Checked Lib.Run

variable {s : FlightState} {now : Nat} {p : Platform}

namespace FlightState

/-! ## Samples in range -/

/-- The samples that an armed iteration at `now` reads are in range: each of the
three channels was published to, less than `2 ^ 64` microticks ago, and the
angles and rates are ones that a sensor can measure, with much room. -/
structure Sampled (s : FlightState) (now : Nat) : Prop where
  rc : s.rc.ready = true ∨ s.rcInput.age now * 1000000 < 2 ^ 64
  attitude : s.attitude.age now * 1000000 < 2 ^ 64
  server : s.target.age now * 1000000 < 2 ^ 64
  roll : Within 200000000 s.attitude.val.rollCdeg
  pitch : Within 200000000 s.attitude.val.pitchCdeg
  targetRoll : Within 200000000 s.target.val.rollCdeg
  targetPitch : Within 200000000 s.target.val.pitchCdeg
  targetYaw : Within 200000000 s.target.val.yawRateMdps
  gyroRoll : Within 800000000 (s.imu.val.gyroMdps .roll)
  gyroPitch : Within 800000000 (s.imu.val.gyroMdps .pitch)
  gyroYaw : Within 800000000 (s.imu.val.gyroMdps .yaw)

/-- The condition on one operation: the time since the last iteration can be
converted to microseconds, and an armed iteration has samples in range. -/
def InRange (s : FlightState) : Op → Prop
  | .iterate now => s.elapsed now * 1000000 < 2 ^ 64 ∧ (s.armed = true → s.Sampled now)
  | _ => True

/-- The corrections and the motors of an iteration that flew. -/
def Outcome.InRange : Outcome → Prop
  | .flew _ roll pitch yaw motors =>
    Within 500 roll ∧ Within 500 pitch ∧ Within 500 yaw ∧
      ∀ m ∈ motors, THROTTLE_IDLE ≤ m ∧ m ≤ THROTTLE_MAX
  | _ => True

/-- The property of one operation: an iteration does not panic, and what it
sends to the motors is in range. -/
def Safe (p : Platform) (s : FlightState) : Op → Prop
  | .iterate now => Yields (s.iterate p now) fun r => r.1.InRange
  | _ => True

/-! ## Targets -/

/-- A target whose angles and yaw rate are in range. -/
structure Steady (t : FlightTarget) : Prop where
  roll : Within 200000000 t.rollCdeg
  pitch : Within 200000000 t.pitchCdeg
  yaw : Within 200000000 t.yawRateMdps

theorem channelSigned_within (rc : RcInput) (ch : Nat) : Within 65535 (rc.channelSigned ch) := by
  unfold RcInput.channelSigned
  have hlt := (rc.channels.getD ch 0).toNat_lt
  split_ifs
  · decide
  · exact ⟨by omega, by omega⟩

/-- The sticks give a target in range, whatever the receiver sends. -/
theorem rcToTarget_yields (rc : RcInput) : Yields (rcToTarget rc) Steady := by
  have stick (ch : Nat) {c : Int} (hc : Within 60 c) :
      Yields (checked 32 (rc.channelSigned ch * c)) (Within 3932100) :=
    yields_checked ((channelSigned_within rc ch).mul hc) (by norm_num)
  refine (stick RC_CH_ROLL (c := 9) (by decide)).bind fun roll hroll => ?_
  refine (stick RC_CH_PITCH (c := 9) (by decide)).bind fun pitch hpitch => ?_
  refine (stick RC_CH_YAW (c := 60) (by decide)).bind fun yaw hyaw => ?_
  exact Yields.of_some
    ⟨hroll.mono (by norm_num), hpitch.mono (by norm_num), hyaw.mono (by norm_num)⟩

theorem steady_levelTarget (mode : FlightMode) : Steady (levelTarget mode) := by
  have hlevel : Within 200000000 0 := by decide
  exact ⟨hlevel, hlevel, hlevel⟩

theorem flightTarget_yields (h : Steady s.target.val) :
    Yields s.flightTarget fun t => Steady t ∧ s.flightTarget = some t := by
  have hsome : Yields s.flightTarget Steady := by
    unfold flightTarget
    cases s.mode with
    | manual => exact rcToTarget_yields _
    | stabilize => exact rcToTarget_yields _
    | altHold => exact rcToTarget_yields _
    | auto => exact Yields.of_some h
    | posHold => exact Yields.of_some h
    | rtl => exact Yields.of_some (steady_levelTarget .rtl)
    | land => exact Yields.of_some (steady_levelTarget .land)
    | disarmed => exact Yields.of_some (by constructor <;> decide)
  obtain ⟨t, ht, hsteady⟩ := hsome
  exact ⟨t, ht, hsteady, ht⟩

/-! ## The part after the failsafes -/

/-- What an armed flight does: the outcome is in range, its target is that of
the mode, the mode stays and the controllers keep their invariant. -/
structure Flown (s : FlightState) (r : Outcome × FlightState) : Prop where
  inRange : r.1.InRange
  target : ∃ t roll pitch yaw motors,
    r.1 = .flew t roll pitch yaw motors ∧ s.flightTarget = some t
  mode : r.2.mode = s.mode
  keeps : r.2.pid.Keeps

theorem fly_yields {dt : Nat} (hpid : s.pid.Keeps) (harmed : s.armed = true) (h : s.Sampled now)
    (hpos : 0 < dt) (hdt : dt ≤ 1000000) : Yields (s.fly dt) s.Flown := by
  refine (flightTarget_yields ⟨h.targetRoll, h.targetPitch, h.targetYaw⟩).bind ?_
  rintro t ⟨ht, hmode⟩
  refine (yields_checked (ht.roll.sub h.roll) (by norm_num)).bind fun rollError hroll => ?_
  refine (FlightPid.updateAxis_yields hpid (hroll.mono (by decide)) h.gyroRoll hpos hdt).bind ?_
  rintro ⟨roll, pid⟩ ⟨hr, hpid⟩
  refine (yields_checked (ht.pitch.sub h.pitch) (by norm_num)).bind fun pitchError hpitch => ?_
  refine (FlightPid.updateAxis_yields hpid (hpitch.mono (by decide)) h.gyroPitch hpos hdt).bind ?_
  rintro ⟨pitch, pid⟩ ⟨hp, hpid⟩
  refine (FlightPid.updateRate_yields hpid
    ((ht.yaw.sub h.gyroYaw).mono (by decide)) hpos hdt).bind ?_
  rintro ⟨yaw, pid⟩ ⟨hy, hpid⟩
  have hthrottle : Within 65535 (t.throttle.toNat : Int) := by
    have hlt := t.throttle.toNat_lt
    exact ⟨by omega, by omega⟩
  rw [harmed]
  refine (mixerCompute_yields .quadX hthrottle hr hp hy).bind fun motors hm => ?_
  exact Yields.of_some ⟨⟨hr, hp, hy, hm⟩, ⟨t, roll, pitch, yaw, motors, rfl, hmode⟩, rfl, hpid⟩

/-! ## The failsafe check -/

/-- A failsafe changes the mode only. -/
theorem heed_eq (s : FlightState) (action : FailsafeAction) :
    s.heed action = { s with mode := (s.heed action).mode } := by
  cases action with
  | none => rfl
  | disarm => rfl
  | _ =>
    unfold heed
    dsimp only
    split_ifs <;> rfl

theorem checkFailsafe_ne_disarm (a r v : Nat) : checkFailsafe a r v ≠ .disarm := by
  unfold checkFailsafe
  split_ifs <;> decide

theorem ageUs_yields {α : Type} (p : Platform) {ch : Channel α}
    (h : ch.age now * 1000000 < 2 ^ 64) :
    Yields (ageUs p ch now) (· = ch.age now * 1000000 / p.timerFreq) :=
  (yields_checkedU h).bind fun _ hn => Yields.of_some (by rw [hn])

/-- The samples do not depend on the mode. -/
theorem Sampled.withMode (h : s.Sampled now) (mode : FlightMode) :
    Sampled { s with mode := mode } now :=
  ⟨h.rc, h.attitude, h.server, h.roll, h.pitch, h.targetRoll, h.targetPitch, h.targetYaw,
    h.gyroRoll, h.gyroPitch, h.gyroYaw⟩

/-- The action of the failsafe chain on the ages of the three channels. -/
def action (p : Platform) (s : FlightState) (now : Nat) : FailsafeAction :=
  checkFailsafe (s.attitude.age now * 1000000 / p.timerFreq)
    (s.rcInput.age now * 1000000 / p.timerFreq) (s.target.age now * 1000000 / p.timerFreq)

theorem guardedFly_yields {dt : Nat} (hpid : s.pid.Keeps) (harmed : s.armed = true)
    (h : s.Sampled now) (hrc : s.rcInput.age now * 1000000 < 2 ^ 64) (hpos : 0 < dt)
    (hdt : dt ≤ 1000000) : Yields (s.guardedFly p now dt) (s.heed (s.action p now)).Flown := by
  refine (ageUs_yields p h.attitude).bind ?_
  rintro attAge rfl
  refine (ageUs_yields p hrc).bind ?_
  rintro rcAge rfl
  refine (ageUs_yields p h.server).bind ?_
  rintro srvAge rfl
  rw [if_neg (checkFailsafe_ne_disarm _ _ _)]
  change Yields ((s.heed (s.action p now)).fly dt) _
  rw [heed_eq s (s.action p now)]
  exact fly_yields hpid harmed (h.withMode _) hpos hdt

/-! ## One iteration -/

/-- The state in which the failsafes are checked. -/
def sensed (s : FlightState) (now : Nat) : FlightState := { s with lastTime := now }.readRc now

theorem sensed_eq (s : FlightState) (now : Nat) :
    s.sensed now = { s with lastTime := now, rcInput := (s.sensed now).rcInput } := by
  unfold sensed readRc
  split <;> rfl

/-- A driver that is set up makes the RC sample new in every iteration. -/
theorem sensed_rcAge (s : FlightState) (now : Nat) :
    (s.sensed now).rcInput.age now = if s.rc.ready then 0 else s.rcInput.age now := by
  unfold sensed readRc RcDriver.read
  dsimp only
  cases s.rc.ready with
  | true => simp [Channel.publish, Channel.age]
  | false => rfl

theorem Sampled.sensed (h : s.Sampled now) :
    (s.sensed now).Sampled now := by
  have hrc : (s.sensed now).rc.ready = true ∨
      (s.sensed now).rcInput.age now * 1000000 < 2 ^ 64 := by
    rw [sensed_rcAge, sensed_eq]
    rcases h.rc with hready | hage
    · exact .inl hready
    · right
      split_ifs
      · norm_num
      · exact hage
  rw [sensed_eq] at hrc ⊢
  exact ⟨hrc, h.attitude, h.server, h.roll, h.pitch, h.targetRoll, h.targetPitch, h.targetYaw,
    h.gyroRoll, h.gyroPitch, h.gyroYaw⟩

theorem sensed_age_lt (h : s.Sampled now) : (s.sensed now).rcInput.age now * 1000000 < 2 ^ 64 := by
  rw [sensed_rcAge]
  split_ifs with hready
  · norm_num
  · exact h.rc.resolve_left hready

/-- The loop accepts the time step: 1 to 1,000,000 microseconds. -/
def Accepts (p : Platform) (s : FlightState) (now : Nat) : Prop :=
  ∃ dt, s.dtUs p now = some dt ∧ 0 < dt ∧ dt ≤ 1000000

/-- An armed iteration on samples in range flies. -/
theorem iterate_flown (hpid : s.pid.Keeps) (harmed : s.armed = true) (h : s.Sampled now)
    (haccepts : s.Accepts p now) :
    Yields (s.iterate p now) ((s.sensed now).heed ((s.sensed now).action p now)).Flown := by
  obtain ⟨dt, hdt, hpos, hle⟩ := haccepts
  unfold iterate
  refine Yields.bind (Q := (· = dt)) ⟨dt, hdt, rfl⟩ ?_
  rintro _ rfl
  dsimp only
  rw [if_neg (by omega)]
  have hsensed := sensed_eq s now
  have harmed' : (s.sensed now).armed = true := by
    rw [hsensed]
    exact harmed
  have hpid' : (s.sensed now).pid.Keeps := by
    rw [hsensed]
    exact hpid
  change Yields (if (!(s.sensed now).armed) = true then _ else _) _
  rw [if_neg (by simp [harmed'])]
  exact guardedFly_yields hpid' harmed' h.sensed (sensed_age_lt h) hpos hle

/-- Every iteration on samples in range: outcome in range, invariant kept. -/
theorem iterate_yields (hpid : s.pid.Keeps) (h : s.InRange (.iterate now)) :
    Yields (s.iterate p now) fun r => r.1.InRange ∧ r.2.pid.Keeps := by
  obtain ⟨helapsed, hsampled⟩ := h
  by_cases haccepts : s.armed = true ∧ s.Accepts p now
  · obtain ⟨harmed, haccepts⟩ := haccepts
    exact (iterate_flown hpid harmed (hsampled harmed) haccepts).imp
      fun _ hr => ⟨hr.inRange, hr.keeps⟩
  · have hdt : Yields (s.dtUs p now) fun dt => s.dtUs p now = some dt := by
      obtain ⟨dt, hdt, -⟩ := (yields_checkedU helapsed).bind
        (f := fun n => some (n / p.timerFreq % 2 ^ 32)) (R := fun _ => True)
        fun _ _ => Yields.of_some trivial
      exact ⟨dt, hdt, hdt⟩
    refine hdt.bind fun dt hdt => ?_
    dsimp only
    split_ifs with hskip hidle
    · exact Yields.of_some ⟨trivial, hpid⟩
    · change Yields (some (Outcome.idle, { s.sensed now with
        esc := (s.sensed now).esc.setAll [0, 0, 0, 0] })) _
      rw [sensed_eq]
      exact Yields.of_some ⟨trivial, hpid⟩
    · have harmed : (s.sensed now).armed = true := by simpa [sensed] using hidle
      rw [sensed_eq] at harmed
      exact absurd ⟨harmed, dt, hdt, by omega, by omega⟩ haccepts

/-- One operation keeps the invariant of the controllers. -/
theorem step_keeps {op : Op} (hpid : s.pid.Keeps) (h : s.InRange op) :
    s.Safe p op ∧ (s.step p op).pid.Keeps := by
  cases op with
  | iterate now =>
    obtain ⟨r, hr, hrange, hkeeps⟩ := iterate_yields (p := p) hpid h
    refine ⟨⟨r, hr, hrange⟩, ?_⟩
    simp only [step, hr, Option.map_some, Option.getD_some]
    exact hkeeps
  | _ => exact ⟨trivial, hpid⟩

/-- In every run of the flight task whose samples are in range, no iteration
panics, and every iteration that flies has its corrections and motors in range. -/
theorem iterations_in_range (p : Platform) {s : FlightState} (hs : s.pid = .new) {ops : List Op}
    (h : Guarded (step p) InRange s ops) : Guarded (step p) (Safe p) s ops := by
  have hpid : s.pid.Keeps := hs ▸ FlightPid.keeps_new
  exact guarded_of_invariant (fun s => s.pid.Keeps) (fun _ _ hkeeps hop => step_keeps hkeeps hop)
    hpid h

/-- A receiver, an attitude and a server target before the first armed iteration. -/
def samplePrelude : List Op :=
  [.rcInit 0, .publishTarget .new 0, .publishAttitude ⟨120, -80⟩ 90000,
    .publishImu ⟨fun _ => 2500⟩ 90000, .arm]

/-- Two iterations at 100 Hz. -/
def sampleFlight : List Op := samplePrelude ++ [.iterate 100000, .iterate 200000]

theorem sampled_sampleFlight : Guarded (step .qemu) InRange boot sampleFlight := by
  refine ⟨trivial, trivial, trivial, trivial, trivial, ⟨by decide, fun _ => ?_⟩,
    ⟨by decide, fun _ => ?_⟩, trivial⟩
  · constructor <;> decide +kernel
  · constructor <;> decide +kernel

theorem iterations_in_range_sample : Guarded (step .qemu) (Safe .qemu) boot sampleFlight :=
  iterations_in_range .qemu rfl sampled_sampleFlight

/-- The same board before the server published a target. -/
def unservedPrelude : List Op :=
  [.rcInit 0, .publishAttitude ⟨0, 0⟩ 90000, .publishImu ⟨fun _ => 0⟩ 90000, .arm]

/-- A gyro that goes from its least value to its greatest. -/
def gyroJump : List Op :=
  samplePrelude ++ [.publishImu ⟨fun _ => -2 ^ 31⟩ 95000, .iterate 100000,
    .publishImu ⟨fun _ => 2 ^ 31 - 1⟩ 195000]

/-- The armed loop panics in an iteration of 10 ms when no target was ever
published, and, with every channel published, when the gyro jumps. -/
theorem armed_iteration_panics :
    ((run (step .qemu) boot unservedPrelude).armed = true ∧
      (run (step .qemu) boot unservedPrelude).dtUs .qemu 100000 = some 10000 ∧
      ((run (step .qemu) boot unservedPrelude).iterate .qemu 100000).isNone = true) ∧
    ((run (step .qemu) boot gyroJump).armed = true ∧
      (run (step .qemu) boot gyroJump).dtUs .qemu 200000 = some 10000 ∧
      ((run (step .qemu) boot gyroJump).iterate .qemu 200000).isNone = true) := by
  decide +kernel

/-! ## Loss of the receiver -/

/-- The iteration at `now` acts on a lost receiver: it ends in RTL or Land, and
the target it flew is the one of that mode. -/
def ActsOnRcLoss (p : Platform) (s : FlightState) (now : Nat) : Prop :=
  Yields (s.iterate p now) fun r =>
    (r.2.mode = .rtl ∨ r.2.mode = .land) ∧
      ∃ roll pitch yaw motors, r.1 = .flew (levelTarget r.2.mode) roll pitch yaw motors

/-- For more than a second no frame without the failsafe flag came. -/
def RcLost (p : Platform) (s : FlightState) (now : Nat) : Prop :=
  p.timerFreq < now - s.rc.lastUpdate

/-- The attitude is at most 50 ms old. -/
def AttitudeFresh (p : Platform) (s : FlightState) (now : Nat) : Prop :=
  s.attitude.age now * 1000000 / p.timerFreq ≤ 50000

/-- With a fresh attitude, only an old RC sample leads into RTL. -/
theorem heed_checkFailsafe_mode (s : FlightState) {a : Nat} (ha : a ≤ 50000) (r v : Nat) :
    ((s.heed (checkFailsafe a r v)).mode = .rtl ∨ (s.heed (checkFailsafe a r v)).mode = .land) ↔
      (s.mode = .rtl ∨ s.mode = .land) ∨ 1000000 < r := by
  unfold checkFailsafe
  rw [if_neg (by omega)]
  by_cases hr : r > 1000000
  · rw [if_pos hr]
    simp only [hr, or_true, iff_true]
    unfold heed
    dsimp only
    split_ifs with hmode
    · exact .inl rfl
    · by_cases hrtl : s.mode = .rtl
      · exact .inl hrtl
      · exact .inr (not_not.mp fun hland => hmode ⟨hrtl, hland⟩)
  · rw [if_neg hr]
    simp only [hr, or_false]
    split_ifs with hv
    · unfold heed
      dsimp only
      split_ifs with hauto
      · simp [hauto]
      · exact Iff.rfl
    · exact Iff.rfl

theorem flightTarget_of_level (h : s.mode = .rtl ∨ s.mode = .land) :
    s.flightTarget = some (levelTarget s.mode) := by
  unfold flightTarget
  rcases h with h | h <;> rw [h]

/-- The mode in which an armed iteration on samples in range ends decides
whether it acted. -/
theorem actsOnRcLoss_iff_mode (hpid : s.pid.Keeps) (harmed : s.armed = true) (h : s.Sampled now)
    (haccepts : s.Accepts p now) :
    s.ActsOnRcLoss p now ↔
      ((s.sensed now).heed ((s.sensed now).action p now)).mode = .rtl ∨
        ((s.sensed now).heed ((s.sensed now).action p now)).mode = .land := by
  obtain ⟨r, hr, hflown⟩ := iterate_flown hpid harmed h haccepts
  constructor
  · rintro ⟨r', hr', hmode, -⟩
    obtain rfl : r = r' := by
      rw [hr] at hr'
      exact Option.some.inj hr'
    rwa [hflown.mode] at hmode
  · intro hmode
    refine ⟨r, hr, by rwa [hflown.mode], ?_⟩
    obtain ⟨t, roll, pitch, yaw, motors, hout, ht⟩ := hflown.target
    rw [flightTarget_of_level hmode] at ht
    rw [hflown.mode, Option.some.inj ht]
    exact ⟨roll, pitch, yaw, motors, hout⟩

/-- In every run of the flight task whose samples are in range, an armed
iteration with a fresh attitude after a second without a good frame acts on it
exactly when the mode is RTL or Land already, or the driver was not set up and
the last RC sample is more than a second old. -/
theorem rcLoss_heeded_iff (p : Platform) {s : FlightState} (hs : s.pid = .new) {ops : List Op}
    {now : Nat} (h : Guarded (step p) InRange s (ops ++ [.iterate now])) :
    let t := run (step p) s ops
    t.armed = true → t.Accepts p now → t.AttitudeFresh p now → t.RcLost p now →
      (t.ActsOnRcLoss p now ↔ (t.mode = .rtl ∨ t.mode = .land) ∨
        (t.rc.read = none ∧ 1000000 < t.rcInput.age now * 1000000 / p.timerFreq)) := by
  intro t harmed haccepts hfresh _
  obtain ⟨hops, ⟨-, hsampled⟩, -⟩ := guarded_append.mp h
  have hpid : t.pid.Keeps := run_invariant_of_guarded (fun s => s.pid.Keeps)
    (fun _ _ hkeeps hop => (step_keeps (p := p) hkeeps hop).2) (hs ▸ FlightPid.keeps_new) hops
  rw [actsOnRcLoss_iff_mode hpid harmed (hsampled harmed) haccepts]
  have hage := sensed_rcAge t now
  have hfresh' : (t.sensed now).attitude.age now * 1000000 / p.timerFreq ≤ 50000 := by
    rw [sensed_eq]
    exact hfresh
  have hmode : (t.sensed now).mode = t.mode := by rw [sensed_eq]
  unfold action
  rw [heed_checkFailsafe_mode _ hfresh', hmode, hage]
  unfold RcDriver.read
  cases t.rc.ready with
  | true => simp
  | false => simp

/-- A pilot's frame at the start, then for 1.8 seconds no other one; `fs` is
whether the receiver flags the loss. -/
def lossRun (fs : Bool) : List Op :=
  [.rcInit 0, .rcFrame [1600, 1500, 1400, 1500] 100, .publishTarget .new 0, .arm,
    .rcFailsafe fs, .publishAttitude ⟨0, 0⟩ 9000000, .iterate 9000000,
    .publishAttitude ⟨0, 0⟩ 18000000]

/-- The same loss, flagged, with an operator who sets the mode by hand. -/
def rtlByHand : List Op := lossRun true ++ [.setFlightMode .rtl]

theorem sampled_rtlByHand :
    Guarded (step .qemu) InRange boot (rtlByHand ++ [.iterate 18000000]) := by
  refine ⟨trivial, trivial, trivial, trivial, trivial, trivial, ⟨by decide, fun _ => ?_⟩, trivial,
    trivial, ⟨by decide +kernel, fun _ => ?_⟩, trivial⟩
  · constructor <;> decide +kernel
  · constructor <;> decide +kernel

theorem rcLoss_heeded_rtlByHand :
    (run (step .qemu) boot rtlByHand).ActsOnRcLoss .qemu 18000000 := by
  have haccepts : (run (step .qemu) boot rtlByHand).Accepts .qemu 18000000 :=
    ⟨900000, by decide +kernel, by decide, by decide⟩
  have hlost : (run (step .qemu) boot rtlByHand).RcLost .qemu 18000000 := by
    unfold RcLost
    decide +kernel
  have hfresh : (run (step .qemu) boot rtlByHand).AttitudeFresh .qemu 18000000 := by
    unfold AttitudeFresh
    decide +kernel
  exact (rcLoss_heeded_iff .qemu rfl sampled_rtlByHand (by decide +kernel) haccepts hfresh
    hlost).mpr (.inl (.inl (by decide +kernel)))

/-- The target that an outcome flew. -/
def Outcome.target : Outcome → Option FlightTarget
  | .flew t _ _ _ _ => some t
  | _ => none

/-- The armed loop, with a fresh attitude and 1.8 seconds after the last good frame, stays
in Stabilize and flies what the sticks said. -/
def IgnoresLoss (s : FlightState) : Prop :=
  s.armed = true ∧ s.dtUs .qemu 18000000 = some 900000 ∧ s.attitude.age 18000000 = 0 ∧
    Platform.qemu.timerFreq < 18000000 - s.rc.lastUpdate ∧
    (s.iterate .qemu 18000000).map (fun r => (r.2.mode, r.1.target)) =
      some (.stabilize, some ⟨900, 0, 0, 400, 0⟩)

instance (s : FlightState) : Decidable s.IgnoresLoss := inferInstanceAs (Decidable (_ ∧ _))

/-- Neither a receiver that flags its frames nor a silent one is acted on. -/
theorem rcLoss_ignored :
    (run (step .qemu) boot (lossRun true)).IgnoresLoss ∧
      (run (step .qemu) boot (lossRun false)).IgnoresLoss := by
  decide +kernel

end FlightState

end RobotOs.Flight
