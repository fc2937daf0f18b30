import RobotOs.Lib.Checked

/-!
# Dead-reckoning odometry

`odom_update` and `odom_get` of `odom.rs`.

An update divides the movement since the last one and drops the rest, so many small updates lose
what one large update keeps.  `Near` counts the divisions that leave a rest: with two of them the
totals are still within two units of the exact values.
-/

namespace RobotOs.Robot.Odometry

open Lib.Checked

/-- The statics of the module. -/
structure Odom where
  distMm : Int
  headingCdeg : Int
  prevL : Int
  prevR : Int
  deriving DecidableEq, Repr

def Odom.start : Odom := ⟨0, 0, 0, 0⟩

/-- A movement in thousandths of two ticks per metre. -/
def distNum (dl dr : Int) : Int := (dl + dr) * 1000

/-- A turn in the units of `ticks_per_m * wheel_base`. -/
def headNum (dl dr : Int) : Int := (dr - dl) * 36000000

/-- `odom_update`.  The totals wrap around. -/
def odomUpdate (tpm wb : Nat) (s : Odom) (ticks : Int × Int) : Option Odom := do
  let dl ← checked 64 (ticks.1 - s.prevL)
  let dr ← checked 64 (ticks.2 - s.prevR)
  let sum ← checked 64 (dl + dr)
  let scaled ← checked 64 (sum * 1000)
  let diff ← checked 64 (dr - dl)
  let distDelta := scaled.tdiv (2 * tpm)
  let headDelta := truncate 64 ((diff * 36000000).tdiv (tpm * wb))
  return ⟨truncate 64 (s.distMm + distDelta), truncate 64 (s.headingCdeg + headDelta),
    ticks.1, ticks.2⟩

/-- The state after some readings, if no operation overflows. -/
def odomRun (tpm wb : Nat) (readings : List (Int × Int)) : Option Odom :=
  readings.foldlM (odomUpdate tpm wb) .start

/-! ## What the divisions drop -/

/-- `total` is `n` in units of `den`, up to the rests of `k` divisions. -/
def Near (den n total : Int) (k : Nat) : Prop := |n - den * total| ≤ k * (den - 1)

namespace Near

variable {den n total : Int} {k : Nat}

/-- A division that leaves a rest adds it. -/
theorem add (h : Near den n total k) (hden : 0 < den) (m : Int) :
    Near den (n + m) (total + m.tdiv den) (k + if den ∣ m then 0 else 1) := by
  have hrest : |m - den * m.tdiv den| ≤ ((if den ∣ m then 0 else 1 : Nat) : Int) * (den - 1) := by
    have hdiv := Int.mul_tdiv_add_tmod m den
    have hmod : m - den * m.tdiv den = m.tmod den := by linarith
    rw [hmod]
    split_ifs with hexact
    · simp [Int.tmod_eq_zero_of_dvd hexact]
    · have hlo := Int.lt_tmod_of_pos m hden
      have hhi := Int.tmod_lt_of_pos m hden
      exact abs_le.mpr ⟨by push_cast; linarith, by push_cast; linarith⟩
  unfold Near at h ⊢
  calc |n + m - den * (total + m.tdiv den)|
      = |(n - den * total) + (m - den * m.tdiv den)| := by ring_nf
    _ ≤ |n - den * total| + |m - den * m.tdiv den| := abs_add_le _ _
    _ ≤ k * (den - 1) + ((if den ∣ m then 0 else 1 : Nat) : Int) * (den - 1) := add_le_add h hrest
    _ = _ := by push_cast; ring

theorem rest_lt (h : Near den n total k) (hden : 0 < den) (hk : k ≤ 2) :
    |n - den * total| < 2 * den := by
  have hk' : (k : Int) ≤ 2 := by exact_mod_cast hk
  have hle : (k : Int) * (den - 1) ≤ 2 * (den - 1) := mul_le_mul_of_nonneg_right hk' (by omega)
  exact (h.trans hle).trans_lt (by omega)

theorem within (h : Near den n total k) (hden : 0 < den) (hk : k ≤ 2) {b : Int}
    (hn : Within b n) : Within (b + 2) total := by
  obtain ⟨hlo, hhi⟩ := abs_lt.mp (h.rest_lt hden hk)
  obtain ⟨hlo', hhi'⟩ := hn
  constructor <;> nlinarith

/-- The total is close to the ratio. -/
theorem close (h : Near den n total k) (hden : 0 < den) (hk : k ≤ 2) :
    |(total : ℚ) - (n : ℚ) / den| < 2 := by
  have hpos : (0 : ℚ) < den := by exact_mod_cast hden
  have hlt : |(n : ℚ) - den * total| < 2 * den := by exact_mod_cast h.rest_lt hden hk
  have hsub : (total : ℚ) - (n : ℚ) / den = -((n - den * total) / den) := by
    field_simp
    ring
  rw [hsub, abs_neg, abs_div, abs_of_pos hpos, div_lt_iff₀ hpos]
  exact hlt

end Near

/-! ## Runs -/

/-- How many of the updates move by something that is not a whole number of units. -/
def uneven (num : Int → Int → Int) (den : Int) : Int × Int → List (Int × Int) → Nat
  | _, [] => 0
  | prev, ticks :: rest =>
    (if den ∣ num (ticks.1 - prev.1) (ticks.2 - prev.2) then 0 else 1) + uneven num den ticks rest

/-- The last reading. -/
def final : Int × Int → List (Int × Int) → Int × Int
  | prev, [] => prev
  | _, ticks :: rest => final ticks rest

/-- A reading that is far from the ends of 64 bits. -/
def InRange (ticks : Int × Int) : Prop := Within (2 ^ 35) ticks.1 ∧ Within (2 ^ 35) ticks.2

/-- The totals are near to what the last reading says. -/
structure Tracks (tpm wb : Nat) (s : Odom) (kd kh : Nat) : Prop where
  dist : Near (2 * tpm) (distNum s.prevL s.prevR) s.distMm kd
  heading : Near (tpm * wb) (headNum s.prevL s.prevR) s.headingCdeg kh
  range : InRange (s.prevL, s.prevR)

section Run

variable {tpm wb : Nat} (htpm : 1 ≤ tpm) (hwb : 1 ≤ wb)

include htpm hwb

/-- One update: nothing overflows, and each total gets at most one more rest. -/
theorem Tracks.update {s : Odom} {kd kh : Nat} (h : Tracks tpm wb s kd kh) {ticks : Int × Int}
    (hticks : InRange ticks)
    (hd : kd + (if (2 * tpm : Int) ∣ distNum (ticks.1 - s.prevL) (ticks.2 - s.prevR) then 0
      else 1) ≤ 2)
    (hh : kh + (if (tpm * wb : Int) ∣ headNum (ticks.1 - s.prevL) (ticks.2 - s.prevR) then 0
      else 1) ≤ 2) :
    ∃ s', odomUpdate tpm wb s ticks = some s' ∧ (s'.prevL, s'.prevR) = ticks ∧
      Tracks tpm wb s'
        (kd + if (2 * tpm : Int) ∣ distNum (ticks.1 - s.prevL) (ticks.2 - s.prevR) then 0 else 1)
        (kh + if (tpm * wb : Int) ∣ headNum (ticks.1 - s.prevL) (ticks.2 - s.prevR) then 0
          else 1) := by
  have hden : (0 : Int) < 2 * tpm := by omega
  have hden' : (0 : Int) < tpm * wb := by exact_mod_cast Nat.mul_pos htpm hwb
  obtain ⟨⟨hl, hl'⟩, hr, hr'⟩ := hticks
  obtain ⟨⟨hpl, hpl'⟩, hpr, hpr'⟩ := h.range
  have hdist := h.dist.add hden (distNum (ticks.1 - s.prevL) (ticks.2 - s.prevR))
  have hhead := h.heading.add hden' (headNum (ticks.1 - s.prevL) (ticks.2 - s.prevR))
  rw [show distNum s.prevL s.prevR + distNum (ticks.1 - s.prevL) (ticks.2 - s.prevR) =
    distNum ticks.1 ticks.2 by unfold distNum; ring] at hdist
  rw [show headNum s.prevL s.prevR + headNum (ticks.1 - s.prevL) (ticks.2 - s.prevR) =
    headNum ticks.1 ticks.2 by unfold headNum; ring] at hhead
  obtain ⟨hmm, hmm'⟩ := hdist.within hden hd (b := 2 ^ 36 * 1000)
    ⟨by unfold distNum; omega, by unfold distNum; omega⟩
  obtain ⟨hcdeg, hcdeg'⟩ := hhead.within hden' hh (b := 2 ^ 36 * 36000000)
    ⟨by unfold headNum; omega, by unfold headNum; omega⟩
  obtain ⟨hturn, hturn'⟩ := Within.tdiv_self (b := 2 ^ 37 * 36000000)
    (n := headNum (ticks.1 - s.prevL) (ticks.2 - s.prevR))
    ⟨by unfold headNum; omega, by unfold headNum; omega⟩ (by decide) hden'
  refine ⟨⟨_, _, ticks.1, ticks.2⟩, ?_, rfl, hdist, hhead, ⟨hl, hl'⟩, hr, hr'⟩
  have hfits : ∀ n : Int, -2 ^ 63 ≤ n → n < 2 ^ 63 → Fits 64 n := fun n hlo hhi => ⟨hlo, hhi⟩
  unfold distNum headNum at *
  simp only [odomUpdate, checked,
    if_pos (hfits (ticks.1 - s.prevL) (by omega) (by omega)),
    if_pos (hfits (ticks.2 - s.prevR) (by omega) (by omega)),
    if_pos (hfits (ticks.1 - s.prevL + (ticks.2 - s.prevR)) (by omega) (by omega)),
    if_pos (hfits ((ticks.1 - s.prevL + (ticks.2 - s.prevR)) * 1000) (by omega) (by omega)),
    if_pos (hfits (ticks.2 - s.prevR - (ticks.1 - s.prevL)) (by omega) (by omega)),
    truncate_of_fits (by decide) (hfits _ (by omega) (by omega) : Fits 64
      ((((ticks.2 - s.prevR) - (ticks.1 - s.prevL)) * 36000000).tdiv (tpm * wb))),
    Option.bind_eq_bind, Option.bind_some, Option.pure_def]
  rw [truncate_of_fits (by decide) (hfits _ (by omega) (by omega)),
    truncate_of_fits (by decide) (hfits _ (by omega) (by omega))]

theorem Tracks.run {s : Odom} {kd kh : Nat} (h : Tracks tpm wb s kd kh)
    {readings : List (Int × Int)} (hrange : ∀ ticks ∈ readings, InRange ticks)
    (hd : kd + uneven distNum (2 * tpm) (s.prevL, s.prevR) readings ≤ 2)
    (hh : kh + uneven headNum (tpm * wb) (s.prevL, s.prevR) readings ≤ 2) :
    ∃ s', readings.foldlM (odomUpdate tpm wb) s = some s' ∧
      (s'.prevL, s'.prevR) = final (s.prevL, s.prevR) readings ∧
      ∃ kd ≤ 2, ∃ kh ≤ 2, Tracks tpm wb s' kd kh := by
  induction readings generalizing s kd kh with
  | nil => exact ⟨s, rfl, rfl, kd, hd, kh, hh, h⟩
  | cons ticks readings ih =>
    simp only [uneven, ← Nat.add_assoc] at hd hh
    obtain ⟨s', hupdate, hprev, hs'⟩ := h.update htpm hwb (hrange ticks List.mem_cons_self)
      ((Nat.le_add_right _ _).trans hd) ((Nat.le_add_right _ _).trans hh)
    obtain ⟨last, hrun, hfinal, hlast⟩ := ih hs'
      (fun t ht => hrange t (List.mem_cons_of_mem _ ht)) (by rwa [hprev]) (by rwa [hprev])
    refine ⟨last, ?_, by rw [hfinal, hprev]; rfl, hlast⟩
    rw [List.foldlM_cons, hupdate]
    exact hrun

end Run

/-- The reported totals are within two units of the exact ones for the reading `ticks`. -/
def Accurate (tpm wb : Nat) (s : Odom) (ticks : Int × Int) : Prop :=
  |(s.distMm : ℚ) - ((ticks.1 + ticks.2) * 1000 : Int) / (2 * tpm)| < 2 ∧
    |(s.headingCdeg : ℚ) - ((ticks.2 - ticks.1) * 36000000 : Int) / (tpm * wb)| < 2

/-- The reported totals are accurate for readings in range, when all updates but two move by a whole
number of millimetres, and all but two turn by a whole number of centidegrees. -/
theorem accurate_of_even (tpm wb : Nat) (htpm : 1 ≤ tpm) (hwb : 1 ≤ wb)
    (readings : List (Int × Int)) (hrange : ∀ ticks ∈ readings, InRange ticks)
    (hdist : uneven distNum (2 * tpm) (0, 0) readings ≤ 2)
    (hhead : uneven headNum (tpm * wb) (0, 0) readings ≤ 2) :
    ∃ s, odomRun tpm wb readings = some s ∧ Accurate tpm wb s (final (0, 0) readings) := by
  have hstart : Tracks tpm wb .start 0 0 :=
    ⟨by simp [Near, distNum, Odom.start], by simp [Near, headNum, Odom.start], by decide, by decide⟩
  obtain ⟨s, hrun, hfinal, kd, hkd, kh, hkh, hs⟩ := hstart.run htpm hwb hrange
    (by rwa [Nat.zero_add]) (by rwa [Nat.zero_add])
  refine ⟨s, hrun, ?_⟩
  have hd := hs.dist.close (by omega) hkd
  have hh := hs.heading.close (by exact_mod_cast Nat.mul_pos htpm hwb) hkh
  rw [show final (0, 0) readings = (s.prevL, s.prevR) from hfinal.symm]
  exact ⟨by exact_mod_cast hd, by exact_mod_cast hh⟩

/-- A metre in two updates, then half a millimetre. -/
theorem accurate_of_even_metre :
    ∃ s, odomRun 1000 100 [(500, 500), (1000, 1000), (1001, 1000)] = some s ∧
      Accurate 1000 100 s (final (0, 0) [(500, 500), (1000, 1000), (1001, 1000)]) :=
  accurate_of_even 1000 100 (by decide) (by decide) _ (by simp [InRange, Within])
    (by decide) (by decide)

/-- Four updates of half a millimetre each are not counted at all. -/
theorem half_millimetres_lost :
    ∃ s, odomRun 1000 100 [(1, 0), (1, 1), (2, 1), (2, 2)] = some s ∧ s.distMm = 0 ∧
      ¬Accurate 1000 100 s (final (0, 0) [(1, 0), (1, 1), (2, 1), (2, 2)]) := by
  refine ⟨⟨0, 0, 2, 2⟩, by decide, rfl, ?_⟩
  intro h
  have hdist := h.1
  norm_num [final] at hdist

end RobotOs.Robot.Odometry
