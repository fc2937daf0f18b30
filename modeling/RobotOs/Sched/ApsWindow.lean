import RobotOs.Lib.Run
import RobotOs.Sched.Aps

/-!
# What a class gets in a window

The partitioning is anchored at some time, and from then on a tick comes every
`dt`.  Just before a tick a class is picked, and the tick charges that class.

A window is `n` ticks long.  The tick that ends a window starts the next one
before it charges, so the first tick of a window pays for a pick that was made
under the budgets of the window before, and the first window of all has only
`n - 1` ticks.  The `n - 1` picks that a window can count on serve the classes
below their minimum one after the other, each at most as often as its minimum
rounded up to whole ticks says.  So the minima are kept when they leave one tick
free, and they are not when they fill the window.
-/

namespace RobotOs.Sched.Policy

open Lib.Run

instance : Fintype SchedClass := ⟨⟨SchedClass.ALL, by decide⟩, Aps.mem_all⟩

/-- What is runnable when a class is picked, and the task that then runs. -/
structure Pick where
  isRunnable : SchedClass → Bool
  tid : UInt32

/-- The clock and the partitioning. -/
structure Clocked where
  nowUs : Nat
  aps : Aps

/-- A pick, and the tick that charges it. -/
def beat (dtUs : UInt32) (s : Clocked) (p : Pick) : Clocked :=
  let aps :=
    match s.aps.pickClass p.isRunnable with
    | some c => s.aps.setCurrent c p.tid
    | none => s.aps.setIdle
  ⟨s.nowUs + dtUs.toNat, aps.tick (s.nowUs + dtUs.toNat) dtUs⟩

/-- Budgets and the length of a window. -/
structure Partition where
  minPct : SchedClass → UInt8
  maxPct : SchedClass → UInt8
  windowUs : UInt32

namespace Partition

variable (cfg : Partition)

/-- The partitioning, anchored at a time. -/
def start (startUs : Nat) : Clocked :=
  let budgets := fun c => ClassBudget.new (cfg.minPct c) (cfg.maxPct c)
  ⟨startUs, (Aps.new budgets cfg.windowUs).anchorWindow startUs⟩

/-- `min_quota_us`. -/
def minQuota (c : SchedClass) : Nat :=
  ((ClassBudget.new (cfg.minPct c) (cfg.maxPct c)).minQuotaUs cfg.windowUs).toNat

/-- The state after the picks. -/
def after (dtUs : UInt32) (startUs : Nat) (picks : List Pick) : Clocked :=
  run (beat dtUs) (cfg.start startUs) picks

/-- When a window ends, a class that was runnable at its picks has been charged
its minimum.  Window `j` ends with tick `(j + 1) * n`, so its last pick, which that
tick pays for, has no part in this. -/
def GuaranteedMinimum (dtUs : UInt32) : Prop :=
  ∀ (startUs j : Nat) (picks : List Pick) (c : SchedClass),
    picks.length = (j + 1) * (cfg.windowUs.toNat / dtUs.toNat) - 1 →
    (∀ p ∈ picks.drop (j * (cfg.windowUs.toNat / dtUs.toNat)), p.isRunnable c = true) →
    cfg.minQuota c ≤ ((cfg.after dtUs startUs picks).aps.budgets c).consumedUs.toNat

end Partition

/-- The next multiple of `dt`. -/
def roundUp (dt q : Nat) : Nat := (q + dt - 1) / dt * dt

theorem le_roundUp {dt : Nat} (hdt : 0 < dt) (q : Nat) : q ≤ roundUp dt q := by
  have hmod := Nat.mod_lt (q + dt - 1) hdt
  have hdiv := Nat.div_add_mod (q + dt - 1) dt
  rw [roundUp, Nat.mul_comm]
  omega

/-- A multiple of `dt` below `q` is a whole `dt` below the next one. -/
theorem add_le_roundUp {dt y q : Nat} (hdt : 0 < dt) (hy : dt ∣ y) (hlt : y < q) :
    y + dt ≤ roundUp dt q := by
  obtain ⟨a, rfl⟩ := hy
  have hle := lt_of_lt_of_le hlt (le_roundUp hdt q)
  rw [roundUp, Nat.mul_comm _ dt] at hle ⊢
  rw [← Nat.mul_succ]
  exact Nat.mul_le_mul_left dt (Nat.lt_of_mul_lt_mul_left hle)

/-- The place of the next number in its block of `n`. -/
theorem succ_mod_cases {n : Nat} (hn : 0 < n) (m : Nat) :
    (m % n + 1 = n ∧ (m + 1) % n = 0 ∧ (m + 1) / n = m / n + 1) ∨
      (m % n + 1 < n ∧ (m + 1) % n = m % n + 1 ∧ (m + 1) / n = m / n) := by
  have hm := Nat.div_add_mod m n
  have hmod := Nat.mod_lt m hn
  by_cases hlast : m % n + 1 = n
  · have hnext : m + 1 = n * (m / n + 1) := by rw [Nat.mul_succ]; omega
    refine .inl ⟨hlast, ?_, ?_⟩
    · rw [hnext, Nat.mul_mod_right]
    · rw [hnext, Nat.mul_div_cancel_left _ hn]
  · have hnext : m + 1 = n * (m / n) + (m % n + 1) := by omega
    have hinside : m % n + 1 < n := by omega
    refine .inr ⟨hinside, ?_, ?_⟩
    · rw [hnext, Nat.mul_add_mod, Nat.mod_eq_of_lt hinside]
    · rw [hnext, Nat.mul_add_div hn, Nat.div_eq_of_lt hinside, Nat.add_zero]

/-- A multiple of `dt` that is not below `q` is not below the next multiple. -/
theorem roundUp_le {dt y q : Nat} (hdt : 0 < dt) (hy : dt ∣ y) (hle : q ≤ y) :
    roundUp dt q ≤ y := by
  obtain ⟨a, rfl⟩ := hy
  rw [roundUp, Nat.mul_comm _ dt]
  refine Nat.mul_le_mul_left dt (Nat.le_of_lt_succ ?_)
  rw [Nat.div_lt_iff_lt_mul hdt, Nat.succ_mul, Nat.mul_comm a]
  omega

/-! ## One beat -/

/-- What a class was charged in the window. -/
def Clocked.spent (s : Clocked) (c : SchedClass) : Nat := (s.aps.budgets c).consumedUs.toNat

/-- The state after `m` beats, with windows of `n` ticks. -/
structure Steady (cfg : Partition) (dtUs : UInt32) (startUs n m : Nat) (s : Clocked) : Prop where
  now : s.nowUs = startUs + m * dtUs.toNat
  window : s.aps.windowUs = cfg.windowUs
  anchored : s.aps.windowStartUs = startUs + m / n * (n * dtUs.toNat)
  minPct : ∀ c, (s.aps.budgets c).minPct = cfg.minPct c
  whole : ∀ c, dtUs.toNat ∣ s.spent c
  spent : ∑ c, s.spent c ≤ (m % n + 1) * dtUs.toNat

section Beat

variable {cfg : Partition} {dtUs : UInt32} {startUs n m : Nat} {s : Clocked}

theorem Steady.underMin_iff (h : Steady cfg dtUs startUs n m s) (c : SchedClass) :
    (s.aps.budgets c).underMin s.aps.windowUs = true ↔ s.spent c < cfg.minQuota c := by
  simp only [ClassBudget.underMin, decide_eq_true_eq, UInt32.lt_iff_toNat_lt]
  simp only [Partition.minQuota, ClassBudget.minQuotaUs, ClassBudget.new, h.minPct, h.window,
    Clocked.spent]

/-- The time since the window started, when the next tick comes. -/
theorem Steady.elapsed (h : Steady cfg dtUs startUs n m s) :
    s.nowUs + dtUs.toNat - s.aps.windowStartUs = (m % n + 1) * dtUs.toNat := by
  have hm : m * dtUs.toNat = m / n * (n * dtUs.toNat) + m % n * dtUs.toNat := by
    rw [← Nat.mul_assoc, ← Nat.add_mul, Nat.mul_comm (m / n), Nat.div_add_mod]
  rw [h.now, h.anchored, hm, Nat.add_mul]
  omega

/-- The tick of this beat ends a window. -/
theorem Steady.ends_iff (h : Steady cfg dtUs startUs n m s) (hn : 0 < n) (hdt : 0 < dtUs.toNat)
    (hwindow : cfg.windowUs.toNat = n * dtUs.toNat) :
    (s.aps.windowUs.toNat > 0 ∧
      s.nowUs + dtUs.toNat - s.aps.windowStartUs ≥ s.aps.windowUs.toNat) ↔ (m + 1) % n = 0 := by
  rw [h.elapsed, h.window, hwindow, ge_iff_le, Nat.mul_le_mul_right_iff hdt]
  have hpos : 0 < n * dtUs.toNat := Nat.mul_pos hn hdt
  rcases succ_mod_cases hn m with ⟨hlast, hzero, -⟩ | ⟨hinside, hnext, -⟩ <;> omega

/-- The budgets after a charge. -/
theorem budgets_charge (a : Aps) (d : SchedClass) :
    ((a.charge dtUs).budgets d).consumedUs =
        (a.budgets d).consumedUs + (if a.currentClass = some d then dtUs else 0) ∧
      ((a.charge dtUs).budgets d).minPct = (a.budgets d).minPct := by
  unfold Aps.charge
  split
  next hidle => simp [hidle]
  next c hc =>
    by_cases hd : d = c
    · subst hd
      simp [hc, ClassBudget.consume]
    · simp [hc, Function.update_of_ne hd, Ne.symm hd]

theorem frame_charge (a : Aps) : (a.charge dtUs).windowUs = a.windowUs ∧
    (a.charge dtUs).windowStartUs = a.windowStartUs := by
  unfold Aps.charge
  split <;> exact ⟨rfl, rfl⟩

/-- The partitioning when the tick comes. -/
def picked (a : Aps) (p : Pick) : Aps :=
  { a with
    currentClass := a.pickClass p.isRunnable
    currentTid := if (a.pickClass p.isRunnable).isSome then p.tid else 0 }

/-- A tick inside a window, and the tick that ends one. -/
theorem Steady.aps_beat (h : Steady cfg dtUs startUs n m s) (hn : 0 < n) (hdt : 0 < dtUs.toNat)
    (hwindow : cfg.windowUs.toNat = n * dtUs.toNat) (p : Pick) :
    (beat dtUs s p).aps =
      if (m + 1) % n = 0 then
        Aps.charge { (picked s.aps p).resetWindows with
          windowStartUs := startUs + (m + 1) / n * (n * dtUs.toNat) } dtUs
      else (picked s.aps p).charge dtUs := by
  have hpick : (match s.aps.pickClass p.isRunnable with
      | some c => s.aps.setCurrent c p.tid
      | none => s.aps.setIdle) = picked s.aps p := by
    unfold picked
    cases s.aps.pickClass p.isRunnable <;> rfl
  have hbeat : (Policy.beat dtUs s p).aps =
      (picked s.aps p).tick (s.nowUs + dtUs.toNat) dtUs := by
    rw [← hpick]
    rfl
  have hends := h.ends_iff hn hdt hwindow
  rw [hbeat, Aps.tick]
  by_cases hend : (m + 1) % n = 0
  · have hstart : s.aps.windowStartUs + (s.nowUs + dtUs.toNat - s.aps.windowStartUs) /
        s.aps.windowUs.toNat * s.aps.windowUs.toNat =
        startUs + (m + 1) / n * (n * dtUs.toNat) := by
      rcases succ_mod_cases hn m with ⟨hlast, -, hnext⟩ | ⟨-, hnext, -⟩
      · rw [h.elapsed, hlast, h.window, hwindow, Nat.div_self (Nat.mul_pos hn hdt), h.anchored,
          hnext, Nat.add_mul]
        omega
      · omega
    rw [if_pos hend, ← hstart]
    exact if_pos (hends.mpr hend)
  · rw [if_neg hend]
    exact if_neg (mt hends.mp hend)

theorem Steady.beat (h : Steady cfg dtUs startUs n m s) (hn : 0 < n) (hdt : 0 < dtUs.toNat)
    (hwindow : cfg.windowUs.toNat = n * dtUs.toNat) (p : Pick) :
    Steady cfg dtUs startUs n (m + 1) (beat dtUs s p) ∧
      ∀ d, (Policy.beat dtUs s p).spent d = (if (m + 1) % n = 0 then 0 else s.spent d) +
        (if s.aps.pickClass p.isRunnable = some d then dtUs.toNat else 0) := by
  have hroom : n * dtUs.toNat < 2 ^ 32 := hwindow ▸ cfg.windowUs.toNat_lt
  have hspent : ∀ d, (Policy.beat dtUs s p).spent d = (if (m + 1) % n = 0 then 0 else s.spent d) +
      (if s.aps.pickClass p.isRunnable = some d then dtUs.toNat else 0) := by
    intro d
    have hle : s.spent d ≤ (m % n + 1) * dtUs.toNat :=
      (Finset.single_le_sum (fun c _ => Nat.zero_le (s.spent c)) (Finset.mem_univ d)).trans h.spent
    rw [Clocked.spent, h.aps_beat hn hdt hwindow]
    split_ifs with hend hpick hpick <;> rw [(budgets_charge _ d).1]
    · simp [picked, Aps.resetWindows, ClassBudget.resetWindow, hpick]
    · simp [picked, Aps.resetWindows, ClassBudget.resetWindow, hpick]
    · -- The ticks of a window do not overflow the counter.
      have hinside : (m % n + 1 + 1) * dtUs.toNat ≤ n * dtUs.toNat := by
        rcases succ_mod_cases hn m with ⟨-, hzero, -⟩ | ⟨hlt, -, -⟩
        · exact absurd hzero hend
        · exact Nat.mul_le_mul_right _ hlt
      rw [Nat.add_mul, Nat.one_mul] at hinside
      simp only [picked, hpick, if_true, UInt32.toNat_add]
      exact Nat.mod_eq_of_lt (by unfold Clocked.spent at hle; omega)
    · simp [picked, hpick, Clocked.spent]
  refine ⟨⟨?_, ?_, ?_, ?_, ?_, ?_⟩, hspent⟩
  · rw [Nat.add_mul, Nat.one_mul, ← Nat.add_assoc, ← h.now]
    rfl
  · rw [h.aps_beat hn hdt hwindow]
    split_ifs <;> rw [(frame_charge _).1] <;> exact h.window
  · rw [h.aps_beat hn hdt hwindow]
    split_ifs with hend <;> rw [(frame_charge _).2]
    rcases succ_mod_cases hn m with ⟨-, hzero, -⟩ | ⟨-, -, hsame⟩
    · exact absurd hzero hend
    · rw [hsame]
      exact h.anchored
  · intro c
    rw [h.aps_beat hn hdt hwindow]
    split_ifs <;> rw [(budgets_charge _ c).2] <;> exact h.minPct c
  · intro c
    rw [hspent c]
    refine Nat.dvd_add ?_ ?_
    · split_ifs
      · exact Nat.dvd_zero _
      · exact h.whole c
    · split_ifs
      · exact Nat.dvd_refl _
      · exact Nat.dvd_zero _
  · have hcharge : ∑ c, (if s.aps.pickClass p.isRunnable = some c then dtUs.toNat else 0) ≤
        dtUs.toNat := by
      cases s.aps.pickClass p.isRunnable with
      | none => simp
      | some c => simp
    simp only [hspent, Finset.sum_add_distrib]
    rcases succ_mod_cases hn m with ⟨-, hzero, -⟩ | ⟨hlt, hnext, -⟩
    · simp only [hzero, if_true, Finset.sum_const_zero]
      omega
    · have hne : (m + 1) % n ≠ 0 := by omega
      simp only [if_neg hne]
      rw [hnext, Nat.add_mul, Nat.one_mul]
      exact Nat.add_le_add h.spent hcharge

end Beat

/-! ## One window -/

section Window

variable {cfg : Partition} {dtUs : UInt32} {n : Nat} (startUs : Nat) (hn : 0 < n)
  (hdt : 0 < dtUs.toNat) (hwindow : cfg.windowUs.toNat = n * dtUs.toNat)
include hn hdt hwindow

theorem steady_after (picks : List Pick) :
    Steady cfg dtUs startUs n picks.length (cfg.after dtUs startUs picks) := by
  induction picks using List.reverseRecOn with
  | nil =>
    refine ⟨by simp [Partition.after, Partition.start], rfl, by simp [Partition.after,
      Partition.start, Aps.anchorWindow], fun _ => rfl, fun _ => Nat.dvd_zero _, ?_⟩
    have hzero : ∀ c, (cfg.after dtUs startUs []).spent c = 0 := fun _ => rfl
    simp [hzero]
  | append_singleton picks p ih =>
    rw [Partition.after, run_concat, List.length_append]
    exact (ih.beat hn hdt hwindow p).1

theorem spent_after_concat (picks : List Pick) (p : Pick) (d : SchedClass) :
    (cfg.after dtUs startUs (picks ++ [p])).spent d =
      (if (picks.length + 1) % n = 0 then 0 else (cfg.after dtUs startUs picks).spent d) +
        (if (cfg.after dtUs startUs picks).aps.pickClass p.isRunnable = some d
          then dtUs.toNat else 0) := by
  rw [Partition.after, run_concat]
  exact ((steady_after startUs hn hdt hwindow picks).beat hn hdt hwindow p).2 d

/-- While a class with tasks is below its minimum, every tick of the window goes
to a class that is, so no class gets more than its minimum in whole ticks. -/
theorem progress {j : Nat} {base picks : List Pick} {c : SchedClass} (hbase : base.length = j * n)
    (hlen : picks.length < n) (hrun : ∀ p ∈ picks, p.isRunnable c = true) :
    cfg.minQuota c ≤ (cfg.after dtUs startUs (base ++ picks)).spent c ∨
      ∑ d, (cfg.after dtUs startUs (base ++ picks)).spent d =
          ∑ d, (cfg.after dtUs startUs base).spent d + picks.length * dtUs.toNat ∧
        ∀ d, (cfg.after dtUs startUs (base ++ picks)).spent d ≤
          (cfg.after dtUs startUs base).spent d + roundUp dtUs.toNat (cfg.minQuota d) := by
  induction picks using List.reverseRecOn with
  | nil => exact .inr ⟨by simp, fun d => by simp⟩
  | append_singleton picks p ih =>
    rw [List.length_append, List.length_singleton] at hlen
    have hinside : ((base ++ picks).length + 1) % n ≠ 0 := by
      rw [List.length_append, hbase, Nat.add_assoc, Nat.mul_comm, Nat.mul_add_mod,
        Nat.mod_eq_of_lt hlen]
      omega
    have hspent := spent_after_concat startUs hn hdt hwindow (base ++ picks) p
    simp only [if_neg hinside] at hspent
    rw [← List.append_assoc]
    have hbefore := ih (by omega) fun q hq => hrun q (List.mem_append_left _ hq)
    by_cases hserved : cfg.minQuota c ≤ (cfg.after dtUs startUs (base ++ picks)).spent c
    · exact .inl (by rw [hspent c]; omega)
    · obtain ⟨hsum, hmost⟩ := hbefore.resolve_left hserved
      have hsteady := steady_after startUs hn hdt hwindow (base ++ picks)
      have hpending := (hsteady.underMin_iff c).mpr (by omega)
      have hrunnable : p.isRunnable c = true := hrun p (by simp)
      obtain ⟨e, he⟩ := Option.isSome_iff_exists.mp
        (Aps.isSome_pickClass (a := (cfg.after dtUs startUs (base ++ picks)).aps) hrunnable)
      have hunder := (hsteady.underMin_iff e).mp (Aps.underMin_of_pickClass hrunnable hpending he)
      rw [he] at hspent
      refine .inr ⟨?_, fun d => ?_⟩
      · simp only [hspent, Finset.sum_add_distrib, hsum, Option.some_inj, Finset.sum_ite_eq,
          Finset.mem_univ, if_true, List.length_append, List.length_singleton, Nat.add_mul,
          Nat.one_mul]
        omega
      · rw [hspent d]
        split_ifs with hd
        · obtain rfl := Option.some.inj hd
          exact (add_le_roundUp hdt (hsteady.whole e) hunder).trans (Nat.le_add_left _ _)
        · exact hmost d

/-- No more is charged than there are ticks. -/
theorem sum_spent_le (picks : List Pick) :
    ∑ d, (cfg.after dtUs startUs picks).spent d ≤ picks.length * dtUs.toNat := by
  induction picks using List.reverseRecOn with
  | nil =>
    have hzero : ∀ c, (cfg.after dtUs startUs []).spent c = 0 := fun _ => rfl
    simp [hzero]
  | append_singleton picks p ih =>
    have hcharge : ∑ d, (if (cfg.after dtUs startUs picks).aps.pickClass p.isRunnable = some d
        then dtUs.toNat else 0) ≤ dtUs.toNat := by
      cases (cfg.after dtUs startUs picks).aps.pickClass p.isRunnable <;> simp
    have hold : ∑ d, (if (picks.length + 1) % n = 0 then 0
        else (cfg.after dtUs startUs picks).spent d) ≤ picks.length * dtUs.toNat := by
      split_ifs
      · simp
      · exact ih
    simp only [spent_after_concat startUs hn hdt hwindow, Finset.sum_add_distrib]
    rw [List.length_append, Nat.add_mul, List.length_singleton, Nat.one_mul]
    exact Nat.add_le_add hold hcharge

end Window

/-- All classes have tasks. -/
def allRunnable : Pick := ⟨fun _ => true, 1⟩

namespace Partition

/-- The default budgets. -/
def default : Partition := ⟨defaultBudgetPct, fun _ => 100, 10000⟩

/-- The whole window for the class `HardRT`. -/
def hardOnly : Partition := ⟨fun c => if c = .HardRT then 100 else 0, fun _ => 100, 20⟩

/-- The minima in whole ticks fill the window.  With the default budgets and a tick
of 500, the class `Idle` gets nothing in the first window.  The class `HardRT` gets
half of its minimum in the third one. -/
theorem minimum_missed :
    (∑ c, roundUp 500 (default.minQuota c) = 10000 ∧ default.minQuota .Idle = 500 ∧
        (default.after 500 0 (List.replicate 19 allRunnable)).spent .Idle = 0) ∧
      ∑ c, roundUp 10 (hardOnly.minQuota c) = 20 ∧ hardOnly.minQuota .HardRT = 20 ∧
        (hardOnly.after 10 0 (List.replicate 5 allRunnable)).spent .HardRT = 10 := by
  decide +kernel

/-- The minima are guaranteed exactly when they leave one tick of the window
free. -/
theorem guaranteedMinimum_iff (cfg : Partition) (dtUs : UInt32)
    (hdvd : dtUs.toNat ∣ cfg.windowUs.toNat) :
    cfg.GuaranteedMinimum dtUs ↔ cfg.windowUs.toNat = 0 ∨
      ∑ c, roundUp dtUs.toNat (cfg.minQuota c) + dtUs.toNat ≤ cfg.windowUs.toNat := by
  by_cases hempty : cfg.windowUs.toNat = 0
  · refine iff_of_true (fun startUs j picks c _ _ => ?_) (.inl hempty)
    have hzero : cfg.minQuota c = 0 := by
      simp [minQuota, ClassBudget.minQuotaUs, hempty]
    omega
  obtain ⟨n, hwindow⟩ := hdvd
  rw [Nat.mul_comm] at hwindow
  have hn : 0 < n := by
    rcases Nat.eq_zero_or_pos n with rfl | hn
    · exact absurd (hwindow.trans (Nat.zero_mul _)) hempty
    · exact hn
  have hdt : 0 < dtUs.toNat := by
    rcases Nat.eq_zero_or_pos dtUs.toNat with hzero | hdt
    · exact absurd (hwindow.trans (by rw [hzero, Nat.mul_zero])) hempty
    · exact hdt
  have hquot : cfg.windowUs.toNat / dtUs.toNat = n := by
    rw [hwindow, Nat.mul_div_cancel _ hdt]
  constructor
  · -- With all classes runnable, the first window has one tick too few.
    intro hguaranteed
    refine .inr ?_
    have hmin : ∀ c, roundUp dtUs.toNat (cfg.minQuota c) ≤
        (cfg.after dtUs 0 (List.replicate (n - 1) allRunnable)).spent c := by
      intro c
      refine roundUp_le hdt ((steady_after 0 hn hdt hwindow _).whole c) ?_
      have hlen : (List.replicate (n - 1) allRunnable).length =
          (0 + 1) * (cfg.windowUs.toNat / dtUs.toNat) - 1 := by
        rw [List.length_replicate, hquot, Nat.zero_add, Nat.one_mul]
      refine hguaranteed 0 0 _ c hlen ?_
      intro p hp
      rw [List.eq_of_mem_replicate (List.mem_of_mem_drop hp)]
      rfl
    have hsum := (Finset.sum_le_sum fun c _ => hmin c).trans
      (sum_spent_le 0 hn hdt hwindow (List.replicate (n - 1) allRunnable))
    rw [List.length_replicate, Nat.sub_mul, Nat.one_mul] at hsum
    have hone : dtUs.toNat ≤ n * dtUs.toNat := Nat.le_mul_of_pos_left _ hn
    omega
  · intro hslack startUs j picks c hlen hrun
    rw [hquot] at hlen hrun
    have hlong : j * n + (n - 1) = picks.length := by
      rw [hlen, Nat.add_mul, Nat.one_mul]
      omega
    have hbase : (picks.take (j * n)).length = j * n := by
      rw [List.length_take]
      omega
    have hrest : (picks.drop (j * n)).length = n - 1 := by
      rw [List.length_drop]
      omega
    have hprogress := progress startUs hn hdt hwindow hbase (by omega) hrun
    rw [List.take_append_drop, hrest] at hprogress
    rcases hprogress with hdone | ⟨hsum, hmost⟩
    · exact hdone
    by_contra hless
    have hbelow := add_le_roundUp hdt ((steady_after startUs hn hdt hwindow picks).whole c)
      (Nat.lt_of_not_le hless)
    -- The other classes have their minima at most, and this one has a tick less.
    have hshort : ∑ d, ((cfg.after dtUs startUs picks).spent d + if c = d then dtUs.toNat else 0) ≤
        ∑ d, ((cfg.after dtUs startUs (picks.take (j * n))).spent d +
          roundUp dtUs.toNat (cfg.minQuota d)) := by
      apply Finset.sum_le_sum
      intro d _
      split_ifs with hd
      · subst hd
        omega
      · exact hmost d
    rw [Finset.sum_add_distrib, Finset.sum_add_distrib, Finset.sum_ite_eq,
      if_pos (Finset.mem_univ c), hsum, Nat.sub_mul, Nat.one_mul] at hshort
    have hone : dtUs.toNat ≤ n * dtUs.toNat := Nat.le_mul_of_pos_left _ hn
    omega

/-- Budgets that leave a twentieth of the window free. -/
def roomy : Partition := ⟨fun c => if c = .BestEffort then 15 else defaultBudgetPct c, fun _ => 100,
  10000⟩

theorem guaranteedMinimum_roomy : roomy.GuaranteedMinimum 500 :=
  (guaranteedMinimum_iff roomy 500 (by decide)).mpr (.inr (by decide))

end Partition

end RobotOs.Sched.Policy
