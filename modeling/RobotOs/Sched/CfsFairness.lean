import RobotOs.Lib.Run
import RobotOs.Sched.Policies

/-!
# Fairness of the fair share queue

`cfs.rs`: the task with the least virtual runtime is picked and charged, over and over.

The virtual runtimes stay within the largest charge of each other: the task that moves is the
last one, and it moves by one charge.  A new task is raised to the last one when it joins.
From that a waiting task is picked after a bounded number of picks, as long as every pick is
charged something.
-/

namespace RobotOs.Sched.Policy.Cfs

open Lib.Run

variable {D W dtUs : Nat} {m : TaskMeta}

/-- `charge` at the task that ran. -/
def charge (dtUs : Nat) (m : TaskMeta) : TaskMeta :=
  { m with vruntimeUs := min U64_MAX (m.vruntimeUs + min U64_MAX (dtUs * weight m.priority)) }

/-- The task that is picked runs for `dtUs`. -/
def serve (q : Cfs) (dtUs : Nat) : Cfs :=
  match pickNext q with
  | none => q
  | some m => tick q m.tid dtUs

/-! ## The queue as a list -/

/-- The tasks after `tid` was charged. -/
def chargeTask (tid : UInt32) (dtUs : Nat) (l : List TaskMeta) : List TaskMeta :=
  l.map fun m => if m.tid = tid then charge dtUs m else m

theorem map_tid_chargeTask (tid : UInt32) (dtUs : Nat) (l : List TaskMeta) :
    (chargeTask tid dtUs l).map TaskMeta.tid = l.map TaskMeta.tid := by
  unfold chargeTask
  rw [List.map_map]
  apply List.map_congr_left
  intro m _
  show (if m.tid = tid then charge dtUs m else m).tid = m.tid
  split_ifs <;> rfl

/-- When no two tasks have one id, the first with an id is the only one. -/
theorem modify_findIdx_eq {l : List TaskMeta} (hids : (l.map TaskMeta.tid).Nodup) (tid : UInt32)
    (dtUs : Nat) :
    l.modify (l.findIdx fun m => m.tid = tid) (charge dtUs) = chargeTask tid dtUs l := by
  induction l with
  | nil => rfl
  | cons a l ih =>
    obtain ⟨hfresh, hrest⟩ := List.nodup_cons.mp hids
    by_cases htid : a.tid = tid
    · have hsame : chargeTask tid dtUs l = l := by
        unfold chargeTask
        rw [List.map_congr_left (g := id), List.map_id]
        intro m hm
        refine if_neg fun heq => hfresh ?_
        rw [htid, ← heq]
        exact List.mem_map_of_mem hm
      rw [List.findIdx_cons]
      simp only [htid, decide_true, cond_true, List.modify_zero_cons]
      show _ = (if a.tid = tid then charge dtUs a else a) :: chargeTask tid dtUs l
      rw [hsame, if_pos htid]
    · rw [List.findIdx_cons]
      simp only [htid, decide_false, cond_false, List.modify_succ_cons, ih hrest]
      show _ = (if a.tid = tid then charge dtUs a else a) :: chargeTask tid dtUs l
      rw [if_neg htid]

variable {q : Cfs} {l : List TaskMeta}

/-- A task that is picked is behind every other one. -/
theorem pickNext_spec (h : Runqueue.Holds q l) (hm : pickNext q = some m) :
    m ∈ l ∧ ∀ a ∈ l, m.vruntimeUs ≤ a.vruntimeUs := by
  rw [pickNext_eq h] at hm
  exact ⟨List.argmin_mem hm, fun a ha => List.le_of_mem_argmin ha hm⟩

theorem holds_serve (h : Runqueue.Holds q l) (hids : (l.map TaskMeta.tid).Nodup)
    (hm : pickNext q = some m) (dtUs : Nat) :
    Runqueue.Holds (serve q dtUs) (chargeTask m.tid dtUs l) := by
  have hserve : serve q dtUs = tick q m.tid dtUs := by
    unfold serve
    rw [hm]
  rw [hserve, ← modify_findIdx_eq hids]
  exact h.updateFirst _ _

/-! ## The spread -/

/-- A queue of tasks with weights of at most `W`, whose virtual runtimes are within one charge of
`D` microseconds of each other. -/
structure Fair (D W : Nat) (q : Cfs) (l : List TaskMeta) : Prop where
  holds : Runqueue.Holds q l
  ids : (l.map TaskMeta.tid).Nodup
  range : ∀ m ∈ l, m.vruntimeUs ≤ U64_MAX
  weights : ∀ m ∈ l, weight m.priority ≤ W
  spread : ∀ a ∈ l, ∀ b ∈ l, a.vruntimeUs ≤ b.vruntimeUs + D * W

/-- Two tasks of one queue with one id are the same task. -/
theorem eq_of_tid {a b : TaskMeta} (hids : (l.map TaskMeta.tid).Nodup) (ha : a ∈ l) (hb : b ∈ l)
    (htid : a.tid = b.tid) : a = b :=
  List.inj_on_of_nodup_map hids ha hb htid

theorem le_charge (h : m.vruntimeUs ≤ U64_MAX) (dtUs : Nat) :
    m.vruntimeUs ≤ (charge dtUs m).vruntimeUs := by
  show m.vruntimeUs ≤ min U64_MAX _
  omega

theorem charge_le (hdt : dtUs ≤ D) (hw : weight m.priority ≤ W) :
    (charge dtUs m).vruntimeUs ≤ m.vruntimeUs + D * W := by
  have hle : dtUs * weight m.priority ≤ D * W := Nat.mul_le_mul hdt hw
  show min U64_MAX _ ≤ _
  omega

/-- Only the last task moves, by at most one charge. -/
theorem Fair.charged (h : Fair D W q l) (hdt : dtUs ≤ D) (hm : pickNext q = some m) :
    Fair D W (Cfs.serve q dtUs) (chargeTask m.tid dtUs l) := by
  obtain ⟨hmem, hleast⟩ := pickNext_spec h.holds hm
  refine ⟨holds_serve h.holds h.ids hm dtUs, ?_, ?_, ?_, ?_⟩
  · rw [map_tid_chargeTask]
    exact h.ids
  · intro a' ha'
    obtain ⟨a, ha, rfl⟩ := List.mem_map.mp ha'
    split_ifs
    · exact Nat.min_le_left _ _
    · exact h.range a ha
  · intro a' ha'
    obtain ⟨a, ha, rfl⟩ := List.mem_map.mp ha'
    split_ifs <;> exact h.weights a ha
  · intro a' ha' b' hb'
    obtain ⟨a, ha, rfl⟩ := List.mem_map.mp ha'
    obtain ⟨b, hb, rfl⟩ := List.mem_map.mp hb'
    -- No task goes back, and the one that moves was the last.
    have hforward : b.vruntimeUs ≤ (if b.tid = m.tid then charge dtUs b else b).vruntimeUs := by
      split_ifs
      · exact le_charge (h.range b hb) dtUs
      · exact le_rfl
    have hbound : (if a.tid = m.tid then charge dtUs a else a).vruntimeUs ≤
        b.vruntimeUs + D * W := by
      split_ifs with htid
      · obtain rfl := eq_of_tid h.ids ha hmem htid
        have hmove := charge_le hdt (h.weights a ha)
        have hlast := hleast b hb
        omega
      · exact h.spread a ha b hb
    omega

theorem Fair.serve (h : Fair D W q l) (hdt : dtUs ≤ D) :
    ∃ l', Fair D W (Cfs.serve q dtUs) l' := by
  cases hm : pickNext q with
  | none =>
    have hsame : Cfs.serve q dtUs = q := by
      unfold Cfs.serve
      rw [hm]
    rw [hsame]
    exact ⟨l, h⟩
  | some m => exact ⟨_, h.charged hdt hm⟩

/-- A task may join that nobody has the id of, and that is not ahead of every other one. -/
structure Joins (W : Nat) (q : Cfs) (m : TaskMeta) : Prop where
  fresh : m.tid ∉ q.iter.map TaskMeta.tid
  range : m.vruntimeUs ≤ U64_MAX
  weight : weight m.priority ≤ W
  behind : q.iter = [] ∨ ∃ a ∈ q.iter, m.vruntimeUs ≤ a.vruntimeUs

/-- The virtual runtime that a task joins with. -/
theorem baseline_cases (l : List TaskMeta) :
    l = [] ∨ ∃ c ∈ l, (l.map TaskMeta.vruntimeUs).min?.getD 0 = c.vruntimeUs ∧
      ∀ a ∈ l, c.vruntimeUs ≤ a.vruntimeUs := by
  cases hmin : (l.map TaskMeta.vruntimeUs).min? with
  | none =>
    rw [List.min?_eq_none_iff, List.map_eq_nil_iff] at hmin
    exact .inl hmin
  | some v =>
    obtain ⟨hv, hleast⟩ := List.min?_eq_some_iff.mp hmin
    obtain ⟨c, hc, rfl⟩ := List.mem_map.mp hv
    exact .inr ⟨c, hc, rfl, fun a ha => hleast _ (List.mem_map_of_mem ha)⟩

theorem raised_eq_max (m : TaskMeta) (v : Nat) :
    (if m.vruntimeUs < v then { m with vruntimeUs := v } else m) =
      { m with vruntimeUs := max m.vruntimeUs v } := by
  split_ifs with hlow
  · rw [max_eq_right hlow.le]
  · rw [max_eq_left (not_lt.mp hlow)]

/-- Where a task lands that joins from behind: within the spread on both sides. -/
theorem Fair.landing (h : Fair D W q l) (hm : Joins W q m) :
    let v := max m.vruntimeUs ((l.map TaskMeta.vruntimeUs).min?.getD 0)
    v ≤ U64_MAX ∧ ∀ b ∈ l, v ≤ b.vruntimeUs + D * W ∧ b.vruntimeUs ≤ v + D * W := by
  have hrange := hm.range
  have hbehind := hm.behind
  rw [h.holds.iter] at hbehind
  obtain rfl | ⟨c, hc, hbase, hleast⟩ := baseline_cases l
  · simpa using hrange
  rw [hbase]
  obtain hnil | ⟨a, ha, hle⟩ := hbehind
  · rw [hnil] at hc
    exact absurd hc List.not_mem_nil
  have hcrange := h.range c hc
  refine ⟨by omega, fun b hb => ?_⟩
  have habove := hleast b hb
  have hahead := h.spread a ha b hb
  have hfirst := h.spread b hb c hc
  omega

/-- A task with a new id that is within the spread on both sides can be appended. -/
theorem Fair.append {q' : Cfs} (h : Fair D W q l) (hholds : Runqueue.Holds q' (l ++ [m]))
    (hfresh : m.tid ∉ l.map TaskMeta.tid) (hrange : m.vruntimeUs ≤ U64_MAX)
    (hweight : weight m.priority ≤ W)
    (hnear : ∀ b ∈ l, m.vruntimeUs ≤ b.vruntimeUs + D * W ∧ b.vruntimeUs ≤ m.vruntimeUs + D * W) :
    Fair D W q' (l ++ [m]) := by
  refine ⟨hholds, ?_, ?_, ?_, ?_⟩
  · rw [List.map_append, List.map_singleton, ← List.concat_eq_append]
    exact h.ids.concat hfresh
  · exact List.forall_mem_append.mpr ⟨h.range, List.forall_mem_singleton.mpr hrange⟩
  · exact List.forall_mem_append.mpr ⟨h.weights, List.forall_mem_singleton.mpr hweight⟩
  · intro a ha b hb
    simp only [List.mem_append, List.mem_singleton] at ha hb
    obtain ha | rfl := ha <;> obtain hb | rfl := hb
    · exact h.spread a ha b hb
    · exact (hnear a ha).2
    · exact (hnear b hb).1
    · omega

theorem Fair.enqueue (h : Fair D W q l) (hm : Joins W q m) {q' : Cfs}
    (hq : Cfs.enqueue q m = some q') : ∃ l', Fair D W q' l' := by
  have hfresh := hm.fresh
  obtain ⟨hrange, hnear⟩ := h.landing hm
  unfold Cfs.enqueue at hq
  rw [h.holds.iter] at hq hfresh
  dsimp only at hq
  rw [raised_eq_max] at hq
  exact ⟨_, h.append (h.holds.enqueue hq) hfresh hrange hm.weight hnear⟩

inductive Turn where
  | serve (dtUs : Nat)
  | enqueue (m : TaskMeta)
  deriving DecidableEq, Repr

def turn (q : Cfs) : Turn → Cfs
  | .serve dtUs => serve q dtUs
  | .enqueue m => (enqueue q m).getD q

/-- Charges are of at most `D` microseconds, and who joins does so from behind. -/
def Allowed (D W : Nat) (q : Cfs) : Turn → Prop
  | .serve dtUs => dtUs ≤ D
  | .enqueue m => Joins W q m

theorem Fair.turn {t : Turn} (h : Fair D W q l) (ht : Allowed D W q t) :
    ∃ l', Fair D W (Cfs.turn q t) l' := by
  cases t with
  | serve dtUs => exact h.serve ht
  | enqueue m =>
    show ∃ l', Fair D W ((Cfs.enqueue q m).getD q) l'
    cases hq : Cfs.enqueue q m with
    | none => exact ⟨l, h⟩
    | some q' => exact h.enqueue ht hq

/-! ## Waiting -/

/-- A charge of something that does not saturate. -/
def Moves (D : Nat) (q : Cfs) (dtUs : Nat) : Prop :=
  1 ≤ dtUs ∧ dtUs ≤ D ∧ ∀ m ∈ pickNext q, m.vruntimeUs + dtUs * weight m.priority ≤ U64_MAX

instance (D : Nat) (q : Cfs) (dtUs : Nat) : Decidable (Moves D q dtUs) :=
  inferInstanceAs (Decidable (_ ∧ _ ∧ ∀ m ∈ pickNext q, _))

/-- How far the tasks are in all behind the point just past `v`. -/
def lag (v : Nat) (q : Cfs) : Nat := (q.iter.map fun m => v + 1 - m.vruntimeUs).sum

theorem lt_charge (hmoves : Moves D q dtUs) (hm : pickNext q = some m) :
    m.vruntimeUs < (charge dtUs m).vruntimeUs := by
  obtain ⟨hpos, -, hroom⟩ := hmoves
  have hroom := hroom m hm
  have hweight : 1 ≤ dtUs * weight m.priority := Nat.mul_pos hpos (Nat.two_pow_pos _)
  show _ < min U64_MAX _
  omega

/-- While a task waits at `v`, every pick moves a task that is not ahead of it. -/
theorem lag_serve {t : TaskMeta} (h : Fair D W q l) (ht : t ∈ l) (hm : pickNext q = some m)
    (hmoves : Moves D q dtUs) :
    lag t.vruntimeUs (serve q dtUs) < lag t.vruntimeUs q := by
  obtain ⟨hmem, hleast⟩ := pickNext_spec h.holds hm
  unfold lag
  rw [(holds_serve h.holds h.ids hm dtUs).iter, h.holds.iter, chargeTask, List.map_map]
  apply List.sum_lt_sum
  · intro a ha
    show _ - (if a.tid = m.tid then charge dtUs a else a).vruntimeUs ≤ _
    split_ifs
    · exact Nat.sub_le_sub_left (le_charge (h.range a ha) dtUs) _
    · exact le_rfl
  · refine ⟨m, hmem, ?_⟩
    show _ - (if m.tid = m.tid then charge dtUs m else m).vruntimeUs < _
    rw [if_pos rfl]
    have hmove := lt_charge hmoves hm
    have hbehind := hleast t ht
    omega

theorem lag_le {t : TaskMeta} (h : Fair D W q l) (ht : t ∈ l) :
    lag t.vruntimeUs q ≤ l.length * (D * W + 1) := by
  unfold lag
  rw [h.holds.iter, ← List.length_map fun m : TaskMeta => t.vruntimeUs + 1 - m.vruntimeUs,
    ← smul_eq_mul]
  apply List.sum_le_card_nsmul
  intro x hx
  obtain ⟨a, ha, rfl⟩ := List.mem_map.mp hx
  have hspread := h.spread t ht a ha
  omega

/-- The bound stays for ever when charges are bounded and tasks join from behind.  A task is
picked within a bounded number of picks that all charge something. -/
theorem fair_share {D W : Nat} {q : Cfs} {l : List TaskMeta} (h : Fair D W q l) :
    (∀ turns, Guarded turn (Allowed D W) q turns → ∃ l', Fair D W (run turn q turns) l') ∧
      ∀ t ∈ l, ∀ dts, Guarded serve (Moves D) q dts → l.length * (D * W + 1) < dts.length →
        ∃ pre, pre <+: dts ∧ (pickNext (run serve q pre)).map TaskMeta.tid = some t.tid := by
  constructor
  · intro turns hturns
    refine run_invariant_of_guarded (fun q => ∃ l', Fair D W q l') ?_ ⟨l, h⟩ hturns
    intro q t hq ht
    obtain ⟨l, hl⟩ := hq
    exact hl.turn ht
  · intro t ht dts hdts hlong
    by_cases hfirst : (pickNext q).map TaskMeta.tid = some t.tid
    · exact ⟨[], List.nil_prefix, hfirst⟩
    refine reaches_of_measure
      (fun q => (pickNext q).map TaskMeta.tid ≠ some t.tid ∧ ∃ l, Fair D W q l ∧ t ∈ l)
      (fun q => (pickNext q).map TaskMeta.tid = some t.tid) (fun _ => true) (lag t.vruntimeUs) ?_
      ⟨hfirst, l, h, ht⟩ hdts ?_
    · intro q dtUs hq hmoves
      obtain ⟨hother, l, hl, ht⟩ := hq
      obtain ⟨m, hm⟩ : ∃ m, pickNext q = some m := by
        rw [pickNext_eq hl.holds]
        exact Option.isSome_iff_exists.mp (isSome_argmin (List.ne_nil_of_mem ht) _)
      have hstays : t ∈ chargeTask m.tid dtUs l := by
        refine List.mem_map.mpr ⟨t, ht, if_neg fun htid => hother ?_⟩
        rw [hm, htid]
        rfl
      by_cases hgoal : (pickNext (serve q dtUs)).map TaskMeta.tid = some t.tid
      · exact .inl hgoal
      · exact .inr ⟨⟨hgoal, _, hl.charged hmoves.2.1 hm, hstays⟩, lag_serve hl ht hm hmoves⟩
    · rw [List.countP_true]
      exact (lag_le h ht).trans_lt hlong

/-- Two tasks that have not run yet. -/
def twoTasks : List TaskMeta := [⟨1, .BestEffort, 0, none, 0, 0⟩, ⟨2, .BestEffort, 0, none, 0, 0⟩]

def twoTasksQueue : Cfs := (twoTasks.foldlM enqueue (Runqueue.new : Cfs)).getD .new

theorem fair_twoTasks : Fair 10 1 twoTasksQueue twoTasks := by
  refine ⟨⟨rfl, ?_⟩, by decide, by decide, by decide, by decide⟩
  intro k hk
  have hlt : k < 2 := hk
  interval_cases k <;> rfl

/-- Within thirty picks of five microseconds each, the second of them is picked. -/
theorem fair_share_twoTasks :
    ∃ pre, pre <+: List.replicate 30 5 ∧
      (pickNext (run serve twoTasksQueue pre)).map TaskMeta.tid = some 2 :=
  (fair_share fair_twoTasks).2 ⟨2, .BestEffort, 0, none, 0, 0⟩ (by decide) _ (by decide) (by decide)

/-- Charges of nothing leave them as they are. -/
theorem holds_uncharged {q : Cfs} (h : Runqueue.Holds q twoTasks) {dts : List Nat}
    (hdts : ∀ dtUs ∈ dts, dtUs = 0) : Runqueue.Holds (run serve q dts) twoTasks := by
  induction dts generalizing q with
  | nil => exact h
  | cons dtUs dts ih =>
    obtain ⟨rfl, hrest⟩ := List.forall_mem_cons.mp hdts
    exact ih (holds_serve h (by decide) (pickNext_eq h) 0) hrest

/-- With charges of nothing the first of them is picked for ever. -/
theorem uncharged_task_starves :
    Fair 10 1 twoTasksQueue twoTasks ∧
    ¬∃ bound, ∀ dts : List Nat, (∀ dtUs ∈ dts, dtUs ≤ 10) → bound < dts.length →
      ∃ pre, pre <+: dts ∧ (pickNext (run serve twoTasksQueue pre)).map TaskMeta.tid = some 2 := by
  refine ⟨fair_twoTasks, ?_⟩
  intro hbounded
  obtain ⟨bound, hbound⟩ := hbounded
  obtain ⟨pre, hpre, hpicked⟩ := hbound (List.replicate (bound + 1) 0) (by simp) (by simp)
  have hzero : ∀ dtUs ∈ pre, dtUs = 0 :=
    fun dtUs hdt => List.eq_of_mem_replicate (hpre.subset hdt)
  rw [pickNext_eq (holds_uncharged fair_twoTasks.holds hzero)] at hpicked
  exact absurd hpicked (by decide)

end RobotOs.Sched.Policy.Cfs
