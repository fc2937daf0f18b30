import RobotOs.Lib.Run
import RobotOs.Sched.Policies

/-!
# Admission and bandwidth of the servers

`edf_cbs.rs`: `admission_check` of the queue of servers, and what `tick` does to the deadline
and the budget of one server.

The check adds up the utilisations in whole per mille, each of them cut off, so what is cut
off can hide an overload.  A tick that is longer than the budget that is left postpones the
deadline once and starts a full budget, so the rest of the tick is not charged.
-/

namespace RobotOs.Sched.Policy.EdfCbs

open RobotOs.Lib.Run

/-! ## Admission -/

/-- The utilisation of a server in whole per mille. -/
def permille (budgetUs periodUs : Nat) : Nat := budgetUs * 1000 / periodUs

/-- `admission_check`. -/
def admissionCheck (q : EdfCbs) (newBudgetUs newPeriodUs : Nat) : Bool :=
  if newPeriodUs = 0 then false
  else
    let sum : Option Nat := q.iter.foldlM (fun sum e =>
      if e.cbs.periodUs = 0 then none else some (sum + permille e.cbs.budgetUs e.cbs.periodUs)) 0
    match sum with
    | none => false
    | some sum => sum + permille newBudgetUs newPeriodUs ≤ 1000

/-- The budgets and periods of the queued servers and of the candidate. -/
def reservations (q : EdfCbs) (newBudgetUs newPeriodUs : Nat) : List (Nat × Nat) :=
  (newBudgetUs, newPeriodUs) :: q.iter.map fun e => (e.cbs.budgetUs, e.cbs.periodUs)

/-- The exact utilisation. -/
def utilisation (l : List (Nat × Nat)) : ℚ := (l.map fun r => (r.1 : ℚ) / r.2).sum

/-- The whole per milles of every server. -/
def wholes (l : List (Nat × Nat)) : Nat := (l.map fun r => permille r.1 r.2).sum

/-- The parts of a per mille that are cut off. -/
def cutOff (l : List (Nat × Nat)) : ℚ := (l.map fun r => ((r.1 * 1000 % r.2 : Nat) : ℚ) / r.2).sum

/-- What is counted and what is cut off make up the utilisation. -/
theorem utilisation_eq {l : List (Nat × Nat)} (h : ∀ r ∈ l, r.2 ≠ 0) :
    1000 * utilisation l = wholes l + cutOff l := by
  induction l with
  | nil => simp [utilisation, wholes, cutOff]
  | cons r l ih =>
    have hrest := ih fun r hr => h r (List.mem_cons_of_mem _ hr)
    have hperiod : (r.2 : ℚ) ≠ 0 := Nat.cast_ne_zero.mpr (h r List.mem_cons_self)
    have hdiv : (r.1 : ℚ) * 1000 = r.2 * permille r.1 r.2 + (r.1 * 1000 % r.2 : Nat) := by
      exact_mod_cast (Nat.div_add_mod (r.1 * 1000) r.2).symm
    have hfirst : 1000 * ((r.1 : ℚ) / r.2) =
        permille r.1 r.2 + ((r.1 * 1000 % r.2 : Nat) : ℚ) / r.2 := by
      field_simp
      linarith
    simp only [utilisation, wholes, cutOff, List.map_cons, List.sum_cons, Nat.cast_add] at hrest ⊢
    rw [mul_add, hfirst, hrest]
    ring

/-- The loop of the check. -/
theorem foldlM_permille (l : List EdfEntry) (start : Nat) :
    l.foldlM (fun sum e => if e.cbs.periodUs = 0 then none
        else some (sum + permille e.cbs.budgetUs e.cbs.periodUs)) start =
      if ∃ e ∈ l, e.cbs.periodUs = 0 then none
      else some (start + wholes (l.map fun e => (e.cbs.budgetUs, e.cbs.periodUs))) := by
  induction l generalizing start with
  | nil => simp [wholes]
  | cons e l ih =>
    rw [List.foldlM_cons]
    by_cases hzero : e.cbs.periodUs = 0
    · simp [hzero]
    · rw [if_neg hzero]
      show l.foldlM _ (start + permille e.cbs.budgetUs e.cbs.periodUs) = _
      rw [ih]
      simp [hzero, wholes, Nat.add_assoc]

theorem admissionCheck_iff (q : EdfCbs) (newBudgetUs newPeriodUs : Nat) :
    admissionCheck q newBudgetUs newPeriodUs = true ↔
      (∀ r ∈ reservations q newBudgetUs newPeriodUs, r.2 ≠ 0) ∧
        wholes (reservations q newBudgetUs newPeriodUs) ≤ 1000 := by
  unfold admissionCheck reservations
  rw [foldlM_permille]
  by_cases hnew : newPeriodUs = 0
  · simp [hnew]
  · by_cases hzero : ∃ e ∈ q.iter, e.cbs.periodUs = 0
    · have hfalse : ¬∀ r ∈ (newBudgetUs, newPeriodUs) ::
          q.iter.map (fun e => (e.cbs.budgetUs, e.cbs.periodUs)), r.2 ≠ 0 := by
        intro hall
        obtain ⟨e, he, hperiod⟩ := hzero
        exact hall _ (List.mem_cons_of_mem _ (List.mem_map_of_mem he)) hperiod
      simp only [if_neg hnew, if_pos hzero]
      exact iff_of_false Bool.false_ne_true fun h => hfalse h.1
    · simp only [if_neg hnew, if_neg hzero, Nat.zero_add, decide_eq_true_eq, wholes, List.map_cons,
        List.sum_cons, Nat.add_comm (permille newBudgetUs newPeriodUs)]
      refine (and_iff_right ?_).symm
      simpa [hnew] using fun e he hperiod => hzero ⟨e, he, hperiod⟩

/-- An overload that is admitted is less than one per mille for each server. -/
theorem utilisation_lt_of_admitted {q : EdfCbs} {newBudgetUs newPeriodUs : Nat}
    (h : admissionCheck q newBudgetUs newPeriodUs = true) :
    1000 * utilisation (reservations q newBudgetUs newPeriodUs) <
      1000 + (reservations q newBudgetUs newPeriodUs).length := by
  obtain ⟨hall, hsum⟩ := (admissionCheck_iff q newBudgetUs newPeriodUs).mp h
  have hne : reservations q newBudgetUs newPeriodUs ≠ [] := List.cons_ne_nil _ _
  generalize reservations q newBudgetUs newPeriodUs = l at hall hsum hne ⊢
  have hcut : cutOff l < (l.map fun _ => (1 : ℚ)).sum := by
    refine List.sum_lt_sum_of_ne_nil hne _ _ fun r hr => ?_
    have hpos : 0 < r.2 := Nat.pos_of_ne_zero (hall r hr)
    rw [div_lt_one (by exact_mod_cast hpos)]
    exact_mod_cast Nat.mod_lt _ hpos
  have hsum' : (wholes l : ℚ) ≤ 1000 := by exact_mod_cast hsum
  rw [List.map_const', List.sum_replicate, nsmul_one] at hcut
  rw [utilisation_eq hall]
  linarith

/-- A queue of servers, from their tasks, budgets and periods. -/
def queueOf (servers : List (UInt32 × Nat × Nat)) : Option EdfCbs :=
  servers.foldlM (fun q r => q.enqueueWithCbs ⟨r.1, .HardRT, 0, none, 0, 0⟩ (.new r.2.1 r.2.2))
    Runqueue.new

/-- `entry`: the first server of a task. -/
def entry (q : EdfCbs) (tid : UInt32) : Option EdfEntry :=
  q.iter.find? fun e => e.taskMeta.tid = tid

@[simp] theorem tid_charge (dtUs : Nat) (e : EdfEntry) :
    (charge dtUs e).taskMeta.tid = e.taskMeta.tid := by
  unfold charge
  split_ifs <;> rfl

/-- A tick charges the server of the task that ran, and no other. -/
theorem entry_tick (q : EdfCbs) (tid tidRunning : UInt32) (dtUs : Nat) :
    entry (tick q tidRunning dtUs) tid =
      if tidRunning = tid then (entry q tid).map (charge dtUs) else entry q tid := by
  unfold tick Runqueue.updateFirst entry Runqueue.iter
  split
  · next hnone =>
    split_ifs with htid
    · subst htid
      rw [List.find?_filterMap, hnone]
      rfl
    · rfl
  · next idx hidx =>
    have hrun := (List.find?_range_eq_some.mp hidx).1
    obtain ⟨e, he, hetid⟩ : ∃ e, q.slots idx = some e ∧ e.taskMeta.tid = tidRunning := by
      simpa [Option.any_eq_true] using hrun
    -- A charge does not change whose server it is, so a search ends at the same place.
    have hsame : ∀ i, ((Function.update q.slots idx ((q.slots idx).map (charge dtUs))) i).any
        (fun e => decide (e.taskMeta.tid = tid)) =
        (q.slots i).any fun e => decide (e.taskMeta.tid = tid) := by
      intro i
      by_cases hi : i = idx
      · subst hi
        simp [he]
      · rw [Function.update_of_ne hi]
    rw [List.find?_filterMap, List.find?_filterMap]
    simp only [hsame]
    split_ifs with htid
    · subst htid
      rw [hidx]
      simp
    · cases hfind : (List.range q.len).find? fun i =>
          (q.slots i).any fun e => decide (e.taskMeta.tid = tid) with
      | none => rfl
      | some j =>
        have hne : j ≠ idx := by
          intro hj
          have hfound := (List.find?_range_eq_some.mp hfind).1
          rw [hj, he] at hfound
          exact htid (hetid.symm.trans (by simpa using hfound))
        simp [Function.update_of_ne hne]

/-- The time that was charged to a task. -/
def charged (tid : UInt32) (ticks : List (UInt32 × Nat)) : Nat :=
  ((ticks.filter fun t => t.1 = tid).map Prod.snd).sum

theorem charged_cons (tid : UInt32) (t : UInt32 × Nat) (ticks : List (UInt32 × Nat)) :
    charged tid (t :: ticks) = (if t.1 = tid then t.2 else 0) + charged tid ticks := by
  unfold charged
  by_cases htid : t.1 = tid <;> simp [htid]

/-- A tick `(tid, dt)` of the clock. -/
def tickStep (q : EdfCbs) (t : UInt32 × Nat) : EdfCbs := tick q t.1 t.2

/-- A tick of the task is no longer than what is left of its budget, and its deadline has room
for a period. -/
def Paced (tid : UInt32) (q : EdfCbs) (t : UInt32 × Nat) : Prop :=
  t.1 = tid → ∀ e ∈ entry q tid, t.2 ≤ e.cbs.remainingUs ∧ e.cbs.remainingUs ≤ e.cbs.budgetUs ∧
    ∃ d ∈ e.taskMeta.deadlineUs, d + e.cbs.periodUs ≤ U64_MAX

instance (tid : UInt32) (q : EdfCbs) (t : UInt32 × Nat) : Decidable (Paced tid q t) :=
  inferInstanceAs (Decidable (_ → ∀ e ∈ entry q tid, _ ∧ _ ∧ ∃ d ∈ e.taskMeta.deadlineUs, _))

/-- The server `start` with the deadline `d`, after it was charged `total` and postponed `n`
times. -/
structure Served (start : EdfEntry) (d total n : Nat) (e : EdfEntry) : Prop where
  budget : e.cbs.budgetUs = start.cbs.budgetUs
  period : e.cbs.periodUs = start.cbs.periodUs
  deadline : e.taskMeta.deadlineUs = some (d + n * start.cbs.periodUs)
  within : total = 0 ∨
    0 < e.cbs.remainingUs ∧ total + e.cbs.remainingUs ≤ (n + 1) * start.cbs.budgetUs

theorem Served.charge {start e : EdfEntry} {d total n dtUs : Nat} (h : Served start d total n e)
    (hbudget : 0 < start.cbs.budgetUs) (hdt : dtUs ≤ e.cbs.remainingUs)
    (hfull : e.cbs.remainingUs ≤ e.cbs.budgetUs)
    (hroom : d + n * start.cbs.periodUs + e.cbs.periodUs ≤ U64_MAX) :
    ∃ n', Served start d (total + dtUs) n' (charge dtUs e) := by
  have hwithin : total + e.cbs.remainingUs ≤ (n + 1) * start.cbs.budgetUs := by
    obtain hzero | ⟨-, hle⟩ := h.within
    · have hn : start.cbs.budgetUs ≤ (n + 1) * start.cbs.budgetUs :=
        Nat.le_mul_of_pos_left _ n.succ_pos
      rw [hzero, Nat.zero_add, ← h.budget] at *
      exact Nat.le_trans hfull hn
    · exact hle
  unfold EdfCbs.charge
  by_cases hused : dtUs ≥ e.cbs.remainingUs
  · -- The tick uses up the budget, so the deadline moves and a full budget starts.
    rw [if_pos hused]
    refine ⟨n + 1, h.budget, h.period, ?_, .inr ⟨?_, ?_⟩⟩
    · simp only [h.deadline, Option.map_some, min_eq_right hroom]
      rw [h.period, Nat.add_mul, Nat.one_mul, Nat.add_assoc]
    · show 0 < e.cbs.budgetUs
      rw [h.budget]
      exact hbudget
    · show total + dtUs + e.cbs.budgetUs ≤ (n + 1 + 1) * start.cbs.budgetUs
      rw [h.budget, Nat.add_mul (n + 1), Nat.one_mul]
      omega
  · rw [if_neg hused]
    refine ⟨n, h.budget, h.period, h.deadline, .inr ⟨?_, ?_⟩⟩
    · show 0 < e.cbs.remainingUs - dtUs
      omega
    · show total + dtUs + (e.cbs.remainingUs - dtUs) ≤ (n + 1) * start.cbs.budgetUs
      omega

/-- What has been charged is less than a budget ahead of the postponements. -/
theorem Served.div_le {start e : EdfEntry} {d total n : Nat} (h : Served start d total n e)
    (hbudget : 0 < start.cbs.budgetUs) : total / start.cbs.budgetUs ≤ n := by
  obtain hzero | ⟨hpos, hle⟩ := h.within
  · simp [hzero]
  · have hlt : total < (n + 1) * start.cbs.budgetUs := by omega
    exact Nat.le_of_lt_succ ((Nat.div_lt_iff_lt_mul hbudget).mpr hlt)

/-- Ticks that fit keep the account of a server. -/
theorem served_run {tid : UInt32} {start : EdfEntry} {d : Nat} (hbudget : 0 < start.cbs.budgetUs)
    {q : EdfCbs} {e : EdfEntry} {total n : Nat} (hentry : entry q tid = some e)
    (hserved : Served start d total n e) {ticks : List (UInt32 × Nat)}
    (hpaced : Guarded tickStep (Paced tid) q ticks) :
    ∃ e' n', entry (run tickStep q ticks) tid = some e' ∧
      Served start d (total + charged tid ticks) n' e' := by
  induction ticks generalizing q e total n with
  | nil => exact ⟨e, n, hentry, hserved⟩
  | cons t ticks ih =>
    obtain ⟨hfits, hrest⟩ := hpaced
    have hnext := entry_tick q tid t.1 t.2
    rw [run_cons, charged_cons, ← Nat.add_assoc]
    by_cases htid : t.1 = tid
    · obtain ⟨hdt, hfull, d', hd', hroom⟩ := hfits htid e hentry
      obtain rfl := Option.some.inj (hd'.symm.trans hserved.deadline)
      obtain ⟨n', hcharged⟩ := hserved.charge hbudget hdt hfull hroom
      rw [if_pos htid, hentry] at hnext
      rw [if_pos htid]
      exact ih hnext hcharged hrest
    · rw [if_neg htid, hentry] at hnext
      rw [if_neg htid]
      exact ih hnext hserved hrest

/-- A server that is charged no more than it has left at a time is postponed once for every
budget that it uses. -/
theorem postponed_per_budget {q : EdfCbs} {tid : UInt32} (start : EdfEntry) {d : Nat}
    (hentry : entry q tid = some start) (hdeadline : start.taskMeta.deadlineUs = some d)
    (hbudget : 0 < start.cbs.budgetUs) {ticks : List (UInt32 × Nat)}
    (hpaced : Guarded tickStep (Paced tid) q ticks) :
    ∃ e d', entry (run tickStep q ticks) tid = some e ∧ e.taskMeta.deadlineUs = some d' ∧
      d + charged tid ticks / start.cbs.budgetUs * start.cbs.periodUs ≤ d' := by
  have hstart : Served start d 0 0 start := ⟨rfl, rfl, by simpa using hdeadline, .inl rfl⟩
  obtain ⟨e, n, hend, hserved⟩ := served_run hbudget hentry hstart hpaced
  rw [Nat.zero_add] at hserved
  refine ⟨e, _, hend, hserved.deadline, ?_⟩
  exact Nat.add_le_add_left (Nat.mul_le_mul_right _ (hserved.div_le hbudget)) d

/-- A queue with one server: one millisecond of every ten. -/
def oneServer : EdfCbs :=
  (enqueueWithCbs .new ⟨1, .HardRT, 0, some 10000, 0, 0⟩ (.new 1000 10000)).getD .new

theorem postponed_per_budget_oneServer :
    ∃ e d', entry (run tickStep oneServer [(1, 600), (2, 9000), (1, 400), (1, 1000)]) 1 = some e ∧
      e.taskMeta.deadlineUs = some d' ∧ 10000 + 2000 / 1000 * 10000 ≤ d' :=
  postponed_per_budget ⟨⟨1, .HardRT, 0, some 10000, 0, 0⟩, .new 1000 10000⟩ (by decide)
    rfl (by decide) (by decide)

/-- A tick of five budgets moves the deadline by one period. -/
theorem long_tick_postpones_once :
    ∃ e, entry (run tickStep oneServer [(1, 5000)]) 1 = some e ∧
      e.taskMeta.deadlineUs = some 20000 ∧
      ¬10000 + charged 1 [(1, 5000)] / e.cbs.budgetUs * e.cbs.periodUs ≤ 20000 := by
  refine ⟨⟨⟨1, .HardRT, 0, some 20000, 0, 0⟩, .new 1000 10000⟩, by decide, rfl, by decide⟩

end RobotOs.Sched.Policy.EdfCbs
