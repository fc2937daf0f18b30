import RobotOs.Ipc.CapOwnership

/-!
# The inbound delegation quota

Any task may delegate into any live task's table, so the store counts the
delegations that a table accepts from other tasks and stops at 64.  This
module compares the counter with the log.  `inboundSince` counts the
cross-task delegations into a table since its last claim or reset, and
`quota_move` keeps the counter equal to it.

The last part is about refused calls.  `tableOf` and `inboundOf` are the
table and the counter as the accessors of a task see them: those of the
task's slot, and empty for a task that has not claimed its slot yet.  A
refused delegation changes neither for any task.
-/

namespace RobotOs.Ipc.CapStore

open RobotOs.Abi RobotOs.Lib.Run CapTable

variable {n : Nat}

/-! ## Counting over the log -/

/-- The event is a delegation into table `i` by another task. -/
def Event.crossInto (i : Fin n) : Event n → Bool
  | .delegated _ dst g t _ => dst.1 == i && g != t
  | _ => false

/-- The cross-task delegations into table `i` since its last claim or
reset. -/
def inboundSince (log : List (Event n)) (i : Fin n) : Nat :=
  (since i log).countP (Event.crossInto i)

/-- The newest mint of the table's time into slot `(i, k)` is a delegation
by another task. -/
def planted (log : List (Event n)) (i : Fin n) (k : Fin MAX_CAPS_PER_TASK) : Bool :=
  match (since i log).find? (Event.fills (i, k)) with
  | some e => e.crossInto i
  | none => false

theorem inboundSince_cons_of_not_wipes {i : Fin n} {e : Event n} (h : e.wipes i = false)
    (log : List (Event n)) :
    inboundSince (e :: log) i = inboundSince log i + if e.crossInto i then 1 else 0 := by
  rw [inboundSince, since_cons_of_not_wipes h, List.countP_cons]
  rfl

theorem inboundSince_cons_of_wipes {i : Fin n} {e : Event n} (h : e.wipes i = true)
    (log : List (Event n)) : inboundSince (e :: log) i = 0 := by
  simp [inboundSince, since_cons_of_wipes h]

/-- Different slots were planted by different events, so at most
`inboundSince` slots of a table are planted. -/
theorem card_planted_le (log : List (Event n)) (i : Fin n) :
    (Finset.univ.filter fun k => planted log i k = true).card ≤ inboundSince log i := by
  unfold planted inboundSince
  induction since i log with
  | nil => simp
  | cons e recent ih =>
    by_cases hcross : e.crossInto i = true
    · -- The event plants one slot; the others were planted before.
      obtain ⟨src, dst, g, t, held, rfl⟩ : ∃ src dst g t held, e = .delegated src dst g t held := by
        cases e <;> simp [Event.crossInto] at hcross ⊢
      refine le_trans (Finset.card_le_card (t := insert dst.2 (Finset.univ.filter fun k =>
        (match recent.find? (Event.fills (i, k)) with
          | some e => e.crossInto i
          | none => false) = true)) ?_) ?_
      · intro k hk
        rw [Finset.mem_filter] at hk
        rw [Finset.mem_insert, Finset.mem_filter]
        by_cases hd : k = dst.2
        · exact .inl hd
        · refine .inr ⟨Finset.mem_univ k, ?_⟩
          have hfill : (Event.delegated src dst g t held).fills (i, k) = false := by
            simp only [Event.fills, beq_eq_false_iff_ne]
            intro h
            exact hd (by rw [h])
          have := hk.2
          rwa [List.find?_cons_of_neg (by simp [hfill])] at this
      · refine le_trans (Finset.card_insert_le _ _) ?_
        rw [List.countP_cons_of_pos hcross]
        exact Nat.succ_le_succ ih
    · rw [List.countP_cons_of_neg hcross]
      refine le_trans (Finset.card_le_card ?_) ih
      intro k hk
      rw [Finset.mem_filter] at hk ⊢
      refine ⟨hk.1, ?_⟩
      have hp := hk.2
      by_cases hf : e.fills (i, k) = true
      · rw [List.find?_cons_of_pos hf] at hp
        exact absurd hp hcross
      · rwa [List.find?_cons_of_neg hf] at hp

/-! ## The counter is the count -/

/-- Every counter is the count of the log and within the quota. -/
def QuotaKept (s : System n) : Prop :=
  ∀ i, s.store.inbound i = inboundSince s.log i ∧ s.store.inbound i ≤ MAX_INBOUND_DELEGATIONS

/-- A wipe of table `i` sets its counter and its count to `0`. -/
theorem quota_wipe {s : System n} (h : QuotaKept s) {i : Fin n} {e : Event n}
    {store : Store n} (hwipe : ∀ j, e.wipes j = (i == j))
    (hcross : ∀ j, e.crossInto j = false) (hzero : store.inbound i = 0)
    (hother : ∀ j, j ≠ i → store.inbound j = s.store.inbound j) :
    QuotaKept ⟨s.pool, store, e :: s.log⟩ := by
  intro j
  by_cases hj : j = i
  · subst hj
    rw [inboundSince_cons_of_wipes (by simp [hwipe]), hzero]
    exact ⟨rfl, Nat.zero_le _⟩
  · rw [inboundSince_cons_of_not_wipes (by simp [hwipe, Ne.symm hj]), hcross, hother j hj]
    exact h j

/-- Every move keeps the counters equal to the counts and within the
quota. -/
theorem quota_move (s s' : System n) (h : QuotaKept s) (hmove : Move s s') :
    QuotaKept s' := by
  cases hmove with
  | schedule pool => exact h
  | @claim i tid live =>
    obtain hsame | ⟨ho, hclaim⟩ := s.claim_cases i tid
    · rwa [hsame]
    · rw [hclaim]
      exact quota_wipe h (i := i) (fun j => rfl) (fun j => rfl) (by simp [Store.claimSlot, ho])
        (fun j hj => (s.store.claimSlot_of_ne tid hj).2.2)
  | grant live own mint =>
    intro j
    rw [inboundSince_cons_of_not_wipes rfl]
    exact h j
  | @delegate idxG idxT g t raw handle kind perms want resource table liveG liveT ownG ownT m =>
    intro j
    rw [inboundSince_cons_of_not_wipes rfl]
    by_cases hgt : g = t
    · simp only [Event.crossInto, hgt, if_true, bne_self_eq_false, Bool.and_false,
        Bool.false_eq_true, if_false, Nat.add_zero]
      exact h j
    · obtain ⟨hcount, hmax⟩ := h j
      have hquota := m.quota hgt
      simp only [hgt, if_false, Event.crossInto, bne_iff_ne, ne_eq, not_false_eq_true,
        Bool.and_eq_true, beq_iff_eq, and_true, Store.charge, Store.inbound_setTable]
      by_cases hj : idxT = j
      · subst hj
        simp only [Function.update_self, if_true]
        omega
      · simp only [Function.update_of_ne (Ne.symm hj), if_neg hj, Nat.add_zero]
        exact ⟨hcount, hmax⟩
  | revoke cap live own => exact h
  | @reset i tid live own =>
    exact quota_wipe h (i := i) (fun j => rfl) (fun j => rfl) (by simp [Store.resetSlot])
      (fun j hj => (s.store.resetSlot_of_ne hj).2.2)

/-- In every run the counters are the counts and within the quota. -/
theorem quota_run (pool : Pool n) (calls : List (Call n)) :
    QuotaKept (run step (System.boot pool) calls) := by
  refine run_invariant_of_chain QuotaKept step_moves quota_move ?_ calls
  intro i
  simp [System.boot, Store.fresh, inboundSince, since]

/-! ## Refused delegations -/

/-- The table that the accessors of a task work on. -/
def tableOf (pool : Pool n) (store : Store n) (tid : UInt32) : Option CapTable :=
  (resolveOnly pool tid).map fun i =>
    if store.owner i = tid then store.tables i else CapTable.empty

/-- The inbound counter that a delegation to a task is checked against. -/
def inboundOf (pool : Pool n) (store : Store n) (tid : UInt32) : Option Nat :=
  (resolveOnly pool tid).map fun i =>
    if store.owner i = tid then store.inbound i else 0

/-- A claim by a live task changes no task's table or counter. -/
theorem views_claimSlot {pool : Pool n} (store : Store n) {i : Fin n} {tid : UInt32}
    (hlive : resolveOnly pool tid = some i) (tid' : UInt32) :
    tableOf pool (store.claimSlot i tid) tid' = tableOf pool store tid' ∧
      inboundOf pool (store.claimSlot i tid) tid' = inboundOf pool store tid' := by
  unfold tableOf inboundOf
  cases hlive' : resolveOnly pool tid' with
  | none => exact ⟨rfl, rfl⟩
  | some j =>
    simp only [Option.map_some]
    by_cases hj : j = i
    · subst hj
      obtain rfl := resolveOnly_injective hlive hlive'
      by_cases ho : store.owner j = tid <;> simp [Store.claimSlot, ho]
    · obtain ⟨htab, hown, hin⟩ := store.claimSlot_of_ne tid hj
      rw [htab, hown, hin]
      exact ⟨rfl, rfl⟩

/-- The claims of a delegation change no task's table or counter. -/
theorem views_claimPair {pool : Pool n} (store : Store n) {idxG idxT : Fin n} {g t : UInt32}
    (hg : resolveOnly pool g = some idxG) (ht : resolveOnly pool t = some idxT)
    (tid : UInt32) :
    tableOf pool (claimPair store idxG idxT g t) tid = tableOf pool store tid ∧
      inboundOf pool (claimPair store idxG idxT g t) tid = inboundOf pool store tid := by
  have hfirst := views_claimSlot store hg tid
  unfold claimPair
  split_ifs
  · have hsecond := views_claimSlot (store.claimSlot idxG g) ht tid
    exact ⟨hsecond.1.trans hfirst.1, hsecond.2.trans hfirst.2⟩
  · exact hfirst

/-- A refused delegation changes no task's table or counter. -/
theorem views_of_delegate_error {pool : Pool n} {store store' : Store n} {g t : UInt32}
    {raw : CapHandle} {want : CapPerms} {e : DelegateError}
    (h : delegate pool store g t raw want = (.error e, store')) (tid : UInt32) :
    tableOf pool store' tid = tableOf pool store tid ∧
      inboundOf pool store' tid = inboundOf pool store tid := by
  rcases delegate_cases pool store g t raw want with
    ⟨-, e', he⟩ | ⟨idxG, idxT, -, hg, ht, -, ⟨e', he⟩ | ⟨_, _, _, _, _, -, he⟩⟩
  · obtain ⟨-, rfl⟩ := Prod.mk.inj (he.symm.trans h)
    exact ⟨rfl, rfl⟩
  · obtain ⟨-, rfl⟩ := Prod.mk.inj (he.symm.trans h)
    exact views_claimPair store hg ht tid
  · exact absurd (congrArg Prod.fst (he.symm.trans h)) (by simp)

/-- A self-delegation charges no task, whatever its outcome. -/
theorem inboundOf_delegate_self (pool : Pool n) (store : Store n) (g : UInt32)
    (raw : CapHandle) (want : CapPerms) (tid : UInt32) :
    inboundOf pool (delegate pool store g g raw want).2 tid = inboundOf pool store tid := by
  rcases delegate_cases pool store g g raw want with
    ⟨-, e', he⟩ | ⟨idxG, idxT, -, hg, ht, -, ⟨e', he⟩ | ⟨_, _, _, table, _, -, he⟩⟩
  · rw [he]
  · rw [he]
    exact (views_claimPair store hg ht tid).2
  · rw [he, if_pos rfl]
    exact (views_claimPair store hg ht tid).2

/-- The inbound delegation quota.

In every run: at most 64 cross-task delegations go into a table between two
consecutive claims or resets of it, and the counter of the table is their
number.  A self-delegation charges no task.  A delegation that returns an
error leaves the table and the counter of every live task as they were.  At
most 64 slots of a table are occupied by delegations of other tasks. -/
theorem inbound_quota (pool : Pool n) (calls : List (Call n)) :
    let s := run step (System.boot pool) calls
    (∀ i, inboundSince s.log i ≤ MAX_INBOUND_DELEGATIONS ∧
        s.store.inbound i = inboundSince s.log i) ∧
      (∀ (g : UInt32) (raw : CapHandle) (want : CapPerms) (tid : UInt32),
        inboundOf s.pool (delegate s.pool s.store g g raw want).2 tid =
          inboundOf s.pool s.store tid) ∧
      (∀ (g t : UInt32) (raw : CapHandle) (want : CapPerms) (e : DelegateError)
          (store' : Store n), delegate s.pool s.store g t raw want = (.error e, store') →
        ∀ tid, tableOf s.pool store' tid = tableOf s.pool s.store tid ∧
          inboundOf s.pool store' tid = inboundOf s.pool s.store tid) ∧
      ∀ i, (Finset.univ.filter fun k =>
        ((s.store.tables i).slots k).isOccupied = true ∧ planted s.log i k = true).card ≤
          MAX_INBOUND_DELEGATIONS := by
  intro s
  have hs : QuotaKept s := quota_run pool calls
  have hcount : ∀ i, inboundSince s.log i ≤ MAX_INBOUND_DELEGATIONS := fun i =>
    (hs i).1 ▸ (hs i).2
  refine ⟨fun i => ⟨hcount i, (hs i).1⟩, ?_, ?_, ?_⟩
  · intro g raw want tid
    exact inboundOf_delegate_self s.pool s.store g raw want tid
  · intro g t raw want e store' h tid
    exact views_of_delegate_error h tid
  · intro i
    refine le_trans (Finset.card_le_card ?_) ((card_planted_le s.log i).trans (hcount i))
    intro k hk
    rw [Finset.mem_filter] at hk ⊢
    exact ⟨hk.1, hk.2.2⟩

end RobotOs.Ipc.CapStore
