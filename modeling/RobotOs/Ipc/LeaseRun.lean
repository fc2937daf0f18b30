import RobotOs.Lib.Run
import RobotOs.Lib.Tally
import RobotOs.Ipc.Lease

/-!
# Leases over whole runs

A run is any list of calls of `lease.rs`: the operations on the table, and
`lease_release_all` when a task exits.

There are three groups.

* What a call does to an entry.  `Change` has one case for every way an entry is
  written, with the check that the code makes there, and `change_call` says that
  these are all.
* The deadline counter.  `Sound` holds in every state of a run: the counter is the
  number of entries with a deadline, and an unused entry is blank.  So the early
  exit of `lease_tick` skips nothing, and the tick is the plain sweep `sweep`.
* Who may do what.  The roles of lessor and lessee decide the writes of a task,
  and the exit of a task leaves no trace of it and wakes its peers.
-/

namespace RobotOs.Ipc.Lease

open RobotOs.Lib.Run RobotOs.Lib.Tally

variable {m : Nat}

/-- A call: an operation, or the exit of a task. -/
inductive Call where
  | op (o : Op)
  | releaseAll (tid : UInt32)
  deriving DecidableEq, Repr

def call (table : Leases m) : Call → Leases m
  | .op o => step table o
  | .releaseAll tid => leaseReleaseAll table tid

/-- The table after the calls of a run. -/
def after (m : Nat) (calls : List Call) : Leases m := run call (Leases.new m) calls

/-! ## The change of an entry -/

/-- The lease waits for its lessee, or is held by it. -/
def InFlight (e : LeaseEntry) : Prop := e.state = .pending ∨ e.state = .active

instance (e : LeaseEntry) : Decidable (InFlight e) :=
  inferInstanceAs (Decidable (_ ∨ _))

/-- A deadline that the timer has to look at. -/
def Armed (e : LeaseEntry) : Prop := InFlight e ∧ e.expireTicks ≠ 0

instance (e : LeaseEntry) : Decidable (Armed e) :=
  inferInstanceAs (Decidable (_ ∧ _))

theorem hasDeadline_iff (e : LeaseEntry) : hasDeadline e = true ↔ Armed e := by
  simp [hasDeadline, Armed, InFlight]

/-- The ways to write an entry. -/
inductive Change (e : LeaseEntry) : Call → LeaseEntry → Prop
  | kept {c : Call} : Change e c e
  | granted {shmId : Nat} {lessor lessee : UInt32} {expire : Nat} (hfree : e.state = .free) :
      Change e (.op (.grant shmId lessor lessee expire)) ⟨shmId, lessor, lessee, expire, .pending⟩
  | accepted (hpending : e.state = .pending) :
      Change e (.op (.accept e.lesseeTid)) { e with state := .active }
  | returned {leaseId : Nat} {caller : UInt32} {privileged : Bool} (hactive : e.state = .active)
      (hrole : privileged = true ∨ e.lesseeTid = caller) :
      Change e (.op (.giveBack leaseId caller privileged)) { e with state := .returned }
  | freed {leaseId : Nat} {caller : UInt32} {privileged : Bool} (hlive : e.state ≠ .free)
      (hrole : privileged = true ∨ e.lessorTid = caller) :
      Change e (.op (.free leaseId caller privileged)) .empty
  | timedOut {now : Nat} (harmed : Armed e) (hdue : e.expireTicks ≤ now) :
      Change e (.op (.tick now)) { e with state := .expired }
  | lessorExits (hlive : e.state ≠ .free) : Change e (.releaseAll e.lessorTid) .empty
  | lesseeExits (hflight : InFlight e) (hlessor : e.lessorTid ≠ e.lesseeTid) :
      Change e (.releaseAll e.lesseeTid) { e with state := .expired }

/-- A write of one entry changes that one. -/
theorem change_update {entries : Fin m → LeaseEntry} {c : Call} {i : Fin m} {e : LeaseEntry}
    (h : Change (entries i) c e) (j : Fin m) :
    Change (entries j) c (Function.update entries i e j) := by
  rcases eq_or_ne j i with rfl | hne
  · rw [Function.update_self]
    exact h
  · rw [Function.update_of_ne hne]
    exact .kept

theorem change_expireEntry (now : Nat) (e : LeaseEntry) :
    Change e (.op (.tick now)) (expireEntry now e) := by
  unfold expireEntry
  split_ifs with hdue
  · exact .timedOut ((hasDeadline_iff e).mp hdue.1) hdue.2
  · exact .kept

theorem change_releaseEntry (tid : UInt32) (e : LeaseEntry) :
    Change e (.releaseAll tid) (releaseEntry tid e) := by
  unfold releaseEntry
  split_ifs with hfree hlessor hlessee
  · exact .kept
  · subst hlessor
    exact .lessorExits hfree
  · obtain ⟨rfl, hflight⟩ := hlessee
    exact .lesseeExits hflight hlessor
  · exact .kept

theorem change_step (table : Leases m) (o : Op) (i : Fin m) :
    Change (table.entries i) (.op o) ((step table o).entries i) := by
  cases o with
  | grant shmId lessor lessee expire =>
    simp only [step, leaseGrant]
    split
    · exact .kept
    next j hj =>
      have hfree : (table.entries j).state = .free := by simpa using List.find?_some hj
      exact change_update (.granted hfree) i
  | accept lessee =>
    simp only [step, leaseAccept]
    split
    · exact .kept
    next j hj =>
      obtain ⟨hpending, rfl⟩ : (table.entries j).state = .pending ∧
        (table.entries j).lesseeTid = lessee := by simpa using List.find?_some hj
      exact change_update (.accepted hpending) i
  | giveBack leaseId caller privileged =>
    simp only [step, leaseReturn]
    split_ifs with hid hrefused
    · exact .kept
    · have hactive : (table.entries ⟨leaseId, hid⟩).state = .active := by tauto
      have hrole : privileged = true ∨ (table.entries ⟨leaseId, hid⟩).lesseeTid = caller := by
        cases privileged <;> simp_all
      exact change_update (.returned hactive hrole) i
    · exact .kept
  | free leaseId caller privileged =>
    simp only [step, leaseFree]
    split_ifs with hid hrefused
    · exact .kept
    · have hlive : (table.entries ⟨leaseId, hid⟩).state ≠ .free := by tauto
      have hrole : privileged = true ∨ (table.entries ⟨leaseId, hid⟩).lessorTid = caller := by
        cases privileged <;> simp_all
      exact change_update (.freed hlive hrole) i
    · exact .kept
  | tick now =>
    simp only [step, leaseTick]
    split_ifs
    · exact .kept
    · exact change_expireEntry now (table.entries i)

theorem change_call (table : Leases m) (c : Call) (i : Fin m) :
    Change (table.entries i) c ((call table c).entries i) := by
  cases c with
  | op o => exact change_step table o i
  | releaseAll tid => exact change_releaseEntry tid (table.entries i)

/-! ## The deadline counter -/

/-- The counter is exact, and unused entries are blank. -/
structure Sound (table : Leases m) : Prop where
  counted : table.deadlines = census hasDeadline table.entries
  blank : ∀ i, (table.entries i).state = .free → table.entries i = .empty

theorem counted_refresh (entries : Fin m → LeaseEntry) :
    (refresh entries).deadlines = census hasDeadline entries :=
  countP_finRange hasDeadline entries

variable {table : Leases m} {tid : UInt32}

/-- A recount of a sound table changes nothing. -/
theorem Sound.refresh_eq (h : Sound table) : refresh table.entries = table := by
  obtain ⟨entries, deadlines⟩ := table
  rw [refresh, Leases.mk.injEq]
  exact ⟨rfl, (counted_refresh entries).trans h.counted.symm⟩

/-- The tick takes this lease. -/
def Due (now : Nat) (e : LeaseEntry) : Prop := Armed e ∧ e.expireTicks ≤ now

instance (now : Nat) (e : LeaseEntry) : Decidable (Due now e) :=
  inferInstanceAs (Decidable (_ ∧ _))

/-- The plain sweep: every lease that is due expires, the lessors are told in the
order of the table, and the counter is counted anew. -/
def sweep (table : Leases m) (now : Nat) : List UInt32 × Leases m :=
  (((List.finRange m).filter fun i => Due now (table.entries i)).map
      fun i => (table.entries i).lessorTid,
    refresh fun i =>
      if Due now (table.entries i) then { table.entries i with state := .expired }
      else table.entries i)

theorem due_iff (now : Nat) (e : LeaseEntry) :
    (hasDeadline e = true ∧ now ≥ e.expireTicks) ↔ Due now e := by
  rw [hasDeadline_iff, Due]

theorem expireEntry_eq (now : Nat) (e : LeaseEntry) :
    expireEntry now e = if Due now e then { e with state := .expired } else e := by
  simp only [expireEntry, due_iff]

/-- A lease that expires leaves the count. -/
theorem hasDeadline_expireEntry (now : Nat) (e : LeaseEntry) :
    (hasDeadline (expireEntry now e)).toNat + (decide (Due now e)).toNat =
      (hasDeadline e).toNat := by
  rw [expireEntry_eq]
  split_ifs with hdue
  · have harmed : hasDeadline e = true := (hasDeadline_iff e).mpr hdue.1
    have hgone : hasDeadline { e with state := .expired } = false := by simp [hasDeadline]
    rw [harmed, hgone, decide_eq_true hdue]
    rfl
  · rw [decide_eq_false hdue]
    rfl

/-- The tick takes off as many as it expires. -/
theorem census_expireEntry (now : Nat) (entries : Fin m → LeaseEntry) :
    census hasDeadline (fun i => expireEntry now (entries i)) +
        ((List.finRange m).filter fun i => Due now (entries i)).length =
      census hasDeadline entries := by
  rw [← List.countP_eq_length_filter, countP_finRange (fun e => decide (Due now e))]
  simp only [census, total, ← Finset.sum_add_distrib]
  exact Finset.sum_congr rfl fun i _ => hasDeadline_expireEntry now (entries i)

/-- In a sound table the early exit and the subtraction are those of the sweep. -/
theorem Sound.leaseTick_eq (h : Sound table) (now : Nat) :
    leaseTick table now = sweep table now := by
  have hcount := census_expireEntry now table.entries
  have hrecount := counted_refresh fun i => expireEntry now (table.entries i)
  unfold leaseTick sweep
  simp only [due_iff, ← expireEntry_eq]
  split_ifs with hzero
  · -- Nothing is armed, so nothing is due.
    have hnone : ∀ i, hasDeadline (table.entries i) = false :=
      (census_eq_zero_iff _ _).mp (h.counted.symm.trans hzero)
    have hidle : ∀ i, ¬ Due now (table.entries i) := by
      intro i hdue
      have harmed := (hasDeadline_iff _).mpr hdue.1
      rw [hnone i] at harmed
      cases harmed
    have hkept : (fun i => expireEntry now (table.entries i)) = table.entries := by
      funext i
      rw [expireEntry_eq, if_neg (hidle i)]
    rw [hkept, h.refresh_eq]
    simp [hidle]
  · refine Prod.ext rfl ?_
    have hcounted := h.counted
    simp only [refresh, Leases.mk.injEq, true_and] at hrecount ⊢
    omega

/-- A write leaves an unused entry blank. -/
theorem Change.blank {e e' : LeaseEntry} {c : Call} (h : Change e c e')
    (he : e.state = .free → e = .empty) (hfree : e'.state = .free) : e' = .empty := by
  cases h with
  | kept => exact he hfree
  | freed => rfl
  | lessorExits => rfl
  | granted => cases hfree
  | accepted => cases hfree
  | returned => cases hfree
  | timedOut => cases hfree
  | lesseeExits => cases hfree

/-- The counter after a call. -/
theorem counted_call (h : Sound table) (c : Call) :
    (call table c).deadlines = census hasDeadline (call table c).entries := by
  cases c with
  | releaseAll tid => exact counted_refresh _
  | op o =>
    cases o with
    | grant shmId lessor lessee expire =>
      simp only [call, step, leaseGrant]
      split <;> exact counted_refresh _
    | accept lessee =>
      simp only [call, step, leaseAccept]
      split
      · exact h.counted
      · exact counted_refresh _
    | giveBack leaseId caller privileged =>
      simp only [call, step, leaseReturn]
      split_ifs
      · exact h.counted
      · exact counted_refresh _
      · exact h.counted
    | free leaseId caller privileged =>
      simp only [call, step, leaseFree]
      split_ifs
      · exact h.counted
      · exact counted_refresh _
      · exact h.counted
    | tick now =>
      simp only [call, step, h.leaseTick_eq now]
      exact counted_refresh _

theorem Sound.call (h : Sound table) (c : Call) : Sound (call table c) where
  counted := counted_call h c
  blank i := (change_call table c i).blank (h.blank i)

theorem sound_after (calls : List Call) : Sound (after m calls) := by
  refine run_invariant Sound (fun _ c h => h.call c) ?_ calls
  exact ⟨((census_eq_zero_iff _ _).mpr fun _ => rfl).symm, fun _ _ => rfl⟩

/-- After every run the counter is the number of armed deadlines, and the tick is the
plain sweep at every time. -/
theorem deadlines_exact (m : Nat) (calls : List Call) :
    (after m calls).deadlines =
        (Finset.univ.filter fun i => Armed ((after m calls).entries i)).card ∧
      ∀ now, leaseTick (after m calls) now = sweep (after m calls) now := by
  refine ⟨?_, (sound_after calls).leaseTick_eq⟩
  rw [(sound_after calls).counted, census, total, Finset.card_filter]
  refine Finset.sum_congr rfl fun i _ => ?_
  by_cases harmed : Armed ((after m calls).entries i)
  · rw [if_pos harmed, (hasDeadline_iff _).mpr harmed]
    rfl
  · rw [if_neg harmed, Bool.eq_false_iff.mpr (mt (hasDeadline_iff _).mp harmed)]
    rfl

/-! ## Who may do what -/

/-- The task that makes the call, unless it is the kernel.  The lessor of a grant and
the lessee of an accept are the calling task. -/
def Call.caller : Call → Option UInt32
  | .op (.grant _ lessor _ _) => some lessor
  | .op (.accept lessee) => some lessee
  | .op (.giveBack _ caller privileged) => if privileged then none else some caller
  | .op (.free _ caller privileged) => if privileged then none else some caller
  | .op (.tick _) => none
  | .releaseAll tid => some tid

/-- The call answers that it was refused. -/
def Call.Refused (table : Leases m) : Call → Prop
  | .op (.grant shmId lessor lessee expire) =>
    (leaseGrant table shmId lessor lessee expire).1 = none
  | .op (.accept lessee) => (leaseAccept table lessee).1 = none
  | .op (.giveBack leaseId caller privileged) =>
    (leaseReturn table leaseId caller privileged).1 = none
  | .op (.free leaseId caller privileged) => (leaseFree table leaseId caller privileged).1 = false
  | .op (.tick _) => False
  | .releaseAll _ => False

/-- `lease_wait_return` blocks its caller. -/
def leaseWaitReturn (table : Leases m) (leaseId : Nat) (me : UInt32) (privileged : Bool) : Bool :=
  if h : leaseId < m then
    let e := table.entries ⟨leaseId, h⟩
    (privileged || e.lessorTid = me) && (e.state = .pending || e.state = .active)
  else false

/-- `wake_lessor` of `lease_release_all`. -/
def wakeLessor (table : Leases m) (tid : UInt32) : List UInt32 :=
  (List.finRange m).filterMap fun i =>
    let e := table.entries i
    if e.state = .free then none
    else if e.lessorTid = tid then none
    else if e.lesseeTid = tid ∧ (e.state = .pending ∨ e.state = .active) ∧ e.lessorTid ≠ NO_TID then
      some e.lessorTid
    else none

/-- `wake_lessee` of `lease_release_all`. -/
def wakeLessee (table : Leases m) (tid : UInt32) : List UInt32 :=
  (List.finRange m).filterMap fun i =>
    let e := table.entries i
    if e.state = .free then none
    else if e.lessorTid = tid then
      let stranded := if e.state = .pending then e.lesseeTid else NO_TID
      if stranded ≠ NO_TID ∧ stranded ≠ tid then some stranded else none
    else none

/-- A task sleeps on this lease: its lessor in `lease_wait_return`, or its lessee in
`SYS_IPC_LEASE_ACCEPT`. -/
def Waits (table : Leases m) (i : Fin m) (tid : UInt32) : Prop :=
  leaseWaitReturn table i tid false = true ∨
    ((table.entries i).state = .pending ∧ (table.entries i).lesseeTid = tid)

/-- A task takes and returns leases as their lessee, and frees them as their lessor. -/
def RolesKept (table : Leases m) : Prop :=
  ∀ (c : Call) (tid : UInt32) (i : Fin m), c.caller = some tid →
    let e := table.entries i
    let e' := (call table c).entries i
    (e.state = .pending → e'.state = .active → e.lesseeTid = tid) ∧
      (e.state = .active → e'.state = .returned → e.lesseeTid = tid) ∧
      (e.state ≠ .free → e'.state = .free → e.lessorTid = tid)

/-- The exit of a task ends its leases, keeps all others, and wakes the tasks that sleep
on those it ends. -/
def ExitClears (table : Leases m) (tid : UInt32) : Prop :=
  (∀ i, ((leaseReleaseAll table tid).entries i).lessorTid ≠ tid) ∧
    (∀ i, InFlight ((leaseReleaseAll table tid).entries i) →
      ((leaseReleaseAll table tid).entries i).lesseeTid ≠ tid) ∧
    (∀ i, (table.entries i).lessorTid ≠ tid → (table.entries i).lesseeTid ≠ tid →
      (leaseReleaseAll table tid).entries i = table.entries i) ∧
    ∀ i peer, (table.entries i).lessorTid = tid ∨ (table.entries i).lesseeTid = tid →
      Waits table i peer → peer ≠ tid → peer ≠ NO_TID →
        peer ∈ wakeLessor table tid ++ wakeLessee table tid

theorem Change.roles {e e' : LeaseEntry} {c : Call} (h : Change e c e')
    (hcaller : c.caller = some tid) :
    (e.state = .pending → e'.state = .active → e.lesseeTid = tid) ∧
      (e.state = .active → e'.state = .returned → e.lesseeTid = tid) ∧
      (e.state ≠ .free → e'.state = .free → e.lessorTid = tid) := by
  cases h with
  | kept =>
    refine ⟨fun h h' => ?_, fun h h' => ?_, fun h h' => absurd h' h⟩ <;>
    · rw [h] at h'
      cases h'
  | granted hfree => simp [hfree]
  | accepted hpending => simpa [hpending, Call.caller] using hcaller
  | returned hactive hrole => cases hrole <;> simp_all [Call.caller]
  | freed hlive hrole => cases hrole <;> simp_all [Call.caller, LeaseEntry.empty]
  | timedOut => cases hcaller
  | lessorExits =>
    refine ⟨fun _ h => ?_, fun _ h => ?_, fun _ _ => Option.some.inj hcaller⟩ <;>
      cases h
  | lesseeExits => simp

theorem rolesKept (table : Leases m) : RolesKept table :=
  fun c _ i hcaller => (change_call table c i).roles hcaller

/-- A refused call leaves a sound table as it is.  A refused grant still counts the
deadlines. -/
theorem Sound.call_eq_of_refused (h : Sound table) {c : Call} (hrefused : c.Refused table) :
    Lease.call table c = table := by
  cases c with
  | releaseAll tid => cases hrefused
  | op o =>
    cases o with
    | grant shmId lessor lessee expire =>
      simp only [Call.Refused, Lease.call, step, leaseGrant] at hrefused ⊢
      split
      · exact h.refresh_eq
      next i hi =>
        rw [hi] at hrefused
        cases hrefused
    | accept lessee =>
      simp only [Call.Refused, Lease.call, step, leaseAccept] at hrefused ⊢
      split
      · rfl
      next i hi =>
        rw [hi] at hrefused
        cases hrefused
    | giveBack leaseId caller privileged =>
      simp only [Call.Refused, Lease.call, step, leaseReturn] at hrefused ⊢
      split_ifs at hrefused ⊢ <;> rfl
    | free leaseId caller privileged =>
      simp only [Call.Refused, Lease.call, step, leaseFree] at hrefused ⊢
      split_ifs at hrefused ⊢ <;> rfl
    | tick now => cases hrefused

/-- The lessor of a lease that its lessee leaves is woken. -/
theorem mem_wakeLessor {i : Fin m} (hflight : InFlight (table.entries i))
    (hlessor : (table.entries i).lessorTid ≠ tid) (hlessee : (table.entries i).lesseeTid = tid)
    (hid : (table.entries i).lessorTid ≠ NO_TID) :
    (table.entries i).lessorTid ∈ wakeLessor table tid := by
  have hlive : (table.entries i).state ≠ .free := by
    rcases hflight with h | h <;> simp [h]
  refine List.mem_filterMap.mpr ⟨i, List.mem_finRange i, ?_⟩
  dsimp only
  rw [if_neg hlive, if_neg hlessor, if_pos ⟨hlessee, hflight, hid⟩]

/-- The lessee of a pending lease that its lessor leaves is woken. -/
theorem mem_wakeLessee {i : Fin m} (hpending : (table.entries i).state = .pending)
    (hlessor : (table.entries i).lessorTid = tid) (hlessee : (table.entries i).lesseeTid ≠ tid)
    (hid : (table.entries i).lesseeTid ≠ NO_TID) :
    (table.entries i).lesseeTid ∈ wakeLessee table tid := by
  refine List.mem_filterMap.mpr ⟨i, List.mem_finRange i, ?_⟩
  simp [hpending, hlessor, hlessee, hid]

theorem mem_wakes {i : Fin m} {peer : UInt32}
    (hrole : (table.entries i).lessorTid = tid ∨ (table.entries i).lesseeTid = tid)
    (hwaits : Waits table i peer) (hne : peer ≠ tid) (hid : peer ≠ NO_TID) :
    peer ∈ wakeLessor table tid ++ wakeLessee table tid := by
  rw [List.mem_append]
  rcases hwaits with hlessor | ⟨hpending, rfl⟩
  · simp only [leaseWaitReturn, i.isLt, dite_true, Bool.false_or, Bool.and_eq_true,
      Bool.or_eq_true, decide_eq_true_eq] at hlessor
    obtain ⟨rfl, hflight⟩ := hlessor
    exact .inl (mem_wakeLessor hflight hne (hrole.resolve_left hne) hid)
  · exact .inr (mem_wakeLessee hpending (hrole.resolve_right hne) hne hid)

theorem Sound.exitClears (h : Sound table) (hid : tid ≠ NO_TID) : ExitClears table tid := by
  refine ⟨fun i => ?_, fun i hflight hlessee => ?_, fun i hlessor hlessee => ?_,
    fun i peer hrole hwaits hne => mem_wakes hrole hwaits hne⟩
  · simp only [leaseReleaseAll, refresh, releaseEntry]
    split_ifs with hfree hlessor hlessee
    · rw [h.blank i hfree]
      exact hid.symm
    · exact hid.symm
    · exact hlessor
    · exact hlessor
  · simp only [leaseReleaseAll, refresh, releaseEntry] at hflight hlessee
    split_ifs at hflight hlessee with hfree hlessor hexpired
    · simp [InFlight, hfree] at hflight
    · simp [InFlight, LeaseEntry.empty] at hflight
    · simp [InFlight] at hflight
    · exact hexpired ⟨hlessee, hflight⟩
  · simp only [leaseReleaseAll, refresh, releaseEntry]
    split_ifs with hfree hexpired
    · rfl
    · exact absurd hexpired.1 hlessee
    · rfl

/-- The kernel may wait on the lease of other tasks, and then no exit wakes it.  The blank
entries name the sentinel as their lessor. -/
theorem privileged_waiter_sleeps :
    let table := after 1 [.op (.grant 0 1 2 0)]
    leaseWaitReturn table 0 3 true = true ∧
      3 ∉ wakeLessor table 2 ++ wakeLessee table 2 ∧
      ((leaseReleaseAll table 2).entries 0).state = .expired ∧
      ((leaseReleaseAll (after 1 []) NO_TID).entries 0).lessorTid = NO_TID := by
  decide +kernel

/-- After every run tasks keep to their roles, a refused call changes nothing, and the
exit of a task other than the sentinel clears its leases. -/
theorem lease_authority (m : Nat) (calls : List Call) :
    RolesKept (after m calls) ∧
      (∀ c : Call, c.Refused (after m calls) → call (after m calls) c = after m calls) ∧
      ∀ tid, tid ≠ NO_TID → ExitClears (after m calls) tid :=
  have hsound := sound_after calls
  ⟨rolesKept _, fun _ => hsound.call_eq_of_refused, fun _ => hsound.exitClears⟩

end RobotOs.Ipc.Lease
