import RobotOs.Ipc.CapStore
import RobotOs.Lib.Run

/-!
# Runs of the capability store

A run is a list of calls on the store, with arbitrary changes of the task
pool between them.  `System` adds a log to the store, newest event first.
The log holds what the calls did: which table was claimed or reset by whom,
and which slot a grant or a delegation filled.  No function of the store
reads the log.

`Move` lists the six things that can happen to the store and the log, each
with the facts that hold when it happens.  `step_moves` says that every call
is a sequence of moves.  The invariants of the store are proved over moves.
-/

namespace RobotOs.Ipc.CapStore

open RobotOs.Abi RobotOs.Lib.Run CapTable

variable {n : Nat}

/-! ## Events -/

/-- What a slot grants: its kind, permissions and resource. -/
structure Held where
  kind : CapKind
  perms : CapPerms
  resource : UInt32
  deriving DecidableEq

/-- The capability in a slot. -/
def heldOf (slot : CapSlot) : Held := ⟨slot.kind, slot.perms, slot.resource⟩

/-- A slot of one of the tables. -/
abbrev Loc (n : Nat) := Fin n × Fin MAX_CAPS_PER_TASK

/-- What a call did. -/
inductive Event (n : Nat) where
  /-- The kernel granted `held` to `tid`. -/
  | granted (dst : Loc n) (tid : UInt32) (held : Held)
  /-- `grantor` delegated the capability at `src` to `target`. -/
  | delegated (src dst : Loc n) (grantor target : UInt32) (held : Held)
  /-- `tid` took the table over, which emptied it. -/
  | claimed (i : Fin n) (tid : UInt32)
  /-- The table was reset. -/
  | reset (i : Fin n) (tid : UInt32)
  deriving DecidableEq

/-- The slot index of a handle, for a handle that names a slot. -/
def slotIdx (raw : CapHandle) : Fin MAX_CAPS_PER_TASK :=
  ⟨raw.slot.toNat % MAX_CAPS_PER_TASK, Nat.mod_lt _ (by decide)⟩

theorem slotIdx_of_names {raw : CapHandle} {k : Fin MAX_CAPS_PER_TASK}
    (h : Names raw k) : slotIdx raw = k := by
  apply Fin.ext
  simp only [slotIdx, h.2]
  exact Nat.mod_eq_of_lt k.isLt

/-- A call of `claim_slot` that changes the owner is an event. -/
def claimEvents (store : Store n) (i : Fin n) (tid : UInt32) : List (Event n) :=
  if store.owner i ≠ tid then [.claimed i tid] else []

/-! ## The system -/

/-- The pool, the store and the log. -/
structure System (n : Nat) where
  pool : Pool n
  store : Store n
  log : List (Event n)

/-- The system at boot. -/
def System.boot (pool : Pool n) : System n := ⟨pool, Store.fresh, []⟩

/-- The calls.  `schedule` is any change that task creation and task exit
make to the pool.  `touch` is an accessor that only claims, such as
`occupied` and `is_valid_tid`. -/
inductive Call (n : Nat) where
  | schedule (pool : Pool n)
  | touch (tid : UInt32)
  | get (T : CapTarget) (level : UInt8) (tid : UInt32) (cap : Cap T) (need : CapPerms)
  | grant (T : CapTarget) (tid : UInt32) (perms : CapPerms) (resource : UInt32)
  | revoke (T : CapTarget) (tid : UInt32) (cap : Cap T)
  | reset (tid : UInt32)
  | delegate (grantorTid targetTid : UInt32) (capRaw : CapHandle) (wantPerms : CapPerms)

/-- The claim that `slot_for` makes for a task. -/
def slotEvents (s : System n) (tid : UInt32) : List (Event n) :=
  match resolveOnly s.pool tid with
  | none => []
  | some i => claimEvents s.store i tid

/-- The mint of a successful grant. -/
def grantEvents (s : System n) (T : CapTarget) (tid : UInt32) (perms : CapPerms)
    (resource : UInt32) : List (Event n) :=
  match resolveOnly s.pool tid, (grant s.pool s.store T tid perms resource).1 with
  | some i, some cap => [.granted (i, slotIdx cap.raw) tid ⟨T.KIND, perms, resource⟩]
  | _, _ => []

/-- The reset of a live task. -/
def resetEvents (s : System n) (tid : UInt32) : List (Event n) :=
  match resolveOnly s.pool tid with
  | none => []
  | some i => [.reset i tid]

/-- The claims of a delegation between coherent tasks, and its mint when it
succeeds. -/
def delegateEvents (s : System n) (g t : UInt32) (raw : CapHandle) (want : CapPerms) :
    List (Event n) :=
  if want.bits = 0 then []
  else
    match resolveOnly s.pool g, resolveOnly s.pool t with
    | some idxG, some idxT =>
      (match delegate s.pool s.store g t raw want with
        | (.ok handle, store) =>
          [.delegated (idxG, slotIdx raw) (idxT, slotIdx handle) g t
            (heldOf ((store.tables idxT).slots (slotIdx handle)))]
        | (.error _, _) => []) ++
      ((if idxT ≠ idxG then claimEvents (s.store.claimSlot idxG g) idxT t else []) ++
        claimEvents s.store idxG g)
    | _, _ => []

/-- One call. -/
def step (s : System n) : Call n → System n
  | .schedule pool => { s with pool := pool }
  | .touch tid => ⟨s.pool, (slotFor s.pool s.store tid).2, slotEvents s tid ++ s.log⟩
  | .get _ level tid cap need =>
    ⟨s.pool, (get s.pool s.store level tid cap need).2, slotEvents s tid ++ s.log⟩
  | .grant T tid perms resource =>
    ⟨s.pool, (grant s.pool s.store T tid perms resource).2,
      grantEvents s T tid perms resource ++ (slotEvents s tid ++ s.log)⟩
  | .revoke _ tid cap =>
    ⟨s.pool, revoke s.pool s.store tid cap, slotEvents s tid ++ s.log⟩
  | .reset tid =>
    ⟨s.pool, reset s.pool s.store tid, resetEvents s tid ++ (slotEvents s tid ++ s.log)⟩
  | .delegate g t raw want =>
    ⟨s.pool, (delegate s.pool s.store g t raw want).2, delegateEvents s g t raw want ++ s.log⟩

/-! ## Moves -/

/-- The system after `claim_slot`. -/
def System.claim (s : System n) (i : Fin n) (tid : UInt32) : System n :=
  ⟨s.pool, s.store.claimSlot i tid, claimEvents s.store i tid ++ s.log⟩

/-- A claim by the owner does nothing, and one by somebody else is noted. -/
theorem System.claim_cases (s : System n) (i : Fin n) (tid : UInt32) :
    s.claim i tid = s ∨ s.store.owner i ≠ tid ∧
      s.claim i tid = ⟨s.pool, s.store.claimSlot i tid, .claimed i tid :: s.log⟩ := by
  by_cases ho : s.store.owner i = tid
  · refine .inl ?_
    simp [System.claim, claimEvents, ho, Store.claimSlot_of_owner ho]
  · refine .inr ⟨ho, ?_⟩
    simp [System.claim, claimEvents, ho]

/-- The six things that can happen. -/
inductive Move : System n → System n → Prop where
  | schedule (s : System n) (pool : Pool n) : Move s { s with pool := pool }
  | claim (s : System n) {i : Fin n} {tid : UInt32}
      (live : resolveOnly s.pool tid = some i) : Move s (s.claim i tid)
  | grant (s : System n) {i : Fin n} {tid : UInt32} {held : Held} {table : CapTable}
      {handle : CapHandle} (live : resolveOnly s.pool tid = some i)
      (own : s.store.owner i = tid)
      (mint : (s.store.tables i).grantRaw held.kind held.perms held.resource =
        some (table, handle)) :
      Move s ⟨s.pool, s.store.setTable i table, .granted (i, slotIdx handle) tid held :: s.log⟩
  | delegate (s : System n) {idxG idxT : Fin n} {g t : UInt32} {raw handle : CapHandle}
      {kind : CapKind} {perms want : CapPerms} {resource : UInt32} {table : CapTable}
      (liveG : resolveOnly s.pool g = some idxG) (liveT : resolveOnly s.pool t = some idxT)
      (ownG : s.store.owner idxG = g) (ownT : s.store.owner idxT = t)
      (minted : Minted s.store idxG idxT g t raw want kind perms resource table handle) :
      Move s ⟨s.pool,
        if g = t then s.store.setTable idxT table
        else (s.store.setTable idxT table).charge idxT,
        .delegated (idxG, slotIdx raw) (idxT, slotIdx handle) g t ⟨kind, want, resource⟩ ::
          s.log⟩
  | revoke (s : System n) {i : Fin n} {tid : UInt32} {T : CapTarget} (cap : Cap T)
      (live : resolveOnly s.pool tid = some i) (own : s.store.owner i = tid) :
      Move s { s with store := s.store.setTable i ((s.store.tables i).revoke cap) }
  | reset (s : System n) {i : Fin n} {tid : UInt32}
      (live : resolveOnly s.pool tid = some i) (own : s.store.owner i = tid) :
      Move s ⟨s.pool, s.store.resetSlot i, .reset i tid :: s.log⟩

/-- A sequence of moves. -/
abbrev Moves : System n → System n → Prop := Relation.ReflTransGen Move

/-- The facts of a mint: the slot was free, and the new table is the old one
with that slot filled. -/
theorem mint_slot {table table' : CapTable} {kind : CapKind} {perms : CapPerms}
    {resource : UInt32} {handle : CapHandle}
    (h : table.grantRaw kind perms resource = some (table', handle)) :
    (table.slots (slotIdx handle)).isOccupied = false ∧
      heldOf (table'.slots (slotIdx handle)) = ⟨kind, perms, resource⟩ ∧
      ∀ k, k ≠ slotIdx handle → table'.slots k = table.slots k := by
  obtain ⟨hk, i, ha, rfl, rfl⟩ := grantRaw_eq_some_iff.mp h
  have hi : slotIdx (CapHandle.pack kind perms (table.bumpGeneration i)
      (UInt16.ofNat i.val)) = i := by
    apply slotIdx_of_names
    refine ⟨CapHandle.isNull_pack hk _ _ _, ?_⟩
    rw [CapHandle.slot_pack, UInt16.toNat_ofNat']
    exact Nat.mod_eq_of_lt (lt_trans i.isLt (by decide))
  rw [hi]
  exact ⟨isOccupied_of_allocateSlot ha, by simp [heldOf], fun k hne => slots_set_of_ne _ _ hne⟩

/-- The slot that an accepted handle names, as a location. -/
theorem source_slot {table : CapTable} {raw : CapHandle} {kind : CapKind}
    {perms : CapPerms} {resource : UInt32}
    (h : table.inspectRaw raw = .ok (kind, perms, resource)) :
    (table.slots (slotIdx raw)).isOccupied = true ∧
      heldOf (table.slots (slotIdx raw)) = ⟨kind, perms, resource⟩ := by
  obtain ⟨k, hhit, -, hinfo⟩ := inspectRaw_eq_ok_iff.mp h
  rw [slotIdx_of_names hhit.names]
  simp only [Prod.mk.injEq] at hinfo
  obtain ⟨rfl, rfl, rfl⟩ := hinfo
  exact ⟨hhit.occupied, rfl⟩

/-- `slot_for` is at most a claim. -/
theorem slotFor_moves (s : System n) (tid : UInt32) :
    Moves s ⟨s.pool, (slotFor s.pool s.store tid).2, slotEvents s tid ++ s.log⟩ := by
  cases h : resolveOnly s.pool tid with
  | none =>
    simp only [slotFor, slotEvents, h, List.nil_append]
    exact .refl
  | some i =>
    simp only [slotFor, slotEvents, h]
    exact .single (.claim s h)

/-- The two claims of a delegation. -/
def System.claimPair (s : System n) (idxG idxT : Fin n) (g t : UInt32) : System n :=
  if idxT ≠ idxG then (s.claim idxG g).claim idxT t else s.claim idxG g

theorem claimPair_moves (s : System n) {idxG idxT : Fin n} {g t : UInt32}
    (hg : resolveOnly s.pool g = some idxG) (ht : resolveOnly s.pool t = some idxT) :
    Moves s (s.claimPair idxG idxT g t) := by
  have hfirst : Moves s (s.claim idxG g) := .single (.claim s hg)
  unfold System.claimPair
  split_ifs with h
  · exact hfirst.tail (.claim _ ht)
  · exact hfirst

@[simp] theorem pool_claimPair (s : System n) (idxG idxT : Fin n) (g t : UInt32) :
    (s.claimPair idxG idxT g t).pool = s.pool := by
  unfold System.claimPair
  split_ifs <;> rfl

@[simp] theorem store_claimPair (s : System n) (idxG idxT : Fin n) (g t : UInt32) :
    (s.claimPair idxG idxT g t).store = CapStore.claimPair s.store idxG idxT g t := by
  unfold System.claimPair CapStore.claimPair
  split_ifs <;> rfl

theorem log_claimPair (s : System n) (idxG idxT : Fin n) (g t : UInt32) :
    (s.claimPair idxG idxT g t).log =
      ((if idxT ≠ idxG then claimEvents (s.store.claimSlot idxG g) idxT t else []) ++
        claimEvents s.store idxG g) ++ s.log := by
  unfold System.claimPair
  split_ifs <;> simp [System.claim]

/-- After its two claims a delegation owns both tables. -/
theorem owner_claimPair (store : Store n) {idxG idxT : Fin n} {g t : UInt32}
    (hiff : g = t ↔ idxG = idxT) :
    (CapStore.claimPair store idxG idxT g t).owner idxG = g ∧
      (CapStore.claimPair store idxG idxT g t).owner idxT = t := by
  unfold CapStore.claimPair
  by_cases h : idxT = idxG
  · obtain rfl : g = t := hiff.mpr h.symm
    subst h
    simp
  · rw [if_pos h, ((store.claimSlot idxG g).claimSlot_of_ne t (Ne.symm h)).2.1]
    simp

/-- A delegation is at most two claims and a mint. -/
theorem delegate_moves (s : System n) (g t : UInt32) (raw : CapHandle) (want : CapPerms) :
    Moves s (step s (.delegate g t raw want)) := by
  rcases delegate_cases s.pool s.store g t raw want with
    ⟨hearly, e, hout⟩ | ⟨idxG, idxT, hw, hg, ht, hiff, hlate⟩
  · have hnil : delegateEvents s g t raw want = [] := by
      unfold delegateEvents
      rcases hearly with h | h | h
      · rw [if_pos h]
      · simp [h]
      · cases resolveOnly s.pool g <;> simp [h]
    simp only [step, hout, hnil, List.nil_append]
    exact .refl
  · refine (claimPair_moves s hg ht).trans ?_
    have hlog := log_claimPair s idxG idxT g t
    rcases hlate with ⟨e, he⟩ | ⟨kind, held, resource, table, handle, hminted, he⟩
    · have hend : step s (.delegate g t raw want) = s.claimPair idxG idxT g t := by
        simp only [step, delegateEvents, if_neg hw, hg, ht, he, List.nil_append, ← hlog]
        rw [← store_claimPair]
        congr 1
        exact (pool_claimPair s idxG idxT g t).symm
      rw [hend]
    · obtain ⟨hownG, hownT⟩ := owner_claimPair s.store hiff
      have hheld : heldOf (table.slots (slotIdx handle)) = ⟨kind, want, resource⟩ :=
        (mint_slot hminted.mint).2.1
      have hend : step s (.delegate g t raw want) =
          ⟨(s.claimPair idxG idxT g t).pool,
            if g = t then (s.claimPair idxG idxT g t).store.setTable idxT table
            else ((s.claimPair idxG idxT g t).store.setTable idxT table).charge idxT,
            .delegated (idxG, slotIdx raw) (idxT, slotIdx handle) g t ⟨kind, want, resource⟩ ::
              (s.claimPair idxG idxT g t).log⟩ := by
        simp only [step, delegateEvents, if_neg hw, hg, ht, he, hlog, pool_claimPair,
          store_claimPair, List.cons_append, List.nil_append]
        split_ifs <;> simp [hheld]
      rw [hend]
      rw [← pool_claimPair s idxG idxT g t] at hg ht
      rw [← store_claimPair] at hownG hownT hminted
      exact .single (.delegate _ hg ht hownG hownT hminted)

/-- Every call is a sequence of moves. -/
theorem step_moves (s : System n) (call : Call n) : Moves s (step s call) := by
  cases call with
  | schedule pool => exact .single (.schedule s pool)
  | touch tid => exact slotFor_moves s tid
  | get T level tid cap need =>
    have h := slotFor_moves s tid
    have hget : (get s.pool s.store level tid cap need).2 = (slotFor s.pool s.store tid).2 := by
      unfold get
      rcases slotFor s.pool s.store tid with ⟨_ | i, store⟩ <;> rfl
    simpa only [step, hget] using h
  | grant T tid perms resource =>
    refine (slotFor_moves s tid).trans ?_
    cases h : resolveOnly s.pool tid with
    | none =>
      simp only [step, grant, grantEvents, slotFor, h, List.nil_append]
      exact .refl
    | some i =>
      cases hm : ((s.store.claimSlot i tid).tables i).grantRaw T.KIND perms resource with
      | none =>
        simp only [step, grant, grantEvents, slotFor, h, CapTable.grant, hm, Option.map_none,
          List.nil_append]
        exact .refl
      | some out =>
        have hmove : Move (s.claim i tid)
            ⟨s.pool, (s.store.claimSlot i tid).setTable i out.1,
              .granted (i, slotIdx out.2) tid ⟨T.KIND, perms, resource⟩ ::
                (s.claim i tid).log⟩ :=
          .grant _ h (s.store.owner_claimSlot_self i tid) hm
        simp only [step, grant, grantEvents, slotFor, slotEvents, h, CapTable.grant, hm,
          Option.map_some]
        exact .single hmove
  | revoke T tid cap =>
    refine (slotFor_moves s tid).trans ?_
    cases h : resolveOnly s.pool tid with
    | none =>
      simp only [step, revoke, slotFor, h]
      exact .refl
    | some i =>
      simp only [step, revoke, slotFor, slotEvents, h]
      exact .single (.revoke (s.claim i tid) cap h (s.store.owner_claimSlot_self i tid))
  | reset tid =>
    refine (slotFor_moves s tid).trans ?_
    cases h : resolveOnly s.pool tid with
    | none =>
      simp only [step, reset, resetEvents, slotFor, h, List.nil_append]
      exact .refl
    | some i =>
      simp only [step, reset, resetEvents, slotFor, slotEvents, h]
      exact .single (.reset (s.claim i tid) h (s.store.owner_claimSlot_self i tid))
  | delegate g t raw want => exact delegate_moves s g t raw want

end RobotOs.Ipc.CapStore
