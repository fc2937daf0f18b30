import RobotOs.Ipc.Cap

/-!
# The capability store

`crates/ipc/src/cap_store.rs`.  The store has one capability table for each
slot of the task pool.  `owner` records the task id that a table belongs to,
and every accessor empties a table that it finds with another owner.

The number of pool slots is a build parameter of the kernel, so it is a
parameter `n` here.  A lock-protected section of the source is one function:
every accessor is atomic.  The functions return the store in every outcome,
because a refused call may have claimed a slot on its way.

`delegate_cases` is the one place that opens `delegate`.
-/

namespace RobotOs.Ipc

open RobotOs.Abi

variable {n : Nat}

/-! ## The task pool

The part of `crates/sched/src/scheduler.rs` that the store reads. -/

/-- `TASK_VALID` and the task ids of `TASKS`. -/
structure Pool (n : Nat) where
  valid : Fin n → Bool
  tid : Fin n → UInt32

/-- `idx_for_tid`: the first valid slot that carries the task id. -/
def Pool.idxForTid (pool : Pool n) (tid : UInt32) : Option (Fin n) :=
  if tid = 0 then none
  else (List.finRange n).find? fun i => pool.valid i && pool.tid i == tid

/-! ## The store -/

/-- `NO_OWNER`. -/
def NO_OWNER : UInt32 := 0

/-- `MAX_INBOUND_DELEGATIONS`. -/
def MAX_INBOUND_DELEGATIONS : Nat := 64

/-- `CAP_TABLES`, `OWNER` and `INBOUND_DELEGATIONS`.  The counter is a `u16`
in the source; `delegate` refuses to pass 64, so it never wraps. -/
structure Store (n : Nat) where
  tables : Fin n → CapTable
  owner : Fin n → UInt32
  inbound : Fin n → Nat

/-- The state at boot. -/
def Store.fresh : Store n := ⟨fun _ => CapTable.empty, fun _ => NO_OWNER, fun _ => 0⟩

/-- `*CAP_TABLES[i].lock() = table`. -/
def Store.setTable (store : Store n) (i : Fin n) (table : CapTable) : Store n :=
  { store with tables := Function.update store.tables i table }

/-- `INBOUND_DELEGATIONS[i].fetch_add(1)`. -/
def Store.charge (store : Store n) (i : Fin n) : Store n :=
  { store with inbound := Function.update store.inbound i (store.inbound i + 1) }

/-- `claim_slot`: register the owner, and empty the table and the quota of a
previous occupant. -/
def Store.claimSlot (store : Store n) (i : Fin n) (tid : UInt32) : Store n :=
  if store.owner i ≠ tid then
    ⟨Function.update store.tables i CapTable.empty, Function.update store.owner i tid,
      Function.update store.inbound i 0⟩
  else store

/-- The body of `reset` once the slot is known: empty the table and the
quota, and give up the claim. -/
def Store.resetSlot (store : Store n) (i : Fin n) : Store n :=
  ⟨Function.update store.tables i CapTable.empty, Function.update store.owner i NO_OWNER,
    Function.update store.inbound i 0⟩

namespace CapStore

/-- `resolve_only`: the lookup half of `slot_for`. -/
def resolveOnly (pool : Pool n) (tid : UInt32) : Option (Fin n) :=
  if tid = NO_OWNER then none else pool.idxForTid tid

/-- `resolve_only_untrusted`: two lookups that must agree. -/
def resolveOnlyUntrusted (pool : Pool n) (tid : UInt32) : Option (Fin n) :=
  match resolveOnly pool tid with
  | none => none
  | some first =>
    match resolveOnly pool tid with
    | none => none
    | some second => if second ≠ first then none else some first

/-- `slot_for`: the slot of a task, claimed. -/
def slotFor (pool : Pool n) (store : Store n) (tid : UInt32) : Option (Fin n) × Store n :=
  match resolveOnly pool tid with
  | none => (none, store)
  | some i => (some i, store.claimSlot i tid)

/-- `get`. -/
def get {T : CapTarget} (pool : Pool n) (store : Store n) (level : UInt8) (tid : UInt32)
    (cap : Cap T) (need : CapPerms) : Except CapError UInt32 × Store n :=
  match slotFor pool store tid with
  | (none, store) => (.error .stale, store)
  | (some i, store) => ((store.tables i).get level cap need, store)

/-- `grant`. -/
def grant (pool : Pool n) (store : Store n) (T : CapTarget) (tid : UInt32)
    (perms : CapPerms) (resource : UInt32) : Option (Cap T) × Store n :=
  match slotFor pool store tid with
  | (none, store) => (none, store)
  | (some i, store) =>
    match (store.tables i).grant T perms resource with
    | none => (none, store)
    | some (table, cap) => (some cap, store.setTable i table)

/-- `revoke`. -/
def revoke {T : CapTarget} (pool : Pool n) (store : Store n) (tid : UInt32)
    (cap : Cap T) : Store n :=
  match slotFor pool store tid with
  | (none, store) => store
  | (some i, store) => store.setTable i ((store.tables i).revoke cap)

/-- `reset`: the wipe on task exit. -/
def reset (pool : Pool n) (store : Store n) (tid : UInt32) : Store n :=
  match slotFor pool store tid with
  | (none, store) => store
  | (some i, store) => store.resetSlot i

/-- `occupied`: the number of capabilities of a task. -/
def occupied (pool : Pool n) (store : Store n) (tid : UInt32) : Nat × Store n :=
  match slotFor pool store tid with
  | (none, store) => (0, store)
  | (some i, store) => ((store.tables i).occupied, store)

/-! ## Delegation -/

/-- `DelegateError`. -/
inductive DelegateError where
  | source (e : CapError)
  | notDelegable | amplify | emptyPerms | noGrantor | noTarget | slotAlias
  | targetFull | quotaExhausted
  deriving DecidableEq, Repr

/-- `check_delegable`: the source may be passed on, and the request is an
attenuation of it. -/
def checkDelegable (held want : CapPerms) : Except DelegateError Unit :=
  if !held.contains .DUP then .error .notDelegable
  else if !held.contains want then .error .amplify
  else .ok ()

/-- The branch of `delegate` for a task that delegates to itself. -/
def delegateSelf (store : Store n) (i : Fin n) (capRaw : CapHandle)
    (wantPerms : CapPerms) : Except DelegateError CapHandle × Store n :=
  match (store.tables i).inspectRaw capRaw with
  | .error e => (.error (.source e), store)
  | .ok (kind, perms, resource) =>
    match checkDelegable perms wantPerms with
    | .error e => (.error e, store)
    | .ok () =>
      match (store.tables i).grantRaw kind wantPerms resource with
      | none => (.error .targetFull, store)
      | some (table, handle) => (.ok handle, store.setTable i table)

/-- The branch of `delegate` for two tasks.  The quota is checked after the
source, and charged only when the mint succeeds. -/
def delegateAcross (store : Store n) (idxG idxT : Fin n) (capRaw : CapHandle)
    (wantPerms : CapPerms) : Except DelegateError CapHandle × Store n :=
  match (store.tables idxG).inspectRaw capRaw with
  | .error e => (.error (.source e), store)
  | .ok (kind, perms, resource) =>
    match checkDelegable perms wantPerms with
    | .error e => (.error e, store)
    | .ok () =>
      if store.inbound idxT ≥ MAX_INBOUND_DELEGATIONS then (.error .quotaExhausted, store)
      else
        match (store.tables idxT).grantRaw kind wantPerms resource with
        | none => (.error .targetFull, store)
        | some (table, handle) => (.ok handle, (store.setTable idxT table).charge idxT)

/-- The two claims that `delegate` makes once the pair is coherent. -/
def claimPair (store : Store n) (idxG idxT : Fin n) (grantorTid targetTid : UInt32) :
    Store n :=
  if idxT ≠ idxG then (store.claimSlot idxG grantorTid).claimSlot idxT targetTid
  else store.claimSlot idxG grantorTid

/-- `delegate`. -/
def delegate (pool : Pool n) (store : Store n) (grantorTid targetTid : UInt32)
    (capRaw : CapHandle) (wantPerms : CapPerms) :
    Except DelegateError CapHandle × Store n :=
  if wantPerms.bits = 0 then (.error .emptyPerms, store)
  else
    match resolveOnly pool grantorTid with
    | none => (.error .noGrantor, store)
    | some idxG =>
      match resolveOnlyUntrusted pool targetTid with
      | none => (.error .noTarget, store)
      | some idxT =>
        if grantorTid ≠ targetTid ∧ idxG = idxT then (.error .slotAlias, store)
        else
          let store := claimPair store idxG idxT grantorTid targetTid
          if idxG = idxT then delegateSelf store idxG capRaw wantPerms
          else delegateAcross store idxG idxT capRaw wantPerms

end CapStore

/-! ## Field lemmas of the updates -/

namespace Store

@[simp] theorem tables_setTable_self (store : Store n) (i : Fin n) (table : CapTable) :
    (store.setTable i table).tables i = table := by
  simp [setTable]

theorem tables_setTable_of_ne (store : Store n) {i j : Fin n} (table : CapTable)
    (h : j ≠ i) : (store.setTable i table).tables j = store.tables j := by
  simp [setTable, h]

@[simp] theorem owner_setTable (store : Store n) (i : Fin n) (table : CapTable) :
    (store.setTable i table).owner = store.owner := rfl

@[simp] theorem inbound_setTable (store : Store n) (i : Fin n) (table : CapTable) :
    (store.setTable i table).inbound = store.inbound := rfl

@[simp] theorem tables_charge (store : Store n) (i : Fin n) :
    (store.charge i).tables = store.tables := rfl

@[simp] theorem owner_charge (store : Store n) (i : Fin n) :
    (store.charge i).owner = store.owner := rfl

/-- A claim by the owner changes nothing. -/
theorem claimSlot_of_owner {store : Store n} {i : Fin n} {tid : UInt32}
    (h : store.owner i = tid) : store.claimSlot i tid = store := by
  simp [claimSlot, h]

@[simp] theorem owner_claimSlot_self (store : Store n) (i : Fin n) (tid : UInt32) :
    (store.claimSlot i tid).owner i = tid := by
  by_cases h : store.owner i = tid <;> simp [claimSlot, h]

/-- A claim touches its own slot only. -/
theorem claimSlot_of_ne (store : Store n) {i j : Fin n} (tid : UInt32) (h : j ≠ i) :
    (store.claimSlot i tid).tables j = store.tables j ∧
      (store.claimSlot i tid).owner j = store.owner j ∧
      (store.claimSlot i tid).inbound j = store.inbound j := by
  by_cases ho : store.owner i = tid <;> simp [claimSlot, ho, h]

/-- A reset touches its own slot only. -/
theorem resetSlot_of_ne (store : Store n) {i j : Fin n} (h : j ≠ i) :
    (store.resetSlot i).tables j = store.tables j ∧
      (store.resetSlot i).owner j = store.owner j ∧
      (store.resetSlot i).inbound j = store.inbound j := by
  simp [resetSlot, h]

end Store

/-! ## What resolution and delegation can do -/

namespace CapStore

theorem resolveOnly_eq_some {pool : Pool n} {tid : UInt32} {i : Fin n}
    (h : resolveOnly pool tid = some i) :
    tid ≠ NO_OWNER ∧ pool.valid i = true ∧ pool.tid i = tid := by
  unfold resolveOnly at h
  split_ifs at h with h0
  unfold Pool.idxForTid at h
  split_ifs at h
  have hi := List.find?_some h
  rw [Bool.and_eq_true, beq_iff_eq] at hi
  exact ⟨h0, hi⟩

/-- Two live task ids never resolve to one slot. -/
theorem resolveOnly_injective {pool : Pool n} {tid tid' : UInt32} {i : Fin n}
    (h : resolveOnly pool tid = some i) (h' : resolveOnly pool tid' = some i) :
    tid = tid' :=
  (resolveOnly_eq_some h).2.2.symm.trans (resolveOnly_eq_some h').2.2

/-- With the pool unchanged between its two lookups, the confirmed lookup is
the plain one. -/
@[simp] theorem resolveOnlyUntrusted_eq (pool : Pool n) (tid : UInt32) :
    resolveOnlyUntrusted pool tid = resolveOnly pool tid := by
  unfold resolveOnlyUntrusted
  cases resolveOnly pool tid <;> simp

theorem checkDelegable_eq_ok_iff {held want : CapPerms} :
    checkDelegable held want = .ok () ↔
      held.contains .DUP = true ∧ held.contains want = true := by
  unfold checkDelegable
  by_cases hd : held.contains .DUP = true
  · by_cases hw : held.contains want = true <;> simp [hd, hw]
  · simp [hd]

/-- A self-delegation fails and changes nothing, or mints an attenuated copy
into the same table. -/
theorem delegateSelf_cases (store : Store n) (i : Fin n) (raw : CapHandle)
    (want : CapPerms) :
    (∃ e, delegateSelf store i raw want = (.error e, store)) ∨
      ∃ kind held resource table handle,
        (store.tables i).inspectRaw raw = .ok (kind, held, resource) ∧
        held.contains .DUP = true ∧ held.contains want = true ∧
        (store.tables i).grantRaw kind want resource = some (table, handle) ∧
        delegateSelf store i raw want = (.ok handle, store.setTable i table) := by
  unfold delegateSelf
  cases hr : (store.tables i).inspectRaw raw with
  | error e => exact .inl ⟨_, rfl⟩
  | ok info =>
    obtain ⟨kind, held, resource⟩ := info
    cases hc : checkDelegable held want with
    | error e => exact .inl ⟨e, by simp [hc]⟩
    | ok u =>
      obtain ⟨hdup, hsub⟩ := checkDelegable_eq_ok_iff.mp hc
      cases hg : (store.tables i).grantRaw kind want resource with
      | none => exact .inl ⟨.targetFull, by simp [hc, hg]⟩
      | some out =>
        exact .inr ⟨kind, held, resource, out.1, out.2, rfl, hdup, hsub, hg, by simp [hc, hg]⟩

/-- A delegation across two tables fails and changes nothing, or mints an
attenuated copy into the target's table and charges the target. -/
theorem delegateAcross_cases (store : Store n) (idxG idxT : Fin n) (raw : CapHandle)
    (want : CapPerms) :
    (∃ e, delegateAcross store idxG idxT raw want = (.error e, store)) ∨
      ∃ kind held resource table handle,
        (store.tables idxG).inspectRaw raw = .ok (kind, held, resource) ∧
        held.contains .DUP = true ∧ held.contains want = true ∧
        store.inbound idxT < MAX_INBOUND_DELEGATIONS ∧
        (store.tables idxT).grantRaw kind want resource = some (table, handle) ∧
        delegateAcross store idxG idxT raw want =
          (.ok handle, (store.setTable idxT table).charge idxT) := by
  unfold delegateAcross
  cases hr : (store.tables idxG).inspectRaw raw with
  | error e => exact .inl ⟨_, rfl⟩
  | ok info =>
    obtain ⟨kind, held, resource⟩ := info
    cases hc : checkDelegable held want with
    | error e => exact .inl ⟨e, by simp [hc]⟩
    | ok u =>
      obtain ⟨hdup, hsub⟩ := checkDelegable_eq_ok_iff.mp hc
      by_cases hq : store.inbound idxT ≥ MAX_INBOUND_DELEGATIONS
      · exact .inl ⟨.quotaExhausted, by simp [hc, hq]⟩
      · cases hg : (store.tables idxT).grantRaw kind want resource with
        | none => exact .inl ⟨.targetFull, by simp [hc, hq, hg]⟩
        | some out =>
          exact .inr ⟨kind, held, resource, out.1, out.2, rfl, hdup, hsub,
            Nat.lt_of_not_le hq, hg, by simp [hc, hq, hg]⟩

/-- `delegate` is refused before it resolves both tasks, or it claims both
slots and goes on in one of the two branches.  The alias check never fires,
because a pool slot carries one task id. -/
theorem delegate_branches (pool : Pool n) (store : Store n) (g t : UInt32)
    (raw : CapHandle) (want : CapPerms) :
    ((want.bits = 0 ∨ resolveOnly pool g = none ∨ resolveOnly pool t = none) ∧
        ∃ e, delegate pool store g t raw want = (.error e, store)) ∨
      ∃ idxG idxT, want.bits ≠ 0 ∧ resolveOnly pool g = some idxG ∧
        resolveOnly pool t = some idxT ∧ (g = t ↔ idxG = idxT) ∧
        delegate pool store g t raw want =
          if idxG = idxT then delegateSelf (claimPair store idxG idxT g t) idxG raw want
          else delegateAcross (claimPair store idxG idxT g t) idxG idxT raw want := by
  unfold delegate
  by_cases hw : want.bits = 0
  · exact .inl ⟨.inl hw, .emptyPerms, by simp [hw]⟩
  · cases hg : resolveOnly pool g with
    | none => exact .inl ⟨.inr (.inl rfl), .noGrantor, by simp [hw]⟩
    | some idxG =>
      cases ht : resolveOnly pool t with
      | none => exact .inl ⟨.inr (.inr rfl), .noTarget, by simp [hw, ht]⟩
      | some idxT =>
        have hiff : g = t ↔ idxG = idxT := by
          constructor
          · intro he
            exact Option.some.inj ((he ▸ hg).symm.trans ht)
          · intro hi
            exact resolveOnly_injective (hi ▸ hg) ht
        have ha : ¬ (g ≠ t ∧ idxG = idxT) := fun h => h.1 (hiff.mpr h.2)
        exact .inr ⟨idxG, idxT, hw, rfl, rfl, hiff, by simp [hw, ht, ha]⟩

/-- The facts of a delegation that reaches the mint, from the store after
the two claims. -/
structure Minted (store : Store n) (idxG idxT : Fin n) (g t : UInt32) (raw : CapHandle)
    (want : CapPerms) (kind : CapKind) (held : CapPerms) (resource : UInt32)
    (table : CapTable) (handle : CapHandle) : Prop where
  source : (store.tables idxG).inspectRaw raw = .ok (kind, held, resource)
  dup : held.contains .DUP = true
  sub : held.contains want = true
  quota : g ≠ t → store.inbound idxT < MAX_INBOUND_DELEGATIONS
  mint : (store.tables idxT).grantRaw kind want resource = some (table, handle)

/-- Every outcome of `delegate`: refused early, refused after the claims, or
one copy minted. -/
theorem delegate_cases (pool : Pool n) (store : Store n) (g t : UInt32)
    (raw : CapHandle) (want : CapPerms) :
    ((want.bits = 0 ∨ resolveOnly pool g = none ∨ resolveOnly pool t = none) ∧
        ∃ e, delegate pool store g t raw want = (.error e, store)) ∨
      ∃ idxG idxT, want.bits ≠ 0 ∧ resolveOnly pool g = some idxG ∧
        resolveOnly pool t = some idxT ∧ (g = t ↔ idxG = idxT) ∧
        ((∃ e, delegate pool store g t raw want =
            (.error e, claimPair store idxG idxT g t)) ∨
          ∃ kind held resource table handle,
            Minted (claimPair store idxG idxT g t) idxG idxT g t raw want kind held resource
              table handle ∧
            delegate pool store g t raw want = (.ok handle,
              if g = t then (claimPair store idxG idxT g t).setTable idxT table
              else ((claimPair store idxG idxT g t).setTable idxT table).charge idxT)) := by
  rcases delegate_branches pool store g t raw want with
    hearly | ⟨idxG, idxT, hw, hg, ht, hiff, hout⟩
  · exact .inl hearly
  · refine .inr ⟨idxG, idxT, hw, hg, ht, hiff, ?_⟩
    by_cases hi : idxG = idxT
    · have hgt : g = t := hiff.mpr hi
      rw [if_pos hi] at hout
      rcases delegateSelf_cases (claimPair store idxG idxT g t) idxG raw want with
        ⟨e, he⟩ | ⟨kind, held, resource, table, handle, hsrc, hdup, hsub, hmint, he⟩
      · exact .inl ⟨e, hout.trans he⟩
      · subst hi
        exact .inr ⟨kind, held, resource, table, handle,
          ⟨hsrc, hdup, hsub, absurd hgt, hmint⟩, by rw [hout, he, if_pos hgt]⟩
    · have hgt : g ≠ t := fun h => hi (hiff.mp h)
      rw [if_neg hi] at hout
      rcases delegateAcross_cases (claimPair store idxG idxT g t) idxG idxT raw want with
        ⟨e, he⟩ | ⟨kind, held, resource, table, handle, hsrc, hdup, hsub, hquota, hmint, he⟩
      · exact .inl ⟨e, hout.trans he⟩
      · exact .inr ⟨kind, held, resource, table, handle,
          ⟨hsrc, hdup, hsub, fun _ => hquota, hmint⟩, by rw [hout, he, if_neg hgt]⟩

end CapStore

end RobotOs.Ipc
