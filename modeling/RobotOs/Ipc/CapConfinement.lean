import RobotOs.Ipc.CapStoreRun

/-!
# Authority confinement

Where does a capability come from?  `lineage` reads the answer off the log
of a run.  The lineage of a slot starts with the mint that filled it.  After
a delegation it goes on with the lineage that the source slot had at that
time, and it ends at a kernel grant.

`Confined` is what the lineage of an occupied slot always looks like.  One
step of delegation keeps it (`Confined.delegate`), and `confined_move` covers
every move of the store.
-/

namespace RobotOs.Ipc.CapStore

open RobotOs.Abi RobotOs.Lib.Run CapTable

variable {n : Nat}

/-! ## Lineage -/

/-- How a slot was filled. -/
inductive Origin where
  | kernelGrant
  | delegation
  deriving DecidableEq

/-- One mint of a run: the slot, what it received, and how. -/
structure Mint (n : Nat) where
  loc : Loc n
  held : Held
  origin : Origin

/-- The chain of mints behind a slot, newest first.  The lineage of a
delegated copy goes on with the lineage of its source before the
delegation. -/
def lineage : List (Event n) → Loc n → List (Mint n)
  | [], _ => []
  | .granted dst _ held :: older, loc =>
    if dst = loc then [⟨dst, held, .kernelGrant⟩] else lineage older loc
  | .delegated src dst _ _ held :: older, loc =>
    if dst = loc then ⟨dst, held, .delegation⟩ :: lineage older src else lineage older loc
  | .claimed _ _ :: older, loc => lineage older loc
  | .reset _ _ :: older, loc => lineage older loc

/-- A chain of mints confines `held`: it starts with the mint of `held`, all
its mints are for the same kind and resource with at least its permissions,
all mints behind the first carry `DUP`, and the last is a kernel grant. -/
structure Confined (chain : List (Mint n)) (held : Held) : Prop where
  head : ∃ m rest, chain = m :: rest ∧ m.held = held
  kind : ∀ m ∈ chain, m.held.kind = held.kind
  resource : ∀ m ∈ chain, m.held.resource = held.resource
  perms : ∀ m ∈ chain, m.held.perms.contains held.perms = true
  dup : ∀ m ∈ chain.tail, m.held.perms.contains .DUP = true
  root : ∃ m, chain.getLast? = some m ∧ m.origin = .kernelGrant

/-- A kernel grant confines what it grants. -/
theorem Confined.grant (loc : Loc n) (held : Held) :
    Confined [⟨loc, held, .kernelGrant⟩] held := by
  refine ⟨⟨_, _, rfl, rfl⟩, ?_, ?_, ?_, ?_, ⟨_, rfl, rfl⟩⟩ <;> simp

/-- A delegation of a confined capability confines the copy. -/
theorem Confined.delegate {chain : List (Mint n)} {source held : Held}
    (h : Confined chain source) (loc : Loc n) (hkind : held.kind = source.kind)
    (hres : held.resource = source.resource) (hdup : source.perms.contains .DUP = true)
    (hsub : source.perms.contains held.perms = true) :
    Confined (⟨loc, held, .delegation⟩ :: chain) held := by
  refine ⟨⟨_, _, rfl, rfl⟩, ?_, ?_, ?_, ?_, ?_⟩
  · rw [List.forall_mem_cons]
    exact ⟨rfl, fun m hm => (h.kind m hm).trans hkind.symm⟩
  · rw [List.forall_mem_cons]
    exact ⟨rfl, fun m hm => (h.resource m hm).trans hres.symm⟩
  · rw [List.forall_mem_cons]
    exact ⟨CapPerms.contains_refl _, fun m hm => CapPerms.contains_trans (h.perms m hm) hsub⟩
  · -- Every ancestor contains the source's permissions, and those have `DUP`.
    intro m hm
    exact CapPerms.contains_trans (h.perms m hm) hdup
  · obtain ⟨m, hlast, horigin⟩ := h.root
    refine ⟨m, ?_, horigin⟩
    rw [List.getLast?_cons, hlast]
    rfl

/-! ## Every occupied slot is confined -/

/-- The invariant: the lineage of every occupied slot confines it. -/
def AllConfined (s : System n) : Prop :=
  ∀ i k, ((s.store.tables i).slots k).isOccupied = true →
    Confined (lineage s.log (i, k)) (heldOf ((s.store.tables i).slots k))

variable {store : Store n} {i j : Fin n} {k : Fin MAX_CAPS_PER_TASK}

/-- An occupied slot of the store after a mint is the minted one, or it was
there before. -/
theorem slot_after_mint {kind : CapKind} {perms : CapPerms} {resource : UInt32} {table : CapTable}
    {handle : CapHandle}
    (hmint : (store.tables i).grantRaw kind perms resource = some (table, handle)) :
    ((i, slotIdx handle) = (j, k) ∧
        heldOf (((store.setTable i table).tables j).slots k) = ⟨kind, perms, resource⟩) ∨
      ((i, slotIdx handle) ≠ (j, k) ∧
        ((store.setTable i table).tables j).slots k = (store.tables j).slots k) := by
  obtain ⟨-, hheld, hsame⟩ := mint_slot hmint
  by_cases hij : j = i
  · subst hij
    by_cases hk : k = slotIdx handle
    · subst hk
      exact .inl ⟨rfl, by simpa using hheld⟩
    · refine .inr ⟨fun h => hk (Prod.ext_iff.mp h).2.symm, ?_⟩
      rw [Store.tables_setTable_self, hsame k hk]
  · refine .inr ⟨fun h => hij (Prod.ext_iff.mp h).1.symm, ?_⟩
    rw [Store.tables_setTable_of_ne _ _ hij]

/-- A table that was just emptied has no occupied slot. -/
theorem occupied_after_claim {tid : UInt32}
    (hocc : (((store.claimSlot i tid).tables j).slots k).isOccupied = true) :
    ((store.claimSlot i tid).tables j) = store.tables j ∧
      (j = i → store.owner i = tid) := by
  by_cases hij : j = i
  · subst hij
    by_cases ho : store.owner j = tid
    · rw [Store.claimSlot_of_owner ho]
      exact ⟨rfl, fun _ => ho⟩
    · simp [Store.claimSlot, ho] at hocc
  · exact ⟨(store.claimSlot_of_ne tid hij).1, fun h => absurd h hij⟩

/-- An occupied slot after a reset belongs to another table. -/
theorem occupied_after_reset (hocc : (((store.resetSlot i).tables j).slots k).isOccupied = true) :
    j ≠ i ∧ (store.resetSlot i).tables j = store.tables j := by
  have hij : j ≠ i := by
    rintro rfl
    simp [Store.resetSlot] at hocc
  exact ⟨hij, (store.resetSlot_of_ne hij).1⟩

/-- An occupied slot after a revocation was there before. -/
theorem occupied_after_revoke {T : CapTarget} {cap : Cap T}
    (hocc : (((store.setTable i ((store.tables i).revoke cap)).tables j).slots k).isOccupied =
      true) :
    ((store.setTable i ((store.tables i).revoke cap)).tables j).slots k =
      (store.tables j).slots k := by
  by_cases hij : j = i
  · subst hij
    rw [Store.tables_setTable_self] at hocc ⊢
    rcases slots_revoke_cases (store.tables j) cap k with h | ⟨-, h⟩
    · exact h
    · simp [h] at hocc
  · rw [Store.tables_setTable_of_ne _ _ hij]

@[simp] theorem lineage_claimEvents (store : Store n) (i : Fin n) (tid : UInt32)
    (log : List (Event n)) (loc : Loc n) :
    lineage (claimEvents store i tid ++ log) loc = lineage log loc := by
  unfold claimEvents
  split_ifs <;> rfl

/-- Every move keeps every occupied slot confined. -/
theorem confined_move (s s' : System n) (h : AllConfined s) (hmove : Move s s') :
    AllConfined s' := by
  intro j k hocc
  cases hmove with
  | schedule pool => exact h j k hocc
  | claim live =>
    obtain ⟨htab, -⟩ := occupied_after_claim hocc
    simp only [System.claim, lineage_claimEvents]
    simp only [System.claim] at hocc
    rw [htab] at hocc ⊢
    exact h j k hocc
  | grant live own mint =>
    rcases slot_after_mint (j := j) (k := k) mint with ⟨hloc, hheld⟩ | ⟨hloc, hsame⟩
    · simp only [lineage, if_pos hloc, hheld]
      exact Confined.grant _ _
    · simp only [lineage, if_neg hloc]
      simp only [hsame] at hocc ⊢
      exact h j k hocc
  | @delegate idxG idxT g t raw handle kind perms want resource table liveG liveT ownG ownT m =>
    have htab : (if g = t then s.store.setTable idxT table
        else (s.store.setTable idxT table).charge idxT).tables =
          (s.store.setTable idxT table).tables := by
      split_ifs <;> rfl
    simp only [htab] at hocc ⊢
    rcases slot_after_mint (j := j) (k := k) m.mint with ⟨hloc, hheld⟩ | ⟨hloc, hsame⟩
    · obtain ⟨hsocc, hsheld⟩ := source_slot m.source
      have hsrc := h idxG (slotIdx raw) hsocc
      rw [hsheld] at hsrc
      simp only [lineage, if_pos hloc, hheld]
      exact hsrc.delegate _ rfl rfl m.dup m.sub
    · simp only [lineage, if_neg hloc]
      simp only [hsame] at hocc ⊢
      exact h j k hocc
  | revoke cap live own =>
    have hsame := occupied_after_revoke hocc
    simp only [hsame] at hocc ⊢
    exact h j k hocc
  | reset live own =>
    obtain ⟨-, htab⟩ := occupied_after_reset hocc
    simp only [lineage]
    simp only [htab] at hocc ⊢
    exact h j k hocc

/-- Authority confinement.

After every run of the store, from boot and with any changes of the task pool
in between, the lineage of every occupied slot is a finite chain of mints.
The first is the mint of the slot itself.  All of them are for the slot's kind
and resource and have at least its permissions.  All but the slot's own carry
`DUP`.  The last is a kernel grant, so no slot has a permission that its
originating grant did not have. -/
theorem authority_confined (pool : Pool n) (calls : List (Call n)) (i : Fin n)
    (k : Fin MAX_CAPS_PER_TASK) :
    let s := run step (System.boot pool) calls
    ((s.store.tables i).slots k).isOccupied = true →
      Confined (lineage s.log (i, k)) (heldOf ((s.store.tables i).slots k)) := by
  have hinv : AllConfined (run step (System.boot pool) calls) := by
    refine run_invariant_of_chain AllConfined step_moves confined_move ?_ calls
    intro i k hocc
    simp [System.boot, Store.fresh] at hocc
  exact hinv i k

/-- A pool with the tasks 1 and 2. -/
def pairPool : Pool 2 := ⟨fun _ => true, fun i => if i.val = 0 then 1 else 2⟩

/-- Task 1 is granted a channel with `DUP` and delegates a read-only copy to
task 2. -/
def oneHop : List (Call 2) :=
  [.grant .channel 1 .RW_DUP 7, .delegate 1 2 (CapHandle.pack .channel .RW_DUP 1 0) .READ]

/-- The copy of task 2 is there, and it is confined. -/
theorem authority_confined_one_hop :
    (((run step (System.boot pairPool) oneHop).store.tables 1).slots ⟨0, by decide⟩).isOccupied =
        true ∧
      Confined (lineage (run step (System.boot pairPool) oneHop).log (1, ⟨0, by decide⟩))
        (heldOf (((run step (System.boot pairPool) oneHop).store.tables 1).slots
          ⟨0, by decide⟩)) :=
  ⟨by decide, authority_confined pairPool oneHop 1 ⟨0, by decide⟩ (by decide)⟩

end RobotOs.Ipc.CapStore
