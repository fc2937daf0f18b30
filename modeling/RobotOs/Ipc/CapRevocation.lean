import RobotOs.Ipc.Cap
import RobotOs.Lib.Run

/-!
# Revocation over whole histories of one table

A history is a list of grants and revokes on one `CapTable` that starts
empty.  The module follows two things along a history.

* The generation of a slot.  `grant_raw` bumps it and nothing else writes
  it, so after `m` grants into a slot its counter is `(g - 1 + m) % 255 + 1`
  (`generation_run`).  The counter has period 255 because it skips `0`.
* The handles that are out.  `Trace` adds the list of handles that a grant
  returned and that the table still accepts.

`revocation_final` puts the two together.
-/

namespace RobotOs.Ipc.CapRevocation

open RobotOs.Abi RobotOs.Lib.Run CapTable

/-! ## Histories -/

/-- One call on the table. -/
inductive TableOp where
  | grant (kind : CapKind) (perms : CapPerms) (resource : UInt32)
  | revoke (T : CapTarget) (cap : Cap T)

/-- The table after one call. -/
def step (table : CapTable) : TableOp → CapTable
  | .grant kind perms resource =>
    match table.grantRaw kind perms resource with
    | some (table', _) => table'
    | none => table
  | .revoke _ cap => table.revoke cap

/-- The slot that a call grants into, if it grants. -/
def landing (table : CapTable) : TableOp → Option (Fin MAX_CAPS_PER_TASK)
  | .grant kind _ _ => if kind = .null then none else table.allocateSlot
  | .revoke _ _ => none

/-- The number of grants of a history that land in slot `k`. -/
def grantsInto (k : Fin MAX_CAPS_PER_TASK) : CapTable → List TableOp → Nat
  | _, [] => 0
  | table, op :: ops =>
    (if landing table op = some k then 1 else 0) + grantsInto k (step table op) ops

/-- What one call does to slot `k`.  It grants into the slot, or it leaves
the slot, or it clears the slot and keeps its generation. -/
theorem step_slot_cases (table : CapTable) (op : TableOp) (k : Fin MAX_CAPS_PER_TASK) :
    (landing table op = some k ∧ (table.slots k).isOccupied = false ∧
        ((step table op).slots k).isOccupied = true ∧
        ((step table op).slots k).generation = table.bumpGeneration k) ∨
      (landing table op ≠ some k ∧
        ((step table op).slots k = table.slots k ∨
          (step table op).slots k = clearSlot (table.slots k))) := by
  cases op with
  | grant kind perms resource =>
    cases hg : table.grantRaw kind perms resource with
    | none =>
      right
      refine ⟨?_, .inl (by simp [step, hg])⟩
      intro hland
      simp only [landing] at hland
      split_ifs at hland with hk
      simp [grantRaw, hk, hland] at hg
    | some out =>
      obtain ⟨hk, i, ha, htab, -⟩ := grantRaw_eq_some_iff.mp hg
      have hstep : step table (.grant kind perms resource) =
          table.set i ⟨kind, perms, table.bumpGeneration i, resource⟩ := by
        simp [step, hg, htab]
      by_cases hik : k = i
      · subst hik
        exact .inl ⟨by simp [landing, hk, ha], isOccupied_of_allocateSlot ha,
          by simp [hstep, CapSlot.isOccupied, hk], by simp [hstep]⟩
      · refine .inr ⟨by simp [landing, hk, ha, Ne.symm hik], .inl ?_⟩
        rw [hstep, slots_set_of_ne _ _ hik]
  | revoke T cap =>
    right
    refine ⟨by simp [landing], ?_⟩
    rcases slots_revoke_cases table cap k with h | ⟨-, h⟩
    · exact .inl h
    · exact .inr h

/-! ## The generation counter -/

/-- A bump is one step of a counter on `1..255`. -/
theorem toNat_bumpGeneration (table : CapTable) (k : Fin MAX_CAPS_PER_TASK) :
    (table.bumpGeneration k).toNat = (table.slots k).generation.toNat % 255 + 1 := by
  have hlt : (table.slots k).generation.toNat < 2 ^ 8 := UInt8.toNat_lt _
  unfold bumpGeneration checkedSucc
  split_ifs with h
  · have hsucc : ((table.slots k).generation + 1).toNat =
        (table.slots k).generation.toNat + 1 := by
      rw [UInt8.toNat_add]
      exact Nat.mod_eq_of_lt h
    have hne : (table.slots k).generation + 1 ≠ 0 := by
      intro h0
      have := congrArg UInt8.toNat h0
      rw [hsucc] at this
      exact absurd this (by simp)
    simp only [hne, ne_eq, not_false_eq_true, if_true]
    omega
  · have : (table.slots k).generation.toNat = 255 := by omega
    simp [this]

variable {table : CapTable} {h : CapHandle}

/-- After `m` grants into a slot that was granted before, the counter has
moved `m` steps around `1..255`. -/
theorem generation_run {k : Fin MAX_CAPS_PER_TASK} (hpos : 1 ≤ (table.slots k).generation.toNat)
    (ops : List TableOp) :
    ((run step table ops).slots k).generation.toNat =
      ((table.slots k).generation.toNat - 1 + grantsInto k table ops) % 255 + 1 := by
  induction ops generalizing table with
  | nil =>
    have hlt : (table.slots k).generation.toNat < 2 ^ 8 := UInt8.toNat_lt _
    simp only [run_nil, grantsInto]
    omega
  | cons op ops ih =>
    rw [run_cons, grantsInto]
    rcases step_slot_cases table op k with ⟨hland, -, -, hgen⟩ | ⟨hland, hkeep⟩
    · have hnext := hgen ▸ toNat_bumpGeneration table k
      rw [ih (by omega), if_pos hland, hnext]
      omega
    · have hsame : ((step table op).slots k).generation = (table.slots k).generation := by
        rcases hkeep with h | h <;> simp [h]
      rw [ih (hsame ▸ hpos), if_neg hland, hsame, Nat.zero_add]

/-- A free slot stays free as long as no grant lands in it. -/
theorem isOccupied_run_of_grantsInto_eq_zero {k : Fin MAX_CAPS_PER_TASK}
    (hfree : (table.slots k).isOccupied = false) {ops : List TableOp}
    (hzero : grantsInto k table ops = 0) : ((run step table ops).slots k).isOccupied = false := by
  induction ops generalizing table with
  | nil => exact hfree
  | cons op ops ih =>
    rw [grantsInto] at hzero
    rcases step_slot_cases table op k with ⟨hland, -⟩ | ⟨-, hkeep⟩
    · rw [if_pos hland] at hzero
      omega
    · refine ih ?_ (by omega)
      rcases hkeep with h | h <;> simp [h, hfree]

/-- No occupied slot has generation `0`. -/
def GenerationsSet (table : CapTable) : Prop :=
  ∀ k, (table.slots k).isOccupied = true → (table.slots k).generation ≠ 0

/-- One call keeps the generations of occupied slots away from `0`. -/
theorem generationsSet_step (h : GenerationsSet table) (op : TableOp) :
    GenerationsSet (step table op) := by
  intro k hocc
  rcases step_slot_cases table op k with ⟨-, -, -, hgen⟩ | ⟨-, hkeep | hkeep⟩
  · rw [hgen]
    exact bumpGeneration_ne_zero table k
  · rw [hkeep] at hocc ⊢
    exact h k hocc
  · simp [hkeep] at hocc

/-- In every history, no occupied slot has generation `0`. -/
theorem generationsSet_run (ops : List TableOp) :
    GenerationsSet (run step CapTable.empty ops) :=
  run_invariant GenerationsSet (fun _ op h => generationsSet_step h op)
    (by simp [GenerationsSet]) ops

/-! ## Accepted and rejected handles -/

/-- `inspect_raw` accepts the handle. -/
def accepts (table : CapTable) (h : CapHandle) : Bool := (table.inspectRaw h).isOk

/-- `inspect_raw` and `get` refuse the handle, whatever kind and permissions
`get` is asked for and whatever the degrade level is. -/
def Rejected (table : CapTable) (h : CapHandle) : Prop :=
  (∃ e, table.inspectRaw h = .error e) ∧
    ∀ (T : CapTarget) (level : UInt8) (need : CapPerms),
      ∃ e, table.get level (Cap.fromRaw h : Cap T) need = .error e

theorem accepts_iff :
    accepts table h = true ↔
      ∃ k, Hits table h k ∧ (table.slots k).kind.toRaw = h.kind := by
  unfold accepts
  constructor
  · intro hok
    cases hr : table.inspectRaw h with
    | error e => simp [hr, Except.isOk, Except.toBool] at hok
    | ok info =>
      obtain ⟨k, hhit, hkind, -⟩ := inspectRaw_eq_ok_iff.mp hr
      exact ⟨k, hhit, hkind⟩
  · rintro ⟨k, hhit, hkind⟩
    rw [inspectRaw_eq_ok_iff.mpr ⟨k, hhit, hkind, rfl⟩]
    rfl

/-- A handle that hits no slot is refused everywhere. -/
theorem rejected_of_not_hits (hno : ∀ k, ¬ Hits table h k) : Rejected table h := by
  refine ⟨?_, fun T level need => ?_⟩
  · cases hr : table.inspectRaw h with
    | error e => exact ⟨e, rfl⟩
    | ok info =>
      obtain ⟨k, hhit, -⟩ := inspectRaw_eq_ok_iff.mp hr
      exact absurd hhit (hno k)
  · cases hr : table.get level (Cap.fromRaw h : Cap T) need with
    | error e => exact ⟨e, rfl⟩
    | ok resource =>
      obtain ⟨k, hhit, -⟩ := get_eq_ok_iff.mp hr
      exact absurd hhit (hno k)

/-- The null handle is refused by every table. -/
theorem rejected_null (table : CapTable) : Rejected table CAP_NULL :=
  rejected_of_not_hits fun _ hhit => absurd hhit.names.1 (by decide)

/-! ## The handles that are out -/

/-- A table with the handles that grants returned and that the table has
accepted ever since. -/
structure Trace where
  table : CapTable
  live : List CapHandle

/-- Nothing is granted and nothing is out. -/
def Trace.empty : Trace := ⟨CapTable.empty, []⟩

/-- One call.  A grant puts its handle out.  A revoke takes back the handles
that the table refuses from then on. -/
def Trace.step (s : Trace) : TableOp → Trace
  | .grant kind perms resource =>
    match s.table.grantRaw kind perms resource with
    | some (table', h) => ⟨table', h :: s.live⟩
    | none => s
  | .revoke _ cap => ⟨s.table.revoke cap, s.live.filter (accepts (s.table.revoke cap))⟩

/-- The trace of a history. -/
def trace (ops : List TableOp) : Trace := run Trace.step Trace.empty ops

@[simp] theorem table_step (s : Trace) (op : TableOp) :
    (s.step op).table = CapRevocation.step s.table op := by
  cases op with
  | grant kind perms resource =>
    simp only [Trace.step, CapRevocation.step]
    cases s.table.grantRaw kind perms resource <;> rfl
  | revoke T cap => rfl

/-- The trace runs the table. -/
theorem table_run (s : Trace) (ops : List TableOp) :
    (run Trace.step s ops).table = run step s.table ops := by
  induction ops generalizing s with
  | nil => rfl
  | cons op ops ih => rw [run_cons, run_cons, ih, table_step]

/-- The trace after one more call. -/
theorem trace_concat (ops : List TableOp) (op : TableOp) :
    trace (ops ++ [op]) = (trace ops).step op :=
  run_concat _ _ _

/-- The table of a trace is the table of the history. -/
theorem table_trace (ops : List TableOp) :
    (trace ops).table = run step CapTable.empty ops :=
  table_run _ _

/-- The handles that are out are accepted and name different slots. -/
structure Trace.Ok (s : Trace) : Prop where
  accepted : ∀ h ∈ s.live, accepts s.table h = true
  slots : (s.live.map CapHandle.slot).Nodup

/-- The handle that a grant returns hits the slot that the grant filled. -/
theorem hits_of_grantRaw {table' : CapTable} {kind : CapKind} {perms : CapPerms} {resource : UInt32}
    {i : Fin MAX_CAPS_PER_TASK} (hk : kind ≠ .null)
    (htab : table' = table.set i ⟨kind, perms, table.bumpGeneration i, resource⟩)
    (hh : h = CapHandle.pack kind perms (table.bumpGeneration i) (UInt16.ofNat i.val)) :
    Hits table' h i ∧ (table'.slots i).kind.toRaw = h.kind := by
  subst htab hh
  have hi : i.val < 2 ^ 16 := lt_trans i.isLt (by decide)
  refine ⟨⟨⟨CapHandle.isNull_pack hk _ _ _, ?_⟩, ?_, ?_⟩, ?_⟩
  · rw [CapHandle.slot_pack, UInt16.toNat_ofNat']
    exact Nat.mod_eq_of_lt hi
  · simp [CapSlot.isOccupied, hk]
  · simp
  · simp

/-- One call keeps the outstanding handles accepted and apart. -/
theorem Trace.ok_step {s : Trace} (hs : s.Ok) (op : TableOp) : (s.step op).Ok := by
  cases op with
  | grant kind perms resource =>
    cases hg : s.table.grantRaw kind perms resource with
    | none => simpa [Trace.step, hg] using hs
    | some out =>
      obtain ⟨table', h⟩ := out
      obtain ⟨hk, i, ha, htab, hh⟩ := grantRaw_eq_some_iff.mp hg
      have hnew := hits_of_grantRaw hk htab hh
      have hfree := isOccupied_of_allocateSlot ha
      -- An outstanding handle sits in an occupied slot, so not in slot `i`.
      have hother : ∀ h' ∈ s.live, ∃ k, k ≠ i ∧ Hits s.table h' k ∧
          (s.table.slots k).kind.toRaw = h'.kind := by
        intro h' hmem
        obtain ⟨k, hhit, hkind⟩ := accepts_iff.mp (hs.accepted h' hmem)
        refine ⟨k, ?_, hhit, hkind⟩
        rintro rfl
        exact absurd hhit.occupied (by simp [hfree])
      have hstep : s.step (.grant kind perms resource) = ⟨table', h :: s.live⟩ := by
        simp [Trace.step, hg]
      rw [hstep]
      refine ⟨?_, ?_⟩
      · intro h' hmem
        rcases List.mem_cons.mp hmem with rfl | hmem
        · exact accepts_iff.mpr ⟨i, hnew⟩
        · obtain ⟨k, hki, hhit, hkind⟩ := hother h' hmem
          have hsame : table'.slots k = s.table.slots k := by
            rw [htab, slots_set_of_ne _ _ hki]
          refine accepts_iff.mpr ⟨k, ⟨hhit.names, ?_, ?_⟩, ?_⟩ <;> rw [hsame]
          · exact hhit.occupied
          · exact hhit.generation
          · exact hkind
      · rw [List.map_cons, List.nodup_cons]
        refine ⟨?_, hs.slots⟩
        intro hmem
        obtain ⟨h', hlive, hslot⟩ := List.mem_map.mp hmem
        obtain ⟨k, hki, hhit, -⟩ := hother h' hlive
        refine hki (Fin.ext ?_)
        rw [← hhit.names.2, hslot, hnew.1.names.2]
  | revoke T cap =>
    refine ⟨fun h hmem => (List.mem_filter.mp hmem).2, ?_⟩
    exact hs.slots.sublist (List.filter_sublist.map _)

/-- In every history the outstanding handles are accepted and apart. -/
theorem ok_trace (ops : List TableOp) : (trace ops).Ok :=
  run_invariant Trace.Ok (fun _ op h => Trace.ok_step h op)
    ⟨by simp [Trace.empty], by simp [Trace.empty]⟩ ops

/-! ## Revocation is final -/

/-- A handle that a revoke takes back names a slot that the revoke clears at
the handle's generation. -/
theorem slot_of_taken_back {s : Trace} (hs : s.Ok) {T : CapTarget} {cap : Cap T}
    (hlive : h ∈ s.live) (hgone : h ∉ (s.step (.revoke T cap)).live) :
    ∃ k, Names h k ∧ (s.table.slots k).isOccupied = true ∧
      (s.table.slots k).generation = h.generation ∧
      (s.table.revoke cap).slots k = clearSlot (s.table.slots k) := by
  obtain ⟨k, hhit, hkind⟩ := accepts_iff.mp (hs.accepted h hlive)
  refine ⟨k, hhit.names, hhit.occupied, hhit.generation, ?_⟩
  rcases slots_revoke_cases s.table cap k with hsame | ⟨-, hclear⟩
  · -- The slot is the same, so the handle would still be accepted.
    refine absurd (List.mem_filter.mpr ⟨hlive, accepts_iff.mpr ⟨k, ?_⟩⟩) hgone
    rw [hsame]
    exact ⟨⟨hhit.names, hsame ▸ hhit.occupied, hsame ▸ hhit.generation⟩, hkind⟩
  · exact hclear

/-- A handle that was taken back stays refused until its slot has been
granted a positive multiple of 255 times since. -/
theorem rejected_after_taken_back {pre post : List TableOp} {T : CapTarget} {cap : Cap T}
    {k : Fin MAX_CAPS_PER_TASK} (hname : h.slot.toNat = k.val) (hlive : h ∈ (trace pre).live)
    (hgone : h ∉ (trace (pre ++ [.revoke T cap])).live) (hcount : ¬ ∃ n, 0 < n ∧
      grantsInto k (trace (pre ++ [.revoke T cap])).table post = 255 * n) :
    Rejected (trace (pre ++ .revoke T cap :: post)).table h := by
  set cleared := (trace (pre ++ [.revoke T cap])).table with hcleared
  have hcl : cleared = (trace pre).table.revoke cap := by
    rw [hcleared, trace_concat]
    rfl
  have hend : (trace (pre ++ .revoke T cap :: post)).table = run step cleared post := by
    rw [hcleared, table_trace, table_trace, ← run_append]
    simp
  rw [trace_concat] at hgone
  obtain ⟨k', hk', hocc, hgen, hslot⟩ := slot_of_taken_back (ok_trace pre) hlive hgone
  obtain rfl : k' = k := Fin.ext (hk'.2.symm.trans hname)
  have hset : 1 ≤ ((trace pre).table.slots k').generation.toNat := by
    have hne := generationsSet_run pre k'
    rw [← table_trace] at hne
    exact Nat.one_le_iff_ne_zero.mpr fun h0 => hne hocc (UInt8.toNat_inj.mp h0)
  rw [hend]
  refine rejected_of_not_hits fun j hhit => ?_
  obtain rfl : j = k' := hhit.names.unique hk'
  rw [← hcl] at hslot
  have hpos : 1 ≤ (cleared.slots j).generation.toNat := by simpa [hslot] using hset
  have hrun := generation_run hpos post
  have hlt : ((trace pre).table.slots j).generation.toNat < 2 ^ 8 := UInt8.toNat_lt _
  rw [hhit.generation, ← hgen, hslot, generation_clearSlot] at hrun
  refine hcount ⟨grantsInto j cleared post / 255, ?_, by omega⟩
  have hsome : grantsInto j cleared post ≠ 0 := by
    intro hzero
    have hfree := isOccupied_run_of_grantsInto_eq_zero (by simp [hslot]) hzero
    exact absurd hhit.occupied (by simp [hfree])
  omega

/-- A revoke through a handle's own bits takes that handle back. -/
theorem not_mem_live_of_revoke_own (pre : List TableOp) (T : CapTarget) (h : CapHandle) :
    h ∉ (trace (pre ++ [.revoke T (Cap.fromRaw h)])).live := by
  rw [trace_concat]
  intro hmem
  obtain ⟨hlive, hacc⟩ := List.mem_filter.mp hmem
  obtain ⟨k, hhit, -⟩ := accepts_iff.mp ((ok_trace pre).accepted h hlive)
  obtain ⟨k', hhit', -⟩ := accepts_iff.mp hacc
  obtain rfl : k' = k := hhit'.names.unique hhit.names
  have hclear : ((trace pre).table.revoke (Cap.fromRaw h : Cap T)).slots k' = _ :=
    slots_revoke_of_hits hhit
  exact absurd hhit'.occupied (by simp [hclear])

/-- Revocation is final up to generation wrap.

For every history from the empty table: a handle that a grant returned and a
revoke took back is refused by `get` and `inspect_raw` in every later state,
unless its slot was granted a positive multiple of 255 times since.  A revoke
through the handle's own bits is such a revoke.  The handles that are out at
one time are pairwise different.  No occupied slot has generation `0`, and the
null handle is always refused. -/
theorem revocation_final :
    (∀ (pre post : List TableOp) (T : CapTarget) (cap : Cap T) (h : CapHandle)
        (k : Fin MAX_CAPS_PER_TASK), h.slot.toNat = k.val →
        h ∈ (trace pre).live → h ∉ (trace (pre ++ [.revoke T cap])).live →
        (¬ ∃ n, 0 < n ∧
          grantsInto k (trace (pre ++ [.revoke T cap])).table post = 255 * n) →
        Rejected (trace (pre ++ .revoke T cap :: post)).table h) ∧
      (∀ (pre : List TableOp) (T : CapTarget) (h : CapHandle),
        h ∉ (trace (pre ++ [.revoke T (Cap.fromRaw h)])).live) ∧
      (∀ ops : List TableOp, (trace ops).live.Nodup) ∧
      (∀ (ops : List TableOp) (k : Fin MAX_CAPS_PER_TASK),
        ((trace ops).table.slots k).isOccupied = true →
          ((trace ops).table.slots k).generation ≠ 0) ∧
      ∀ ops : List TableOp, Rejected (trace ops).table CAP_NULL := by
  refine ⟨?_, not_mem_live_of_revoke_own, ?_, ?_, fun ops => rejected_null _⟩
  · intro pre post T cap h k hname hlive hgone hcount
    exact rejected_after_taken_back hname hlive hgone hcount
  · intro ops
    exact (ok_trace ops).slots.of_map _
  · intro ops
    rw [table_trace]
    exact generationsSet_run ops

/-- One grant, its revoke and one grant into the same slot: the first handle
stays refused. -/
theorem revocation_final_one_regrant :
    Rejected
      (trace ([.grant .channel .RW 7] ++ .revoke .channel ⟨CapHandle.pack .channel .RW 1 0⟩ ::
        [.grant .channel .RW 8])).table
      (CapHandle.pack .channel .RW 1 0) := by
  refine revocation_final.1 _ _ _ _ _ ⟨0, by decide⟩ (by decide) (by decide) (by decide) ?_
  have hone : grantsInto ⟨0, by decide⟩
      (trace ([.grant .channel .RW 7] ++
        [.revoke .channel ⟨CapHandle.pack .channel .RW 1 0⟩])).table
      [.grant .channel .RW 8] = 1 := by decide
  rintro ⟨n, hn, h⟩
  rw [hone] at h
  omega

end RobotOs.Ipc.CapRevocation
