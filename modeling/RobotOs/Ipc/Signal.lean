import Mathlib.Data.List.Nodup
import Mathlib.Data.List.Perm.Basic

/-!
# Signals

`signal.rs` of the ipc crate.  The state of each task that has ever used a
signal is an entry of one table of `MAX_TASKS` entries.

The table is filled from the front, so it is the list of its entries.  `release`
moves the last entry into the hole.  `TidsNodup` is what its scan rests on: no
task has two entries.
-/

namespace RobotOs.Ipc.Signal

def SIGKILL : UInt32 := 9

def SIGSTOP : UInt32 := 19

def NSIG : Nat := 32

def MAX_TASKS : Nat := 64

/-- `SIG_DFL`. -/
def SIG_DFL : UInt64 := 0

def signalValid (signum : UInt32) : Bool := 1 ≤ signum.toNat && signum.toNat < NSIG

def signalCatchable (signum : UInt32) : Bool := signum ≠ SIGKILL && signum ≠ SIGSTOP

structure SigState where
  pending : UInt32
  mask : UInt32
  handlers : Nat → UInt64

def SigState.new : SigState := ⟨0, 0, fun _ => SIG_DFL⟩

structure SigEntry where
  tid : UInt32
  state : SigState

/-- `SigTable`: the entries below `count`. -/
abbrev SigTable := List SigEntry

/-- `find`. -/
def find (table : SigTable) (tid : UInt32) : Option Nat :=
  table.findIdx? fun entry => entry.tid == tid

/-- `get_or_create`: the place of the task, with the table. -/
def getOrCreate (table : SigTable) (tid : UInt32) : Option (Nat × SigTable) :=
  match find table tid with
  | some i => some (i, table)
  | none =>
    if table.length < MAX_TASKS then some (table.length, table ++ [⟨tid, .new⟩]) else none

/-- `release`: the last entry moves into the hole. -/
def release (table : SigTable) (tid : UInt32) : SigTable :=
  match find table tid, table.getLast? with
  | some i, some last => (table.set i last).dropLast
  | _, _ => table

/-- Change the state of the entry at a place. -/
def modifyState (table : SigTable) (i : Nat) (f : SigState → SigState) : SigTable :=
  table.modify i fun entry => { entry with state := f entry.state }

/-- `signal_send`.  A user task signals itself only. -/
def signalSend (table : SigTable) (tid signum caller : UInt32) (privileged : Bool) :
    Bool × SigTable :=
  if !signalValid signum ∨ (!privileged ∧ tid ≠ caller) then (false, table)
  else
    match getOrCreate table tid with
    | none => (false, table)
    | some (i, table) =>
      (true, modifyState table i fun s => { s with pending := s.pending ||| 1 <<< signum })

/-- `signal_set_handler`: the previous handler. -/
def signalSetHandler (table : SigTable) (signum : UInt32) (handler : UInt64) (caller : UInt32) :
    UInt64 × SigTable :=
  if !signalValid signum then (SIG_DFL, table)
  else
    match getOrCreate table caller with
    | none => (SIG_DFL, table)
    | some (i, table) =>
      (((table[i]?).map fun entry => entry.state.handlers signum.toNat).getD SIG_DFL,
        if signalCatchable signum then
          modifyState table i fun s =>
            { s with handlers := fun k => if k = signum.toNat then handler else s.handlers k }
        else table)

/-- `signal_set_mask`. -/
def signalSetMask (table : SigTable) (mask caller : UInt32) : Bool × SigTable :=
  match getOrCreate table caller with
  | none => (false, table)
  | some (i, table) =>
    (true, modifyState table i fun s =>
      { s with mask := mask &&& ~~~(1 <<< SIGKILL ||| 1 <<< SIGSTOP) })

/-! ## The tasks in the table -/

/-- The tasks that have an entry. -/
def tids (table : SigTable) : List UInt32 := table.map SigEntry.tid

/-- No task has two entries. -/
def TidsNodup (table : SigTable) : Prop := (tids table).Nodup

@[simp] theorem tids_modifyState (table : SigTable) (i : Nat) (f : SigState → SigState) :
    tids (modifyState table i f) = tids table := by
  unfold tids modifyState
  induction table generalizing i with
  | nil => cases i <;> rfl
  | cons entry table ih =>
    cases i with
    | zero => rfl
    | succ i => simpa using ih i

theorem find_eq_none {table : SigTable} {tid : UInt32} (h : find table tid = none) :
    tid ∉ tids table := by
  simp only [find, List.findIdx?_eq_none_iff, beq_eq_false_iff_ne] at h
  intro hmem
  obtain ⟨entry, hentry, rfl⟩ := List.mem_map.mp hmem
  exact h entry hentry rfl

/-- The table has an entry more for the task, or the same tasks. -/
def Grows (table table' : SigTable) (tid : UInt32) : Prop :=
  tids table' = tids table ∨ (tid ∉ tids table ∧ tids table' = tids table ++ [tid])

theorem grows_getOrCreate {table table' : SigTable} {tid : UInt32} {i : Nat}
    (h : getOrCreate table tid = some (i, table')) : Grows table table' tid := by
  unfold getOrCreate at h
  split at h
  · obtain ⟨-, rfl⟩ := Prod.mk.inj (Option.some.inj h)
    exact .inl rfl
  next hnone =>
    split_ifs at h
    obtain ⟨-, rfl⟩ := Prod.mk.inj (Option.some.inj h)
    exact .inr ⟨find_eq_none hnone, by simp [tids]⟩

/-- Moving the last entry into a hole loses the entry that was there and no
other. -/
theorem perm_set_dropLast {α : Type} (l : List α) (last : α) {i : Nat} (hi : i < l.length)
    (hlast : l.getLast? = some last) : ((l.set i last).dropLast).Perm (l.eraseIdx i) := by
  obtain ⟨front, rfl⟩ : ∃ front, l = front ++ [last] := List.getLast?_eq_some_iff.mp hlast
  rw [List.length_append, List.length_singleton] at hi
  rcases Nat.lt_or_ge i front.length with hfront | hback
  · rw [List.set_append_left _ _ hfront, List.dropLast_concat,
      List.eraseIdx_append_of_lt_length hfront]
    exact (List.set_perm_cons_eraseIdx hfront last).trans (List.perm_append_singleton last _).symm
  · obtain rfl : i = front.length := by omega
    rw [List.set_append_right _ _ (Nat.le_refl _),
      List.eraseIdx_append_of_length_le (Nat.le_refl _)]
    simp

/-- `release` leaves the other tasks, and not this one. -/
theorem tids_release {table : SigTable} (h : TidsNodup table) (tid : UInt32) :
    tid ∉ tids (release table tid) ∧ TidsNodup (release table tid) ∧
      ∀ t ∈ tids (release table tid), t ∈ tids table := by
  unfold release
  cases hfind : find table tid with
  | none => exact ⟨find_eq_none hfind, h, fun _ ht => ht⟩
  | some i =>
    obtain ⟨hi, hentry, -⟩ := List.findIdx?_eq_some_iff_getElem.mp hfind
    have hlen : i < (tids table).length := by simpa [tids] using hi
    have htid : (tids table)[i] = tid := by simpa [tids] using hentry
    have hne : table ≠ [] := List.ne_nil_of_length_pos (Nat.lt_of_le_of_lt (Nat.zero_le i) hi)
    rw [List.getLast?_eq_some_getLast hne]
    have hlast : (tids table).getLast? = some (table.getLast hne).tid := by
      rw [tids, List.getLast?_map, List.getLast?_eq_some_getLast hne]
      rfl
    have hperm : (tids ((table.set i (table.getLast hne)).dropLast)).Perm
        ((tids table).eraseIdx i) := by
      have hmap := perm_set_dropLast (tids table) _ hlen hlast
      rwa [tids, List.map_dropLast, List.map_set]
    -- The entries are those of the table without the one that was found.
    have hnodup : ((tids table)[i] :: (tids table).eraseIdx i).Nodup :=
      (List.getElem_cons_eraseIdx_perm hlen).nodup_iff.mpr h
    rw [htid, List.nodup_cons] at hnodup
    refine ⟨?_, hperm.nodup_iff.mpr hnodup.2, ?_⟩
    · rw [hperm.mem_iff]
      exact hnodup.1
    · intro t ht
      exact List.mem_of_mem_eraseIdx (hperm.mem_iff.mp ht)

/-- An operation on the table. -/
inductive Op where
  | send (tid signum caller : UInt32) (privileged : Bool)
  | setHandler (signum : UInt32) (handler : UInt64) (caller : UInt32)
  | setMask (mask caller : UInt32)
  deriving DecidableEq, Repr

def step (table : SigTable) : Op → SigTable
  | .send tid signum caller privileged => (signalSend table tid signum caller privileged).2
  | .setHandler signum handler caller => (signalSetHandler table signum handler caller).2
  | .setMask mask caller => (signalSetMask table mask caller).2

/-- The task that an operation allocates for. -/
def Op.guest : Op → Option UInt32
  | .send tid _ _ _ => some tid
  | .setHandler _ _ caller => some caller
  | .setMask _ caller => some caller

/-- An operation adds at most an entry for its guest, who had none. -/
theorem grows_step (table : SigTable) (op : Op) :
    ∃ tid, op.guest = some tid ∧ Grows table (step table op) tid := by
  cases op with
  | send tid signum caller privileged =>
    refine ⟨tid, rfl, ?_⟩
    simp only [step, signalSend]
    split_ifs
    · exact .inl rfl
    · cases hget : getOrCreate table tid with
      | none => exact .inl rfl
      | some out => simpa [Grows] using grows_getOrCreate hget
  | setHandler signum handler caller =>
    refine ⟨caller, rfl, ?_⟩
    simp only [step, signalSetHandler]
    split_ifs
    · exact .inl rfl
    all_goals
      cases hget : getOrCreate table caller with
      | none => exact .inl rfl
      | some out => simpa [Grows] using grows_getOrCreate hget
  | setMask mask caller =>
    refine ⟨caller, rfl, ?_⟩
    simp only [step, signalSetMask]
    cases hget : getOrCreate table caller with
    | none => exact .inl rfl
    | some out => simpa [Grows] using grows_getOrCreate hget

theorem tidsNodup_step {table : SigTable} (h : TidsNodup table) (op : Op) :
    TidsNodup (step table op) := by
  unfold TidsNodup
  obtain ⟨tid, -, hsame | ⟨hnew, hadd⟩⟩ := grows_step table op
  · rw [hsame]
    exact h
  · rw [hadd]
    exact List.nodup_append.mpr ⟨h, List.nodup_singleton tid, by
      intro a ha b hb hab
      rw [List.mem_singleton] at hb
      exact hnew (hb ▸ hab ▸ ha)⟩

end RobotOs.Ipc.Signal
