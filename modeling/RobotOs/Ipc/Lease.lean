import Mathlib.Data.List.FinRange

/-!
# Leases

`lease.rs` of the ipc crate.  A lease hands a shared buffer from a lessor to a
lessee for a time.  The table has `m` entries, a build parameter.

`deadlines` is the counter `DEADLINE_LEASES`: how many entries the timer has to
look at.  It is counted anew by every operation that writes an entry, and
`lease_tick` takes off what it expired.  The wakes that end the operations are
left out, except for those of an exit (`LeaseRun`); `lease_wait_return` is a loop
of such wakes around `lease_is_returned`.
-/

namespace RobotOs.Ipc

/-- `NO_TID`. -/
def NO_TID : UInt32 := 0xffffffff

inductive LeaseState where
  | free
  | pending
  | active
  | returned
  | expired
  deriving DecidableEq, Repr

structure LeaseEntry where
  shmId : Nat
  lessorTid : UInt32
  lesseeTid : UInt32
  expireTicks : Nat
  state : LeaseState
  deriving DecidableEq, Repr

def LeaseEntry.empty : LeaseEntry := ⟨0, NO_TID, NO_TID, 0, .free⟩

/-- `LEASES` and `DEADLINE_LEASES`. -/
structure Leases (m : Nat) where
  entries : Fin m → LeaseEntry
  deadlines : Nat

def Leases.new (m : Nat) : Leases m := ⟨fun _ => .empty, 0⟩

namespace Lease

variable {m : Nat}

/-- `has_deadline`. -/
def hasDeadline (e : LeaseEntry) : Bool :=
  (e.state = .pending || e.state = .active) && e.expireTicks != 0

/-- `refresh_deadline_count`. -/
def refresh (entries : Fin m → LeaseEntry) : Leases m :=
  ⟨entries, (List.finRange m).countP fun i => hasDeadline (entries i)⟩

/-- `lease_grant`. -/
def leaseGrant (table : Leases m) (shmId : Nat) (lessor lessee : UInt32) (expire : Nat) :
    Option (Fin m) × Leases m :=
  match (List.finRange m).find? fun i => (table.entries i).state = .free with
  | none => (none, refresh table.entries)
  | some i =>
    (some i, refresh (Function.update table.entries i ⟨shmId, lessor, lessee, expire, .pending⟩))

/-- `lease_accept`. -/
def leaseAccept (table : Leases m) (lessee : UInt32) : Option (Fin m × Nat) × Leases m :=
  match (List.finRange m).find? fun i =>
    (table.entries i).state = .pending ∧ (table.entries i).lesseeTid = lessee with
  | none => (none, table)
  | some i =>
    (some (i, (table.entries i).shmId),
      refresh (Function.update table.entries i { table.entries i with state := .active }))

/-- `lease_return`: the lessor to wake. -/
def leaseReturn (table : Leases m) (leaseId : Nat) (caller : UInt32) (privileged : Bool) :
    Option UInt32 × Leases m :=
  if h : leaseId < m then
    let e := table.entries ⟨leaseId, h⟩
    if e.state ≠ .active ∨ (!privileged ∧ e.lesseeTid ≠ caller) then (none, table)
    else
      (some e.lessorTid,
        refresh (Function.update table.entries ⟨leaseId, h⟩ { e with state := .returned }))
  else (none, table)

/-- `lease_is_returned`. -/
def leaseIsReturned (table : Leases m) (leaseId : Nat) : Bool :=
  if h : leaseId < m then
    (table.entries ⟨leaseId, h⟩).state = .returned || (table.entries ⟨leaseId, h⟩).state = .expired
  else false

/-- `lease_free`. -/
def leaseFree (table : Leases m) (leaseId : Nat) (caller : UInt32) (privileged : Bool) :
    Bool × Leases m :=
  if h : leaseId < m then
    let e := table.entries ⟨leaseId, h⟩
    if e.state = .free ∨ (!privileged ∧ e.lessorTid ≠ caller) then (false, table)
    else (true, refresh (Function.update table.entries ⟨leaseId, h⟩ .empty))
  else (false, table)

/-- `lease_tick` at this entry. -/
def expireEntry (now : Nat) (e : LeaseEntry) : LeaseEntry :=
  if hasDeadline e ∧ now ≥ e.expireTicks then { e with state := .expired } else e

/-- `lease_tick`: the lessors to wake. -/
def leaseTick (table : Leases m) (now : Nat) : List UInt32 × Leases m :=
  if table.deadlines = 0 then ([], table)
  else
    let due := (List.finRange m).filter fun i =>
      hasDeadline (table.entries i) ∧ now ≥ (table.entries i).expireTicks
    (due.map fun i => (table.entries i).lessorTid,
      ⟨fun i => expireEntry now (table.entries i), table.deadlines - due.length⟩)

/-- `lease_release_all` at one entry: the leases of a lessor that exits are
freed, and those of a lessee expire. -/
def releaseEntry (tid : UInt32) (e : LeaseEntry) : LeaseEntry :=
  if e.state = .free then e
  else if e.lessorTid = tid then .empty
  else if e.lesseeTid = tid ∧ (e.state = .pending ∨ e.state = .active) then
    { e with state := .expired }
  else e

/-- `lease_release_all`. -/
def leaseReleaseAll (table : Leases m) (tid : UInt32) : Leases m :=
  refresh fun i => releaseEntry tid (table.entries i)

/-! ## Operations -/

/-- An operation on the table. -/
inductive Op where
  | grant (shmId : Nat) (lessor lessee : UInt32) (expire : Nat)
  | accept (lessee : UInt32)
  | giveBack (leaseId : Nat) (caller : UInt32) (privileged : Bool)
  | free (leaseId : Nat) (caller : UInt32) (privileged : Bool)
  | tick (now : Nat)
  deriving DecidableEq, Repr

def step (table : Leases m) : Op → Leases m
  | .grant shmId lessor lessee expire => (leaseGrant table shmId lessor lessee expire).2
  | .accept lessee => (leaseAccept table lessee).2
  | .giveBack leaseId caller privileged => (leaseReturn table leaseId caller privileged).2
  | .free leaseId caller privileged => (leaseFree table leaseId caller privileged).2
  | .tick now => (leaseTick table now).2

end Lease

end RobotOs.Ipc
