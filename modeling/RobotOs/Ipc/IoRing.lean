import Mathlib.Tactic

/-!
# Rings

The ring table of `io_ring.rs` of the ipc crate.  Each active ring pins one page
that it shares with its owner.  A submit pass claims the ring and works on the
page without the lock; a ring whose owner exits in between is orphaned, and the
end of the pass gives its page back.

The page allocator is outside: `ioRingCreate` takes what `alloc_page` returned,
and the operations return the pages that they free.  The queues in the page and
the drivers behind them are left out.
-/

namespace RobotOs.Ipc

def MAX_IO_RINGS : Nat := 16

/-- `usize::MAX`. -/
def USIZE_MAX : Nat := 2 ^ 64 - 1

/-- `IoRingState`.  The owner is a task id in a `usize`. -/
structure IoRingState where
  physAddr : Nat
  ownerTask : Nat
  ringId : UInt32
  active : Bool
  ownerPrivileged : Bool
  inFlight : Bool
  orphaned : Bool
  deriving DecidableEq, Repr

def IoRingState.empty : IoRingState := ⟨0, USIZE_MAX, 0, false, false, false, false⟩

/-- `IO_RINGS`. -/
abbrev Rings := Fin MAX_IO_RINGS → IoRingState

namespace IoRing

/-- The entry of a ring id. -/
def entry (ringId : UInt32) : Option (Fin MAX_IO_RINGS) :=
  if h : ringId.toNat < MAX_IO_RINGS then some ⟨ringId.toNat, h⟩ else none

/-- `io_ring_create`: the ring and its page, or the page that goes back. -/
def ioRingCreate (rings : Rings) (ownerTask : Nat) (privileged : Bool) (page : Option Nat) :
    Option (UInt32 × Nat) × List Nat × Rings :=
  match page with
  | none => (none, [], rings)
  | some phys =>
    match (List.finRange MAX_IO_RINGS).find? fun i => !(rings i).active with
    | none => (none, [phys], rings)
    | some i =>
      (some (UInt32.ofNat i, phys), [], Function.update rings i
        ⟨phys, ownerTask, UInt32.ofNat i, true, privileged, false, false⟩)

/-- `io_ring_owner`. -/
def ioRingOwner (rings : Rings) (ringId : UInt32) : Option Nat :=
  match entry ringId with
  | none => none
  | some i => if (rings i).active then some (rings i).ownerTask else none

/-- `io_ring_destroy`. -/
def ioRingDestroy (rings : Rings) (ringId : UInt32) : Bool × List Nat × Rings :=
  match entry ringId with
  | none => (false, [], rings)
  | some i =>
    if !(rings i).active || (rings i).inFlight then (false, [], rings)
    else (true, [(rings i).physAddr], Function.update rings i .empty)

/-- `claim_ring`: the page, the owner and its privilege. -/
def claimRing (rings : Rings) (ringId : UInt32) : Option (Nat × UInt32 × Bool) × Rings :=
  match entry ringId with
  | none => (none, rings)
  | some i =>
    if !(rings i).active || (rings i).inFlight then (none, rings)
    else
      (some ((rings i).physAddr, UInt32.ofNat (min (rings i).ownerTask 0xffffffff),
          (rings i).ownerPrivileged),
        Function.update rings i { rings i with inFlight := true })

/-- `release_ring`. -/
def releaseRing (rings : Rings) (ringId : UInt32) : List Nat × Rings :=
  match entry ringId with
  | none => ([], rings)
  | some i =>
    if (rings i).orphaned then ([(rings i).physAddr], Function.update rings i .empty)
    else ([], Function.update rings i { rings i with inFlight := false })

/-- `io_ring_release_all` reaches this ring. -/
def Leaves (tid : UInt32) (ring : IoRingState) : Prop :=
  ring.active = true ∧ ring.ownerTask = tid.toNat

instance (tid : UInt32) (ring : IoRingState) : Decidable (Leaves tid ring) :=
  inferInstanceAs (Decidable (_ ∧ _))

/-- `io_ring_release_all` at one ring: the page of a pass in flight stays. -/
def releaseEntry (tid : UInt32) (ring : IoRingState) : IoRingState :=
  if Leaves tid ring then
    if ring.inFlight then { ring with active := false, orphaned := true } else .empty
  else ring

/-- `io_ring_release_all`. -/
def ioRingReleaseAll (rings : Rings) (tid : UInt32) : List Nat × Rings :=
  (((List.finRange MAX_IO_RINGS).filter fun i => Leaves tid (rings i) ∧ !(rings i).inFlight).map
      fun i => (rings i).physAddr,
    fun i => releaseEntry tid (rings i))

end IoRing

end RobotOs.Ipc
