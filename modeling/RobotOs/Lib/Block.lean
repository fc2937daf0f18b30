import Mathlib.Data.List.FinRange

/-!
# Programs on a block device behind a cache

A disk is an array of blocks, and the device may refuse to read or to write any of them.  A
program is a tree of accesses: it reads a block, or writes one, and goes on with the answer.  It
ends with a result or an error, and what it has written stays in both cases.  Nothing here
mentions a format.

`run` is the execution behind a cache that writes through and replaces the line with the oldest
stamp.  The lines may be stale: nothing is assumed of what they hold.
-/

namespace RobotOs.Lib.Block

variable {β ε ε' α γ : Type}

/-- An array of blocks, and those that the device reads and writes without an error. -/
structure Disk (β : Type) where
  blocks : Nat → β
  readable : Nat → Bool
  writable : Nat → Bool

namespace Disk

variable (d : Disk β) {s t : Nat} (b : β)

def read (s : Nat) : Option β := if d.readable s then some (d.blocks s) else none

def write (s : Nat) (b : β) : Disk β :=
  if d.writable s then { d with blocks := Function.update d.blocks s b } else d

@[simp] theorem writable_write : (d.write s b).writable = d.writable := by
  unfold write
  split_ifs <;> rfl

theorem blocks_write : (d.write s b).blocks t =
    if t = s ∧ d.writable s = true then b else d.blocks t := by
  unfold write
  split_ifs with h h' h'
  · simp [h'.1]
  · exact Function.update_of_ne (fun heq => h' ⟨heq, h⟩) _ _
  · exact absurd h'.2 h
  · rfl

theorem blocks_write_of_ne (h : t ≠ s) : (d.write s b).blocks t = d.blocks t := by
  rw [blocks_write, if_neg (fun hs => h hs.1)]

end Disk

/-! ## The cache -/

/-- A line of a cache, and the stamp of its last use. -/
structure Line (β : Type) where
  sector : Nat
  valid : Bool
  data : β
  lastUse : Nat

/-- A disk behind a cache of `n` lines. -/
structure Cached (β : Type) (n : Nat) where
  disk : Disk β
  lines : Fin n → Line β
  counter : Nat

namespace Cached

variable {n : Nat} (c : Cached β n) (s : Nat)

/-- The first line that holds a block. -/
def lookup : Option (Fin n) :=
  (List.finRange n).find? fun i => (c.lines i).valid && (c.lines i).sector == s

/-- The next stamp.  The counter has 64 bits and stays at its end. -/
def stamp : Nat := min (c.counter + 1) 18446744073709551615

/-- The line to replace: the first one that is empty, or else the first with the oldest stamp. -/
def evict : Option (Fin n) :=
  match (List.finRange n).find? fun i => !(c.lines i).valid with
  | some i => some i
  | none => (List.finRange n).foldl (fun best i => match best with
    | none => some i
    | some j => if (c.lines i).lastUse < (c.lines j).lastUse then some i else some j) none

def setLine (i : Fin n) (l : Line β) : Cached β n :=
  { c with lines := Function.update c.lines i l }

/-- A read: from a line, or from the disk with the block put into a line. -/
def read : Option β × Cached β n :=
  match c.lookup s with
  | some i =>
    (some (c.lines i).data,
      { c.setLine i { c.lines i with lastUse := c.stamp } with counter := c.stamp })
  | none => match c.disk.read s with
    | none => (none, c)
    | some b => match c.evict with
      | none => (some b, { c with counter := c.stamp })
      | some i => (some b, { c.setLine i ⟨s, true, b, c.stamp⟩ with counter := c.stamp })

/-- A write: to the disk, and to the line that holds the block. -/
def write (b : β) : Bool × Cached β n :=
  if c.disk.writable s then
    match c.lookup s with
    | none => (true, { c with disk := c.disk.write s b })
    | some i => (true, { c.setLine i { c.lines i with data := b } with disk := c.disk.write s b })
  else (false, c)

@[simp] theorem disk_read : (c.read s).2.disk = c.disk := by
  unfold read
  split
  · rfl
  split
  · rfl
  split
  · rfl
  · rfl

theorem write_fst (b : β) : (c.write s b).1 = c.disk.writable s := by
  unfold write
  split_ifs with hok
  · split <;> exact hok.symm
  · exact (Bool.eq_false_iff.mpr hok).symm

@[simp] theorem disk_write (b : β) : (c.write s b).2.disk = c.disk.write s b := by
  unfold write
  split_ifs with hok
  · split <;> rfl
  · rw [Disk.write, if_neg hok]

end Cached

/-! ## Programs -/

/-- A program that accesses blocks. -/
inductive Program (β ε α : Type) where
  | ret (a : α)
  | fail (e : ε)
  | read (s : Nat) (k : Option β → Program β ε α)
  | write (s : Nat) (b : β) (k : Bool → Program β ε α)

namespace Program

variable {n : Nat}

def bind : Program β ε α → (α → Program β ε γ) → Program β ε γ
  | .ret a, f => f a
  | .fail e, _ => .fail e
  | .read s k, f => .read s fun b => (k b).bind f
  | .write s b k, f => .write s b fun done => (k done).bind f

instance : Monad (Program β ε) where
  pure := .ret
  bind := bind

/-- The program with its error as a result. -/
def attempt : Program β ε α → Program β ε' (Except ε α)
  | .ret a => .ret (.ok a)
  | .fail e => .ret (.error e)
  | .read s k => .read s fun b => (k b).attempt
  | .write s b k => .write s b fun done => (k done).attempt

/-- The end of the run, and the disk with its cache after it. -/
def run : Program β ε α → Cached β n → Except ε α × Cached β n
  | .ret a, c => (.ok a, c)
  | .fail e, c => (.error e, c)
  | .read s k, c => (k (c.read s).1).run (c.read s).2
  | .write s b k, c => (k (c.write s b).1).run (c.write s b).2

theorem run_bind (p : Program β ε α) (f : α → Program β ε γ) (c : Cached β n) :
    (p >>= f).run c = match p.run c with
      | (.ok a, c') => (f a).run c'
      | (.error e, c') => (.error e, c') := by
  show (p.bind f).run c = _
  induction p generalizing c with
  | ret a => rfl
  | fail e => rfl
  | read s k ih => exact ih _ _
  | write s b k ih => exact ih _ _

theorem run_bind_ok {p : Program β ε α} {c c' : Cached β n} {a : α} (h : p.run c = (.ok a, c'))
    (f : α → Program β ε γ) : (p >>= f).run c = (f a).run c' := by
  rw [run_bind, h]

theorem run_bind_error {p : Program β ε α} {c c' : Cached β n} {e : ε}
    (h : p.run c = (.error e, c')) (f : α → Program β ε γ) :
    (p >>= f).run c = (.error e, c') := by
  rw [run_bind, h]

theorem run_attempt (p : Program β ε α) (c : Cached β n) :
    (p.attempt : Program β ε' _).run c = (.ok (p.run c).1, (p.run c).2) := by
  induction p generalizing c with
  | ret a => rfl
  | fail e => rfl
  | read s k ih => exact ih _ _
  | write s b k ih => exact ih _ _

end Program

end RobotOs.Lib.Block
