import RobotOs.Lib.Framing

/-!
# Pipes

`pipe.rs` of the ipc crate.  Both ends of a pipe are the same entry of a fixed
pool of `m` entries, a build parameter.

The buffer of `PIPE_BUF_SIZE` bytes with its two positions is the list of the
bytes in it, at most one less than the size.  Buffers are lists of bytes, so the
null pointer of the source is not here; the counts of waiting tasks, which
nothing reads, are left out.
-/

namespace RobotOs.Ipc

open RobotOs.Lib.Framing (Bytes)

def PIPE_BUF_SIZE : Nat := 4096

inductive PipeState where
  | free
  | active
  | readClosed
  | writeClosed
  | closed
  deriving DecidableEq, Repr

structure Pipe where
  buffer : Bytes
  state : PipeState
  readers : Nat
  writers : Nat
  id : Nat
  owner : UInt32
  deriving DecidableEq, Repr

def Pipe.zeroed : Pipe := ⟨[], .free, 0, 0, 0, 0⟩

/-- `PipePool`. -/
structure Pipes (m : Nat) where
  pipes : Fin m → Pipe
  nextId : Nat

def Pipes.new (m : Nat) : Pipes m := ⟨fun _ => .zeroed, 1⟩

namespace Pipe

variable {m : Nat}

/-- One entry is written. -/
def setPipe (pool : Pipes m) (i : Fin m) (pipe : Pipe) : Pipes m :=
  { pool with pipes := Function.update pool.pipes i pipe }

/-- `access_ok`. -/
def accessOk (pipe : Pipe) (caller : UInt32) (privileged : Bool) : Bool :=
  privileged || pipe.owner == caller

/-- `pipe_create`, with the `alloc` of the pool. -/
def pipeCreate (pool : Pipes m) (caller : UInt32) : Option (Fin m × Fin m) × Pipes m :=
  match (List.finRange m).find? fun i => (pool.pipes i).state = .free with
  | none => (none, pool)
  | some i =>
    (some (i, i),
      { pipes := Function.update pool.pipes i ⟨[], .active, 1, 1, pool.nextId, caller⟩
        nextId := pool.nextId + 1 })

/-- What a read answers. -/
inductive ReadAnswer where
  | bytes (data : Bytes)
  | error
  | again
  deriving DecidableEq, Repr

/-- `pipe_read`. -/
def pipeRead (pool : Pipes m) (idx count : Nat) (caller : UInt32) (privileged : Bool) :
    ReadAnswer × Pipes m :=
  if h : idx < m then
    let pipe := pool.pipes ⟨idx, h⟩
    if pipe.state = .free ∨ !accessOk pipe caller privileged then (.error, pool)
    else if pipe.buffer = [] then
      if pipe.state = .writeClosed ∨ pipe.state = .closed then (.bytes [], pool) else (.again, pool)
    else
      (.bytes (pipe.buffer.take count),
        setPipe pool ⟨idx, h⟩ { pipe with buffer := pipe.buffer.drop count })
  else (.error, pool)

/-- `pipe_write`: the number of bytes written. -/
def pipeWrite (pool : Pipes m) (idx : Nat) (data : Bytes) (caller : UInt32) (privileged : Bool) :
    Option Nat × Pipes m :=
  if h : idx < m then
    let pipe := pool.pipes ⟨idx, h⟩
    if pipe.state = .free ∨ pipe.state = .readClosed ∨ pipe.state = .closed ∨
        !accessOk pipe caller privileged then (none, pool)
    else
      let space := PIPE_BUF_SIZE - 1 - pipe.buffer.length
      (some (min data.length space),
        setPipe pool ⟨idx, h⟩ { pipe with buffer := pipe.buffer ++ data.take space })
  else (none, pool)

/-- One reader less. -/
def dropReader (pipe : Pipe) : Pipe :=
  let readers := pipe.readers - 1
  if readers = 0 then
    { pipe with readers, state := if pipe.writers = 0 then .closed else .readClosed }
  else { pipe with readers }

/-- One writer less. -/
def dropWriter (pipe : Pipe) : Pipe :=
  let writers := pipe.writers - 1
  if writers = 0 then
    { pipe with writers, state := if pipe.readers = 0 then .closed else .writeClosed }
  else { pipe with writers }

/-- The body of the two close functions. -/
def pipeClose (drop : Pipe → Pipe) (pool : Pipes m) (idx : Nat) (caller : UInt32)
    (privileged : Bool) : Bool × Pipes m :=
  if h : idx < m then
    let pipe := pool.pipes ⟨idx, h⟩
    if pipe.state = .free ∨ !accessOk pipe caller privileged then (false, pool)
    else (true, setPipe pool ⟨idx, h⟩ (drop pipe))
  else (false, pool)

/-- `pipe_close_read`. -/
def pipeCloseRead (pool : Pipes m) : Nat → UInt32 → Bool → Bool × Pipes m :=
  pipeClose dropReader pool

/-- `pipe_close_write`. -/
def pipeCloseWrite (pool : Pipes m) : Nat → UInt32 → Bool → Bool × Pipes m :=
  pipeClose dropWriter pool

theorem pipeCreate_cases (pool : Pipes m) (caller : UInt32) :
    pipeCreate pool caller = (none, pool) ∨ ∃ i, (pool.pipes i).state = .free ∧
      pipeCreate pool caller = (some (i, i),
        { pipes := Function.update pool.pipes i ⟨[], .active, 1, 1, pool.nextId, caller⟩
          nextId := pool.nextId + 1 }) := by
  unfold pipeCreate
  cases hfind : (List.finRange m).find? fun i => decide ((pool.pipes i).state = .free) with
  | none => exact .inl rfl
  | some i =>
    have hfree := List.find?_some hfind
    exact .inr ⟨i, by simpa using hfree, rfl⟩

theorem pipeRead_cases (pool : Pipes m) (idx count : Nat) (caller : UInt32) (privileged : Bool) :
    (∃ answer, pipeRead pool idx count caller privileged = (answer, pool) ∧
      (answer = .error ∨ answer = .again ∨ answer = .bytes [])) ∨
    ∃ h : idx < m, (pool.pipes ⟨idx, h⟩).state ≠ .free ∧
      pipeRead pool idx count caller privileged =
        (.bytes ((pool.pipes ⟨idx, h⟩).buffer.take count),
          setPipe pool ⟨idx, h⟩
            { pool.pipes ⟨idx, h⟩ with buffer := (pool.pipes ⟨idx, h⟩).buffer.drop count }) := by
  unfold pipeRead
  split_ifs with h
  · dsimp only
    split_ifs with hrefused
    · exact .inl ⟨.error, rfl, .inl rfl⟩
    · exact .inl ⟨.bytes [], rfl, .inr (.inr rfl)⟩
    · exact .inl ⟨.again, rfl, .inr (.inl rfl)⟩
    · exact .inr ⟨h, fun hfree => hrefused (.inl hfree), rfl⟩
  · exact .inl ⟨.error, rfl, .inl rfl⟩

theorem pipeWrite_cases (pool : Pipes m) (idx : Nat) (data : Bytes) (caller : UInt32)
    (privileged : Bool) :
    pipeWrite pool idx data caller privileged = (none, pool) ∨
    ∃ h : idx < m, (pool.pipes ⟨idx, h⟩).state ≠ .free ∧
      let space := PIPE_BUF_SIZE - 1 - (pool.pipes ⟨idx, h⟩).buffer.length
      pipeWrite pool idx data caller privileged =
        (some (min data.length space),
          setPipe pool ⟨idx, h⟩
            { pool.pipes ⟨idx, h⟩ with
              buffer := (pool.pipes ⟨idx, h⟩).buffer ++ data.take space }) := by
  unfold pipeWrite
  split_ifs with h
  · dsimp only
    split_ifs with hrefused
    · exact .inl rfl
    · exact .inr ⟨h, fun hfree => hrefused (.inl hfree), rfl⟩
  · exact .inl rfl

theorem pipeClose_cases (drop : Pipe → Pipe) (pool : Pipes m) (idx : Nat) (caller : UInt32)
    (privileged : Bool) :
    pipeClose drop pool idx caller privileged = (false, pool) ∨
    ∃ h : idx < m, (pool.pipes ⟨idx, h⟩).state ≠ .free ∧
      pipeClose drop pool idx caller privileged =
        (true, setPipe pool ⟨idx, h⟩ (drop (pool.pipes ⟨idx, h⟩))) := by
  unfold pipeClose
  split_ifs with h
  · dsimp only
    split_ifs with hrefused
    · exact .inl rfl
    · exact .inr ⟨h, fun hfree => hrefused (.inl hfree), rfl⟩
  · exact .inl rfl

/-! ## Operations -/

/-- An operation on the pool. -/
inductive Op where
  | create (caller : UInt32)
  | read (idx count : Nat) (caller : UInt32) (privileged : Bool)
  | write (idx : Nat) (data : Bytes) (caller : UInt32) (privileged : Bool)
  | closeRead (idx : Nat) (caller : UInt32) (privileged : Bool)
  | closeWrite (idx : Nat) (caller : UInt32) (privileged : Bool)
  deriving DecidableEq, Repr

def step (pool : Pipes m) : Op → Pipes m
  | .create caller => (pipeCreate pool caller).2
  | .read idx count caller privileged => (pipeRead pool idx count caller privileged).2
  | .write idx data caller privileged => (pipeWrite pool idx data caller privileged).2
  | .closeRead idx caller privileged => (pipeCloseRead pool idx caller privileged).2
  | .closeWrite idx caller privileged => (pipeCloseWrite pool idx caller privileged).2

end Pipe

end RobotOs.Ipc
