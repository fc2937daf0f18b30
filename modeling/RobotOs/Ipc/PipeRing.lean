import RobotOs.Lib.Ring
import RobotOs.Lib.Run
import RobotOs.Ipc.Pipe

/-!
# The buffer of a pipe

The ring of `pipe.rs` as it is: `PIPE_BUF_SIZE` bytes and two positions, of which one
place always stays free.  `Pipe` has the list of the bytes instead, and is the abstract
layer here.

There are three groups.

* The calls on rings, with the two loops that copy.
* `Holds` relates a ring to its list.  The loops are `take`, `drop` and `++` on the list,
  and every call on a pool of rings has the answer and the effect of the call on the pool
  of lists.
* The history of a pool has the bytes that the writes accepted and the bytes that the
  reads returned.  `pipe_stream` is about every history.
-/

namespace RobotOs.Ipc

open RobotOs.Lib.Framing (Bytes)
open RobotOs.Lib.Ring RobotOs.Lib.Run
open Pipe (ReadAnswer Op)

/-- `Pipe` with its buffer. -/
structure RingPipe where
  buffer : Nat → UInt8
  readPos : Nat
  writePos : Nat
  state : PipeState
  readers : Nat
  writers : Nat
  id : Nat
  owner : UInt32

namespace RingPipe

def zeroed : RingPipe := ⟨fun _ => 0, 0, 0, .free, 0, 0, 0, 0⟩

def isEmpty (pipe : RingPipe) : Bool := pipe.readPos = pipe.writePos

def available (pipe : RingPipe) : Nat :=
  if pipe.writePos ≥ pipe.readPos then pipe.writePos - pipe.readPos
  else PIPE_BUF_SIZE - pipe.readPos + pipe.writePos

def space (pipe : RingPipe) : Nat := PIPE_BUF_SIZE - 1 - pipe.available

/-- The bytes between the two positions. -/
def buffered (pipe : RingPipe) : Bytes :=
  (List.range pipe.available).map fun k => pipe.buffer (ringIx PIPE_BUF_SIZE pipe.readPos k)

/-- The loop of `pipe_read`. -/
def readLoop : Nat → RingPipe → Bytes × RingPipe
  | 0, pipe => ([], pipe)
  | n + 1, pipe =>
    let byte := pipe.buffer (pipe.readPos % PIPE_BUF_SIZE)
    let out := readLoop n { pipe with readPos := (pipe.readPos + 1) % PIPE_BUF_SIZE }
    (byte :: out.1, out.2)

/-- The loop of `pipe_write`. -/
def writeLoop : Bytes → RingPipe → RingPipe
  | [], pipe => pipe
  | byte :: bytes, pipe =>
    writeLoop bytes
      { pipe with
        buffer := Function.update pipe.buffer (pipe.writePos % PIPE_BUF_SIZE) byte
        writePos := (pipe.writePos + 1) % PIPE_BUF_SIZE }

/-- `access_ok`. -/
def accessOk (pipe : RingPipe) (caller : UInt32) (privileged : Bool) : Bool :=
  privileged || pipe.owner == caller

/-- One reader less. -/
def dropReader (pipe : RingPipe) : RingPipe :=
  let readers := pipe.readers - 1
  if readers = 0 then
    { pipe with readers, state := if pipe.writers = 0 then .closed else .readClosed }
  else { pipe with readers }

/-- One writer less. -/
def dropWriter (pipe : RingPipe) : RingPipe :=
  let writers := pipe.writers - 1
  if writers = 0 then
    { pipe with writers, state := if pipe.readers = 0 then .closed else .writeClosed }
  else { pipe with writers }

end RingPipe

/-- `PipePool`. -/
structure RingPipes (m : Nat) where
  pipes : Fin m → RingPipe
  nextId : Nat

namespace PipeRing

variable {m : Nat}

def new (m : Nat) : RingPipes m := ⟨fun _ => .zeroed, 1⟩

/-- One entry is written. -/
def setPipe (pool : RingPipes m) (i : Fin m) (pipe : RingPipe) : RingPipes m :=
  { pool with pipes := Function.update pool.pipes i pipe }

/-- `pipe_create`, with the `alloc` of the pool. -/
def pipeCreate (pool : RingPipes m) (caller : UInt32) : Option (Fin m × Fin m) × RingPipes m :=
  match (List.finRange m).find? fun i => (pool.pipes i).state = .free with
  | none => (none, pool)
  | some i =>
    (some (i, i),
      { pipes := Function.update pool.pipes i
          { RingPipe.zeroed with
            state := .active, readers := 1, writers := 1, id := pool.nextId, owner := caller }
        nextId := pool.nextId + 1 })

/-- `pipe_read`. -/
def pipeRead (pool : RingPipes m) (idx count : Nat) (caller : UInt32) (privileged : Bool) :
    ReadAnswer × RingPipes m :=
  if h : idx < m then
    let pipe := pool.pipes ⟨idx, h⟩
    if pipe.state = .free ∨ !pipe.accessOk caller privileged then (.error, pool)
    else if pipe.isEmpty then
      if pipe.state = .writeClosed ∨ pipe.state = .closed then (.bytes [], pool) else (.again, pool)
    else
      let out := pipe.readLoop (min count pipe.available)
      (.bytes out.1, setPipe pool ⟨idx, h⟩ out.2)
  else (.error, pool)

/-- `pipe_write`: the number of bytes written. -/
def pipeWrite (pool : RingPipes m) (idx : Nat) (data : Bytes) (caller : UInt32)
    (privileged : Bool) : Option Nat × RingPipes m :=
  if h : idx < m then
    let pipe := pool.pipes ⟨idx, h⟩
    if pipe.state = .free ∨ pipe.state = .readClosed ∨ pipe.state = .closed ∨
        !pipe.accessOk caller privileged then (none, pool)
    else
      let toWrite := min data.length pipe.space
      (some toWrite, setPipe pool ⟨idx, h⟩ (pipe.writeLoop (data.take toWrite)))
  else (none, pool)

/-- The body of the two close functions. -/
def pipeClose (drop : RingPipe → RingPipe) (pool : RingPipes m) (idx : Nat) (caller : UInt32)
    (privileged : Bool) : Bool × RingPipes m :=
  if h : idx < m then
    let pipe := pool.pipes ⟨idx, h⟩
    if pipe.state = .free ∨ !pipe.accessOk caller privileged then (false, pool)
    else (true, setPipe pool ⟨idx, h⟩ (drop pipe))
  else (false, pool)

/-- `pipe_close_read`. -/
def pipeCloseRead (pool : RingPipes m) : Nat → UInt32 → Bool → Bool × RingPipes m :=
  pipeClose .dropReader pool

/-- `pipe_close_write`. -/
def pipeCloseWrite (pool : RingPipes m) : Nat → UInt32 → Bool → Bool × RingPipes m :=
  pipeClose .dropWriter pool

/-! ## A ring and its list -/

/-- The ring has the bytes of the list. -/
structure Holds (r : RingPipe) (pipe : Pipe) : Prop where
  state : r.state = pipe.state
  readers : r.readers = pipe.readers
  writers : r.writers = pipe.writers
  id : r.id = pipe.id
  owner : r.owner = pipe.owner
  readPos : r.readPos < PIPE_BUF_SIZE
  writePos : r.writePos = ringIx PIPE_BUF_SIZE r.readPos pipe.buffer.length
  room : pipe.buffer.length < PIPE_BUF_SIZE
  stores : Stores r.buffer (ringIx PIPE_BUF_SIZE r.readPos) pipe.buffer

namespace Holds

variable {r : RingPipe} {pipe : Pipe}

theorem ring (h : Holds r pipe) :
    Between PIPE_BUF_SIZE r.buffer r.readPos r.writePos pipe.buffer :=
  ⟨h.readPos, h.writePos, h.room, h.stores⟩

theorem available (h : Holds r pipe) : r.available = pipe.buffer.length := h.ring.length_eq

theorem isEmpty (h : Holds r pipe) : r.isEmpty = true ↔ pipe.buffer = [] := by
  have hread := h.readPos
  have hroom := h.room
  have htail := h.ring.tail_cases
  rw [RingPipe.isEmpty, decide_eq_true_eq, ← List.length_eq_zero_iff]
  omega

theorem buffered (h : Holds r pipe) : r.buffered = pipe.buffer := by
  rw [RingPipe.buffered, h.available]
  apply List.ext_getElem
  · rw [List.length_map, List.length_range]
  · intro k hk hlen
    rw [List.getElem_map, List.getElem_range]
    exact h.stores k hlen

/-- The reader takes the first byte. -/
theorem pop {byte : UInt8} {bytes : Bytes} (h : Holds r { pipe with buffer := byte :: bytes }) :
    r.buffer (r.readPos % PIPE_BUF_SIZE) = byte ∧
      Holds { r with readPos := (r.readPos + 1) % PIPE_BUF_SIZE }
        { pipe with buffer := bytes } := by
  obtain ⟨hfirst, hrest⟩ := h.ring.pop
  exact ⟨hfirst, ⟨h.state, h.readers, h.writers, h.id, h.owner, hrest.head_lt, hrest.tail_eq,
    hrest.room, hrest.stores⟩⟩

/-- The writer appends a byte. -/
theorem push (h : Holds r pipe) (hroom : pipe.buffer.length + 1 < PIPE_BUF_SIZE) (byte : UInt8) :
    Holds
      { r with
        buffer := Function.update r.buffer (r.writePos % PIPE_BUF_SIZE) byte
        writePos := (r.writePos + 1) % PIPE_BUF_SIZE }
      { pipe with buffer := pipe.buffer ++ [byte] } := by
  have hpush := h.ring.push hroom byte
  rw [Nat.mod_eq_of_lt h.ring.tail_lt]
  exact ⟨h.state, h.readers, h.writers, h.id, h.owner, hpush.head_lt, hpush.tail_eq, hpush.room,
    hpush.stores⟩

theorem readLoop {n : Nat} (h : Holds r pipe) (hn : n ≤ pipe.buffer.length) :
    (r.readLoop n).1 = pipe.buffer.take n ∧
      Holds (r.readLoop n).2 { pipe with buffer := pipe.buffer.drop n } := by
  induction n generalizing r pipe with
  | zero => exact ⟨rfl, h⟩
  | succ n ih =>
    cases hbuf : pipe.buffer with
    | nil =>
      rw [hbuf] at hn
      exact absurd hn (Nat.not_succ_le_zero n)
    | cons byte bytes =>
      have hcons : Holds r { pipe with buffer := byte :: bytes } := by
        rw [← hbuf]
        exact h
      obtain ⟨hbyte, hrest⟩ := hcons.pop
      rw [hbuf, List.length_cons] at hn
      obtain ⟨htake, hdrop⟩ := ih hrest (Nat.le_of_succ_le_succ hn)
      refine ⟨?_, hdrop⟩
      rw [RingPipe.readLoop, List.take_succ_cons, htake, hbyte]

theorem writeLoop {data : Bytes} (h : Holds r pipe)
    (hroom : pipe.buffer.length + data.length < PIPE_BUF_SIZE) :
    Holds (r.writeLoop data) { pipe with buffer := pipe.buffer ++ data } := by
  induction data generalizing r pipe with
  | nil =>
    rw [List.append_nil]
    exact h
  | cons byte bytes ih =>
    rw [List.length_cons] at hroom
    have hpush := h.push (by omega) byte
    have hloop := ih hpush (by simp only [List.length_append, List.length_singleton]; omega)
    rw [List.append_assoc, List.singleton_append] at hloop
    exact hloop

theorem dropReader (h : Holds r pipe) : Holds r.dropReader (Pipe.dropReader pipe) := by
  unfold RingPipe.dropReader Pipe.dropReader
  rw [h.readers, h.writers]
  dsimp only
  split_ifs
  · exact { h with readers := rfl, writers := rfl, state := rfl }
  · exact { h with readers := rfl, writers := rfl, state := rfl }
  · exact { h with readers := rfl, writers := rfl }

theorem dropWriter (h : Holds r pipe) : Holds r.dropWriter (Pipe.dropWriter pipe) := by
  unfold RingPipe.dropWriter Pipe.dropWriter
  rw [h.readers, h.writers]
  dsimp only
  split_ifs
  · exact { h with readers := rfl, writers := rfl, state := rfl }
  · exact { h with readers := rfl, writers := rfl, state := rfl }
  · exact { h with readers := rfl, writers := rfl }

end Holds

/-! ## A pool of rings and its lists -/

/-- Every ring of the pool has its list. -/
structure Refines (pool : RingPipes m) (spec : Pipes m) : Prop where
  holds : ∀ i, Holds (pool.pipes i) (spec.pipes i)
  nextId : pool.nextId = spec.nextId

namespace Refines

variable {pool : RingPipes m} {spec : Pipes m}

theorem set (h : Refines pool spec) (i : Fin m) {r : RingPipe} {pipe : Pipe} (hi : Holds r pipe) :
    Refines (setPipe pool i r) (Pipe.setPipe spec i pipe) := by
  refine ⟨fun j => ?_, h.nextId⟩
  by_cases hj : j = i
  · subst hj
    simpa [setPipe, Pipe.setPipe] using hi
  · simpa [setPipe, Pipe.setPipe, hj] using h.holds j

theorem accessOk (h : Refines pool spec) (i : Fin m) (caller : UInt32) (privileged : Bool) :
    (pool.pipes i).accessOk caller privileged = Pipe.accessOk (spec.pipes i) caller privileged := by
  rw [RingPipe.accessOk, Pipe.accessOk, (h.holds i).owner]

theorem create (h : Refines pool spec) (caller : UInt32) :
    (pipeCreate pool caller).1 = (Pipe.pipeCreate spec caller).1 ∧
      Refines (pipeCreate pool caller).2 (Pipe.pipeCreate spec caller).2 := by
  have hfree : (fun i => decide ((pool.pipes i).state = .free)) =
      fun i => decide ((spec.pipes i).state = .free) := by
    funext i
    rw [(h.holds i).state]
  unfold pipeCreate Pipe.pipeCreate
  rw [hfree]
  cases (List.finRange m).find? fun i => decide ((spec.pipes i).state = .free) with
  | none => exact ⟨rfl, h⟩
  | some i =>
    refine ⟨rfl, ⟨fun j => ?_, congrArg (· + 1) h.nextId⟩⟩
    by_cases hj : j = i
    · subst hj
      simp only [Function.update_self]
      exact ⟨rfl, rfl, rfl, h.nextId, rfl, Nat.succ_pos 4095, rfl, Nat.succ_pos 4095, .nil⟩
    · simp only [Function.update_of_ne hj]
      exact h.holds j

theorem read (h : Refines pool spec) (idx count : Nat) (caller : UInt32) (privileged : Bool) :
    (pipeRead pool idx count caller privileged).1 =
        (Pipe.pipeRead spec idx count caller privileged).1 ∧
      Refines (pipeRead pool idx count caller privileged).2
        (Pipe.pipeRead spec idx count caller privileged).2 := by
  unfold pipeRead Pipe.pipeRead
  by_cases hidx : idx < m
  · rw [dif_pos hidx, dif_pos hidx]
    have hi := h.holds ⟨idx, hidx⟩
    simp only [hi.state, h.accessOk, hi.isEmpty]
    split_ifs with hrefused hempty hclosed
    · exact ⟨rfl, h⟩
    · exact ⟨rfl, h⟩
    · exact ⟨rfl, h⟩
    · obtain ⟨htake, hdrop⟩ := hi.readLoop (n := min count (pool.pipes ⟨idx, hidx⟩).available)
        (by rw [hi.available]; exact Nat.min_le_right _ _)
      rw [hi.available] at htake hdrop
      have htakeMin : (spec.pipes ⟨idx, hidx⟩).buffer.take
          (min count (spec.pipes ⟨idx, hidx⟩).buffer.length) =
          (spec.pipes ⟨idx, hidx⟩).buffer.take count := List.take_eq_take_min.symm
      have hdropMin : (spec.pipes ⟨idx, hidx⟩).buffer.drop
          (min count (spec.pipes ⟨idx, hidx⟩).buffer.length) =
          (spec.pipes ⟨idx, hidx⟩).buffer.drop count := List.drop_eq_drop_min.symm
      rw [htakeMin] at htake
      rw [hdropMin] at hdrop
      rw [hi.available]
      exact ⟨congrArg ReadAnswer.bytes htake, h.set _ hdrop⟩
  · rw [dif_neg hidx, dif_neg hidx]
    exact ⟨rfl, h⟩

theorem write (h : Refines pool spec) (idx : Nat) (data : Bytes) (caller : UInt32)
    (privileged : Bool) :
    (pipeWrite pool idx data caller privileged).1 =
        (Pipe.pipeWrite spec idx data caller privileged).1 ∧
      Refines (pipeWrite pool idx data caller privileged).2
        (Pipe.pipeWrite spec idx data caller privileged).2 := by
  unfold pipeWrite Pipe.pipeWrite
  by_cases hidx : idx < m
  · rw [dif_pos hidx, dif_pos hidx]
    have hi := h.holds ⟨idx, hidx⟩
    simp only [hi.state, h.accessOk, RingPipe.space, hi.available]
    split_ifs with hrefused
    · exact ⟨rfl, h⟩
    · refine ⟨rfl, h.set _ ?_⟩
      have htake : data.take (min data.length
          (PIPE_BUF_SIZE - 1 - (spec.pipes ⟨idx, hidx⟩).buffer.length)) =
          data.take (PIPE_BUF_SIZE - 1 - (spec.pipes ⟨idx, hidx⟩).buffer.length) := by
        rw [Nat.min_comm]
        exact List.take_eq_take_min.symm
      rw [htake]
      apply hi.writeLoop
      have hroom := hi.room
      rw [List.length_take]
      omega
  · rw [dif_neg hidx, dif_neg hidx]
    exact ⟨rfl, h⟩

theorem close (h : Refines pool spec) {drop : RingPipe → RingPipe} {drop' : Pipe → Pipe}
    (hdrop : ∀ {r pipe}, Holds r pipe → Holds (drop r) (drop' pipe)) (idx : Nat)
    (caller : UInt32) (privileged : Bool) :
    Refines (pipeClose drop pool idx caller privileged).2
      (Pipe.pipeClose drop' spec idx caller privileged).2 := by
  unfold pipeClose Pipe.pipeClose
  by_cases hidx : idx < m
  · rw [dif_pos hidx, dif_pos hidx]
    simp only [(h.holds ⟨idx, hidx⟩).state, h.accessOk]
    split_ifs
    · exact h
    · exact h.set _ (hdrop (h.holds _))
  · rw [dif_neg hidx, dif_neg hidx]
    exact h

end Refines

/-! ## Histories -/

/-- The state that goes with the open ends. -/
def endsState (readers writers : Nat) : PipeState :=
  if readers = 0 then if writers = 0 then .closed else .readClosed
  else if writers = 0 then .writeClosed else .active

/-- The bytes that were accepted are those returned and those in the pipe. -/
structure Stream (accepted returned : Bytes) (pipe : Pipe) : Prop where
  split : accepted = returned ++ pipe.buffer
  fresh : pipe.state = .free → pipe.buffer = []
  ends : pipe.state ≠ .free → pipe.state = endsState pipe.readers pipe.writers

namespace Stream

variable {accepted returned : Bytes} {pipe : Pipe}

theorem read (h : Stream accepted returned pipe) (hused : pipe.state ≠ .free) (count : Nat) :
    Stream accepted (returned ++ pipe.buffer.take count)
      { pipe with buffer := pipe.buffer.drop count } := by
  refine ⟨?_, fun hfree => absurd hfree hused, h.ends⟩
  rw [List.append_assoc, List.take_append_drop]
  exact h.split

theorem write (h : Stream accepted returned pipe) (hused : pipe.state ≠ .free) (data : Bytes) :
    Stream (accepted ++ data) returned { pipe with buffer := pipe.buffer ++ data } := by
  refine ⟨?_, fun hfree => absurd hfree hused, h.ends⟩
  rw [h.split, List.append_assoc]

theorem dropReader (h : Stream accepted returned pipe) (hused : pipe.state ≠ .free) :
    Stream accepted returned (Pipe.dropReader pipe) := by
  have hends := h.ends hused
  unfold Pipe.dropReader
  dsimp only
  split_ifs with hreaders hwriters
  · refine ⟨h.split, PipeState.noConfusion, fun _ => ?_⟩
    simp [endsState, hreaders, hwriters]
  · refine ⟨h.split, PipeState.noConfusion, fun _ => ?_⟩
    simp [endsState, hreaders, hwriters]
  · refine ⟨h.split, h.fresh, fun _ => ?_⟩
    have hbefore : pipe.readers ≠ 0 := by omega
    rw [hends]
    simp [endsState, hreaders, hbefore]

theorem dropWriter (h : Stream accepted returned pipe) (hused : pipe.state ≠ .free) :
    Stream accepted returned (Pipe.dropWriter pipe) := by
  have hends := h.ends hused
  unfold Pipe.dropWriter
  dsimp only
  split_ifs with hwriters hreaders
  · refine ⟨h.split, PipeState.noConfusion, fun _ => ?_⟩
    simp [endsState, hreaders, hwriters]
  · refine ⟨h.split, PipeState.noConfusion, fun _ => ?_⟩
    simp [endsState, hreaders, hwriters]
  · refine ⟨h.split, h.fresh, fun _ => ?_⟩
    have hbefore : pipe.writers ≠ 0 := by omega
    rw [hends]
    simp [endsState, hwriters, hbefore]

end Stream

/-- The bytes of an answer. -/
def data : ReadAnswer → Bytes
  | .bytes data => data
  | _ => []

/-- A pool, and what went through its pipes. -/
structure History (m : Nat) where
  pool : RingPipes m
  accepted : Nat → Bytes
  returned : Nat → Bytes

def History.init (m : Nat) : History m := ⟨new m, fun _ => [], fun _ => []⟩

/-- A call, with what it lets through. -/
def record (h : History m) : Op → History m
  | .create caller => { h with pool := (pipeCreate h.pool caller).2 }
  | .read idx count caller privileged =>
    let out := pipeRead h.pool idx count caller privileged
    { h with
      pool := out.2
      returned := Function.update h.returned idx (h.returned idx ++ data out.1) }
  | .write idx bytes caller privileged =>
    let out := pipeWrite h.pool idx bytes caller privileged
    { h with
      pool := out.2
      accepted := Function.update h.accepted idx (h.accepted idx ++ bytes.take (out.1.getD 0)) }
  | .closeRead idx caller privileged =>
    { h with pool := (pipeCloseRead h.pool idx caller privileged).2 }
  | .closeWrite idx caller privileged =>
    { h with pool := (pipeCloseWrite h.pool idx caller privileged).2 }

/-- The history of a pool of lists. -/
def Streams (accepted returned : Nat → Bytes) (spec : Pipes m) : Prop :=
  ∀ i : Fin m, Stream (accepted i) (returned i) (spec.pipes i)

namespace Streams

variable {accepted returned : Nat → Bytes} {spec : Pipes m}

/-- One pipe goes on, and the others are as they were. -/
theorem set {accepted' returned' : Nat → Bytes} (h : Streams accepted returned spec) (i : Fin m)
    {pipe : Pipe} (hi : Stream (accepted' i) (returned' i) pipe)
    (hother : ∀ k, k ≠ i.val → accepted' k = accepted k ∧ returned' k = returned k) :
    Streams accepted' returned' (Pipe.setPipe spec i pipe) := by
  intro j
  by_cases hj : j = i
  · subst hj
    simpa [Pipe.setPipe] using hi
  · obtain ⟨haccepted, hreturned⟩ := hother j (fun heq => hj (Fin.ext heq))
    rw [haccepted, hreturned]
    simpa [Pipe.setPipe, hj] using h j

theorem create (h : Streams accepted returned spec) (caller : UInt32) :
    Streams accepted returned (Pipe.pipeCreate spec caller).2 := by
  obtain hout | ⟨i, hfree, hout⟩ := Pipe.pipeCreate_cases spec caller
  · rw [hout]
    exact h
  · rw [hout]
    intro j
    by_cases hj : j = i
    · subst hj
      have hold := h j
      simp only [Function.update_self]
      refine ⟨?_, PipeState.noConfusion, fun _ => rfl⟩
      rw [hold.split, hold.fresh hfree]
    · simp only [Function.update_of_ne hj]
      exact h j

theorem read (h : Streams accepted returned spec) (idx count : Nat) (caller : UInt32)
    (privileged : Bool) :
    let out := Pipe.pipeRead spec idx count caller privileged
    Streams accepted (Function.update returned idx (returned idx ++ data out.1)) out.2 := by
  intro out
  obtain ⟨answer, hout, hempty⟩ | ⟨hidx, hused, hout⟩ :=
    Pipe.pipeRead_cases spec idx count caller privileged
  · have hdata : data answer = [] := by
      obtain rfl | rfl | rfl := hempty <;> rfl
    rw [show out = _ from hout, hdata, List.append_nil, Function.update_eq_self]
    exact h
  · rw [show out = _ from hout]
    refine h.set ⟨idx, hidx⟩ ?_ fun k hk => ⟨rfl, Function.update_of_ne hk _ _⟩
    rw [Function.update_self]
    exact (h ⟨idx, hidx⟩).read hused count

theorem write (h : Streams accepted returned spec) (idx : Nat) (bytes : Bytes) (caller : UInt32)
    (privileged : Bool) :
    let out := Pipe.pipeWrite spec idx bytes caller privileged
    Streams (Function.update accepted idx (accepted idx ++ bytes.take (out.1.getD 0))) returned
      out.2 := by
  intro out
  obtain hout | ⟨hidx, hused, hout⟩ := Pipe.pipeWrite_cases spec idx bytes caller privileged
  · rw [show out = _ from hout]
    have hnone : bytes.take (Option.getD none 0) = [] := List.take_zero
    rw [hnone, List.append_nil, Function.update_eq_self]
    exact h
  · rw [show out = _ from hout]
    refine h.set ⟨idx, hidx⟩ ?_ fun k hk => ⟨Function.update_of_ne hk _ _, rfl⟩
    rw [Function.update_self, Option.getD_some, Nat.min_comm, ← List.take_eq_take_min]
    exact (h ⟨idx, hidx⟩).write hused _

theorem close (h : Streams accepted returned spec) {drop : Pipe → Pipe}
    (hdrop : ∀ {accepted returned pipe}, Stream accepted returned pipe → pipe.state ≠ .free →
      Stream accepted returned (drop pipe)) (idx : Nat) (caller : UInt32) (privileged : Bool) :
    Streams accepted returned (Pipe.pipeClose drop spec idx caller privileged).2 := by
  obtain hout | ⟨hidx, hused, hout⟩ := Pipe.pipeClose_cases drop spec idx caller privileged
  · rw [hout]
    exact h
  · rw [hout]
    exact h.set ⟨idx, hidx⟩ (hdrop (h _) hused) fun _ _ => ⟨rfl, rfl⟩

end Streams

/-- The history has lists that go with it. -/
def Traced (h : History m) : Prop :=
  ∃ spec, Refines h.pool spec ∧ Streams h.accepted h.returned spec

theorem traced_init (m : Nat) : Traced (History.init m) := by
  refine ⟨Pipes.new m, ⟨fun _ => ?_, rfl⟩, fun _ => ⟨rfl, fun _ => rfl, fun hused => ?_⟩⟩
  · exact ⟨rfl, rfl, rfl, rfl, rfl, Nat.succ_pos 4095, rfl, Nat.succ_pos 4095, .nil⟩
  · exact absurd rfl hused

/-- Every call keeps the history and its lists together. -/
theorem traced_record (h : History m) (op : Op) (ht : Traced h) : Traced (record h op) := by
  obtain ⟨spec, hrefines, hstreams⟩ := ht
  refine ⟨Pipe.step spec op, ?_⟩
  cases op with
  | create caller => exact ⟨(hrefines.create caller).2, hstreams.create caller⟩
  | read idx count caller privileged =>
    obtain ⟨hanswer, hnext⟩ := hrefines.read idx count caller privileged
    refine ⟨hnext, ?_⟩
    have hread := hstreams.read idx count caller privileged
    dsimp only at hread
    rwa [← hanswer] at hread
  | write idx bytes caller privileged =>
    obtain ⟨hanswer, hnext⟩ := hrefines.write idx bytes caller privileged
    refine ⟨hnext, ?_⟩
    have hwrite := hstreams.write idx bytes caller privileged
    dsimp only at hwrite
    rwa [← hanswer] at hwrite
  | closeRead idx caller privileged =>
    exact ⟨hrefines.close .dropReader idx caller privileged,
      hstreams.close .dropReader idx caller privileged⟩
  | closeWrite idx caller privileged =>
    exact ⟨hrefines.close .dropWriter idx caller privileged,
      hstreams.close .dropWriter idx caller privileged⟩

/-- What a call on a pipe answers after any calls. -/
theorem pipe_stream (m : Nat) (calls : List Op) (i : Fin m) :
    let h := run record (History.init m) calls
    let pipe := h.pool.pipes i
    -- the bytes that reads returned come first, and the others are in the pipe
    h.accepted i = h.returned i ++ pipe.buffered ∧ pipe.buffered.length ≤ 4095 ∧
    -- a write while the reader is open
    (∀ data caller privileged, pipe.state ≠ .free → pipe.readers ≠ 0 →
      pipe.accessOk caller privileged = true →
      (pipeWrite h.pool i data caller privileged).1 =
        some (min data.length (4095 - pipe.buffered.length))) ∧
    -- a read gets the first bytes as long as there are any
    (∀ count caller privileged, pipe.state ≠ .free → pipe.accessOk caller privileged = true →
      pipe.buffered ≠ [] →
      (pipeRead h.pool i count caller privileged).1 = .bytes (pipe.buffered.take count)) ∧
    -- the end of the file comes after the writer closed and everything was read
    ∀ count caller privileged, 0 < count →
      (pipeRead h.pool i count caller privileged).1 = .bytes [] →
      pipe.writers = 0 ∧ h.returned i = h.accepted i := by
  intro h pipe
  obtain ⟨spec, hrefines, hstreams⟩ : Traced h :=
    run_invariant Traced traced_record (traced_init m) calls
  have hi := hrefines.holds i
  have hs := hstreams i
  have hroom := hi.room
  rw [PIPE_BUF_SIZE] at hroom
  have haccess : ∀ caller privileged, pipe.accessOk caller privileged = true →
      Pipe.accessOk (spec.pipes i) caller privileged = true := by
    intro caller privileged hok
    rwa [hrefines.accessOk] at hok
  rw [hi.buffered]
  refine ⟨hs.split, by omega, fun bytes caller privileged hused hreaders hok => ?_,
    fun count caller privileged hused hok hdata => ?_,
    fun count caller privileged hcount heof => ?_⟩
  · rw [(hrefines.write i bytes caller privileged).1]
    rw [hi.state] at hused
    rw [hi.readers] at hreaders
    have hends := hs.ends hused
    have hopen : (spec.pipes i).state ≠ .readClosed ∧ (spec.pipes i).state ≠ .closed := by
      rw [hends, endsState, if_neg hreaders]
      split_ifs <;> simp
    rw [Pipe.pipeWrite, dif_pos i.isLt]
    simp only [Fin.eta, hused, hopen.1, hopen.2, haccess caller privileged hok]
    rfl
  · rw [(hrefines.read i count caller privileged).1]
    rw [hi.state] at hused
    rw [Pipe.pipeRead, dif_pos i.isLt]
    simp only [Fin.eta, hused, haccess caller privileged hok, hdata]
    rfl
  · rw [(hrefines.read i count caller privileged).1, Pipe.pipeRead, dif_pos i.isLt] at heof
    simp only [Fin.eta] at heof
    split_ifs at heof with hrefused hempty hclosed
    · have hused : (spec.pipes i).state ≠ .free := fun heq => hrefused (.inl heq)
      have hends := hs.ends hused
      refine ⟨?_, ?_⟩
      · rw [hi.writers]
        by_contra hwriters
        rw [hends, endsState] at hclosed
        simp only [if_neg hwriters] at hclosed
        split_ifs at hclosed <;> simp at hclosed
      · rw [hs.split, hempty, List.append_nil]
    · have htake := ReadAnswer.bytes.inj heof
      rw [List.take_eq_nil_iff] at htake
      exact absurd (htake.resolve_left hcount.ne') hempty

/-- Three bytes are written, two are read, and the writer closes. -/
def sampleCalls : List Op :=
  [.create 7, .write 0 [1, 2, 3] 7 false, .read 0 2 7 false, .closeWrite 0 7 false]

theorem pipe_stream_sampleCalls :
    let h := run record (History.init 1) sampleCalls
    h.accepted 0 = [1, 2, 3] ∧ h.returned 0 = [1, 2] ∧
      (pipeRead h.pool 0 9 7 false).1 = .bytes ((h.pool.pipes 0).buffered.take 9) := by
  refine ⟨by decide +kernel, by decide +kernel, ?_⟩
  exact (pipe_stream 1 sampleCalls 0).2.2.2.1 9 7 false (by decide +kernel) (by decide +kernel)
    (by decide +kernel)

end PipeRing

end RobotOs.Ipc
