import RobotOs.Lib.Framing

/-!
# Channels

`channel.rs` of the ipc crate.  A channel is an entry of a fixed pool, and its
id is its index.  The pool has `m` entries, a build parameter.

The ring of `RING_CAP` messages with its two positions is the queue of the
messages in it.  A ring is full with one message less than it has places.
`channelRecv` returns the bytes that fit the buffer.
-/

namespace RobotOs.Ipc

open RobotOs.Lib.Framing (Bytes)

def MSG_MAX_LEN : Nat := 64

def RING_CAP : Nat := 8

inductive ChannelState where
  | free
  | active
  deriving DecidableEq, Repr

structure Channel where
  state : ChannelState
  ring : List Bytes
  txCount : UInt32
  rxCount : UInt32
  owner : UInt32
  deriving DecidableEq, Repr

def Channel.zeroed : Channel := ⟨.free, [], 0, 0, 0⟩

/-- The pool. -/
abbrev Channels (m : Nat) := Fin m → Channel

namespace Channel

variable {m : Nat}

/-- The entry with an index that a task chose. -/
def entry (m : Nat) (ch : Nat) : Option (Fin m) := if h : ch < m then some ⟨ch, h⟩ else none

/-- `channel_create`. -/
def channelCreate (pool : Channels m) (caller : UInt32) : Option (Fin m) × Channels m :=
  match (List.finRange m).find? fun i => (pool i).state = .free with
  | none => (none, pool)
  | some i =>
    (some i, Function.update pool i { Channel.zeroed with state := .active, owner := caller })

/-- `channel_owner`. -/
def channelOwner (pool : Channels m) (ch : Nat) : Option UInt32 :=
  match entry m ch with
  | none => none
  | some i => if (pool i).state = .active then some (pool i).owner else none

/-- `channel_send`.  Everyone may send. -/
def channelSend (pool : Channels m) (ch : Nat) (data : Bytes) : Bool × Channels m :=
  match entry m ch with
  | none => (false, pool)
  | some i =>
    let chan := pool i
    if data.length > MSG_MAX_LEN ∨ chan.state ≠ .active ∨ chan.ring.length + 1 = RING_CAP then
      (false, pool)
    else
      (true, Function.update pool i
        { chan with ring := chan.ring ++ [data], txCount := chan.txCount + 1 })

/-- `recv_core`.  The gate is the task that must own the channel. -/
def recvCore (pool : Channels m) (ch bufLen : Nat) (gate : Option UInt32) :
    Option Bytes × Channels m :=
  match entry m ch with
  | none => (none, pool)
  | some i =>
    let chan := pool i
    if chan.state ≠ .active ∨ (gate.any fun caller => chan.owner ≠ caller) then (none, pool)
    else
      match chan.ring with
      | [] => (some [], pool)
      | message :: rest =>
        (some (message.take bufLen), Function.update pool i
          { chan with ring := rest, rxCount := chan.rxCount + 1 })

/-- `channel_recv`. -/
def channelRecv (pool : Channels m) (ch bufLen : Nat) (caller : UInt32) (privileged : Bool) :
    Option Bytes × Channels m :=
  recvCore pool ch bufLen (if privileged then none else some caller)

/-- `channel_destroy`. -/
def channelDestroy (pool : Channels m) (ch : Nat) (caller : UInt32) (privileged : Bool) :
    Bool × Channels m :=
  match entry m ch with
  | none => (false, pool)
  | some i =>
    if !privileged ∧ (pool i).state = .active ∧ (pool i).owner ≠ caller then (false, pool)
    else (true, Function.update pool i .zeroed)

/-! ## What a call does -/

theorem entry_eq_some {ch : Nat} {i : Fin m} : entry m ch = some i ↔ i.val = ch := by
  unfold entry
  split_ifs with h
  · simp [Fin.ext_iff, eq_comm]
  · simp only [false_iff]
    rintro rfl
    exact h i.isLt

theorem channelCreate_cases (pool : Channels m) (caller : UInt32) :
    channelCreate pool caller = (none, pool) ∨
      ∃ i, channelCreate pool caller = (some i, Function.update pool i
        { Channel.zeroed with state := .active, owner := caller }) := by
  unfold channelCreate
  split
  · exact .inl rfl
  · exact .inr ⟨_, rfl⟩

theorem channelSend_cases (pool : Channels m) (ch : Nat) (data : Bytes) :
    channelSend pool ch data = (false, pool) ∨
      ∃ i : Fin m, i.val = ch ∧ channelSend pool ch data = (true, Function.update pool i
        { pool i with ring := (pool i).ring ++ [data], txCount := (pool i).txCount + 1 }) := by
  unfold channelSend
  split
  · exact .inl rfl
  · rename_i i hentry
    dsimp only
    split_ifs
    · exact .inl rfl
    · exact .inr ⟨i, entry_eq_some.mp hentry, rfl⟩

theorem recvCore_cases (pool : Channels m) (ch bufLen : Nat) (gate : Option UInt32) :
    recvCore pool ch bufLen gate = (none, pool) ∨
      ∃ i : Fin m, i.val = ch ∧
        ((pool i).ring = [] ∧ recvCore pool ch bufLen gate = (some [], pool) ∨
          ∃ msg rest, (pool i).ring = msg :: rest ∧
            recvCore pool ch bufLen gate = (some (msg.take bufLen), Function.update pool i
              { pool i with ring := rest, rxCount := (pool i).rxCount + 1 })) := by
  unfold recvCore
  split
  · exact .inl rfl
  · rename_i i hentry
    dsimp only
    split_ifs
    · exact .inl rfl
    · refine .inr ⟨i, entry_eq_some.mp hentry, ?_⟩
      cases (pool i).ring with
      | nil => exact .inl ⟨rfl, rfl⟩
      | cons msg rest => exact .inr ⟨msg, rest, rfl, rfl⟩

theorem channelDestroy_cases (pool : Channels m) (ch : Nat) (caller : UInt32)
    (privileged : Bool) :
    channelDestroy pool ch caller privileged = (false, pool) ∨
      ∃ i : Fin m, i.val = ch ∧
        channelDestroy pool ch caller privileged = (true, Function.update pool i .zeroed) := by
  unfold channelDestroy
  split
  · exact .inl rfl
  · rename_i i hentry
    split_ifs
    · exact .inl rfl
    · exact .inr ⟨i, entry_eq_some.mp hentry, rfl⟩

/-! ## Operations -/

/-- An operation on the pool. -/
inductive Op where
  | create (caller : UInt32)
  | send (ch : Nat) (data : Bytes)
  | recv (ch bufLen : Nat) (caller : UInt32) (privileged : Bool)
  | destroy (ch : Nat) (caller : UInt32) (privileged : Bool)
  deriving DecidableEq, Repr

def step (pool : Channels m) : Op → Channels m
  | .create caller => (channelCreate pool caller).2
  | .send ch data => (channelSend pool ch data).2
  | .recv ch bufLen caller privileged => (channelRecv pool ch bufLen caller privileged).2
  | .destroy ch caller privileged => (channelDestroy pool ch caller privileged).2

end Channel

end RobotOs.Ipc
