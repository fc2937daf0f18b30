import RobotOs.Lib.Ring
import RobotOs.Lib.Run
import RobotOs.Ipc.Cap
import RobotOs.Ipc.Channel

/-!
# The rings of the channels

The ring of `channel.rs` as it is: eight messages of 64 bytes with a length, and the
positions `head` and `tail`.  `Channel` has the queue of the messages instead, and is
the abstract layer here.

There are three groups.

* The calls on rings.  A message keeps the size of its array as a field.
* `Holds` relates a ring to its queue, and every call on a pool of rings has the answer
  and the effect of the call on the pool of queues.
* The history of a channel is what was sent since it was created, and what was received
  into which buffers.  `Faithful` says that the received bytes are those of the first
  messages sent, and that the others are in the ring.
-/

namespace RobotOs.Ipc

open RobotOs.Lib.Framing (Bytes)
open RobotOs.Lib.Ring RobotOs.Lib.Run

/-- `Message`. -/
structure Message where
  data : Bytes
  len : UInt16
  size : data.length = MSG_MAX_LEN

namespace Message

def zeroed : Message := ⟨List.replicate MSG_MAX_LEN 0, 0, List.length_replicate⟩

/-- The payload is copied over the first bytes. -/
def fill (dst : Message) (bytes : Bytes) (h : bytes.length ≤ MSG_MAX_LEN) : Message where
  data := bytes ++ dst.data.drop bytes.length
  len := UInt16.ofNat bytes.length
  size := by
    rw [List.length_append, List.length_drop, dst.size]
    omega

/-- The bytes that a receive may copy. -/
def bytes (msg : Message) : Bytes := msg.data.take msg.len.toNat

theorem bytes_fill (dst : Message) (payload : Bytes) (h : payload.length ≤ MSG_MAX_LEN) :
    (dst.fill payload h).bytes = payload := by
  have hlen : (UInt16.ofNat payload.length).toNat = payload.length := by
    rw [UInt16.toNat_ofNat']
    exact Nat.mod_eq_of_lt (h.trans_lt (by decide))
  rw [bytes, fill, hlen]
  exact List.take_left

end Message

/-- `Channel` with its ring. -/
structure RingChannel where
  state : ChannelState
  ring : Nat → Message
  head : UInt32
  tail : UInt32
  txCount : UInt32
  rxCount : UInt32
  owner : UInt32

variable {c : RingChannel} {chan : Channel} {sent queue : List Bytes}
  {received : List (Nat × Bytes)} {ch : Nat}

namespace RingChannel

def zeroed : RingChannel := ⟨.free, fun _ => .zeroed, 0, 0, 0, 0, 0⟩

def isFull (chan : RingChannel) : Bool := (chan.tail + 1) % 8 = chan.head

def isEmpty (chan : RingChannel) : Bool := chan.head = chan.tail

end RingChannel

/-- `ChannelPool`. -/
abbrev RingChannels (m : Nat) := Fin m → RingChannel

namespace ChannelRing

variable {m : Nat}

/-- `channel_create`. -/
def channelCreate (pool : RingChannels m) (caller : UInt32) : Option (Fin m) × RingChannels m :=
  match (List.finRange m).find? fun i => (pool i).state = .free with
  | none => (none, pool)
  | some i =>
    (some i, Function.update pool i { RingChannel.zeroed with state := .active, owner := caller })

/-- `channel_send`. -/
def channelSend (pool : RingChannels m) (ch : Nat) (data : Bytes) : Bool × RingChannels m :=
  match Channel.entry m ch with
  | none => (false, pool)
  | some i =>
    if h : data.length ≤ MSG_MAX_LEN then
      let chan := pool i
      if chan.state ≠ .active then (false, pool)
      else if chan.isFull then (false, pool)
      else
        let slot := chan.tail.toNat
        (true, Function.update pool i
          { chan with
            ring := Function.update chan.ring slot ((chan.ring slot).fill data h)
            tail := (chan.tail + 1) % 8
            txCount := chan.txCount + 1 })
    else (false, pool)

/-- `recv_core`. -/
def recvCore (pool : RingChannels m) (ch bufLen : Nat) (gate : Option UInt32) :
    Option Bytes × RingChannels m :=
  match Channel.entry m ch with
  | none => (none, pool)
  | some i =>
    let chan := pool i
    if chan.state ≠ .active then (none, pool)
    else if gate.any fun caller => chan.owner ≠ caller then (none, pool)
    else if chan.isEmpty then (some [], pool)
    else
      let msg := chan.ring chan.head.toNat
      let n := min msg.len.toNat bufLen
      (some (msg.data.take n), Function.update pool i
        { chan with head := (chan.head + 1) % 8, rxCount := chan.rxCount + 1 })

/-- `channel_recv`. -/
def channelRecv (pool : RingChannels m) (ch bufLen : Nat) (caller : UInt32) (privileged : Bool) :
    Option Bytes × RingChannels m :=
  recvCore pool ch bufLen (if privileged then none else some caller)

/-- `channel_destroy`. -/
def channelDestroy (pool : RingChannels m) (ch : Nat) (caller : UInt32) (privileged : Bool) :
    Bool × RingChannels m :=
  match Channel.entry m ch with
  | none => (false, pool)
  | some i =>
    if !privileged ∧ (pool i).state = .active ∧ (pool i).owner ≠ caller then (false, pool)
    else (true, Function.update pool i .zeroed)

/-! ## The typed calls -/

/-- `ChannelCapError`. -/
inductive ChannelCapError where
  | cap (e : CapError)
  | closed
  | full
  | empty
  | badArg
  deriving DecidableEq, Repr

/-- `channel_send_cap`. -/
def channelSendCap (pool : RingChannels m) (table : CapTable) (level : UInt8) (cap : Cap .channel)
    (data : Bytes) : Except ChannelCapError Unit × RingChannels m :=
  if data.length > MSG_MAX_LEN then (.error .badArg, pool)
  else
    match table.get level cap .WRITE with
    | .error e => (.error (.cap e), pool)
    | .ok chIdx =>
      let out := channelSend pool chIdx.toNat data
      if out.1 then (.ok (), out.2)
      else
        match Channel.entry m chIdx.toNat with
        | none => (.error .closed, out.2)
        | some i =>
          if (out.2 i).state ≠ .active then (.error .closed, out.2) else (.error .full, out.2)

/-- `channel_recv_cap`.  A receive of zero bytes is reported as an empty ring. -/
def channelRecvCap (pool : RingChannels m) (table : CapTable) (level : UInt8) (cap : Cap .channel)
    (bufLen : Nat) : Except ChannelCapError Bytes × RingChannels m :=
  match table.get level cap .READ with
  | .error e => (.error (.cap e), pool)
  | .ok chIdx =>
    let out := recvCore pool chIdx.toNat bufLen none
    match out.1 with
    | none => (.error .closed, out.2)
    | some [] => (.error .empty, out.2)
    | some (byte :: bytes) => (.ok (byte :: bytes), out.2)

/-! ## A ring and its queue -/

/-- The ring has the messages of the queue. -/
structure Holds (c : RingChannel) (chan : Channel) : Prop where
  state : c.state = chan.state
  owner : c.owner = chan.owner
  txCount : c.txCount = chan.txCount
  rxCount : c.rxCount = chan.rxCount
  head : c.head.toNat < RING_CAP
  tail : c.tail.toNat = ringIx RING_CAP c.head.toNat chan.ring.length
  room : chan.ring.length < RING_CAP
  stores : Stores (fun k => (c.ring k).bytes) (ringIx RING_CAP c.head.toNat) chan.ring

theorem holds_created (state : ChannelState) (owner : UInt32) :
    Holds { RingChannel.zeroed with state := state, owner := owner }
      { Channel.zeroed with state := state, owner := owner } :=
  ⟨rfl, rfl, rfl, rfl, Nat.zero_lt_succ 7, rfl, Nat.zero_lt_succ 7, .nil⟩

theorem holds_zeroed : Holds .zeroed .zeroed := holds_created .free 0

/-- The next position. -/
theorem toNat_next (x : UInt32) (h : x.toNat < RING_CAP) :
    ((x + 1) % 8).toNat = (x.toNat + 1) % RING_CAP := by
  have hcap : RING_CAP = 8 := rfl
  rw [UInt32.toNat_mod, UInt32.toNat_add, Nat.mod_eq_of_lt (b := 2 ^ 32)]
  · rfl
  · rw [UInt32.toNat_one]
    omega

theorem tail_lt (h : Holds c chan) : c.tail.toNat < RING_CAP := by
  rw [h.tail]
  exact Nat.mod_lt _ (by decide)

theorem isFull_iff (h : Holds c chan) :
    c.isFull = true ↔ chan.ring.length + 1 = RING_CAP := by
  have hhead := h.head
  have hroom := h.room
  have htail := h.tail
  simp only [ringIx, RING_CAP] at hhead hroom htail ⊢
  rw [RingChannel.isFull, decide_eq_true_eq, ← UInt32.toNat_inj, toNat_next _ (tail_lt h),
    RING_CAP]
  omega

theorem isEmpty_iff (h : Holds c chan) :
    c.isEmpty = true ↔ chan.ring = [] := by
  have hhead := h.head
  have hroom := h.room
  have htail := h.tail
  simp only [ringIx, RING_CAP] at hhead hroom htail ⊢
  rw [RingChannel.isEmpty, decide_eq_true_eq, ← UInt32.toNat_inj, ← List.length_eq_zero_iff]
  omega

/-- A message is put in at the tail. -/
theorem holds_send {data : Bytes} (h : Holds c chan) (hdata : data.length ≤ MSG_MAX_LEN)
    (hfull : ¬chan.ring.length + 1 = RING_CAP) :
    Holds
      { c with
        ring := Function.update c.ring c.tail.toNat ((c.ring c.tail.toNat).fill data hdata)
        tail := (c.tail + 1) % 8
        txCount := c.txCount + 1 }
      { chan with ring := chan.ring ++ [data], txCount := chan.txCount + 1 } where
  state := h.state
  owner := h.owner
  txCount := congrArg (· + 1) h.txCount
  rxCount := h.rxCount
  head := h.head
  tail := by
    rw [toNat_next _ (tail_lt h), h.tail, List.length_append, List.length_singleton, ringIx, ringIx,
      Nat.mod_add_mod, Nat.add_assoc]
  room := by
    have hroom := h.room
    rw [List.length_append, List.length_singleton]
    omega
  stores := by
    have hroom := h.room
    have hapart := (apart_ringIx RING_CAP c.head.toNat).mono (Nat.succ_le_of_lt hroom)
    refine (h.stores.push hapart data).congr fun k _ => ?_
    dsimp only
    rw [h.tail]
    by_cases hk : ringIx RING_CAP c.head.toNat k = ringIx RING_CAP c.head.toNat chan.ring.length
    · rw [hk, Function.update_self, Function.update_self, Message.bytes_fill]
    · rw [Function.update_of_ne hk, Function.update_of_ne hk]

/-- The message at the head is taken out. -/
theorem holds_recv {msg : Bytes} {rest : List Bytes} (h : Holds c chan)
    (hring : chan.ring = msg :: rest) :
    (c.ring c.head.toNat).bytes = msg ∧
      Holds { c with head := (c.head + 1) % 8, rxCount := c.rxCount + 1 }
        { chan with ring := rest, rxCount := chan.rxCount + 1 } := by
  have hroom := h.room
  have htail := h.tail
  have hstores := h.stores
  rw [hring, List.length_cons] at hroom htail
  rw [hring] at hstores
  obtain ⟨hfirst, hrest⟩ := hstores.pop
  have hix : ∀ k, ringIx RING_CAP ((c.head + 1) % 8).toNat k =
      ringIx RING_CAP c.head.toNat (k + 1) := by
    intro k
    rw [toNat_next _ h.head, ringIx_mod, ringIx_succ]
  have hzero : ringIx RING_CAP c.head.toNat 0 = c.head.toNat := Nat.mod_eq_of_lt h.head
  refine ⟨?_, ?_⟩
  · rw [← hfirst, hzero]
  · exact
      { state := h.state
        owner := h.owner
        txCount := h.txCount
        rxCount := congrArg (· + 1) h.rxCount
        head := by
          rw [toNat_next _ h.head]
          exact Nat.mod_lt _ (by decide)
        tail := by
          dsimp only
          rw [hix, htail]
        room := Nat.lt_of_succ_lt hroom
        stores := hrest.congr fun k _ => congrArg (fun cell => (c.ring cell).bytes) (hix k) }

/-! ## The pools -/

/-- Every ring has its queue. -/
def Refines (rings : RingChannels m) (queues : Channels m) : Prop :=
  ∀ i, Holds (rings i) (queues i)

theorem Refines.update {rings : RingChannels m} {queues : Channels m} (h : Refines rings queues)
    (i : Fin m) (hc : Holds c chan) :
    Refines (Function.update rings i c) (Function.update queues i chan) := by
  intro j
  by_cases hj : j = i
  · subst hj
    rwa [Function.update_self, Function.update_self]
  · rw [Function.update_of_ne hj, Function.update_of_ne hj]
    exact h j

section Simulation

variable {rings : RingChannels m} {queues : Channels m} (h : Refines rings queues)
include h

theorem refines_create (caller : UInt32) :
    (channelCreate rings caller).1 = (Channel.channelCreate queues caller).1 ∧
      Refines (channelCreate rings caller).2 (Channel.channelCreate queues caller).2 := by
  have hfree : (fun i => decide ((rings i).state = .free)) =
      fun i => decide ((queues i).state = .free) := by
    funext i
    rw [(h i).state]
  simp only [channelCreate, Channel.channelCreate, hfree]
  cases (List.finRange m).find? fun i => decide ((queues i).state = .free) with
  | none => exact ⟨rfl, h⟩
  | some i => exact ⟨rfl, h.update i (holds_created .active caller)⟩

theorem refines_send (ch : Nat) (data : Bytes) :
    (channelSend rings ch data).1 = (Channel.channelSend queues ch data).1 ∧
      Refines (channelSend rings ch data).2 (Channel.channelSend queues ch data).2 := by
  unfold channelSend Channel.channelSend
  cases Channel.entry m ch with
  | none => exact ⟨rfl, h⟩
  | some i =>
    dsimp only
    have hfull := isFull_iff (h i)
    have hactive : (rings i).state = .active ↔ (queues i).state = .active := by rw [(h i).state]
    by_cases hlen : data.length ≤ MSG_MAX_LEN
    · rw [dif_pos hlen]
      by_cases hstate : (rings i).state = .active
      · by_cases hroom : (queues i).ring.length + 1 = RING_CAP
        · rw [if_neg (not_not.mpr hstate), if_pos (hfull.mpr hroom), if_pos (.inr (.inr hroom))]
          exact ⟨rfl, h⟩
        · have hopen : ¬(data.length > MSG_MAX_LEN ∨ (queues i).state ≠ .active ∨
              (queues i).ring.length + 1 = RING_CAP) := by
            rintro (hbig | hother | hroom')
            · omega
            · exact hother (hactive.mp hstate)
            · exact hroom hroom'
          rw [if_neg (not_not.mpr hstate), if_neg (mt hfull.mp hroom), if_neg hopen]
          exact ⟨rfl, h.update i (holds_send (h i) hlen hroom)⟩
      · rw [if_pos hstate, if_pos (.inr (.inl (mt hactive.mpr hstate)))]
        exact ⟨rfl, h⟩
    · rw [dif_neg hlen, if_pos (.inl (Nat.lt_of_not_le hlen))]
      exact ⟨rfl, h⟩

theorem refines_recvCore (ch bufLen : Nat) (gate : Option UInt32) :
    (recvCore rings ch bufLen gate).1 = (Channel.recvCore queues ch bufLen gate).1 ∧
      Refines (recvCore rings ch bufLen gate).2 (Channel.recvCore queues ch bufLen gate).2 := by
  unfold recvCore Channel.recvCore
  cases Channel.entry m ch with
  | none => exact ⟨rfl, h⟩
  | some i =>
    dsimp only
    have hempty := isEmpty_iff (h i)
    have hactive : (rings i).state = .active ↔ (queues i).state = .active := by rw [(h i).state]
    have howner : (gate.any fun caller => decide ((rings i).owner ≠ caller)) =
        gate.any fun caller => decide ((queues i).owner ≠ caller) := by
      rw [(h i).owner]
    rw [howner]
    by_cases hstate : (rings i).state = .active
    · by_cases hgate : (gate.any fun caller => decide ((queues i).owner ≠ caller)) = true
      · rw [if_neg (not_not.mpr hstate), if_pos hgate, if_pos (.inr hgate)]
        exact ⟨rfl, h⟩
      · rw [if_neg (not_not.mpr hstate), if_neg hgate,
          if_neg (not_or.mpr ⟨not_not.mpr (hactive.mp hstate), hgate⟩)]
        cases hring : (queues i).ring with
        | nil =>
          rw [if_pos (hempty.mpr hring)]
          exact ⟨rfl, h⟩
        | cons msg rest =>
          obtain ⟨hmsg, hholds⟩ := holds_recv (h i) hring
          have hne : ¬(rings i).isEmpty = true := by
            rw [hempty, hring]
            exact List.cons_ne_nil _ _
          rw [if_neg hne]
          refine ⟨?_, h.update i hholds⟩
          dsimp only
          rw [← hmsg, Message.bytes, List.take_take, Nat.min_comm]
    · rw [if_pos hstate, if_pos (.inl (mt hactive.mpr hstate))]
      exact ⟨rfl, h⟩

theorem refines_destroy (ch : Nat) (caller : UInt32) (privileged : Bool) :
    (channelDestroy rings ch caller privileged).1 =
        (Channel.channelDestroy queues ch caller privileged).1 ∧
      Refines (channelDestroy rings ch caller privileged).2
        (Channel.channelDestroy queues ch caller privileged).2 := by
  unfold channelDestroy Channel.channelDestroy
  cases Channel.entry m ch with
  | none => exact ⟨rfl, h⟩
  | some i =>
    dsimp only
    rw [(h i).state, (h i).owner]
    split
    · exact ⟨rfl, h⟩
    · exact ⟨rfl, h.update i holds_zeroed⟩

end Simulation

/-! ## Histories -/

/-- The pool, what was sent on every channel since it was created, and what was received
with which buffer lengths. -/
structure History (m : Nat) where
  pool : RingChannels m
  sent : Nat → List Bytes
  received : Nat → List (Nat × Bytes)

/-- A call. -/
inductive Call where
  | legacy (op : Channel.Op)
  | sendCap (table : CapTable) (level : UInt8) (cap : Cap .channel) (data : Bytes)
  | recvCap (table : CapTable) (level : UInt8) (cap : Cap .channel) (bufLen : Nat)

/-- The call by number that a typed call makes. -/
def Call.plain : Call → Option Channel.Op
  | .legacy op => some op
  | .sendCap table level cap data =>
    if data.length > MSG_MAX_LEN then none
    else
      match table.get level cap .WRITE with
      | .error _ => none
      | .ok chIdx => some (.send chIdx.toNat data)
  | .recvCap table level cap bufLen =>
    match table.get level cap .READ with
    | .error _ => none
    | .ok chIdx => some (.recv chIdx.toNat bufLen 0 true)

/-- The bytes of a typed receive, when it went to a channel. -/
def copied : Except ChannelCapError Bytes → Option Bytes
  | .ok bytes => some bytes
  | .error .empty => some []
  | .error _ => none

/-- There is a message to receive. -/
def waiting (pool : RingChannels m) (ch : Nat) : Bool :=
  match Channel.entry m ch with
  | none => false
  | some i => !(pool i).isEmpty

namespace History

/-- The state at boot. -/
def init (m : Nat) : History m := ⟨fun _ => .zeroed, fun _ => [], fun _ => []⟩

/-- The channel starts anew. -/
def fresh (s : History m) (pool : RingChannels m) (ch : Nat) : History m :=
  ⟨pool, Function.update s.sent ch [], Function.update s.received ch []⟩

def noteSend (s : History m) (pool : RingChannels m) (ch : Nat) (data : Bytes) (accepted : Bool) :
    History m :=
  { s with
    pool := pool
    sent := if accepted then Function.update s.sent ch (s.sent ch ++ [data]) else s.sent }

def noteRecv (s : History m) (pool : RingChannels m) (ch bufLen : Nat) (bytes : Option Bytes) :
    History m :=
  match bytes with
  | none => { s with pool := pool }
  | some bytes =>
    { s with
      pool := pool
      received :=
        if waiting s.pool ch then
          Function.update s.received ch (s.received ch ++ [(bufLen, bytes)])
        else s.received }

def step (s : History m) : Channel.Op → History m
  | .create caller =>
    let out := channelCreate s.pool caller
    match out.1 with
    | none => { s with pool := out.2 }
    | some i => s.fresh out.2 i
  | .send ch data =>
    let out := channelSend s.pool ch data
    s.noteSend out.2 ch data out.1
  | .recv ch bufLen caller privileged =>
    let out := channelRecv s.pool ch bufLen caller privileged
    s.noteRecv out.2 ch bufLen out.1
  | .destroy ch caller privileged =>
    let out := channelDestroy s.pool ch caller privileged
    if out.1 then s.fresh out.2 ch else { s with pool := out.2 }

def call (s : History m) : Call → History m
  | .legacy op => s.step op
  | .sendCap table level cap data =>
    let out := channelSendCap s.pool table level cap data
    match table.get level cap .WRITE with
    | .error _ => { s with pool := out.2 }
    | .ok chIdx => s.noteSend out.2 chIdx.toNat data out.1.isOk
  | .recvCap table level cap bufLen =>
    let out := channelRecvCap s.pool table level cap bufLen
    match table.get level cap .READ with
    | .error _ => { s with pool := out.2 }
    | .ok chIdx => s.noteRecv out.2 chIdx.toNat bufLen (copied out.1)

end History

theorem channelSendCap_eq (pool : RingChannels m) {table : CapTable} {level : UInt8}
    {cap : Cap .channel} {data : Bytes} {chIdx : UInt32} (hlen : ¬data.length > MSG_MAX_LEN)
    (hget : table.get level cap .WRITE = .ok chIdx) :
    (channelSendCap pool table level cap data).1.isOk = (channelSend pool chIdx.toNat data).1 ∧
      (channelSendCap pool table level cap data).2 = (channelSend pool chIdx.toNat data).2 := by
  simp only [channelSendCap, if_neg hlen, hget]
  cases hout : (channelSend pool chIdx.toNat data).1 with
  | true => exact ⟨rfl, rfl⟩
  | false =>
    rw [if_neg Bool.false_ne_true]
    cases Channel.entry m chIdx.toNat with
    | none => exact ⟨rfl, rfl⟩
    | some i =>
      dsimp only
      split <;> exact ⟨rfl, rfl⟩

theorem channelRecvCap_eq (pool : RingChannels m) {table : CapTable} {level : UInt8}
    {cap : Cap .channel} {chIdx : UInt32} (bufLen : Nat)
    (hget : table.get level cap .READ = .ok chIdx) :
    copied (channelRecvCap pool table level cap bufLen).1 =
        (recvCore pool chIdx.toNat bufLen none).1 ∧
      (channelRecvCap pool table level cap bufLen).2 =
        (recvCore pool chIdx.toNat bufLen none).2 := by
  simp only [channelRecvCap, hget]
  rcases (recvCore pool chIdx.toNat bufLen none).1 with _ | _ | ⟨byte, bytes⟩
  · exact ⟨rfl, rfl⟩
  · exact ⟨rfl, rfl⟩
  · exact ⟨rfl, rfl⟩

/-- A typed call is the call by number, once its capability is accepted. -/
theorem call_eq (s : History m) (call : Call) :
    s.call call = match call.plain with
      | none => s
      | some op => s.step op := by
  cases call with
  | legacy op => rfl
  | sendCap table level cap data =>
    by_cases hlen : data.length > MSG_MAX_LEN
    · simp only [History.call, Call.plain, if_pos hlen, channelSendCap]
      cases table.get level cap .WRITE with
      | error e => rfl
      | ok chIdx => rfl
    · simp only [Call.plain, if_neg hlen]
      cases hget : table.get level cap .WRITE with
      | error e => simp only [History.call, channelSendCap, if_neg hlen, hget]
      | ok chIdx =>
        obtain ⟨hok, hpool⟩ := channelSendCap_eq s.pool hlen hget
        simp only [History.call, History.step, hget, hok, hpool]
  | recvCap table level cap bufLen =>
    simp only [Call.plain]
    cases hget : table.get level cap .READ with
    | error e => simp only [History.call, channelRecvCap, hget]
    | ok chIdx =>
      obtain ⟨hbytes, hpool⟩ := channelRecvCap_eq s.pool bufLen hget
      simp only [History.call, History.step, channelRecv, hget, hbytes, hpool, if_true]

/-! ## First in, first out -/

/-- The messages that were sent are those that were received, each up to the length of
its buffer, and then those of the queue. -/
def Fifo (queue sent : List Bytes) (received : List (Nat × Bytes)) : Prop :=
  ∃ taken, sent = taken ++ queue ∧ List.Forall₂ (fun r msg => r.2 = msg.take r.1) received taken

theorem fifo_nil : Fifo [] [] [] := ⟨[], rfl, .nil⟩

theorem Fifo.send (h : Fifo queue sent received) (data : Bytes) :
    Fifo (queue ++ [data]) (sent ++ [data]) received := by
  obtain ⟨taken, hsent, htaken⟩ := h
  exact ⟨taken, by rw [hsent, List.append_assoc], htaken⟩

theorem Fifo.recv {msg : Bytes} {rest : List Bytes} (h : Fifo (msg :: rest) sent received)
    (bufLen : Nat) :
    Fifo rest sent (received ++ [(bufLen, msg.take bufLen)]) := by
  obtain ⟨taken, hsent, htaken⟩ := h
  refine ⟨taken ++ [msg], ?_, List.rel_append htaken (.cons rfl .nil)⟩
  rw [hsent, List.append_assoc, List.singleton_append]

theorem Fifo.length_eq (h : Fifo queue sent received) :
    sent.length = received.length + queue.length := by
  obtain ⟨taken, hsent, htaken⟩ := h
  rw [hsent, List.length_append, htaken.length_eq]

/-- The next message. -/
theorem Fifo.next (h : Fifo queue sent received) : sent[received.length]? = queue.head? := by
  obtain ⟨taken, hsent, htaken⟩ := h
  rw [hsent, htaken.length_eq, List.getElem?_append_right le_rfl, Nat.sub_self,
    List.head?_eq_getElem?]

/-- The rings have their queues, and the queues have what was sent and not received. -/
structure Faithful (s : History m) (queues : Channels m) : Prop where
  refines : Refines s.pool queues
  fifo : ∀ i : Fin m, Fifo (queues i).ring (s.sent i) (s.received i)

theorem faithful_init (m : Nat) : Faithful (History.init m) fun _ => .zeroed :=
  ⟨fun _ => holds_zeroed, fun _ => fifo_nil⟩

/-- A change of one channel. -/
theorem fifo_update {queues : Channels m} {sent : Nat → List Bytes}
    {received : Nat → List (Nat × Bytes)}
    (h : ∀ i : Fin m, Fifo (queues i).ring (sent i) (received i)) (i : Fin m) (chan : Channel)
    {sent' : List Bytes} {received' : List (Nat × Bytes)} (hi : Fifo chan.ring sent' received') :
    ∀ j : Fin m, Fifo (Function.update queues i chan j).ring (Function.update sent i sent' j)
      (Function.update received i received' j) := by
  intro j
  by_cases hj : j = i
  · subst hj
    simpa only [Function.update_self] using hi
  · have hval : (j : Nat) ≠ i := fun heq => hj (Fin.ext heq)
    simpa only [Function.update_of_ne hj, Function.update_of_ne hval] using h j

theorem waiting_iff {rings : RingChannels m} {queues : Channels m} (h : Refines rings queues)
    (i : Fin m) : waiting rings i = true ↔ (queues i).ring ≠ [] := by
  have hentry : Channel.entry m i = some i := Channel.entry_eq_some.mpr rfl
  rw [waiting, hentry, Ne, ← isEmpty_iff (h i), Bool.not_eq_true, Bool.not_eq_true']

theorem faithful_step {s : History m} {queues : Channels m} (h : Faithful s queues)
    (op : Channel.Op) : Faithful (s.step op) (Channel.step queues op) := by
  cases op with
  | create caller =>
    obtain ⟨hans, hpool⟩ := refines_create h.refines caller
    simp only [History.step, Channel.step, hans]
    obtain hout | ⟨i, hout⟩ := Channel.channelCreate_cases queues caller
    · rw [hout] at hpool ⊢
      exact ⟨hpool, h.fifo⟩
    · rw [hout] at hpool ⊢
      exact ⟨hpool, fifo_update h.fifo i _ fifo_nil⟩
  | send ch data =>
    obtain ⟨hans, hpool⟩ := refines_send h.refines ch data
    simp only [History.step, History.noteSend, Channel.step, hans]
    obtain hout | ⟨i, rfl, hout⟩ := Channel.channelSend_cases queues ch data
    · rw [hout] at hpool ⊢
      exact ⟨hpool, h.fifo⟩
    · rw [hout] at hpool ⊢
      refine ⟨hpool, ?_⟩
      have hfifo := fifo_update h.fifo i
        { queues i with ring := (queues i).ring ++ [data], txCount := (queues i).txCount + 1 }
        ((h.fifo i).send data)
      rwa [Function.update_eq_self] at hfifo
  | recv ch bufLen caller privileged =>
    obtain ⟨hans, hpool⟩ := refines_recvCore h.refines ch bufLen
      (if privileged then none else some caller)
    simp only [History.step, channelRecv, Channel.step, Channel.channelRecv, hans]
    obtain hout | ⟨i, rfl, ⟨hring, hout⟩ | ⟨msg, rest, hring, hout⟩⟩ :=
      Channel.recvCore_cases queues ch bufLen (if privileged then none else some caller)
    · rw [hout] at hpool ⊢
      exact ⟨hpool, h.fifo⟩
    · rw [hout] at hpool ⊢
      have hwait : ¬waiting s.pool i = true := by
        rw [waiting_iff h.refines, hring]
        exact fun hne => hne rfl
      simp only [History.noteRecv, if_neg hwait]
      exact ⟨hpool, h.fifo⟩
    · rw [hout] at hpool ⊢
      have hwait : waiting s.pool i = true := by
        rw [waiting_iff h.refines, hring]
        exact List.cons_ne_nil _ _
      have hlog := h.fifo i
      rw [hring] at hlog
      simp only [History.noteRecv, if_pos hwait]
      refine ⟨hpool, ?_⟩
      have hfifo := fifo_update h.fifo i
        { queues i with ring := rest, rxCount := (queues i).rxCount + 1 }
        (hlog.recv bufLen)
      rwa [Function.update_eq_self] at hfifo
  | destroy ch caller privileged =>
    obtain ⟨hans, hpool⟩ := refines_destroy h.refines ch caller privileged
    simp only [History.step, Channel.step, hans]
    obtain hout | ⟨i, rfl, hout⟩ := Channel.channelDestroy_cases queues ch caller privileged
    · rw [hout] at hpool ⊢
      exact ⟨hpool, h.fifo⟩
    · rw [hout] at hpool ⊢
      exact ⟨hpool, fifo_update h.fifo i _ fifo_nil⟩

theorem faithful_run {s : History m} {queues : Channels m} (h : Faithful s queues)
    (calls : List Call) :
    Faithful (run History.call s calls) (run Channel.step queues (calls.filterMap Call.plain)) := by
  induction calls generalizing s queues with
  | nil => exact h
  | cons call calls ih =>
    rw [run_cons, call_eq]
    cases hplain : call.plain with
    | none =>
      rw [List.filterMap_cons_none hplain]
      exact ih h
    | some op =>
      rw [List.filterMap_cons_some hplain, run_cons]
      exact ih (faithful_step h op)

/-! ## The answers and the other channels -/

/-- The channel that a call is about. -/
def opTarget (pool : RingChannels m) : Channel.Op → Option Nat
  | .create caller => (channelCreate pool caller).1.map Fin.val
  | .send ch _ => some ch
  | .recv ch _ _ _ => some ch
  | .destroy ch _ _ => some ch

/-- Nothing but the channel `ch` differs. -/
structure OnlyAt (ch : Option Nat) (s s' : History m) : Prop where
  pool : ∀ i : Fin m, ch ≠ some i.val → s'.pool i = s.pool i
  sent : ∀ k, ch ≠ some k → s'.sent k = s.sent k
  received : ∀ k, ch ≠ some k → s'.received k = s.received k

theorem update_of_target {β : Type} {f : Nat → β} {k : Nat} {b : β} (h : some ch ≠ some k) :
    Function.update f ch b k = f k :=
  Function.update_of_ne (fun heq => h (congrArg some heq.symm)) _ _

theorem onlyAt_fresh {s : History m} {pool : RingChannels m}
    (hpool : ∀ i : Fin m, some ch ≠ some i.val → pool i = s.pool i) :
    OnlyAt (some ch) s (s.fresh pool ch) :=
  ⟨hpool, fun _ h => update_of_target h, fun _ h => update_of_target h⟩

theorem onlyAt_noteSend {s : History m} {pool : RingChannels m}
    (hpool : ∀ i : Fin m, some ch ≠ some i.val → pool i = s.pool i) (data : Bytes)
    (accepted : Bool) : OnlyAt (some ch) s (s.noteSend pool ch data accepted) := by
  cases accepted with
  | false => exact ⟨hpool, fun _ _ => rfl, fun _ _ => rfl⟩
  | true => exact ⟨hpool, fun _ h => update_of_target h, fun _ _ => rfl⟩

theorem onlyAt_noteRecv {s : History m} {pool : RingChannels m}
    (hpool : ∀ i : Fin m, some ch ≠ some i.val → pool i = s.pool i) (bufLen : Nat)
    (bytes : Option Bytes) : OnlyAt (some ch) s (s.noteRecv pool ch bufLen bytes) := by
  cases bytes with
  | none => exact ⟨hpool, fun _ _ => rfl, fun _ _ => rfl⟩
  | some bytes =>
    refine ⟨hpool, fun _ _ => rfl, fun k h => ?_⟩
    simp only [History.noteRecv]
    split
    · exact update_of_target h
    · rfl

/-- An entry is changed at its own index. -/
theorem update_other {pool : RingChannels m} {i : Fin m} (j : Fin m) (h : some i.val ≠ some j.val) :
    Function.update pool i c j = pool j :=
  Function.update_of_ne (fun heq => h (congrArg (fun k : Fin m => some k.val) heq.symm)) _ _

theorem channelSend_other (pool : RingChannels m) (ch : Nat) (data : Bytes) (j : Fin m)
    (h : some ch ≠ some j.val) : (channelSend pool ch data).2 j = pool j := by
  unfold channelSend
  split
  · rfl
  · rename_i i hentry
    obtain rfl := Channel.entry_eq_some.mp hentry
    dsimp only
    split_ifs
    · rfl
    · rfl
    · exact update_other j h
    · rfl

theorem recvCore_other (pool : RingChannels m) (ch bufLen : Nat) (gate : Option UInt32)
    (j : Fin m) (h : some ch ≠ some j.val) : (recvCore pool ch bufLen gate).2 j = pool j := by
  unfold recvCore
  split
  · rfl
  · rename_i i hentry
    obtain rfl := Channel.entry_eq_some.mp hentry
    dsimp only
    split_ifs
    · rfl
    · rfl
    · rfl
    · exact update_other j h

theorem channelDestroy_other (pool : RingChannels m) (ch : Nat) (caller : UInt32)
    (privileged : Bool) (j : Fin m) (h : some ch ≠ some j.val) :
    (channelDestroy pool ch caller privileged).2 j = pool j := by
  unfold channelDestroy
  split
  · rfl
  · rename_i i hentry
    obtain rfl := Channel.entry_eq_some.mp hentry
    split_ifs
    · rfl
    · exact update_other j h

theorem onlyAt_step (s : History m) (op : Channel.Op) :
    OnlyAt (opTarget s.pool op) s (s.step op) := by
  cases op with
  | create caller =>
    simp only [opTarget, History.step, channelCreate]
    cases (List.finRange m).find? fun i => decide ((s.pool i).state = .free) with
    | none => exact ⟨fun _ _ => rfl, fun _ _ => rfl, fun _ _ => rfl⟩
    | some i => exact onlyAt_fresh update_other
  | send ch data => exact onlyAt_noteSend (channelSend_other s.pool ch data) _ _
  | recv ch bufLen caller privileged =>
    exact onlyAt_noteRecv (recvCore_other s.pool ch bufLen _) _ _
  | destroy ch caller privileged =>
    have hpool := channelDestroy_other s.pool ch caller privileged
    simp only [opTarget, History.step]
    split
    · exact onlyAt_fresh hpool
    · exact ⟨hpool, fun _ _ => rfl, fun _ _ => rfl⟩

/-- The channel that a call is about, if it gets as far as a channel. -/
def Call.target (pool : RingChannels m) (call : Call) : Option Nat :=
  call.plain.bind (opTarget pool)

theorem onlyAt_call (s : History m) (call : Call) :
    OnlyAt (call.target s.pool) s (s.call call) := by
  rw [call_eq, Call.target]
  cases call.plain with
  | none => exact ⟨fun _ _ => rfl, fun _ _ => rfl, fun _ _ => rfl⟩
  | some op => exact onlyAt_step s op

section Answers

variable {s : History m} {queues : Channels m} (h : Faithful s queues)
include h

/-- When a send is refused. -/
theorem send_refused_iff (ch : Nat) (data : Bytes) :
    (channelSend s.pool ch data).1 = false ↔
      m ≤ ch ∨ MSG_MAX_LEN < data.length ∨ ∃ i : Fin m, i.val = ch ∧
        ((s.pool i).state ≠ .active ∨
          (s.sent ch).length = (s.received ch).length + (RING_CAP - 1)) := by
  rw [(refines_send h.refines ch data).1]
  unfold Channel.channelSend
  cases hentry : Channel.entry m ch with
  | none =>
    have hout : m ≤ ch := by
      by_contra hlt
      rw [Channel.entry, dif_pos (Nat.lt_of_not_le hlt)] at hentry
      exact Option.some_ne_none _ hentry
    exact iff_of_true rfl (.inl hout)
  | some i =>
    obtain rfl := Channel.entry_eq_some.mp hentry
    have hlen := (h.fifo i).length_eq
    have hfull : (queues i).ring.length + 1 = RING_CAP ↔
        (s.sent i).length = (s.received i).length + (RING_CAP - 1) := by
      rw [hlen, RING_CAP]
      omega
    dsimp only
    split_ifs with hif
    · refine iff_of_true rfl ?_
      obtain hbig | hstate | hring := hif
      · exact .inr (.inl hbig)
      · exact .inr (.inr ⟨i, rfl, .inl (by rwa [(h.refines i).state])⟩)
      · exact .inr (.inr ⟨i, rfl, .inr (hfull.mp hring)⟩)
    · refine iff_of_false not_false ?_
      rintro (hout | hbig | ⟨j, hj, hstate | hring⟩)
      · exact absurd i.isLt (Nat.not_lt_of_le hout)
      · exact hif (.inl hbig)
      · obtain rfl := Fin.ext hj
        exact hif (.inr (.inl (by rwa [← (h.refines j).state])))
      · exact hif (.inr (.inr (hfull.mpr hring)))

/-- What a receive returns. -/
theorem recv_next (i : Fin m) (bufLen : Nat) (gate : Option UInt32) :
    (recvCore s.pool i bufLen gate).1 =
      if (s.pool i).state = .active ∧ (gate.all fun caller => (s.pool i).owner = caller) then
        some (((s.sent i)[(s.received i).length]?.getD []).take bufLen)
      else none := by
  have hentry : Channel.entry m i = some i := Channel.entry_eq_some.mpr rfl
  have hnext := (h.fifo i).next
  rw [(refines_recvCore h.refines i bufLen gate).1, hnext, (h.refines i).state, (h.refines i).owner]
  simp only [Channel.recvCore, hentry]
  by_cases hstate : (queues i).state = .active
  · cases gate with
    | none => cases (queues i).ring <;> simp [hstate]
    | some caller =>
      by_cases howner : (queues i).owner = caller
      · cases (queues i).ring <;> simp [hstate, howner]
      · simp [hstate, howner]
  · simp [hstate]

end Answers

section TypedReceive

variable (pool : RingChannels m) (table : CapTable) (level : UInt8) (cap : Cap .channel)

/-- The active channel that the capability lets its holder read. -/
def readable : Option (Fin m) :=
  match table.get level cap .READ with
  | .error _ => none
  | .ok chIdx => (Channel.entry m chIdx.toNat).filter fun i => (pool i).state = .active

/-- The receive reports an empty ring exactly when the channel has no message, and takes
nothing out when it reports an error. -/
structure RecvHonest (bufLen : Nat) : Prop where
  empty : (channelRecvCap pool table level cap bufLen).1 = .error .empty ↔
    ∃ i, readable pool table level cap = some i ∧ (pool i).isEmpty = true
  kept : ∀ e, (channelRecvCap pool table level cap bufLen).1 = .error e →
    (channelRecvCap pool table level cap bufLen).2 = pool

/-- The next message of the channel has bytes, and the buffer has room for some. -/
def HasBytes (bufLen : Nat) : Prop :=
  ∀ i, readable pool table level cap = some i → (pool i).isEmpty = false →
    0 < bufLen ∧ 0 < ((pool i).ring (pool i).head.toNat).len.toNat

/-- The outcomes of a typed receive: no channel, no message, or the next message. -/
theorem channelRecvCap_cases (bufLen : Nat) :
    (readable pool table level cap = none ∧
      ∃ e, e ≠ .empty ∧ channelRecvCap pool table level cap bufLen = (.error e, pool)) ∨
    ∃ i, readable pool table level cap = some i ∧
      ((pool i).isEmpty = true ∧
          channelRecvCap pool table level cap bufLen = (.error .empty, pool) ∨
        (pool i).isEmpty = false ∧ ∃ pool',
          channelRecvCap pool table level cap bufLen =
            (match ((pool i).ring (pool i).head.toNat).data.take
                (min ((pool i).ring (pool i).head.toNat).len.toNat bufLen) with
              | [] => .error .empty
              | byte :: bytes => .ok (byte :: bytes), pool')) := by
  unfold channelRecvCap readable
  cases hget : table.get level cap .READ with
  | error e => exact .inl ⟨rfl, .cap e, by simp, rfl⟩
  | ok chIdx =>
    simp only [recvCore]
    cases hentry : Channel.entry m chIdx.toNat with
    | none => exact .inl ⟨rfl, .closed, by simp, rfl⟩
    | some i =>
      by_cases hactive : (pool i).state = .active
      · refine .inr ⟨i, by simp [hactive], ?_⟩
        cases hempty : (pool i).isEmpty with
        | true => exact .inl ⟨rfl, by simp [hactive, hempty]⟩
        | false =>
          refine .inr ⟨rfl, Function.update pool i
            { pool i with
              head := ((pool i).head + 1) % 8, rxCount := (pool i).rxCount + 1 }, ?_⟩
          simp only [hactive, hempty, ne_eq, not_true_eq_false, if_false, Option.any_none,
            Bool.false_eq_true]
          generalize List.take _ _ = bytes
          cases bytes <;> rfl
      · exact .inl ⟨by simp [hactive], .closed, by simp, by simp [hactive]⟩

theorem take_eq_nil_iff (msg : Message) (n : Nat) : msg.data.take n = [] ↔ n = 0 := by
  have hsize : msg.data ≠ [] := by
    intro hnil
    have := msg.size
    rw [hnil] at this
    cases this
  simp [List.take_eq_nil_iff, hsize]

/-- A typed receive is honest exactly when it does not meet a message without bytes, or
have a buffer without room. -/
theorem recvHonest_iff (bufLen : Nat) :
    RecvHonest pool table level cap bufLen ↔ HasBytes pool table level cap bufLen := by
  rcases channelRecvCap_cases pool table level cap bufLen with
    ⟨hnone, e, hne, hout⟩ | ⟨i, hsome, ⟨hempty, hout⟩ | ⟨hmessage, pool', hout⟩⟩
  · refine iff_of_true ⟨?_, ?_⟩ ?_
    · rw [hout, hnone]
      simp [hne]
    · intro _ _
      rw [hout]
    · intro j hj
      rw [hnone] at hj
      cases hj
  · refine iff_of_true ⟨?_, ?_⟩ ?_
    · rw [hout]
      exact iff_of_true rfl ⟨i, hsome, hempty⟩
    · intro _ _
      rw [hout]
    · intro j hj hmessage
      obtain rfl := Option.some.inj (hsome.symm.trans hj)
      rw [hempty] at hmessage
      cases hmessage
  · have hnot : ¬∃ j, readable pool table level cap = some j ∧ (pool j).isEmpty = true := by
      rintro ⟨j, hj, hempty⟩
      obtain rfl := Option.some.inj (hsome.symm.trans hj)
      rw [hmessage] at hempty
      cases hempty
    -- The bytes that are copied are none when the message has none or the buffer no room.
    have htake := take_eq_nil_iff ((pool i).ring (pool i).head.toNat)
      (min ((pool i).ring (pool i).head.toNat).len.toNat bufLen)
    generalize ((pool i).ring (pool i).head.toNat).data.take
      (min ((pool i).ring (pool i).head.toNat).len.toNat bufLen) = bytes at hout htake
    cases bytes with
    | nil =>
      refine iff_of_false ?_ ?_
      · intro h
        exact hnot (h.empty.mp (by rw [hout]))
      · intro h
        obtain ⟨hroom, hlen⟩ := h i hsome hmessage
        have := htake.mp rfl
        omega
    | cons byte bytes =>
      refine iff_of_true ⟨?_, ?_⟩ ?_
      · rw [hout]
        exact iff_of_false (by simp) hnot
      · intro e he
        rw [hout] at he
        cases he
      · intro j hj _
        obtain rfl := Option.some.inj (hsome.symm.trans hj)
        have hpos : min ((pool i).ring (pool i).head.toNat).len.toNat bufLen ≠ 0 := by
          intro hzero
          exact absurd (htake.mpr hzero) (List.cons_ne_nil _ _)
        omega

end TypedReceive

theorem zero_lt_maxCaps : 0 < MAX_CAPS_PER_TASK := by decide

/-- The table of a task that may read and write channel 0. -/
def readWriteTable : CapTable :=
  CapTable.empty.set ⟨0, zero_lt_maxCaps⟩ ⟨.channel, .RW, 1, 0⟩

/-- The handle of that capability. -/
def readWriteCap : Cap .channel := ⟨.pack .channel .RW 1 0⟩

/-- A pool with one channel, in which a message without bytes waits. -/
def emptyMessagePool : RingChannels 1 :=
  (channelSendCap (channelCreate (fun _ => .zeroed) 5).2 readWriteTable 0 readWriteCap []).2

/-- The message is accepted by the send, reported as an empty channel by the receive, and
gone afterwards. -/
theorem empty_message_lost :
    (channelSendCap (channelCreate (fun _ : Fin 1 => .zeroed) 5).2 readWriteTable 0 readWriteCap
      []).1 = .ok () ∧
    (emptyMessagePool 0).isEmpty = false ∧
    (channelRecvCap emptyMessagePool readWriteTable 0 readWriteCap 64).1 = .error .empty ∧
    ((channelRecvCap emptyMessagePool readWriteTable 0 readWriteCap 64).2 0).isEmpty = true := by
  decide +kernel

end ChannelRing

end RobotOs.Ipc
