import RobotOs.Lib.Run
import RobotOs.Net.Tcp

/-!
# The bytes that wait for their acknowledgement

`send_all_with_yield` hands over a segment when the last one is acknowledged, and the
connection keeps the segment until then.  A `Ledger` has, beside the layer, the bytes
that each connection put on the wire and that the peer did not acknowledge, with their
sequence numbers.  An acknowledgement is cumulative: it takes the bytes before its number
off the ledger.

The connection drops the whole segment at the first acknowledgement that reaches into it,
so it keeps what is on the ledger as long as every acknowledgement takes nothing or
everything.
-/

namespace RobotOs.Net

open RobotOs.Lib.Framing (Bytes)
open RobotOs.Lib.Run

/-! ## The ledger -/

/-- A byte with its sequence number. -/
abbrev Numbered := UInt32 × UInt8

/-- The bytes with their sequence numbers, from `seq` on. -/
def numbered : UInt32 → Bytes → List Numbered
  | _, [] => []
  | seq, byte :: bytes => (seq, byte) :: numbered (seq + 1) bytes

/-- What a cumulative acknowledgement leaves: the bytes up to the one before `ackNum` are
received. -/
def acknowledge (ackNum : UInt32) (sent : List Numbered) : List Numbered :=
  match sent.findIdx? fun b => b.1 + 1 = ackNum with
  | none => sent
  | some k => sent.drop (k + 1)

namespace TcpConn

/-- The connection reads the acknowledgement of the segment. -/
def readsAck (lim : Limits) (seg : Segment) (c : TcpConn) : Bool :=
  c.state = .established && !seg.has TCP_RST && seg.has TCP_ACK &&
    segmentAcceptable lim seg.seq seg.payload.length c.ack

/-- The acknowledgement of the segment takes nothing or everything. -/
def Whole (lim : Limits) (seg : Segment) (c : TcpConn) (sent : List Numbered) : Prop :=
  c.readsAck lim seg = true →
    acknowledge seg.ackNum sent = sent ∨ acknowledge seg.ackNum sent = []

instance (lim : Limits) (seg : Segment) (c : TcpConn) (sent : List Numbered) :
    Decidable (c.Whole lim seg sent) :=
  inferInstanceAs (Decidable (_ → _))

end TcpConn

/-- The layer, and what is sent and not acknowledged. -/
structure Ledger (lim : Limits) where
  layer : TcpLayer lim
  sent : Fin lim.maxConns → List Numbered

namespace Ledger

variable {lim : Limits}

def boot (ip : UInt32) : Ledger lim := ⟨.init lim ip, fun _ => []⟩

/-- The bytes of a connection after a call. -/
def record (s : Ledger lim) (op : Op lim) (i : Fin lim.maxConns) : List Numbered :=
  match op with
  | .send j now linkOk data =>
    if j = i then
      s.sent i ++ ((s.layer.conns i).sendData lim now linkOk data).2.2.flatMap fun e =>
        numbered e.seq e.data
    else s.sent i
  | .handle _ _ seg =>
    if s.layer.findConn seg.dstPort seg.srcIp seg.srcPort = some i ∧
        (s.layer.conns i).readsAck lim seg = true then
      acknowledge seg.ackNum (s.sent i)
    else s.sent i
  | _ => s.sent i

/-- The loop of `send_all_with_yield` yields while a segment is in flight. -/
def yields (s : Ledger lim) : Op lim → Bool
  | .send i _ _ _ => (s.layer.conns i).unacked
  | _ => false

/-- A call, with the sends of `send_all_with_yield`.  The bytes of a closed connection are
not owed any more. -/
def step (s : Ledger lim) (op : Op lim) : Ledger lim :=
  if s.yields op then s
  else
    { layer := Net.step s.layer op
      sent := fun i =>
        if ((Net.step s.layer op).conns i).state = .closed then [] else s.record op i }

/-- A segment that arrives acknowledges nothing or everything of what is owed. -/
def WholeAcks (s : Ledger lim) : Op lim → Prop
  | .handle _ _ seg => ∀ i, s.layer.findConn seg.dstPort seg.srcIp seg.srcPort = some i →
      (s.layer.conns i).Whole lim seg (s.sent i)
  | _ => True

instance (s : Ledger lim) : ∀ op : Op lim, Decidable (s.WholeAcks op)
  | .handle _ _ seg => inferInstanceAs (Decidable (∀ i : Fin lim.maxConns,
      s.layer.findConn seg.dstPort seg.srcIp seg.srcPort = some i → _))
  | .listen _ => isTrue trivial
  | .connect _ _ _ _ _ => isTrue trivial
  | .accept _ => isTrue trivial
  | .send _ _ _ _ => isTrue trivial
  | .recv _ _ => isTrue trivial
  | .close _ => isTrue trivial
  | .tick _ => isTrue trivial

end Ledger

/-- The byte is in the buffer of the retransmission, at its sequence number. -/
def TcpConn.Holds (c : TcpConn) (b : Numbered) : Prop :=
  c.unacked = true ∧ ∃ k < c.retxLen, c.retxSeq + UInt32.ofNat k = b.1 ∧ c.retxBuf[k]? = some b.2

/-! ## Sequence numbers -/

theorem add_ofNat_succ (seq : UInt32) (k : Nat) :
    seq + UInt32.ofNat (k + 1) = seq + 1 + UInt32.ofNat k := by
  rw [UInt32.ofNat_add]
  ac_rfl

theorem mem_numbered {seq : UInt32} {data : Bytes} {b : Numbered} :
    b ∈ numbered seq data ↔ ∃ k, seq + UInt32.ofNat k = b.1 ∧ data[k]? = some b.2 := by
  induction data generalizing seq with
  | nil => simp [numbered]
  | cons byte bytes ih =>
    rw [numbered, List.mem_cons, ih]
    constructor
    · rintro (rfl | ⟨k, hseq, hget⟩)
      · exact ⟨0, by simp, rfl⟩
      · exact ⟨k + 1, (add_ofNat_succ seq k).trans hseq, hget⟩
    · rintro ⟨k, hseq, hget⟩
      cases k with
      | zero =>
        left
        rw [List.getElem?_cons_zero, Option.some_inj] at hget
        exact Prod.ext (hseq.symm.trans (by simp)) hget.symm
      | succ k =>
        exact .inr ⟨k, (add_ofNat_succ seq k).symm.trans hseq, hget⟩

/-- An acknowledgement right after a byte of the ledger takes something off. -/
theorem acknowledge_ne {sent : List Numbered} {b : Numbered} (hb : b ∈ sent) :
    acknowledge (b.1 + 1) sent ≠ sent := by
  unfold acknowledge
  cases hidx : sent.findIdx? fun b' => b'.1 + 1 = b.1 + 1 with
  | none =>
    have := List.findIdx?_eq_none_iff.mp hidx b hb
    simp at this
  | some k =>
    intro heq
    have hlen := congrArg List.length heq
    have hpos := List.length_pos_of_mem hb
    rw [List.length_drop] at hlen
    omega

/-- An acknowledgement that ends the wait is right after a byte of the segment. -/
theorem exists_acknowledged {a retxSeq : UInt32} {retxLen : Nat} {data : Bytes}
    (h : isAckAdvancing a retxSeq retxLen = true) (hlen : retxLen ≤ data.length) :
    ∃ b ∈ numbered retxSeq (data.take retxLen), b.1 + 1 = a := by
  obtain ⟨n, hn, ha⟩ : ∃ n, n + 1 ≤ retxLen ∧ a = retxSeq + UInt32.ofNat (n + 1) := by
    unfold isAckAdvancing at h
    split_ifs at h with hzero
    rw [Bool.or_eq_true, Bool.and_eq_true, decide_eq_true_iff, decide_eq_true_iff,
      decide_eq_true_iff] at h
    obtain ⟨hpos, hle⟩ | hend := h
    · refine ⟨(a - retxSeq).toNat - 1, by omega, ?_⟩
      rw [Nat.sub_add_cancel hpos, UInt32.ofNat_toNat, UInt32.add_comm, UInt32.sub_add_cancel]
    · refine ⟨retxLen - 1, by omega, ?_⟩
      rw [Nat.sub_add_cancel (Nat.pos_of_ne_zero hzero), hend]
  have hget : n < (data.take retxLen).length := by
    rw [List.length_take]
    omega
  refine ⟨(retxSeq + UInt32.ofNat n, (data.take retxLen)[n]), mem_numbered.mpr ⟨n, rfl, ?_⟩, ?_⟩
  · exact List.getElem?_eq_getElem hget
  · rw [ha, add_ofNat_succ]
    dsimp only
    ac_rfl

/-! ## The segment in the buffer -/

namespace TcpConn

variable {lim : Limits} {c c' : TcpConn} {sent : List Numbered}

/-- What the connection owes is the segment in the buffer. -/
def Keeps (c : TcpConn) (sent : List Numbered) : Prop :=
  sent ≠ [] → c.unacked = true ∧ c.retxLen ≤ c.retxBuf.length ∧
    sent = numbered c.retxSeq (c.retxBuf.take c.retxLen)

theorem keeps_nil (c : TcpConn) : c.Keeps [] := fun h => absurd rfl h

theorem Keeps.holds (h : c.Keeps sent) {b : Numbered} (hb : b ∈ sent) : c.Holds b := by
  obtain ⟨hwaits, hlen, hsent⟩ := h (List.ne_nil_of_mem hb)
  rw [hsent] at hb
  obtain ⟨k, hseq, hget⟩ := mem_numbered.mp hb
  have hk : k < (c.retxBuf.take c.retxLen).length :=
    (List.getElem?_eq_some_iff.mp hget).1
  rw [List.length_take, Nat.min_eq_left hlen] at hk
  rw [List.getElem?_take_of_lt hk] at hget
  exact ⟨hwaits, k, hk, hseq, hget⟩

/-- The buffer is the same. -/
def SameBuffer (c c' : TcpConn) : Prop :=
  c'.unacked = c.unacked ∧ c'.retxLen = c.retxLen ∧ c'.retxBuf = c.retxBuf ∧
    c'.retxSeq = c.retxSeq

theorem Keeps.same (h : c.Keeps sent) (hsame : SameBuffer c c') : c'.Keeps sent := by
  obtain ⟨hwaits, hlen, hbuf, hseq⟩ := hsame
  unfold Keeps
  rw [hwaits, hlen, hbuf, hseq]
  exact h

theorem sameBuffer_received (h : Received c c') : SameBuffer c c' := by
  obtain ⟨_, _, _, _, _, _, rfl⟩ := h
  exact ⟨rfl, rfl, rfl, rfl⟩

theorem sameBuffer_moved (h : Moved c c') : SameBuffer c c' := by
  obtain ⟨_, _, _, _, _, _, _, _, rfl⟩ := h
  exact ⟨rfl, rfl, rfl, rfl⟩

/-- A call that leaves the connection open leaves the buffer as it is, except for a send
and for an acknowledgement that ends the wait. -/
theorem sameBuffer_tickConn (now : Nat) (h : (c.tickConn lim now).1.state ≠ .closed) :
    SameBuffer c (c.tickConn lim now).1 := by
  obtain ⟨_, _, _, heq⟩ | ⟨-, _, heq⟩ | ⟨-, _, _, _, -, heq⟩ | ⟨-, _, _, heq⟩ :=
    tickConn_cases lim c now
  · rw [heq] at h
    exact absurd rfl h
  · rw [heq]
    exact ⟨rfl, rfl, rfl, rfl⟩
  · rw [heq]
    exact ⟨rfl, rfl, rfl, rfl⟩
  · rw [heq]
    exact ⟨rfl, rfl, rfl, rfl⟩

theorem sameBuffer_close (h : (c.close lim).1.state ≠ .closed) :
    SameBuffer c (c.close lim).1 := by
  unfold TcpConn.close at h ⊢
  cases hstate : c.state <;> rw [hstate] at h
  case established => exact ⟨rfl, rfl, rfl, rfl⟩
  case closeWait => exact ⟨rfl, rfl, rfl, rfl⟩
  all_goals exact absurd rfl h

/-- An acknowledgement that ends the wait takes the whole segment off the ledger. -/
theorem Keeps.acknowledged (h : c.Keeps sent) {ackNum : UInt32}
    (hadv : isAckAdvancing ackNum c.retxSeq c.retxLen = true)
    (hwhole : acknowledge ackNum sent = sent ∨ acknowledge ackNum sent = []) :
    acknowledge ackNum sent = [] := by
  by_cases hsent : sent = []
  · rw [hsent]
    rfl
  · obtain ⟨-, hlen, heq⟩ := h hsent
    obtain ⟨b, hb, rfl⟩ := exists_acknowledged hadv hlen
    rw [← heq] at hb
    exact hwhole.resolve_left (acknowledge_ne hb)

/-- The processing of an acknowledgement that takes nothing or everything. -/
theorem Keeps.ackProcessing (h : c.Keeps sent) (now : Nat) (seg : Segment)
    (hwhole : acknowledge seg.ackNum sent = sent ∨ acknowledge seg.ackNum sent = []) :
    ((c.ackProcessing now seg).1).Keeps (acknowledge seg.ackNum sent) := by
  obtain ⟨hadv, -⟩ | ⟨-, _, _, _, _, _, _, -, heq⟩ := ackProcessing_cases c now seg
  · rw [h.acknowledged (Bool.and_eq_true_iff.mp hadv).2 hwhole]
    exact keeps_nil _
  · obtain hsame | hnil := hwhole
    · rw [hsame, heq]
      exact h.same ⟨rfl, rfl, rfl, rfl⟩
    · rw [hnil]
      exact keeps_nil _

/-- What is owed after a segment. -/
def owed (lim : Limits) (seg : Segment) (c : TcpConn) (sent : List Numbered) : List Numbered :=
  if c.readsAck lim seg = true then acknowledge seg.ackNum sent else sent

/-- A segment that leaves the buffer as it is. -/
theorem Keeps.owed_same {seg : Segment} (h : c.Keeps sent) (hwhole : c.Whole lim seg sent)
    (hsame : SameBuffer c c') : c'.Keeps (c.owed lim seg sent) := by
  unfold owed
  split_ifs with hreads
  · obtain heq | hnil := hwhole hreads
    · rw [heq]
      exact h.same hsame
    · rw [hnil]
      exact keeps_nil _
  · exact h.same hsame

theorem Keeps.handleEstablished {seg : Segment} (h : c.Keeps sent) (now : Nat)
    (hwhole : c.Whole lim seg sent) (hstate : c.state = .established)
    (hrst : seg.has TCP_RST = false) :
    ((c.handleEstablished lim now seg).1).Keeps (c.owed lim seg sent) := by
  obtain heq | ⟨hacceptable, c₁, c₂, hack, hrecv, -, hend⟩ := handleEstablished_cases lim c now seg
  · rw [heq]
    exact h.owed_same hwhole ⟨rfl, rfl, rfl, rfl⟩
  · have h₁ : c₁.Keeps (c.owed lim seg sent) := by
      obtain rfl | ⟨hflag, rfl⟩ := hack
      · exact h.owed_same hwhole ⟨rfl, rfl, rfl, rfl⟩
      · have hreads : c.readsAck lim seg = true := by
          simp [readsAck, hstate, hrst, hflag, hacceptable]
        rw [owed, if_pos hreads]
        exact h.ackProcessing now seg (hwhole hreads)
    have h₂ : c₂.Keeps (c.owed lim seg sent) := h₁.same (sameBuffer_received hrecv)
    obtain heq | heq := hend
    · rw [heq]
      exact h₂
    · rw [heq]
      exact h₂.same ⟨rfl, rfl, rfl, rfl⟩

theorem Keeps.handleConn {seg : Segment} (h : c.Keeps sent) (now : Nat)
    (hwhole : c.Whole lim seg sent) (hopen : (c.handleConn lim now seg).1.state ≠ .closed) :
    ((c.handleConn lim now seg).1).Keeps (c.owed lim seg sent) := by
  obtain ⟨⟨hstate, hrst⟩, heq⟩ | ⟨_, _, _, _, heq⟩ | ⟨hmoved, -⟩ := handleConn_cases lim c now seg
  · rw [heq]
    exact h.handleEstablished now hwhole hstate hrst
  · rw [heq] at hopen
    exact absurd rfl hopen
  · exact h.owed_same hwhole (sameBuffer_moved hmoved)

/-- A send from a connection that owes nothing. -/
theorem keeps_sendData (now : Nat) (linkOk : Bool) (data : Bytes) :
    ((c.sendData lim now linkOk data).2.1).Keeps
      ((c.sendData lim now linkOk data).2.2.flatMap fun e => numbered e.seq e.data) := by
  obtain heq | ⟨-, n, -, hle, -, heq⟩ := sendData_cases lim c now linkOk data
  · rw [heq]
    exact keeps_nil _
  · rw [heq]
    refine fun _ => ⟨rfl, ?_, ?_⟩
    · exact (List.length_take_of_le hle).ge
    · rw [List.take_take, Nat.min_self]
      exact List.append_nil _

end TcpConn

/-! ## Runs -/

namespace Ledger

variable {lim : Limits}

/-- Every connection keeps what it owes, and a closed one owes nothing. -/
structure Retains (s : Ledger lim) : Prop where
  closed : ∀ i, (s.layer.conns i).state = .closed → s.sent i = []
  keeps : ∀ i, (s.layer.conns i).Keeps (s.sent i)

theorem retains_boot (ip : UInt32) : (boot ip : Ledger lim).Retains :=
  ⟨fun _ _ => rfl, fun _ => TcpConn.keeps_nil _⟩

/-- A segment takes bytes off the ledger of the connection that it belongs to. -/
theorem record_found (s : Ledger lim) (now : Nat) (isn : UInt32) {seg : Segment}
    {i : Fin lim.maxConns}
    (hfound : s.layer.findConn seg.dstPort seg.srcIp seg.srcPort = some i) :
    s.record (.handle now isn seg) i = (s.layer.conns i).owed lim seg (s.sent i) := by
  simp only [record, hfound, true_and, TcpConn.owed]

theorem record_other (s : Ledger lim) (now : Nat) (isn : UInt32) {seg : Segment}
    {i : Fin lim.maxConns}
    (hother : s.layer.findConn seg.dstPort seg.srcIp seg.srcPort ≠ some i) :
    s.record (.handle now isn seg) i = s.sent i :=
  if_neg fun h => hother h.1

/-- The connections after a call that is made. -/
theorem keeps_moves {s : Ledger lim} {op : Op lim} (h : s.Retains) (hyields : s.yields op = false)
    (hwhole : s.WholeAcks op) {i : Fin lim.maxConns} {c' : TcpConn}
    (hmoves : Moves s.layer i op c') (hopen : c'.state ≠ .closed) : c'.Keeps (s.record op i) := by
  cases hmoves with
  | stays _ hother =>
    cases op with
    | send j now linkOk data =>
      have hrecord : s.record (.send j now linkOk data) i = s.sent i :=
        if_neg fun hij => hother (congrArg some hij)
      rw [hrecord]
      exact h.keeps i
    | handle now isn seg =>
      by_cases hfound : s.layer.findConn seg.dstPort seg.srcIp seg.srcPort = some i
      · rw [s.record_found now isn hfound]
        exact (h.keeps i).owed_same (hwhole i hfound) ⟨rfl, rfl, rfl, rfl⟩
      · rw [s.record_other now isn hfound]
        exact h.keeps i
    | _ => exact h.keeps i
  | listen port hclosed =>
    have hnil : s.record (.listen port) i = [] := h.closed i hclosed
    rw [hnil]
    exact TcpConn.keeps_nil _
  | connect now isn dstIp dstPort srcPort hclosed =>
    have hnil : s.record (.connect now isn dstIp dstPort srcPort) i = [] := h.closed i hclosed
    rw [hnil]
    exact TcpConn.keeps_nil _
  | accept port => exact (h.keeps i).same ⟨rfl, rfl, rfl, rfl⟩
  | send now linkOk data =>
    have hnil : s.sent i = [] := by
      by_contra hne
      exact Bool.false_ne_true (hyields.symm.trans ((h.keeps i) hne).1)
    have hrecord : s.record (.send i now linkOk data) i =
        ((s.layer.conns i).sendData lim now linkOk data).2.2.flatMap
          fun e => numbered e.seq e.data := by
      rw [record, if_pos rfl, hnil, List.nil_append]
    rw [hrecord]
    exact TcpConn.keeps_sendData now linkOk data
  | recv len =>
    obtain ⟨_, heq⟩ := TcpConn.recv_frame lim (s.layer.conns i) len
    rw [heq]
    exact (h.keeps i).same ⟨rfl, rfl, rfl, rfl⟩
  | close => exact (h.keeps i).same (TcpConn.sameBuffer_close hopen)
  | segment now isn seg hfound =>
    rw [s.record_found now isn hfound]
    exact (h.keeps i).handleConn now (hwhole i hfound) hopen
  | syn now isn seg hclosed =>
    have hother : s.layer.findConn seg.dstPort seg.srcIp seg.srcPort ≠ some i := fun hfound =>
      (s.layer.findConn_spec hfound).1 hclosed
    rw [s.record_other now isn hother, h.closed i hclosed]
    exact TcpConn.keeps_nil _
  | tick now => exact (h.keeps i).same (TcpConn.sameBuffer_tickConn now hopen)

theorem retains_step (s : Ledger lim) (op : Op lim) (h : s.Retains) (hwhole : s.WholeAcks op) :
    (s.step op).Retains := by
  unfold step
  cases hyields : s.yields op with
  | true => exact h
  | false =>
    rw [if_neg Bool.false_ne_true]
    refine ⟨fun i hclosed => if_pos hclosed, fun i => ?_⟩
    dsimp only
    split_ifs with hclosed
    · exact TcpConn.keeps_nil _
    · exact keeps_moves h hyields hwhole (step_moves s.layer op i) hclosed

/-- In every run of sends, segments and ticks whose acknowledgements take nothing or
everything of what is owed, every byte that is sent and not acknowledged is in the buffer
of the retransmission with its sequence number, until the connection is closed. -/
theorem sent_bytes_held (ip : UInt32) (ops : List (Op lim))
    (hops : Guarded step WholeAcks (boot ip) ops) (i : Fin lim.maxConns) :
    ∀ b ∈ (run step (boot ip) ops).sent i, ((run step (boot ip) ops).layer.conns i).Holds b := by
  have hretains : (run step (boot ip) ops).Retains :=
    run_invariant_of_guarded Retains retains_step (retains_boot ip) hops
  intro b hb
  exact (hretains.keeps i).holds hb

/-! ### A partial acknowledgement -/

def clientLimits : Limits := ⟨8, 12⟩

theorem clientLimits_maxConns_pos : 0 < clientLimits.maxConns := Nat.succ_pos 7

/-- The slot of the connection. -/
def clientSlot : Fin clientLimits.maxConns := ⟨0, clientLimits_maxConns_pos⟩

/-- A segment of the peer without data. -/
def peerSegment (flags : UInt8) (seq ackNum : UInt32) : Segment where
  srcIp := 0x0A000202
  srcPort := 80
  dstPort := 4000
  seq := seq
  ackNum := ackNum
  flags := flags
  window := 4096
  options := []
  payload := []

/-- A connection is opened, and three bytes are sent. -/
def threeSent : List (Op clientLimits) :=
  [.connect 10 1000 0x0A000202 80 4000, .handle 20 0 (peerSegment 0x12 500 1001),
    .send clientSlot 30 true [71, 69, 84]]

/-- The peer acknowledges the first of the three bytes. -/
def firstAcked : List (Op clientLimits) :=
  threeSent ++ [.handle 40 0 (peerSegment TCP_ACK 501 1002)]

/-- The peer acknowledges the three bytes, and more are sent and sent again. -/
def allAcked : List (Op clientLimits) :=
  threeSent ++ [.handle 40 0 (peerSegment TCP_ACK 501 1004),
    .send clientSlot 50 true [47, 10], .tick 20000000]

/-- A partial acknowledgement drops the rest of the segment. -/
theorem partial_ack_drops_bytes :
    (run step (boot 0x0A00020F) firstAcked).sent clientSlot = [(1002, 69), (1003, 84)] ∧
      ((run step (boot 0x0A00020F) firstAcked).layer.conns clientSlot).state = .established ∧
      ¬((run step (boot 0x0A00020F) firstAcked).layer.conns clientSlot).Holds (1002, 69) := by
  refine ⟨by decide +kernel, by decide +kernel, fun h => ?_⟩
  have hfree :
      ((run step (boot 0x0A00020F) firstAcked).layer.conns clientSlot).unacked = false := by
    decide +kernel
  exact Bool.false_ne_true (hfree.symm.trans h.1)

theorem sent_bytes_held_allAcked :
    (run step (boot 0x0A00020F) allAcked).sent clientSlot = [(1004, 47), (1005, 10)] ∧
      ∀ b ∈ (run step (boot 0x0A00020F) allAcked).sent clientSlot,
        ((run step (boot 0x0A00020F) allAcked).layer.conns clientSlot).Holds b :=
  ⟨by decide +kernel, sent_bytes_held 0x0A00020F allAcked (by decide +kernel) clientSlot⟩

end Ledger

end RobotOs.Net
