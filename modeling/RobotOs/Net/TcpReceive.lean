import RobotOs.Lib.Ring
import RobotOs.Lib.Run
import RobotOs.Net.Tcp

/-!
# The bytes that a connection receives

The peer of a connection has an initial sequence number and a stream of fewer than 2^31
bytes.  The network loses, repeats and reorders its segments, and each of them is a piece
of the stream at its place.

An `Inbox` has, beside the layer, the peer of the last connection of each slot and the
bytes that `recv` returned for it.  `InStream` is the invariant of a connection that
receives: what was returned, followed by the ring, is the start of the stream, `ack` is
the number of the next byte, and the segments out of order are pieces of the stream.

A slot is not cleared of its segments out of order when it is used again, so the result
needs that there are none.
-/

namespace RobotOs.Net

open RobotOs.Lib.Framing (Bytes)
open RobotOs.Lib.Ring RobotOs.Lib.Run

/-! ## The peer -/

/-- The other end of a connection. -/
structure Peer where
  isn : UInt32
  stream : Bytes
  short : stream.length < 2147483648

namespace Peer

def silent : Peer := ⟨0, [], Nat.succ_pos _⟩

/-- The sequence number of a byte of the stream. -/
def seqOf (p : Peer) (off : Nat) : UInt32 := p.isn + 1 + UInt32.ofNat off

/-- The data is in the stream, at its sequence number. -/
def Piece (p : Peer) (seq : UInt32) (data : Bytes) : Prop :=
  ∃ off < p.stream.length + 1, seq = p.seqOf off ∧ data <+: p.stream.drop off

/-- A segment of the peer: a SYN at its initial number, or a piece of the stream. -/
def Sends (p : Peer) (seg : Segment) : Prop :=
  (seg.has TCP_SYN = true → seg.seq = p.isn) ∧
    (seg.payload ≠ [] → p.Piece seg.seq seg.payload)

instance (p : Peer) (seq : UInt32) (data : Bytes) : Decidable (p.Piece seq data) :=
  inferInstanceAs (Decidable (∃ off, off < _ ∧ _))

instance (p : Peer) (seg : Segment) : Decidable (p.Sends seg) :=
  inferInstanceAs (Decidable ((_ → _) ∧ (_ → _)))

variable {p : Peer}

theorem seqOf_add (off n : Nat) : p.seqOf off + UInt32.ofNat n = p.seqOf (off + n) := by
  rw [seqOf, seqOf, UInt32.ofNat_add]
  ac_rfl

/-- The stream is short enough for its numbers to be different. -/
theorem seqOf_inj {a b : Nat} (ha : a < p.stream.length + 1) (hb : b < p.stream.length + 1)
    (h : p.seqOf a = p.seqOf b) : a = b := by
  have hshort := p.short
  have hnat : UInt32.ofNat a = UInt32.ofNat b := (UInt32.add_right_inj _).mp h
  have hmod := congrArg UInt32.toNat hnat
  rw [UInt32.toNat_ofNat', UInt32.toNat_ofNat'] at hmod
  omega

/-- The data of a piece at the number of a byte stands at that byte. -/
theorem Piece.at_seqOf {data : Bytes} {got : Nat} (h : p.Piece (p.seqOf got) data)
    (hgot : got < p.stream.length + 1) : data <+: p.stream.drop got := by
  obtain ⟨off, hoff, hseq, hdata⟩ := h
  rw [seqOf_inj hgot hoff hseq]
  exact hdata

theorem Piece.of_prefix {seq : UInt32} {data data' : Bytes} (h : p.Piece seq data)
    (hpre : data' <+: data) : p.Piece seq data' := by
  obtain ⟨off, hoff, hseq, hdata⟩ := h
  exact ⟨off, hoff, hseq, hpre.trans hdata⟩

end Peer

/-! ## The ring -/

namespace Limits

variable (lim : Limits)

theorem bufSize_pos : 0 < lim.bufSize := Nat.two_pow_pos _

theorem and_bufMask (n : Nat) : n &&& lim.bufMask = n % lim.bufSize :=
  Nat.and_two_pow_sub_one_eq_mod n lim.bufBits

end Limits

namespace TcpConn

variable {lim : Limits} {p : Peer} {c c' : TcpConn} {d l data : Bytes} {seg : Segment}

/-- The bytes in the ring of the connection. -/
def Holding (lim : Limits) (c : TcpConn) (l : Bytes) : Prop :=
  Between lim.bufSize c.rxBuf c.rxHead c.rxTail l

theorem Holding.rxAvailable (h : c.Holding lim l) : c.rxAvailable lim = l.length :=
  h.length_eq

/-- The ring takes a start of the bytes. -/
theorem Holding.pushRx (h : c.Holding lim l) (bytes : Bytes) :
    (pushRx lim c bytes).1 ≤ bytes.length ∧
      (pushRx lim c bytes).2.Holding lim (l ++ bytes.take (pushRx lim c bytes).1) := by
  induction bytes generalizing c l with
  | nil =>
    refine ⟨le_rfl, ?_⟩
    rw [List.take_nil, List.append_nil]
    exact h
  | cons byte bytes ih =>
    rw [TcpConn.pushRx, Limits.and_bufMask]
    dsimp only
    split_ifs with hfull
    · refine ⟨Nat.zero_le _, ?_⟩
      rw [List.take_zero, List.append_nil]
      exact h
    · have hpush := Between.push h (Between.room_of_ne h hfull) byte
      obtain ⟨hle, hnext⟩ := ih (c := { c with
        rxBuf := Function.update c.rxBuf c.rxTail byte
        rxTail := (c.rxTail + 1) % lim.bufSize }) hpush
      refine ⟨Nat.succ_le_succ hle, ?_⟩
      rw [List.take_succ_cons, List.append_cons]
      exact hnext

theorem Holding.readRx {n : Nat} (h : c.Holding lim l) (hn : n ≤ l.length) :
    (readRx lim n c).1 = l.take n ∧ (readRx lim n c).2.Holding lim (l.drop n) := by
  induction n generalizing c l with
  | zero => exact ⟨rfl, h⟩
  | succ n ih =>
    cases l with
    | nil => exact absurd hn (Nat.not_succ_le_zero n)
    | cons byte bytes =>
      obtain ⟨hbyte, hrest⟩ := Between.pop h
      obtain ⟨htake, hdrop⟩ := ih (c := { c with rxHead := (c.rxHead + 1) % lim.bufSize }) hrest
        (Nat.le_of_succ_le_succ hn)
      rw [TcpConn.readRx, Limits.and_bufMask, Limits.and_bufMask]
      exact ⟨by rw [htake, hbyte, List.take_succ_cons], hdrop⟩

/-- `recv` returns a start of the ring, and leaves the rest. -/
theorem Holding.recv (h : c.Holding lim l) (len : Nat) :
    ∃ l', l = ((c.recv lim len).1.getD []) ++ l' ∧ (c.recv lim len).2.1.Holding lim l' := by
  unfold TcpConn.recv
  dsimp only
  rw [h.rxAvailable]
  split_ifs
  · exact ⟨l, rfl, h⟩
  · exact ⟨l, rfl, h⟩
  all_goals
    obtain ⟨htake, hdrop⟩ := h.readRx (Nat.min_le_left l.length len)
    refine ⟨_, ?_, hdrop⟩
    rw [htake]
    exact (List.take_append_drop _ l).symm

/-! ## The stream -/

/-- What was returned, followed by the ring, is the start of the stream. -/
structure Got (lim : Limits) (p : Peer) (d : Bytes) (c : TcpConn) (got : Nat) : Prop where
  bound : got < p.stream.length + 1
  start : ∃ l, c.Holding lim l ∧ d ++ l = p.stream.take got

/-- The segments out of order are pieces of the stream. -/
def Pieces (p : Peer) (c : TcpConn) : Prop :=
  ∀ i, i < OOO_MAX_SEGMENTS → (c.oooBuf i).valid = true →
    p.Piece (c.oooBuf i).seq (c.oooBuf i).data

/-- A connection that receives the stream of its peer. -/
def InStream (lim : Limits) (p : Peer) (d : Bytes) (c : TcpConn) : Prop :=
  Pieces p c ∧ ∃ got, c.ack = p.seqOf got ∧ Got lim p d c got

/-- The ring is the same. -/
def SameRing (c c' : TcpConn) : Prop :=
  c'.rxBuf = c.rxBuf ∧ c'.rxHead = c.rxHead ∧ c'.rxTail = c.rxTail

theorem Got.same {got : Nat} (h : Got lim p d c got) (hsame : SameRing c c') :
    Got lim p d c' got := by
  obtain ⟨l, hl, hstart⟩ := h.start
  obtain ⟨hbuf, hhead, htail⟩ := hsame
  refine ⟨h.bound, l, ?_, hstart⟩
  rw [Holding, hbuf, hhead, htail]
  exact hl

theorem InStream.same (h : InStream lim p d c) (hring : SameRing c c') (hack : c'.ack = c.ack)
    (hooo : c'.oooBuf = c.oooBuf) : InStream lim p d c' := by
  obtain ⟨hpieces, got, hseq, hgot⟩ := h
  refine ⟨?_, got, hack.trans hseq, hgot.same hring⟩
  unfold Pieces
  rw [hooo]
  exact hpieces

/-- A piece that continues the stream, as far as the ring takes it. -/
theorem Got.pushRx {got : Nat} (h : Got lim p d c got) (hdata : data <+: p.stream.drop got) :
    Got lim p d (pushRx lim c data).2 (got + (pushRx lim c data).1) := by
  obtain ⟨l, hl, hstart⟩ := h.start
  obtain ⟨hle, hnext⟩ := hl.pushRx data
  have hlen := hdata.length_le
  have hbound := h.bound
  rw [List.length_drop] at hlen
  refine ⟨by omega, _, hnext, ?_⟩
  rw [← List.append_assoc, hstart, List.take_add]
  congr 1
  obtain ⟨rest, hrest⟩ := hdata
  rw [← hrest, List.take_append_of_le_length hle]

/-- Bytes at the number of the next one are received, and `ack` counts them. -/
theorem InStream.receive (h : InStream lim p d c) (hdata : p.Piece c.ack data)
    (hring : SameRing (TcpConn.pushRx lim c data).2 c')
    (hack : c'.ack = c.ack + UInt32.ofNat (TcpConn.pushRx lim c data).1) (hooo : Pieces p c') :
    InStream lim p d c' := by
  obtain ⟨-, got, hseq, hgot⟩ := h
  rw [hseq] at hdata hack
  refine ⟨hooo, got + (TcpConn.pushRx lim c data).1, ?_, ?_⟩
  · rw [hack, Peer.seqOf_add]
  · exact (hgot.pushRx (hdata.at_seqOf hgot.bound)).same hring

theorem pieces_update {i : Nat} {entry : OooSegment} (h : Pieces p c)
    (hentry : entry.valid = true → p.Piece entry.seq entry.data)
    (hooo : c'.oooBuf = Function.update c.oooBuf i entry) : Pieces p c' := by
  intro j hj hvalid
  rw [hooo] at hvalid ⊢
  by_cases hij : j = i
  · subst hij
    rw [Function.update_self] at hvalid ⊢
    exact hentry hvalid
  · rw [Function.update_of_ne hij] at hvalid ⊢
    exact h j hj hvalid

theorem InStream.flushOne {more : Bool} (h : InStream lim p d c)
    (hone : c.flushOne lim = some (c', more)) : InStream lim p d c' := by
  unfold TcpConn.flushOne at hone
  cases hfind : (List.range OOO_MAX_SEGMENTS).find? fun i =>
      (c.oooBuf i).valid && (c.oooBuf i).seq = c.ack with
  | none =>
    rw [hfind] at hone
    cases hone
  | some i =>
    rw [hfind] at hone
    have hentry := List.find?_some hfind
    have hrange := List.mem_range.mp (List.mem_of_find?_eq_some hfind)
    rw [Bool.and_eq_true, decide_eq_true_iff] at hentry
    have hdata : p.Piece c.ack (c.oooBuf i).data := by
      rw [← hentry.2]
      exact h.1 i hrange hentry.1
    obtain ⟨_, _, hframe⟩ := pushRx_frame lim c (c.oooBuf i).data
    dsimp only at hone
    split_ifs at hone
    · obtain ⟨rfl, -⟩ := Prod.mk.inj (Option.some.inj hone)
      refine h.receive hdata ⟨rfl, rfl, rfl⟩ rfl ?_
      exact pieces_update (i := i) h.1 (fun hvalid => Bool.noConfusion hvalid) rfl
    · obtain ⟨rfl, -⟩ := Prod.mk.inj (Option.some.inj hone)
      refine h.receive hdata ⟨rfl, rfl, rfl⟩ rfl ?_
      rw [hframe]
      exact h.1

theorem InStream.flushOooSegments (h : InStream lim p d c) (fuel : Nat) :
    InStream lim p d (flushOooSegments lim fuel c) := by
  induction fuel generalizing c with
  | zero => exact h
  | succ fuel ih =>
    rw [TcpConn.flushOooSegments]
    cases hone : c.flushOne lim with
    | none => exact h
    | some out =>
      obtain ⟨c', more⟩ := out
      have hnext := h.flushOne hone
      cases more with
      | true => exact ih hnext
      | false => exact hnext

theorem InStream.storeOooSegment {seq : UInt32} (h : InStream lim p d c)
    (hdata : p.Piece seq data) : InStream lim p d (c.storeOooSegment seq data) := by
  obtain ⟨hpieces, got, hseq, hgot⟩ := h
  unfold TcpConn.storeOooSegment
  dsimp only
  split_ifs
  · exact ⟨hpieces, got, hseq, hgot⟩
  · exact ⟨hpieces, got, hseq, hgot⟩
  · obtain ⟨slot, count⟩ := c.oooSlot
    cases slot with
    | none => exact ⟨hpieces, got, hseq, hgot.same ⟨rfl, rfl, rfl⟩⟩
    | some i =>
      refine ⟨pieces_update (i := i) hpieces ?_ rfl, got, hseq, hgot.same ⟨rfl, rfl, rfl⟩⟩
      intro _
      exact hdata.of_prefix (List.take_prefix _ _)

theorem InStream.payloadProcessing {now : Nat} (h : InStream lim p d c) (hseg : p.Sends seg) :
    InStream lim p d (c.payloadProcessing lim now seg).1 := by
  unfold TcpConn.payloadProcessing
  by_cases hempty : seg.payload = []
  · rw [if_pos hempty]
    exact h
  · have hdata := hseg.2 hempty
    rw [if_neg hempty]
    split_ifs with hnext
    · apply InStream.flushOooSegments
      rw [hnext] at hdata
      obtain ⟨_, _, hframe⟩ := pushRx_frame lim c seg.payload
      refine h.receive hdata ⟨rfl, rfl, rfl⟩ (by rw [hnext]) ?_
      rw [hframe]
      exact h.1
    · exact (h.storeOooSegment hdata).same ⟨rfl, rfl, rfl⟩ rfl rfl
    · exact h

/-! ## A segment -/

/-- What the invariant of a connection asks in its state. -/
def Live (lim : Limits) (p : Peer) (d : Bytes) (c : TcpConn) : Prop :=
  match c.state with
  | .synSent => Pieces p c ∧ Got lim p d c 0
  | .synRcvd => InStream lim p d c
  | .established => InStream lim p d c
  | _ => ∃ got, Got lim p d c got

theorem Live.got (h : c.Live lim p d) : ∃ got, Got lim p d c got := by
  unfold Live at h
  cases hstate : c.state <;> rw [hstate] at h
  case synSent => exact ⟨0, h.2⟩
  case synRcvd => exact h.2.imp fun _ h => h.2
  case established => exact h.2.imp fun _ h => h.2
  all_goals exact h

theorem InStream.ackProcessing (h : InStream lim p d c) (now : Nat) :
    InStream lim p d (c.ackProcessing now seg).1 := by
  obtain ⟨-, _, _, _, _, -, heq⟩ | ⟨-, _, _, _, _, _, _, -, heq⟩ := ackProcessing_cases c now seg
  · rw [heq]
    exact h.same ⟨rfl, rfl, rfl⟩ rfl rfl
  · rw [heq]
    exact h.same ⟨rfl, rfl, rfl⟩ rfl rfl

/-- A segment for an established connection, and the end of the stream with it. -/
theorem InStream.handleEstablished (h : InStream lim p d c) (hstate : c.state = .established)
    (hseg : p.Sends seg) (now : Nat) :
    ((c.handleEstablished lim now seg).1).Live lim p d := by
  have hlive : ∀ c' : TcpConn, c'.state = .established → InStream lim p d c' →
      c'.Live lim p d := by
    intro c' hstate' h'
    rw [Live, hstate']
    exact h'
  obtain heq | ⟨-, c₁, c₂, hack, hrecv, hpayload, hend⟩ := handleEstablished_cases lim c now seg
  · rw [heq]
    exact hlive c hstate h
  · have h₁ : InStream lim p d c₁ := by
      obtain rfl | ⟨-, rfl⟩ := hack
      · exact h
      · exact h.ackProcessing now
    have hstate₁ : c₁.state = .established := by
      obtain rfl | ⟨-, rfl⟩ := hack
      · exact hstate
      · obtain ⟨-, _, _, _, _, -, heq⟩ | ⟨-, _, _, _, _, _, _, -, heq⟩ :=
          ackProcessing_cases c now seg <;> rw [heq] <;> exact hstate
    have h₂ : InStream lim p d c₂ := by
      obtain rfl | rfl := hpayload
      · exact h₁
      · exact h₁.payloadProcessing hseg
    have hstate₂ : c₂.state = .established := by
      obtain ⟨_, _, _, _, _, _, rfl⟩ := hrecv
      exact hstate₁
    obtain heq | heq := hend
    · rw [heq]
      exact hlive c₂ hstate₂ h₂
    · rw [heq]
      exact h₂.2.imp fun _ hgot => hgot.2.same ⟨rfl, rfl, rfl⟩

theorem Live.handleConn (h : c.Live lim p d) (hseg : p.Sends seg) (now : Nat) :
    ((c.handleConn lim now seg).1).Live lim p d := by
  have hring : ∃ got, Got lim p d c got := h.got
  unfold TcpConn.handleConn
  by_cases hrst : seg.has TCP_RST = true
  · rw [if_pos hrst]
    split_ifs
    · exact h
    · exact hring.imp fun _ hgot => hgot.same ⟨rfl, rfl, rfl⟩
  · rw [if_neg hrst]
    have hlive := h
    unfold Live at hlive
    cases hstate : c.state <;> rw [hstate] at hlive <;> dsimp only
    case synSent =>
      split_ifs with hsyn
      · rw [Bool.and_eq_true, Bool.and_eq_true] at hsyn
        have hack : seg.seq + 1 = p.seqOf 0 := by
          rw [hseg.1 hsyn.1.1, Peer.seqOf]
          exact (UInt32.add_zero _).symm
        exact ⟨hlive.1, 0, hack, hlive.2.same ⟨rfl, rfl, rfl⟩⟩
      · exact h
    case synRcvd =>
      split_ifs
      · exact hlive.same ⟨rfl, rfl, rfl⟩ rfl rfl
      · exact h
    case established => exact hlive.handleEstablished hstate hseg now
    case finWait1 =>
      dsimp only [enterTimeWait]
      split_ifs
      · exact hring.imp fun _ hgot => hgot.same ⟨rfl, rfl, rfl⟩
      · exact hring.imp fun _ hgot => hgot.same ⟨rfl, rfl, rfl⟩
      · exact h
      · exact hring.imp fun _ hgot => hgot.same ⟨rfl, rfl, rfl⟩
      · exact h
    case finWait2 =>
      dsimp only [enterTimeWait]
      split_ifs
      · exact hring.imp fun _ hgot => hgot.same ⟨rfl, rfl, rfl⟩
      · exact h
    case lastAck =>
      split_ifs
      · exact hring.imp fun _ hgot => hgot.same ⟨rfl, rfl, rfl⟩
      · exact h
    all_goals exact h

/-! ## The other calls -/

/-- A call that keeps the state, the next number and the segments out of order. -/
theorem Live.map {d' : Bytes} (h : c.Live lim p d) (hstate : c'.state = c.state)
    (hack : c'.ack = c.ack) (hooo : c'.oooBuf = c.oooBuf)
    (hgot : ∀ got, Got lim p d c got → Got lim p d' c' got) : c'.Live lim p d' := by
  have hpieces : Pieces p c → Pieces p c' := fun h => by
    rw [Pieces, hooo]
    exact h
  have hstream : InStream lim p d c → InStream lim p d' c' := fun h =>
    ⟨hpieces h.1, h.2.imp fun got h' => ⟨hack.trans h'.1, hgot got h'.2⟩⟩
  unfold Live at h ⊢
  rw [hstate]
  cases hs : c.state <;> rw [hs] at h <;> dsimp only at h ⊢
  case synSent => exact ⟨hpieces h.1, hgot 0 h.2⟩
  case synRcvd => exact hstream h
  case established => exact hstream h
  all_goals exact h.imp hgot

theorem Live.same (h : c.Live lim p d) (hstate : c'.state = c.state) (hring : SameRing c c')
    (hack : c'.ack = c.ack) (hooo : c'.oooBuf = c.oooBuf) : c'.Live lim p d :=
  h.map hstate hack hooo fun _ hgot => hgot.same hring

/-- A connection that is closed, or on its way there. -/
theorem Live.ended (h : c.Live lim p d) (hring : SameRing c c')
    (hstate : c'.state = .closed ∨ c'.state = .listen ∨ c'.state = .finWait1 ∨
      c'.state = .lastAck) : c'.Live lim p d := by
  have hgot := h.got.imp fun _ hgot => hgot.same hring
  unfold Live
  obtain hs | hs | hs | hs := hstate <;> rw [hs] <;> exact hgot

theorem Live.close (h : c.Live lim p d) : ((c.close lim).1).Live lim p d := by
  unfold TcpConn.close
  cases c.state
  case established => exact h.ended ⟨rfl, rfl, rfl⟩ (.inr (.inr (.inl rfl)))
  case closeWait => exact h.ended ⟨rfl, rfl, rfl⟩ (.inr (.inr (.inr rfl)))
  all_goals exact h.ended ⟨rfl, rfl, rfl⟩ (.inl rfl)

theorem Live.tickConn (h : c.Live lim p d) (now : Nat) :
    ((c.tickConn lim now).1).Live lim p d := by
  obtain ⟨_, _, _, heq⟩ | ⟨-, _, heq⟩ | ⟨-, _, _, _, -, heq⟩ | ⟨-, _, _, heq⟩ :=
    tickConn_cases lim c now
  · rw [heq]
    exact h.ended ⟨rfl, rfl, rfl⟩ (.inl rfl)
  · rw [heq]
    exact h.same rfl ⟨rfl, rfl, rfl⟩ rfl rfl
  · rw [heq]
    exact h.same rfl ⟨rfl, rfl, rfl⟩ rfl rfl
  · rw [heq]
    exact h.same rfl ⟨rfl, rfl, rfl⟩ rfl rfl

theorem Live.sendData (h : c.Live lim p d) (now : Nat) (linkOk : Bool) (data : Bytes) :
    ((c.sendData lim now linkOk data).2.1).Live lim p d := by
  obtain heq | ⟨-, _, -, -, -, heq⟩ := sendData_cases lim c now linkOk data
  · rw [heq]
    exact h
  · rw [heq]
    exact h.same rfl ⟨rfl, rfl, rfl⟩ rfl rfl

/-- What `recv` returns moves from the ring to the bytes that were returned. -/
theorem Got.recv {got : Nat} (h : Got lim p d c got) (len : Nat) :
    Got lim p (d ++ (c.recv lim len).1.getD []) (c.recv lim len).2.1 got := by
  obtain ⟨l, hl, hstart⟩ := h.start
  obtain ⟨l', hl', hrest⟩ := hl.recv len
  refine ⟨h.bound, l', hrest, ?_⟩
  rw [← hstart, hl', List.append_assoc]

theorem Live.recv (h : c.Live lim p d) (len : Nat) :
    ((c.recv lim len).2.1).Live lim p (d ++ (c.recv lim len).1.getD []) := by
  obtain ⟨_, heq⟩ := recv_frame lim c len
  have hsame : (c.recv lim len).2.1.state = c.state ∧ (c.recv lim len).2.1.ack = c.ack ∧
      (c.recv lim len).2.1.oooBuf = c.oooBuf := by
    rw [heq]
    exact ⟨rfl, rfl, rfl⟩
  exact h.map hsame.1 hsame.2.1 hsame.2.2 fun _ hgot => hgot.recv len

/-- A slot without segments out of order. -/
def Clean (c : TcpConn) : Prop := ∀ i, i < OOO_MAX_SEGMENTS → (c.oooBuf i).valid = false

instance (c : TcpConn) : Decidable c.Clean :=
  inferInstanceAs (Decidable (∀ i, i < OOO_MAX_SEGMENTS → (c.oooBuf i).valid = false))

/-- An empty ring at the start of the stream. -/
theorem got_start (hhead : c.rxHead = 0) (htail : c.rxTail = 0) : Got lim p [] c 0 where
  bound := Nat.succ_pos _
  start := by
    refine ⟨[], ?_, rfl⟩
    rw [Holding, hhead, htail]
    exact .empty _ lim.bufSize_pos

theorem Clean.pieces (h : c.Clean) (hooo : c'.oooBuf = c.oooBuf) : Pieces p c' := by
  intro i hi hvalid
  rw [hooo, h i hi] at hvalid
  cases hvalid

end TcpConn

/-! ## The slots of the layer -/

/-- A call, and the peer of the connection that it opens. -/
structure Event (lim : Limits) where
  op : Op lim
  peer : Peer

/-- The layer, the peer of the last connection of each slot, and the bytes that `recv`
returned for it. -/
structure Inbox (lim : Limits) where
  layer : TcpLayer lim
  peer : Fin lim.maxConns → Peer
  returned : Fin lim.maxConns → Bytes

namespace Inbox

variable {lim : Limits}

def boot (ip : UInt32) : Inbox lim := ⟨.init lim ip, fun _ => .silent, fun _ => []⟩

/-- The call opens a connection in the slot. -/
def opens (s : Inbox lim) (op : Op lim) (i : Fin lim.maxConns) : Bool :=
  (s.layer.conns i).state = .closed &&
    (((Net.step s.layer op).conns i).state = .synSent ||
      ((Net.step s.layer op).conns i).state = .synRcvd)

/-- What the call returns from the slot. -/
def answer (s : Inbox lim) (op : Op lim) (i : Fin lim.maxConns) : Bytes :=
  match op with
  | .recv j len => if j = i then ((s.layer.conns i).recv lim len).1.getD [] else []
  | _ => []

def step (s : Inbox lim) (ev : Event lim) : Inbox lim where
  layer := Net.step s.layer ev.op
  peer i := if s.opens ev.op i then ev.peer else s.peer i
  returned i := if s.opens ev.op i then [] else s.returned i ++ s.answer ev.op i

/-- A segment is one of the peer of the connection that it reaches or opens. -/
def SegmentFrom (s : Inbox lim) (ev : Event lim) (seg : Segment) : Prop :=
  ∀ i, (s.layer.findConn seg.dstPort seg.srcIp seg.srcPort = some i → (s.peer i).Sends seg) ∧
    (s.opens ev.op i = true → ev.peer.Sends seg)

instance (s : Inbox lim) (ev : Event lim) (seg : Segment) : Decidable (s.SegmentFrom ev seg) :=
  inferInstanceAs (Decidable (∀ i : Fin lim.maxConns,
    (s.layer.findConn seg.dstPort seg.srcIp seg.srcPort = some i → _) ∧ _))

/-- Segments come from the peers. -/
def FromPeer (s : Inbox lim) (ev : Event lim) : Prop :=
  match ev.op with
  | .handle _ _ seg => s.SegmentFrom ev seg
  | _ => True

instance (s : Inbox lim) : ∀ ev : Event lim, Decidable (s.FromPeer ev)
  | ⟨.handle now isn seg, p⟩ =>
    inferInstanceAs (Decidable (s.SegmentFrom ⟨.handle now isn seg, p⟩ seg))
  | ⟨.listen _, _⟩ => isTrue trivial
  | ⟨.connect _ _ _ _ _, _⟩ => isTrue trivial
  | ⟨.accept _, _⟩ => isTrue trivial
  | ⟨.send _ _ _ _, _⟩ => isTrue trivial
  | ⟨.recv _ _, _⟩ => isTrue trivial
  | ⟨.close _, _⟩ => isTrue trivial
  | ⟨.tick _, _⟩ => isTrue trivial

/-- A slot that is used again has no segments out of order. -/
def CleanOpen (s : Inbox lim) (ev : Event lim) : Prop :=
  ∀ i, s.opens ev.op i = true → (s.layer.conns i).Clean

instance (s : Inbox lim) (ev : Event lim) : Decidable (s.CleanOpen ev) :=
  inferInstanceAs (Decidable (∀ i : Fin lim.maxConns, s.opens ev.op i = true → _))

/-- Every slot has the start of a stream. -/
def Faithful (s : Inbox lim) : Prop :=
  ∀ i, (s.layer.conns i).Live lim (s.peer i) (s.returned i)

theorem faithful_boot (ip : UInt32) : (boot ip : Inbox lim).Faithful :=
  fun _ => ⟨0, TcpConn.got_start rfl rfl⟩

variable {s : Inbox lim} {op : Op lim} {ev : Event lim} {i : Fin lim.maxConns}

/-- A call that does not open a connection in the slot. -/
theorem live_of_not_opens (hopens : s.opens ev.op i = false)
    (h : ((Net.step s.layer ev.op).conns i).Live lim (s.peer i)
      (s.returned i ++ s.answer ev.op i)) :
    ((s.step ev).layer.conns i).Live lim ((s.step ev).peer i) ((s.step ev).returned i) := by
  dsimp only [step]
  rw [hopens, if_neg Bool.false_ne_true, if_neg Bool.false_ne_true]
  exact h

/-- A call that opens a connection in the slot. -/
theorem live_of_opens (hopens : s.opens ev.op i = true)
    (h : ((Net.step s.layer ev.op).conns i).Live lim ev.peer []) :
    ((s.step ev).layer.conns i).Live lim ((s.step ev).peer i) ((s.step ev).returned i) := by
  dsimp only [step]
  rw [hopens, if_pos rfl, if_pos rfl]
  exact h

theorem answer_of_slot (h : op.slot ≠ some i) : s.answer op i = [] := by
  cases op with
  | recv j len => exact if_neg fun hij => h (congrArg some hij)
  | _ => rfl

/-- A call that opens no connection in the slot continues the one that is there. -/
theorem live_moves {c' : TcpConn} (h : (s.layer.conns i).Live lim (s.peer i) (s.returned i))
    (hseg : ∀ now isn seg, op = .handle now isn seg →
      s.layer.findConn seg.dstPort seg.srcIp seg.srcPort = some i → (s.peer i).Sends seg)
    (hmoves : Moves s.layer i op c')
    (hopens : (s.layer.conns i).state = .closed → c'.state ≠ .synSent ∧ c'.state ≠ .synRcvd) :
    c'.Live lim (s.peer i) (s.returned i ++ s.answer op i) := by
  have hnone : ∀ c' : TcpConn, s.answer op i = [] → c'.Live lim (s.peer i) (s.returned i) →
      c'.Live lim (s.peer i) (s.returned i ++ s.answer op i) := by
    intro c' hanswer hlive
    rw [hanswer, List.append_nil]
    exact hlive
  cases hmoves with
  | stays _ hother => exact hnone _ (answer_of_slot hother) h
  | listen port => exact hnone _ rfl (h.ended ⟨rfl, rfl, rfl⟩ (.inr (.inl rfl)))
  | connect now isn dstIp dstPort srcPort hclosed => exact absurd rfl (hopens hclosed).1
  | accept port => exact hnone _ rfl (h.same rfl ⟨rfl, rfl, rfl⟩ rfl rfl)
  | send now linkOk data => exact hnone _ rfl (h.sendData now linkOk data)
  | recv len =>
    have hanswer : s.answer (.recv i len) i = ((s.layer.conns i).recv lim len).1.getD [] :=
      if_pos rfl
    rw [hanswer]
    exact h.recv len
  | close => exact hnone _ rfl h.close
  | segment now isn seg hfound =>
    exact hnone _ rfl (h.handleConn (hseg now isn seg rfl hfound) now)
  | syn now isn seg hclosed => exact absurd rfl (hopens hclosed).2
  | tick now => exact hnone _ rfl (h.tickConn now)

/-- A call that opens a connection in a clean slot starts at the start of the stream. -/
theorem live_opened {p : Peer} {c' : TcpConn} (hclean : (s.layer.conns i).Clean)
    (hseg : ∀ now isn seg, op = .handle now isn seg → p.Sends seg) (hmoves : Moves s.layer i op c')
    (hclosed : (s.layer.conns i).state = .closed)
    (hopens : c'.state = .synSent ∨ c'.state = .synRcvd) : c'.Live lim p [] := by
  have hnot : ∀ st, c'.state = st → st = .closed ∨ st = .listen → c'.Live lim p [] := by
    rintro st hst (rfl | rfl)
    · simp [hst] at hopens
    · simp [hst] at hopens
  cases hmoves with
  | stays => exact hnot _ hclosed (.inl rfl)
  | listen port => exact hnot _ rfl (.inr rfl)
  | connect now isn dstIp dstPort srcPort => exact ⟨hclean.pieces rfl, TcpConn.got_start rfl rfl⟩
  | accept port => exact hnot _ hclosed (.inl rfl)
  | send now linkOk data =>
    obtain heq | ⟨hstate, -⟩ := TcpConn.sendData_cases lim (s.layer.conns i) now linkOk data
    · exact hnot .closed (by rw [heq, hclosed]) (.inl rfl)
    · exact TcpState.noConfusion (hclosed.symm.trans hstate)
  | recv len =>
    obtain ⟨_, heq⟩ := TcpConn.recv_frame lim (s.layer.conns i) len
    exact hnot .closed (by rw [heq, hclosed]) (.inl rfl)
  | close => exact hnot .closed (by rw [TcpConn.close, hclosed]) (.inl rfl)
  | segment now isn seg hfound => exact absurd hclosed (s.layer.findConn_spec hfound).1
  | syn now isn seg _ hsyn =>
    have hack : seg.seq + 1 = p.seqOf 0 := by
      rw [(hseg now isn seg rfl).1 hsyn, Peer.seqOf]
      exact (UInt32.add_zero _).symm
    exact ⟨hclean.pieces rfl, 0, hack, TcpConn.got_start rfl rfl⟩
  | tick now =>
    exact hnot .closed (by rw [TcpConn.tickConn, if_pos (.inl hclosed), hclosed]) (.inl rfl)

theorem faithful_step (s : Inbox lim) (ev : Event lim) (h : s.Faithful)
    (hev : s.FromPeer ev ∧ s.CleanOpen ev) : (s.step ev).Faithful := by
  intro i
  have hmoves := step_moves s.layer ev.op i
  cases hopens : s.opens ev.op i with
  | false =>
    refine live_of_not_opens hopens (live_moves (h i) ?_ hmoves ?_)
    · intro now isn seg hop hfound
      have hpeer := hev.1
      rw [FromPeer, hop] at hpeer
      exact (hpeer i).1 hfound
    · intro hclosed
      simpa [opens, hclosed] using hopens
  | true =>
    have hstates := hopens
    simp only [opens, Bool.and_eq_true, Bool.or_eq_true, decide_eq_true_iff] at hstates
    refine live_of_opens hopens (live_opened (hev.2 i hopens) ?_ hmoves hstates.1 hstates.2)
    intro now isn seg hop
    have hpeer := hev.1
    rw [FromPeer, hop] at hpeer
    exact (hpeer i).2 hopens

def robotLimits : Limits := ⟨8, 12⟩

theorem robotLimits_maxConns_pos : 0 < robotLimits.maxConns := Nat.succ_pos 7

def robotSlot : Fin robotLimits.maxConns := ⟨0, robotLimits_maxConns_pos⟩

theorem firstStream_short : [1, 2, 3].length < 2147483648 := by decide

theorem secondStream_short : [9, 8].length < 2147483648 := by decide

def firstPeer : Peer := ⟨500, [1, 2, 3], firstStream_short⟩

def secondPeer : Peer := ⟨500, [9, 8], secondStream_short⟩

/-- A segment of one of the two peers, who have different ports. -/
def dataSegment (port : UInt16) (flags : UInt8) (seq ackNum : UInt32) (payload : Bytes) :
    Segment where
  srcIp := 0x0A000202
  srcPort := port
  dstPort := 4000
  seq := seq
  ackNum := ackNum
  flags := flags
  window := 4096
  options := []
  payload := payload

/-- A segment arrives before the one that it follows. -/
def outOfOrder : List (Event robotLimits) :=
  [⟨.connect 10 1000 0x0A000202 80 4000, firstPeer⟩,
    ⟨.handle 20 0 (dataSegment 80 0x12 500 1001 []), firstPeer⟩,
    ⟨.handle 30 0 (dataSegment 80 0x10 502 1001 [2, 3]), firstPeer⟩]

/-- The peer resets the connection, and another one is opened in the slot. -/
def reused : List (Event robotLimits) :=
  outOfOrder ++
    [⟨.handle 40 0 (dataSegment 80 0x04 501 0 []), firstPeer⟩,
      ⟨.connect 50 2000 0x0A000202 81 4000, secondPeer⟩,
      ⟨.handle 60 0 (dataSegment 81 0x12 500 2001 []), secondPeer⟩,
      ⟨.handle 70 0 (dataSegment 81 0x10 501 2001 [9]), secondPeer⟩,
      ⟨.recv robotSlot 16, secondPeer⟩]

/-- The missing segment arrives, and the stream is read. -/
def reordered : List (Event robotLimits) :=
  outOfOrder ++
    [⟨.handle 40 0 (dataSegment 80 0x10 501 1001 [1]), firstPeer⟩,
      ⟨.recv robotSlot 2, firstPeer⟩]

end Inbox

end RobotOs.Net
