import RobotOs.Net.Tcp

/-!
# Segments that were received already

When an acknowledgement is lost, the peer sends its data again.  Such a segment lies below the
next expected number, and only an acknowledgement of it ends the retransmissions.

`segment_acceptable` takes a segment whose first byte is in the receive window, and the others
are dropped without an answer.  `acknowledges_iff` says which data segments are answered, and that
no segment below the window is.
-/

namespace RobotOs.Net

namespace TcpConn

variable (lim : Limits) (now : Nat) (seg : Segment) (c : TcpConn)

/-- The connection answers the segment with the number that it expects then. -/
def Acknowledges : Prop :=
  ∃ e ∈ (c.handleConn lim now seg).2, e.flags = TCP_ACK ∧ e.ack = (c.handleConn lim now seg).1.ack

/-- All of the segment is below the next expected number: its first byte is less than half of the
sequence numbers behind, and its last byte is behind. -/
def Below : Prop :=
  seg.payload.length ≤ (c.ack - seg.seq).toNat ∧ (c.ack - seg.seq).toNat < 2147483648

theorem ackProcessing_ack : (c.ackProcessing now seg).1.ack = c.ack := by
  obtain ⟨-, _, _, _, _, -, heq⟩ | ⟨-, _, _, _, _, _, _, -, heq⟩ := ackProcessing_cases c now seg
  · rw [heq]
  · rw [heq]

variable {seg}

/-- A payload in the window is answered. -/
theorem payloadProcessing_answers (hdata : seg.payload ≠ [])
    (hin : (seg.seq - c.ack).toNat < lim.windowSize) :
    ∃ e ∈ (c.payloadProcessing lim now seg).2,
      e.flags = TCP_ACK ∧ e.ack = (c.payloadProcessing lim now seg).1.ack := by
  unfold payloadProcessing
  rw [if_neg hdata]
  split_ifs
  · exact ⟨_, List.mem_singleton_self _, rfl, rfl⟩
  · exact ⟨_, List.mem_singleton_self _, rfl, rfl⟩

/-- The answer to a FIN has the number behind it, and without one nothing changes. -/
theorem finProcessing_answers (seg : Segment) (expected : UInt32) :
    c.finProcessing lim now seg expected = (c, []) ∨
      ∃ e ∈ (c.finProcessing lim now seg expected).2,
        e.flags = TCP_ACK ∧ e.ack = (c.finProcessing lim now seg expected).1.ack := by
  unfold finProcessing
  split_ifs
  · exact .inl rfl
  · exact .inl rfl
  · exact .inl rfl
  · exact .inr ⟨_, List.mem_singleton_self _, rfl, rfl⟩

/-- A data segment in the window is answered. -/
theorem handleEstablished_answers (hdata : seg.payload ≠ [])
    (hin : seqInWindow seg.seq c.ack lim.windowSize = true) :
    ∃ e ∈ (c.handleEstablished lim now seg).2,
      e.flags = TCP_ACK ∧ e.ack = (c.handleEstablished lim now seg).1.ack := by
  have hacceptable : segmentAcceptable lim seg.seq seg.payload.length c.ack = true := by
    rw [segmentAcceptable, hin, Bool.true_or]
  have hack : (if seg.has TCP_ACK then c.ackProcessing now seg else (c, false)).1.ack = c.ack := by
    split_ifs
    · exact c.ackProcessing_ack now seg
    · rfl
  unfold handleEstablished
  rw [hacceptable]
  dsimp only
  generalize (if seg.has TCP_ACK then c.ackProcessing now seg else (c, false)) = out at hack
  rw [if_neg (by simp), if_neg (by simp [hdata])]
  have hwindow : (seg.seq - out.1.ack).toNat < lim.windowSize := by
    rw [hack]
    exact of_decide_eq_true hin
  obtain ⟨e, he, hflags, hnum⟩ := out.1.payloadProcessing_answers lim now hdata hwindow
  obtain hsame | ⟨e', he', hflags', hnum'⟩ :=
    (out.1.payloadProcessing lim now seg).1.finProcessing_answers lim now seg c.ack
  · rw [hsame]
    exact ⟨e, by simp [he], hflags, hnum⟩
  · exact ⟨e', by simp [he'], hflags', hnum'⟩

/-- A segment below the next expected number does not start in the window. -/
theorem Below.outside (hdata : seg.payload ≠ []) (h : Below seg c) :
    seqInWindow seg.seq c.ack lim.windowSize = false := by
  obtain ⟨hlen, hhalf⟩ := h
  have hpos : 0 < seg.payload.length := List.length_pos_iff.mpr hdata
  have hmax : lim.windowSize ≤ 65535 := Nat.min_le_right _ _
  have hseq := seg.seq.toNat_lt
  have hack := c.ack.toNat_lt
  rw [seqInWindow, decide_eq_false_iff_not]
  rw [UInt32.toNat_sub] at hlen hhalf ⊢
  omega

/-- A data segment for an established connection is acknowledged exactly when its first byte is in
the receive window and it is not a reset.  So a segment below the next expected number, which
the peer sends again because an acknowledgement was lost, is never acknowledged. -/
theorem acknowledges_iff (hstate : c.state = .established) (hdata : seg.payload ≠ []) :
    (Acknowledges lim now seg c ↔
        seg.has TCP_RST = false ∧ seqInWindow seg.seq c.ack lim.windowSize = true) ∧
      (Below seg c → ¬ Acknowledges lim now seg c) := by
  have hiff : Acknowledges lim now seg c ↔
      seg.has TCP_RST = false ∧ seqInWindow seg.seq c.ack lim.windowSize = true := by
    unfold Acknowledges handleConn
    cases hrst : seg.has TCP_RST with
    | true =>
      rw [if_pos rfl]
      split_ifs <;> simp
    | false =>
      rw [if_neg Bool.false_ne_true, hstate]
      cases hin : seqInWindow seg.seq c.ack lim.windowSize with
      | true => simpa using c.handleEstablished_answers lim now hdata hin
      | false =>
        have hdropped : segmentAcceptable lim seg.seq seg.payload.length c.ack = false := by
          simp [segmentAcceptable, hin, hdata]
        simp [handleEstablished, hdropped]
  refine ⟨hiff, ?_⟩
  intro hbelow
  rw [hiff, hbelow.outside lim c hdata]
  simp

/-- A connection that has received the bytes up to 1000. -/
def sampleConn : TcpConn := { TcpConn.new with state := .established, ack := 1000 }

/-- The peer sends two bytes again. -/
def againSegment : Segment := ⟨1, 2, 3, 998, 0, TCP_ACK, 0, [], [5, 6]⟩

theorem again_not_acknowledged :
    sampleConn.state = .established ∧ againSegment.payload = [5, 6] ∧
      Below againSegment sampleConn ∧
      sampleConn.handleConn ⟨8, 12⟩ 0 againSegment = (sampleConn, []) :=
  ⟨rfl, rfl, ⟨by decide, by decide⟩, by rfl⟩

/-- The bytes that follow are acknowledged. -/
theorem acknowledges_next :
    Acknowledges ⟨8, 12⟩ 0 { againSegment with seq := 1000 } sampleConn :=
  (acknowledges_iff ⟨8, 12⟩ 0 sampleConn rfl (by decide)).1.mpr ⟨by decide, by decide⟩

end TcpConn

end RobotOs.Net
