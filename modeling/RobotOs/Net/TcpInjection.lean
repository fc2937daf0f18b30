import RobotOs.Lib.Run
import RobotOs.Net.Tcp

/-!
# Blind injection

An attacker who knows the addresses and ports of a connection, and not its numbers, sends
segments.  Such a segment is outside the receive window, and its acknowledgement number is
that of no handshake and of no FIN.  `Blind` says so, for each state with the numbers that
the state looks at.

A blind segment changes nothing, whatever its flags.  So a run with blind segments is the
run without them.
-/

namespace RobotOs.Net

open RobotOs.Lib.Run

variable {lim : Limits}

/-- The segment shows no knowledge of the connection: its sequence number is outside the
window and is not that of a keep-alive probe, and it acknowledges neither our SYN nor our
FIN. -/
structure Blind (lim : Limits) (c : TcpConn) (seg : Segment) : Prop where
  outside : seqInWindow seg.seq c.ack lim.windowSize = false
  noProbe : seg.seq ≠ c.ack - 1
  noSyn : c.state = .synSent ∨ c.state = .synRcvd → seg.ackNum ≠ c.seq + 1
  noFin : c.state = .finWait1 ∨ c.state = .lastAck → seg.ackNum ≠ c.finSeq + 1

namespace Blind

variable {c : TcpConn} {seg : Segment} (h : Blind lim c seg)

include h

theorem not_acceptable (len : Nat) : segmentAcceptable lim seg.seq len c.ack = false := by
  unfold segmentAcceptable
  rw [h.outside, decide_eq_false h.noProbe, Bool.and_false]
  rfl

theorem rst_not_acceptable : c.rstAcceptable lim seg = false := by
  unfold TcpConn.rstAcceptable
  cases hstate : c.state with
  | synSent => simp [h.noSyn (.inl hstate)]
  | listen => rfl
  | closed => rfl
  | synRcvd => exact h.outside
  | established => exact h.outside
  | finWait1 => exact h.outside
  | finWait2 => exact h.outside
  | closeWait => exact h.outside
  | lastAck => exact h.outside
  | timeWait => exact h.outside

/-- No state acts on the segment. -/
theorem handleConn (now : Nat) : c.handleConn lim now seg = (c, []) := by
  unfold TcpConn.handleConn
  by_cases hrst : seg.has TCP_RST = true
  · rw [if_pos hrst, h.rst_not_acceptable]
    rfl
  · rw [if_neg hrst]
    cases hstate : c.state with
    | synSent => simp [h.noSyn (.inl hstate)]
    | synRcvd => simp [h.noSyn (.inr hstate)]
    | established =>
      dsimp only
      rw [TcpConn.handleEstablished, h.not_acceptable]
      rfl
    | finWait1 => simp [h.noFin (.inl hstate), h.outside]
    | finWait2 => simp [h.outside]
    | lastAck => simp [h.noFin (.inr hstate)]
    | listen => rfl
    | closed => rfl
    | closeWait => rfl
    | timeWait => rfl

end Blind

theorem handle_of_blind (t : TcpLayer lim) (now : Nat) (isn : UInt32) {seg : Segment}
    {i : Fin lim.maxConns} (hfound : t.findConn seg.dstPort seg.srcIp seg.srcPort = some i)
    (hblind : Blind lim (t.conns i) seg) : t.handle now isn seg = t := by
  rw [TcpLayer.handle, hfound]
  dsimp only
  rw [hblind.handleConn now, TcpLayer.set, Function.update_eq_self]

/-- A blind segment for a connection of the table leaves the table as it is, and
nothing is sent. -/
theorem blind_segment_ignored (t : TcpLayer lim) (now : Nat) (isn : UInt32) {seg : Segment}
    {i : Fin lim.maxConns} (hfound : t.findConn seg.dstPort seg.srcIp seg.srcPort = some i)
    (hblind : Blind lim (t.conns i) seg) :
    t.handle now isn seg = t ∧ (t.conns i).handleConn lim now seg = (t.conns i, []) :=
  ⟨handle_of_blind t now isn hfound hblind, hblind.handleConn now⟩

/-- A table with one established connection. -/
def oneConnection : TcpLayer ⟨1, 12⟩ where
  conns := fun _ => { TcpConn.new with
    state := .established, localPort := 4000, remoteIp := 0x0A000202, remotePort := 80
    seq := 1001, ack := 5001 }
  ourIp := 0x0A00020F

/-- A RST with a guessed sequence number. -/
def guessedRst : Segment := ⟨0x0A000202, 80, 4000, 900000, 77, TCP_RST, 0, [], []⟩

theorem blind_segment_ignored_guessedRst :
    oneConnection.handle 10 7 guessedRst = oneConnection := by
  have hblind : Blind ⟨1, 12⟩ (oneConnection.conns 0) guessedRst :=
    ⟨by decide, by decide, fun _ => by decide, fun _ => by decide⟩
  exact (blind_segment_ignored oneConnection 10 7 (by decide) hblind).1

/-! ## Runs -/

/-- The second list is the first one without some of its blind segments. -/
inductive WithoutBlind : TcpLayer lim → List (Op lim) → List (Op lim) → Prop where
  | nil (t : TcpLayer lim) : WithoutBlind t [] []
  | blind {t : TcpLayer lim} {now : Nat} {isn : UInt32} {seg : Segment} {i : Fin lim.maxConns}
      {ops ops' : List (Op lim)}
      (found : t.findConn seg.dstPort seg.srcIp seg.srcPort = some i)
      (noKnowledge : Blind lim (t.conns i) seg) (rest : WithoutBlind t ops ops') :
      WithoutBlind t (.handle now isn seg :: ops) ops'
  | keep {t : TcpLayer lim} {op : Op lim} {ops ops' : List (Op lim)}
      (rest : WithoutBlind (step t op) ops ops') : WithoutBlind t (op :: ops) (op :: ops')

/-- The attacker has no influence: the run is that of the other calls. -/
theorem run_withoutBlind {t : TcpLayer lim} {ops ops' : List (Op lim)}
    (h : WithoutBlind t ops ops') : run step t ops = run step t ops' := by
  induction h with
  | nil t => rfl
  | @blind t now isn seg i ops ops' found noKnowledge rest ih =>
    have hsame : step t (.handle now isn seg) = t := handle_of_blind t now isn found noKnowledge
    rw [run_cons, hsame, ih]
  | keep rest ih => rw [run_cons, run_cons, ih]

/-- A RST with a guessed number before a tick. -/
theorem run_withoutBlind_guessedRst :
    run step oneConnection [.handle 10 7 guessedRst, .tick 20] =
      run step oneConnection [.tick 20] := by
  apply run_withoutBlind
  refine .blind (i := 0) (by decide) ?_ (.keep (.nil _))
  exact ⟨by decide, by decide, fun _ => by decide, fun _ => by decide⟩

end RobotOs.Net
