import RobotOs.Lib.Run
import RobotOs.Net.Tcp

/-!
# Reclaiming the slots of closed connections

A connection that is closed sends its FIN once and waits for the peer.  The only timer
that runs while it waits is the one of the retransmission, and it runs only when a data
segment still waits for its acknowledgement.  So the close comes to an end by itself
exactly in that case, and a connection without such a segment waits for a silent peer
for ever.

`Clocked` adds the clock to the layer: time does not go back, and every tick is later
than the ticks before it.
-/

namespace RobotOs.Net

open RobotOs.Lib.Framing (Bytes)
open RobotOs.Lib.Run

/-! ## The clock -/

/-- The clock after a call. -/
def Op.clock {lim : Limits} (clock : Nat) : Op lim → Nat
  | .connect now _ _ _ _ => now
  | .send _ now _ _ => now
  | .handle now _ _ => now
  | .tick now => now
  | .listen _ => clock
  | .accept _ => clock
  | .recv _ _ => clock
  | .close _ => clock

def Op.isTick {lim : Limits} : Op lim → Bool
  | .tick _ => true
  | _ => false

theorem Op.eq_tick {lim : Limits} (op : Op lim) (h : op.isTick = true) :
    ∃ now, op = .tick now := by
  cases op with
  | tick now => exact ⟨now, rfl⟩
  | _ => cases h

/-- The layer, the clock, and the earliest time of the next tick. -/
structure Clocked (lim : Limits) where
  layer : TcpLayer lim
  clock : Nat
  nextTick : Nat

namespace Clocked

variable {lim : Limits}

def boot (ip : UInt32) : Clocked lim := ⟨.init lim ip, 0, 0⟩

def step (s : Clocked lim) (op : Op lim) : Clocked lim where
  layer := Net.step s.layer op
  clock := op.clock s.clock
  nextTick := if op.isTick then op.clock s.clock + 1 else s.nextTick

/-- The clock does not go back, and a tick is later than the last one. -/
def OnTime (s : Clocked lim) (op : Op lim) : Prop :=
  s.clock ≤ op.clock s.clock ∧ (op.isTick = true → s.nextTick ≤ op.clock s.clock)

instance (s : Clocked lim) (op : Op lim) : Decidable (s.OnTime op) :=
  inferInstanceAs (Decidable (_ ∧ _))

/-- In every run on time with `n` ticks the slot is closed at some point. -/
def ReclaimedWithin (n : Nat) (s : Clocked lim) (i : Fin lim.maxConns) : Prop :=
  ∀ ops, Guarded step OnTime s ops → n ≤ ops.countP Op.isTick →
    ∃ pre, pre <+: ops ∧ ((run step s pre).layer.conns i).state = .closed

end Clocked

/-! ## The timer of the retransmission -/

namespace TcpConn

variable {lim : Limits} {c c' : TcpConn} {now clock : Nat}

/-- The timer was set in the past, and it is not longer than the longest timeout. -/
structure TimerOk (clock : Nat) (c : TcpConn) : Prop where
  rto : c.rtoTicks ≤ RTO_MAX
  past : c.retxTime ≤ clock

theorem TimerOk.mono {clock' : Nat} (h : c.TimerOk clock) (hle : clock ≤ clock') :
    c.TimerOk clock' :=
  ⟨h.rto, h.past.trans hle⟩

/-- The timer does not see what is received. -/
theorem TimerOk.received (h : c.TimerOk clock) (hrecv : Received c c') : c'.TimerOk clock := by
  obtain ⟨_, _, _, _, _, _, rfl⟩ := hrecv
  exact ⟨h.rto, h.past⟩

theorem TimerOk.ackProcessing (h : c.TimerOk now) (seg : Segment) :
    ((c.ackProcessing now seg).1).TimerOk now := by
  obtain ⟨-, _, _, _, _, hrto, heq⟩ | ⟨-, _, _, _, _, _, _, htime, heq⟩ :=
    ackProcessing_cases c now seg
  · rw [heq]
    exact ⟨hrto.elim (fun h' => h'.le.trans h.rto) id, h.past⟩
  · rw [heq]
    exact ⟨h.rto, htime.elim (fun h' => h'.le.trans h.past) Eq.le⟩

theorem TimerOk.handleEstablished (h : c.TimerOk now) (seg : Segment) :
    ((c.handleEstablished lim now seg).1).TimerOk now := by
  obtain heq | ⟨-, c₁, c₂, hack, hrecv, -, hend⟩ := handleEstablished_cases lim c now seg
  · rw [heq]
    exact h
  · have h₁ : c₁.TimerOk now := by
      obtain rfl | ⟨-, rfl⟩ := hack
      · exact h
      · exact h.ackProcessing seg
    have h₂ : c₂.TimerOk now := h₁.received hrecv
    obtain heq | heq := hend
    · rw [heq]
      exact h₂
    · rw [heq]
      exact ⟨h₂.rto, h₂.past⟩

theorem TimerOk.handleConn (h : c.TimerOk now) (seg : Segment) :
    ((c.handleConn lim now seg).1).TimerOk now := by
  obtain ⟨-, heq⟩ | ⟨_, _, _, _, heq⟩ | ⟨⟨_, _, _, _, _, _, _, _, heq⟩, -⟩ :=
    handleConn_cases lim c now seg
  · rw [heq]
    exact h.handleEstablished seg
  · rw [heq]
    exact ⟨h.rto, h.past⟩
  · rw [heq]
    exact ⟨h.rto, h.past⟩

theorem TimerOk.tickConn (h : c.TimerOk now) :
    ((c.tickConn lim now).1).TimerOk now := by
  obtain ⟨_, _, _, heq⟩ | ⟨-, _, heq⟩ | ⟨-, _, _, _, hrto, heq⟩ | ⟨-, _, _, heq⟩ :=
    tickConn_cases lim c now
  · rw [heq]
    exact ⟨h.rto, h.past⟩
  · rw [heq]
    exact ⟨h.rto, le_rfl⟩
  · rw [heq]
    exact ⟨hrto, le_rfl⟩
  · rw [heq]
    exact ⟨h.rto, h.past⟩

theorem TimerOk.close (h : c.TimerOk clock) : ((c.close lim).1).TimerOk clock := by
  unfold TcpConn.close
  cases c.state <;> exact ⟨h.rto, h.past⟩

theorem rtoInitial_le : RTO_INITIAL ≤ RTO_MAX := by decide

theorem TimerOk.moves {t : TcpLayer lim} {i : Fin lim.maxConns} {op : Op lim}
    (h : (t.conns i).TimerOk clock) (hmoves : Moves t i op c') (hle : clock ≤ op.clock clock) :
    c'.TimerOk (op.clock clock) := by
  cases hmoves with
  | stays => exact h.mono hle
  | listen port => exact ⟨h.rto, h.past⟩
  | connect now => exact ⟨rtoInitial_le, le_rfl⟩
  | accept port => exact ⟨h.rto, h.past⟩
  | send now linkOk data =>
    obtain heq | ⟨-, _, -, -, -, heq⟩ := sendData_cases lim (t.conns i) now linkOk data
    · rw [heq]
      exact h.mono hle
    · rw [heq]
      exact ⟨h.rto, le_rfl⟩
  | recv len =>
    obtain ⟨_, heq⟩ := recv_frame lim (t.conns i) len
    rw [heq]
    exact ⟨h.rto, h.past⟩
  | close => exact h.close
  | segment now isn seg => exact (h.mono hle).handleConn seg
  | syn now isn seg => exact ⟨rtoInitial_le, le_rfl⟩
  | tick now => exact (h.mono hle).tickConn

/-! ## The close with a segment that waits -/

/-- The connection is being closed, and a segment waits for its acknowledgement. -/
structure Closing (c : TcpConn) : Prop where
  state : c.state = .finWait1 ∨ c.state = .finWait2 ∨ c.state = .lastAck ∨ c.state = .timeWait
  waits : c.unacked = true

theorem Closing.ne_established (h : c.Closing) : c.state ≠ .established := by
  obtain h | h | h | h := h.state <;> simp [h]

theorem Closing.ne_closed (h : c.Closing) : c.state ≠ .closed := by
  obtain h | h | h | h := h.state <;> simp [h]

/-- A segment leads from one closing state to another. -/
theorem Closing.advances (h : c.Closing) {st : TcpState} (hadv : Advances c.state st) :
    st = .finWait2 ∨ st = .timeWait := by
  obtain h | h | h | h := h.state <;> rw [h] at hadv <;> cases st <;> simp_all [Advances]

/-- A call other than a tick closes the slot, or leaves the timer as it is. -/
theorem Closing.moves {t : TcpLayer lim} {i : Fin lim.maxConns} {op : Op lim}
    (h : (t.conns i).Closing) (hmoves : Moves t i op c') (hop : op.isTick = false) :
    c'.state = .closed ∨ c'.Closing ∧ c'.retxCount = (t.conns i).retxCount ∧
      c'.retxTime = (t.conns i).retxTime := by
  cases hmoves with
  | stays => exact .inr ⟨h, rfl, rfl⟩
  | listen port hclosed => exact absurd hclosed h.ne_closed
  | connect now isn dstIp dstPort srcPort hclosed => exact absurd hclosed h.ne_closed
  | accept port => exact .inr ⟨⟨h.state, h.waits⟩, rfl, rfl⟩
  | send now linkOk data =>
    obtain heq | ⟨hstate, -⟩ := sendData_cases lim (t.conns i) now linkOk data
    · rw [heq]
      exact .inr ⟨h, rfl, rfl⟩
    · exact absurd hstate h.ne_established
  | recv len =>
    obtain ⟨_, heq⟩ := recv_frame lim (t.conns i) len
    rw [heq]
    exact .inr ⟨⟨h.state, h.waits⟩, rfl, rfl⟩
  | close =>
    obtain h | h | h | h := h.state <;> exact .inl (by rw [TcpConn.close, h])
  | segment now isn seg =>
    obtain ⟨⟨hstate, -⟩, -⟩ | ⟨_, _, _, _, heq⟩ | ⟨⟨_, _, _, _, _, _, _, _, heq⟩, hstate⟩ :=
      handleConn_cases lim (t.conns i) now seg
    · exact absurd hstate h.ne_established
    · exact .inl (by rw [heq])
    · right
      obtain hsame | hadv := hstate
      · rw [hsame]
        exact ⟨h, rfl, rfl⟩
      · have hnext := h.advances hadv
        rw [heq] at hnext ⊢
        exact ⟨⟨hnext.elim (fun h => .inr (.inl h)) fun h => .inr (.inr (.inr h)), h.waits⟩,
          rfl, rfl⟩
  | syn now isn seg hclosed => exact absurd hclosed h.ne_closed
  | tick now => cases hop

/-- A tick closes the slot, or starts one of the attempts that are left, or comes before
the timer ends. -/
theorem Closing.tickConn (lim : Limits) (h : c.Closing) (now : Nat) :
    (c.tickConn lim now).1.state = .closed ∨ (c.tickConn lim now).1.Closing ∧
      (c.retxCount < RETX_MAX_ATTEMPTS ∧
          (c.tickConn lim now).1.retxCount = c.retxCount + 1 ∧
          (c.tickConn lim now).1.retxTime = now ∨
        now - c.retxTime < c.rtoTicks ∧
          (c.tickConn lim now).1.retxCount = c.retxCount ∧
          (c.tickConn lim now).1.retxTime = c.retxTime) := by
  obtain ⟨_, _, _, heq⟩ | ⟨hsyn, -⟩ | ⟨⟨-, -, hcount⟩, _, _, _, -, heq⟩ | ⟨hearly, _, _, heq⟩ :=
    tickConn_cases lim c now
  · exact .inl (by rw [heq])
  · obtain h | h | h | h := h.state <;> simp [h] at hsyn
  · rw [heq]
    exact .inr ⟨⟨h.state, h.waits⟩, .inl ⟨hcount, rfl, rfl⟩⟩
  · rw [heq]
    refine .inr ⟨⟨h.state, h.waits⟩, .inr ⟨hearly h.waits ?_ ?_ ?_ ?_, rfl, rfl⟩⟩ <;>
      obtain h | h | h | h := h.state <;> simp [h]

/-- The ticks that a closing connection can still see: a longest timeout for each attempt
that is left, less the time that the timer has run. -/
def ticksLeft (nextTick : Nat) (c : TcpConn) : Nat :=
  (RETX_MAX_ATTEMPTS + 1 - min c.retxCount RETX_MAX_ATTEMPTS) * (RTO_MAX + 1) -
    min (nextTick - c.retxTime) RTO_MAX

theorem ticksLeft_le (nextTick : Nat) (c : TcpConn) :
    c.ticksLeft nextTick ≤ (RETX_MAX_ATTEMPTS + 1) * (RTO_MAX + 1) :=
  (Nat.sub_le _ _).trans (Nat.mul_le_mul_right _ (Nat.sub_le _ _))

/-- A tick lowers the ticks that are left. -/
theorem ticksLeft_tick {nextTick : Nat} (hrto : c.rtoTicks ≤ RTO_MAX) (hpast : c.retxTime ≤ now)
    (hnext : nextTick ≤ now)
    (h : c.retxCount < RETX_MAX_ATTEMPTS ∧ c'.retxCount = c.retxCount + 1 ∧ c'.retxTime = now ∨
      now - c.retxTime < c.rtoTicks ∧ c'.retxCount = c.retxCount ∧ c'.retxTime = c.retxTime) :
    c'.ticksLeft (now + 1) + 1 ≤ c.ticksLeft nextTick := by
  unfold ticksLeft
  obtain ⟨hcount, hcount', htime⟩ | ⟨hearly, hcount', htime⟩ := h
  · obtain ⟨k, hk⟩ : ∃ k, RETX_MAX_ATTEMPTS = c.retxCount + 1 + k :=
      Nat.exists_eq_add_of_lt hcount |>.imp fun k h => by omega
    have hleft : RETX_MAX_ATTEMPTS + 1 - min c.retxCount RETX_MAX_ATTEMPTS = k + 1 + 1 := by omega
    have hleft' : RETX_MAX_ATTEMPTS + 1 - min (c.retxCount + 1) RETX_MAX_ATTEMPTS = k + 1 := by
      omega
    have hpos : 0 < RTO_MAX := by decide
    rw [hcount', htime, hleft, hleft', Nat.succ_mul (k + 1)]
    have : RTO_MAX + 1 ≤ (k + 1) * (RTO_MAX + 1) := Nat.le_mul_of_pos_left _ k.succ_pos
    omega
  · have : RTO_MAX + 1 ≤
        (RETX_MAX_ATTEMPTS + 1 - min c.retxCount RETX_MAX_ATTEMPTS) * (RTO_MAX + 1) :=
      Nat.le_mul_of_pos_left _ (by omega)
    rw [hcount', htime]
    omega

end TcpConn

/-! ## The slots of the layer -/

/-- More ticks than a closing connection sees. -/
def reclaimTicks : Nat := (RETX_MAX_ATTEMPTS + 1) * (RTO_MAX + 1) + 1

namespace Clocked

variable {lim : Limits}

/-- The timers of a layer whose calls were on time. -/
structure Timed (s : Clocked lim) : Prop where
  timers : ∀ i, (s.layer.conns i).TimerOk s.clock
  tick : s.nextTick ≤ s.clock + 1

theorem timed_boot (ip : UInt32) : (boot ip : Clocked lim).Timed :=
  ⟨fun _ => ⟨Nat.zero_le _, le_rfl⟩, Nat.zero_le _⟩

theorem timed_step (s : Clocked lim) (op : Op lim) (h : s.Timed) (hop : s.OnTime op) :
    (s.step op).Timed where
  timers i := (h.timers i).moves (step_moves s.layer op i) hop.1
  tick := by
    dsimp only [step]
    split_ifs
    · exact le_rfl
    · exact h.tick.trans (Nat.succ_le_succ hop.1)

theorem timed_run (ip : UInt32) {ops : List (Op lim)} (hops : Guarded step OnTime (boot ip) ops) :
    (run step (boot ip) ops).Timed :=
  run_invariant_of_guarded Timed timed_step (timed_boot ip) hops

variable {s : Clocked lim} {i : Fin lim.maxConns}

/-- One call on a layer with a closing connection. -/
theorem closing_step {op : Op lim} (h : s.Timed) (hclosing : (s.layer.conns i).Closing)
    (hop : s.OnTime op) :
    ((s.step op).layer.conns i).state = .closed ∨
      ((s.step op).layer.conns i).Closing ∧
        ((s.step op).layer.conns i).ticksLeft (s.step op).nextTick + op.isTick.toNat ≤
          (s.layer.conns i).ticksLeft s.nextTick := by
  cases htick : op.isTick with
  | false =>
    obtain hclosed | ⟨hnext, hcount, htime⟩ :=
      hclosing.moves (step_moves s.layer op i) htick
    · exact .inl hclosed
    · refine .inr ⟨hnext, Nat.le_of_eq ?_⟩
      dsimp only [step]
      rw [htick, if_neg Bool.false_ne_true, TcpConn.ticksLeft, hcount, htime]
      rfl
  | true =>
    obtain ⟨now, rfl⟩ := op.eq_tick htick
    obtain hclosed | ⟨hnext, hcases⟩ := hclosing.tickConn lim now
    · exact .inl hclosed
    · exact .inr ⟨hnext, TcpConn.ticksLeft_tick (h.timers i).rto
        ((h.timers i).past.trans hop.1) (hop.2 rfl) hcases⟩

/-- A closing connection with a segment that waits is reclaimed. -/
theorem reclaimed_of_closing {n : Nat} (h : s.Timed) (hclosing : (s.layer.conns i).Closing)
    (hn : reclaimTicks ≤ n) : s.ReclaimedWithin n i := by
  intro ops hops hcount
  refine reaches_of_measure (fun s => s.Timed ∧ (s.layer.conns i).Closing)
    (fun s => (s.layer.conns i).state = .closed) Op.isTick
    (fun s => (s.layer.conns i).ticksLeft s.nextTick) ?_ ⟨h, hclosing⟩ hops ?_
  · rintro s op ⟨h, hclosing⟩ hop
    refine (closing_step h hclosing hop).imp_right fun hnext => ?_
    exact ⟨⟨timed_step s op h hop, hnext.1⟩, hnext.2⟩
  · have hle := (s.layer.conns i).ticksLeft_le s.nextTick
    unfold reclaimTicks at hn
    omega

/-! ## The close without one -/

/-- `n` ticks in a row, and nothing else. -/
def silence : Nat → Nat → List (Op lim)
  | _, 0 => []
  | clock, n + 1 => .tick (clock + 1) :: silence (clock + 1) n

theorem countP_silence (clock n : Nat) :
    (silence clock n : List (Op lim)).countP Op.isTick = n := by
  induction n generalizing clock with
  | zero => rfl
  | succ n ih => rw [silence, List.countP_cons_of_pos rfl, ih]

theorem onTime_silence (s : Clocked lim) (h : s.nextTick ≤ s.clock + 1) (n : Nat) :
    Guarded step OnTime s (silence s.clock n) := by
  induction n generalizing s with
  | zero => trivial
  | succ n ih => exact ⟨⟨Nat.le_succ _, fun _ => h⟩, ih (s.step (.tick (s.clock + 1))) le_rfl⟩

theorem isTick_of_mem_silence {clock n : Nat} {op : Op lim} (h : op ∈ silence clock n) :
    op.isTick = true := by
  induction n generalizing clock with
  | zero => cases h
  | succ n ih =>
    obtain rfl | h := List.mem_cons.mp h
    · rfl
    · exact ih h

/-- The connection waits for the peer to answer its FIN, and no timer runs. -/
def Stuck (c : TcpConn) : Prop :=
  (c.state = .finWait1 ∨ c.state = .lastAck) ∧ c.unacked = false

theorem tickConn_stuck {c : TcpConn} (h : Stuck c) (now : Nat) : (c.tickConn lim now).1 = c := by
  obtain ⟨hstate | hstate, hwaits⟩ := h <;> simp [TcpConn.tickConn, hstate, hwaits]

theorem stuck_ticks (h : Stuck (s.layer.conns i)) {ops : List (Op lim)}
    (hops : ∀ op ∈ ops, op.isTick = true) :
    Stuck ((run step s ops).layer.conns i) := by
  induction ops generalizing s with
  | nil => exact h
  | cons op ops ih =>
    refine ih ?_ fun op' hmem => hops op' (List.mem_cons_of_mem op hmem)
    obtain ⟨now, rfl⟩ := op.eq_tick (hops op List.mem_cons_self)
    change Stuck ((s.layer.conns i).tickConn lim now).1
    rw [tickConn_stuck h now]
    exact h

/-- A silent peer keeps such a slot for any number of ticks. -/
theorem not_reclaimed_of_stuck (h : s.Timed) (hstuck : Stuck (s.layer.conns i)) (n : Nat) :
    ¬s.ReclaimedWithin n i := by
  intro hreclaimed
  obtain ⟨pre, hpre, hclosed⟩ := hreclaimed (silence s.clock n) (onTime_silence s h.tick n)
    (countP_silence s.clock n).ge
  obtain ⟨hstate | hstate, -⟩ := stuck_ticks hstuck fun op hop =>
    isTick_of_mem_silence (hpre.subset hop)
  · exact TcpState.noConfusion (hclosed.symm.trans hstate)
  · exact TcpState.noConfusion (hclosed.symm.trans hstate)

/-! ## Which closes are reclaimed -/

/-- After any run on time, a closed connection gives its slot back within a bounded
number of ticks, whatever comes, exactly when the close finds a segment that waits for
its acknowledgement, or a connection that has no FIN to send. -/
theorem close_reclaims_iff (ip : UInt32) (pre : List (Op lim))
    (hpre : Guarded step OnTime (boot ip) pre) (i : Fin lim.maxConns) (n : Nat)
    (hn : reclaimTicks ≤ n) :
    ((run step (boot ip) pre).step (.close i)).ReclaimedWithin n i ↔
      (((run step (boot ip) pre).layer.conns i).unacked = true ∨
        ((run step (boot ip) pre).layer.conns i).state ≠ .established ∧
        ((run step (boot ip) pre).layer.conns i).state ≠ .closeWait) := by
  have htimed := timed_run ip hpre
  generalize run step (boot ip) pre = s at htimed
  have htimed' : (s.step (.close i)).Timed :=
    timed_step s (.close i) htimed ⟨le_rfl, fun h => Bool.noConfusion h⟩
  have hconn : (s.step (.close i)).layer.conns i = ((s.layer.conns i).close lim).1 :=
    Function.update_self _ _ _
  by_cases hfin : (s.layer.conns i).state = .established ∨ (s.layer.conns i).state = .closeWait
  · -- a FIN goes out, and the connection waits in a closing state
    have hnext : (((s.layer.conns i).close lim).1.state = .finWait1 ∨
        ((s.layer.conns i).close lim).1.state = .lastAck) ∧
        ((s.layer.conns i).close lim).1.unacked = (s.layer.conns i).unacked := by
      unfold TcpConn.close
      obtain hstate | hstate := hfin
      · rw [hstate]
        exact ⟨.inl rfl, rfl⟩
      · rw [hstate]
        exact ⟨.inr rfl, rfl⟩
    cases hwaits : (s.layer.conns i).unacked with
    | true =>
      refine iff_of_true (reclaimed_of_closing htimed' ?_ hn) (.inl rfl)
      rw [hconn]
      exact ⟨hnext.1.elim .inl fun h => .inr (.inr (.inl h)), hnext.2.trans hwaits⟩
    | false =>
      refine iff_of_false (not_reclaimed_of_stuck htimed' ?_ n) ?_
      · rw [hconn]
        exact ⟨hnext.1, hnext.2.trans hwaits⟩
      · rintro (h | ⟨h, h'⟩)
        · cases h
        · exact hfin.elim h h'
  · -- every other state is closed at once
    have hclosed : ((s.layer.conns i).close lim).1.state = .closed := by
      unfold TcpConn.close
      cases hstate : (s.layer.conns i).state with
      | established => exact absurd (.inl hstate) hfin
      | closeWait => exact absurd (.inr hstate) hfin
      | _ => rfl
    refine iff_of_true ?_ (.inr ⟨fun h => hfin (.inl h), fun h => hfin (.inr h)⟩)
    intro ops _ _
    refine ⟨[], List.nil_prefix, ?_⟩
    rw [run_nil, hconn]
    exact hclosed

/-! ### A peer that goes silent -/

def boardLimits : Limits := ⟨8, 12⟩

theorem boardLimits_maxConns_pos : 0 < boardLimits.maxConns := Nat.succ_pos 7

/-- The answer of a peer to our SYN. -/
def synAck : Segment where
  srcIp := 0x0A000202
  srcPort := 80
  dstPort := 4000
  seq := 500
  ackNum := 1001
  flags := 0x12
  window := 4096
  options := []
  payload := []

/-- The first slot of the board. -/
def firstSlot : Fin boardLimits.maxConns := ⟨0, boardLimits_maxConns_pos⟩

/-- A connection is opened. -/
def opened : List (Op boardLimits) :=
  [.connect 10 1000 0x0A000202 80 4000, .handle 20 0 synAck]

/-- A connection is opened, and a request is sent. -/
def requested : List (Op boardLimits) :=
  opened ++ [.send firstSlot 30 true [71, 69, 84]]

/-- A connection that is opened and closed keeps its slot for ever when the peer is
silent. -/
theorem silent_peer_keeps_slot :
    Guarded step OnTime (boot 0x0A00020F) opened ∧
      ((run step (boot 0x0A00020F) opened).layer.conns firstSlot).state = .established ∧
      ∀ n, ¬((run step (boot 0x0A00020F) opened).step (.close firstSlot)).ReclaimedWithin n
        firstSlot := by
  have hops : Guarded step OnTime (boot 0x0A00020F) (opened ++ [.close firstSlot]) := by decide
  have hstuck : Stuck (((run step (boot 0x0A00020F) opened).step
      (.close firstSlot)).layer.conns firstSlot) :=
    ⟨.inl (by decide +kernel), by decide +kernel⟩
  refine ⟨(guarded_append.mp hops).1, by decide +kernel, fun n => ?_⟩
  refine not_reclaimed_of_stuck ?_ hstuck n
  have htimed := timed_run 0x0A00020F hops
  rwa [run_concat] at htimed

theorem close_reclaims_iff_requested :
    ((run step (boot 0x0A00020F) requested).step (.close firstSlot)).ReclaimedWithin reclaimTicks
      firstSlot :=
  (close_reclaims_iff 0x0A00020F requested (by decide) firstSlot reclaimTicks le_rfl).mpr
    (.inl (by decide +kernel))

end Clocked

end RobotOs.Net
