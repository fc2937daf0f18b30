import RobotOs.Lib.Run
import RobotOs.Net.Tcp

/-!
# Accepting connections

A connection that a SYN to a listener opened waits in its slot until `accept` returns it.
`accept` skips the slots whose `was_accepted` flag is set.

A `Tracked` layer records for each slot whether its connection was opened by a SYN and how often
`accept` returned it.  The flag says the same thing as the record in every run in which a SYN
never takes a slot with the flag set (`run_tracks`), and then no connection is lost.  A reset and a
spent handshake clear the flag.  The other ends of a connection leave it set for the next one.
-/

namespace RobotOs.Net

open RobotOs.Lib.Run
open RobotOs.Lib.Framing (Bytes)

/-! ## The answers of `accept` -/

namespace TcpLayer

variable {lim : Limits} (t : TcpLayer lim) {port : UInt16} {i : Fin lim.maxConns}

/-- The slot that `accept` returns. -/
def acceptSlot (port : UInt16) : Option (Fin lim.maxConns) :=
  (List.finRange lim.maxConns).find? fun i =>
    (t.conns i).state = .established && (t.conns i).localPort = port && !(t.conns i).wasAccepted

theorem accept_eq (port : UInt16) : t.accept port = match t.acceptSlot port with
    | none => t
    | some i => t.set i { t.conns i with wasAccepted := true } := rfl

/-- The connection is ready to be returned. -/
def Ready (port : UInt16) (i : Fin lim.maxConns) : Prop :=
  (t.conns i).state = .established ∧ (t.conns i).localPort = port ∧
    (t.conns i).wasAccepted = false

instance (port : UInt16) : DecidablePred (t.Ready port) := fun _ =>
  inferInstanceAs (Decidable (_ ∧ _ ∧ _))

variable {t}

theorem ready_of_acceptSlot (h : t.acceptSlot port = some i) : t.Ready port i := by
  have := List.find?_some h
  simpa [Ready, and_assoc] using this

theorem acceptSlot_isSome (h : t.Ready port i) :
    ∃ j, t.acceptSlot port = some j := by
  cases hslot : t.acceptSlot port with
  | some j => exact ⟨j, rfl⟩
  | none =>
    have hnot := List.find?_eq_none.1 hslot i (List.mem_finRange i)
    obtain ⟨hstate, hport, hflag⟩ := h
    simp [hstate, hport, hflag] at hnot

theorem conns_accept (port : UInt16) (i : Fin lim.maxConns) : (t.accept port).conns i =
    if t.acceptSlot port = some i then { t.conns i with wasAccepted := true } else t.conns i := by
  rw [accept_eq]
  cases hslot : t.acceptSlot port with
  | none => simp
  | some j =>
    dsimp only
    rw [set_conns]
    by_cases hij : i = j
    · simp [hij]
    · rw [if_neg hij, if_neg fun h => hij (Option.some.inj h).symm]

theorem accept_of_none (h : t.acceptSlot port = none) : t.accept port = t := by
  rw [accept_eq, h]

/-- What stays ready after another connection was returned. -/
theorem ready_accept {j : Fin lim.maxConns} (hj : t.acceptSlot port = some j) :
    (t.accept port).Ready port i ↔ t.Ready port i ∧ i ≠ j := by
  rw [Ready, conns_accept, hj]
  by_cases hij : j = i
  · simp [hij]
  · rw [if_neg fun h => hij (Option.some.inj h)]
    exact ⟨fun h => ⟨h, Ne.symm hij⟩, fun h => h.1⟩

variable (t)

/-- Enough calls of `accept` return the connection. -/
def Claimable (port : UInt16) (i : Fin lim.maxConns) : Prop :=
  ∃ n, ((fun t : TcpLayer lim => t.accept port)^[n] t).acceptSlot port = some i

variable {t}

/-- A ready connection is returned after those before it. -/
theorem Ready.claimable (h : t.Ready port i) :
    t.Claimable port i := by
  -- Each call takes one connection out of the ready ones.
  generalize hcount : (Finset.univ.filter (t.Ready port)).card = count
  induction count generalizing t with
  | zero =>
    have hempty := Finset.card_eq_zero.1 hcount
    exact absurd (Finset.mem_filter.2 ⟨Finset.mem_univ i, h⟩) (by simp [hempty])
  | succ count ih =>
    obtain ⟨j, hj⟩ := acceptSlot_isSome h
    by_cases hij : i = j
    · exact ⟨0, hij ▸ hj⟩
    have hrest : Finset.univ.filter ((t.accept port).Ready port) =
        (Finset.univ.filter (t.Ready port)).erase j := by
      ext k
      simp [ready_accept hj, and_comm]
    have hcard : (Finset.univ.filter ((t.accept port).Ready port)).card = count := by
      rw [hrest, Finset.card_erase_of_mem
        (Finset.mem_filter.2 ⟨Finset.mem_univ j, ready_of_acceptSlot hj⟩), hcount]
      rfl
    obtain ⟨n, hn⟩ := ih ((ready_accept hj).2 ⟨h, hij⟩) hcard
    exact ⟨n + 1, hn⟩

/-- A call that returns nothing changes nothing, and so do the calls after it. -/
theorem not_claimable (h : t.acceptSlot port = none) (i : Fin lim.maxConns) :
    ¬ t.Claimable port i := by
  rintro ⟨n, hn⟩
  rw [Function.iterate_fixed (accept_of_none h), h] at hn
  cases hn

/-- What a segment does to one slot. -/
theorem handle_cases (now : Nat) (isn : UInt32) (seg : Segment) (i : Fin lim.maxConns) :
    (t.handle now isn seg).conns i = t.conns i ∨
    t.findConn seg.dstPort seg.srcIp seg.srcPort = some i ∧
      (t.handle now isn seg).conns i = ((t.conns i).handleConn lim now seg).1 ∨
    (t.findConn seg.dstPort seg.srcIp seg.srcPort = none ∧ seg.has TCP_SYN = true ∧
      t.alloc = some i) ∧
      (t.handle now isn seg).conns i = (t.conns i).passiveOpen lim now isn t.ourIp seg := by
  rw [handle]
  cases hfind : t.findConn seg.dstPort seg.srcIp seg.srcPort with
  | some j =>
    dsimp only
    rw [set_conns]
    by_cases hij : i = j
    · subst hij
      exact .inr (.inl ⟨rfl, if_pos rfl⟩)
    · exact .inl (if_neg hij)
  | none =>
    cases t.findListener seg.dstPort with
    | none => exact .inl rfl
    | some _ =>
      dsimp only
      split_ifs with hsyn
      · exact .inl rfl
      · exact .inl rfl
      · cases halloc : t.alloc with
        | none => exact .inl rfl
        | some j =>
          dsimp only
          rw [set_conns]
          by_cases hij : i = j
          · subst hij
            exact .inr (.inr ⟨⟨rfl, by simpa using hsyn, rfl⟩, if_pos rfl⟩)
          · exact .inl (if_neg hij)

end TcpLayer

/-! ## The record -/

/-- The layer, with what happened to the connection of each slot. -/
structure Tracked (lim : Limits) where
  layer : TcpLayer lim
  /-- The connection was opened by a SYN to a listener. -/
  passive : Fin lim.maxConns → Bool
  /-- How often `accept` returned it. -/
  returned : Fin lim.maxConns → Nat

variable {lim : Limits}

/-- The call opens a connection in the slot. -/
def opens (t : TcpLayer lim) (op : Op lim) (i : Fin lim.maxConns) : Bool :=
  (t.conns i).state = .closed && ((step t op).conns i).state ≠ .closed

/-- The call is an `accept` that returns the slot. -/
def returns (t : TcpLayer lim) (op : Op lim) (i : Fin lim.maxConns) : Bool :=
  match op with
  | .accept port => t.acceptSlot port = some i
  | _ => false

def Op.isSegment : Op lim → Bool
  | .handle _ _ _ => true
  | _ => false

/-- The tracked layer after `init`. -/
def Tracked.init (lim : Limits) (ip : UInt32) : Tracked lim :=
  ⟨.init lim ip, fun _ => false, fun _ => 0⟩

/-- A call, with the record of it. -/
def track (s : Tracked lim) (op : Op lim) : Tracked lim where
  layer := step s.layer op
  passive i := if opens s.layer op i then op.isSegment else s.passive i
  returned i :=
    if opens s.layer op i then 0
    else if returns s.layer op i then s.returned i + 1
    else s.returned i

/-- No connection from a peer is returned twice, and one that is established, or that the peer
has finished with, is returned or can still be. -/
def AcceptedOnce (s : Tracked lim) : Prop :=
  ∀ i, s.passive i = true → s.returned i ≤ 1 ∧
    ((s.layer.conns i).state = .established ∨ (s.layer.conns i).state = .closeWait →
      s.returned i = 0 → s.layer.Claimable (s.layer.conns i).localPort i)

/-- What a call must meet: a SYN takes a slot whose flag is clear, and the peer does not finish
before its connection is returned. -/
def Fresh (s : Tracked lim) : Op lim → Prop
  | .handle _ _ seg =>
    (s.layer.findConn seg.dstPort seg.srcIp seg.srcPort = none → seg.has TCP_SYN = true →
      ∀ i, s.layer.alloc = some i → (s.layer.conns i).wasAccepted = false) ∧
    ∀ i, s.layer.findConn seg.dstPort seg.srcIp seg.srcPort = some i →
      (s.layer.conns i).state = .established → (s.layer.conns i).wasAccepted = false →
      seg.has TCP_FIN = false
  | _ => True

/-! ## What keeps the flag -/

/-- The flag is kept by a connection that is not closed, and the peer finishes with a connection
only when the flag is set. -/
def TcpConn.KeepsFlag (c c' : TcpConn) : Prop :=
  c'.state = .closed ∨ c'.wasAccepted = c.wasAccepted ∧
    (c'.state = .closeWait → c.state = .closeWait ∨ c.wasAccepted = true)

namespace TcpConn

variable (c : TcpConn)

theorem KeepsFlag.refl : KeepsFlag c c := .inr ⟨rfl, .inl⟩

theorem keepsFlag_sendData (now : Nat) (linkOk : Bool) (data : Bytes) :
    KeepsFlag c (c.sendData lim now linkOk data).2.1 := by
  obtain heq | ⟨-, n, -, -, -, heq⟩ := sendData_cases lim c now linkOk data
  · rw [heq]
    exact .refl c
  · rw [heq]
    exact .inr ⟨rfl, .inl⟩

theorem keepsFlag_recv (len : Nat) : KeepsFlag c (c.recv lim len).2.1 := by
  obtain ⟨_, heq⟩ := recv_frame lim c len
  rw [heq]
  exact .inr ⟨rfl, .inl⟩

theorem keepsFlag_close : KeepsFlag c (c.close lim).1 := by
  unfold close
  split
  · exact .inr ⟨rfl, fun h => by cases h⟩
  · exact .inr ⟨rfl, fun h => by cases h⟩
  · exact .inl rfl

theorem keepsFlag_tickConn (now : Nat) : KeepsFlag c (c.tickConn lim now).1 := by
  obtain ⟨_, _, _, heq⟩ | ⟨-, _, heq⟩ | ⟨-, _, _, _, -, heq⟩ | ⟨-, _, _, heq⟩ :=
    tickConn_cases lim c now
  · exact .inl (by rw [heq])
  · rw [heq]
    exact .inr ⟨rfl, .inl⟩
  · rw [heq]
    exact .inr ⟨rfl, .inl⟩
  · rw [heq]
    exact .inr ⟨rfl, .inl⟩

variable {c}

theorem Received.flag_state {c' : TcpConn} (h : Received c c') :
    c'.wasAccepted = c.wasAccepted ∧ c'.state = c.state := by
  obtain ⟨_, _, _, _, _, _, rfl⟩ := h
  exact ⟨rfl, rfl⟩

theorem ackProcessing_flag_state (now : Nat) (seg : Segment) :
    (c.ackProcessing now seg).1.wasAccepted = c.wasAccepted ∧
      (c.ackProcessing now seg).1.state = c.state := by
  obtain ⟨-, _, _, _, _, -, heq⟩ | ⟨-, _, _, _, _, _, _, -, heq⟩ := ackProcessing_cases c now seg
  · rw [heq]
    exact ⟨rfl, rfl⟩
  · rw [heq]
    exact ⟨rfl, rfl⟩

/-- Without a FIN an established connection stays in its state. -/
theorem keepsFlag_handleEstablished (now : Nat) {seg : Segment}
    (hfin : seg.has TCP_FIN = true → c.wasAccepted = true) :
    KeepsFlag c (c.handleEstablished lim now seg).1 := by
  have hout : ∀ out : TcpConn × Bool,
      out = (if seg.has TCP_ACK then c.ackProcessing now seg else (c, false)) →
      out.1.wasAccepted = c.wasAccepted ∧ out.1.state = c.state := by
    intro out heq
    split_ifs at heq
    · rw [heq]
      exact ackProcessing_flag_state now seg
    · rw [heq]
      exact ⟨rfl, rfl⟩
  unfold handleEstablished
  dsimp only
  generalize (if seg.has TCP_ACK then c.ackProcessing now seg else (c, false)) = out at hout
  generalize (if out.2 = true then [out.1.retxEmission lim] else []) = sent
  obtain ⟨hflag, hstate⟩ := hout out rfl
  split_ifs
  · exact .refl c
  · exact .inr ⟨hflag, fun h => .inl (hstate ▸ h)⟩
  · obtain ⟨hflag', hstate'⟩ := (received_payloadProcessing lim out.1 now seg).flag_state
    rw [hflag] at hflag'
    rw [hstate] at hstate'
    generalize (out.1.payloadProcessing lim now seg).1 = c₂ at hflag' hstate' ⊢
    cases hhas : seg.has TCP_FIN with
    | false =>
      have hsame : (c₂.finProcessing lim now seg c.ack).1 = c₂ := by
        rw [finProcessing, hhas]
        rfl
      show KeepsFlag c (c₂.finProcessing lim now seg c.ack).1
      rw [hsame]
      exact .inr ⟨hflag', fun h => .inl (hstate' ▸ h)⟩
    | true =>
      refine .inr ⟨?_, fun _ => .inr (hfin hhas)⟩
      show (c₂.finProcessing lim now seg c.ack).1.wasAccepted = c.wasAccepted
      obtain heq | heq := finProcessing_cases lim c₂ now seg c.ack
      · rw [heq]
        exact hflag'
      · rw [heq]
        exact hflag'

theorem Advances.ne_closeWait {s : TcpState} : ¬ Advances s .closeWait := by
  cases s <;> exact id

theorem keepsFlag_handleConn (now : Nat) {seg : Segment}
    (hfin : c.state = .established → seg.has TCP_FIN = true → c.wasAccepted = true) :
    KeepsFlag c (c.handleConn lim now seg).1 := by
  obtain ⟨⟨hstate, -⟩, heq⟩ | ⟨_, _, _, _, heq⟩ | ⟨hmoved, hadvance⟩ :=
    handleConn_cases lim c now seg
  · rw [heq]
    exact keepsFlag_handleEstablished now (hfin hstate)
  · exact .inl (by rw [heq])
  · refine .inr ⟨?_, fun h => ?_⟩
    · obtain ⟨_, _, _, _, _, _, _, _, heq⟩ := hmoved
      rw [heq]
    · obtain heq | hadvance := hadvance
      · exact .inl (heq ▸ h)
      · exact absurd (h ▸ hadvance) Advances.ne_closeWait

end TcpConn

/-! ## The run -/

/-- The flag of a connection from a peer says whether it was returned. -/
def Tracks (s : Tracked lim) (i : Fin lim.maxConns) : Prop :=
  s.passive i = true → s.returned i ≤ 1 ∧
    ((s.layer.conns i).state ≠ .closed →
      ((s.layer.conns i).wasAccepted = true ↔ s.returned i = 1)) ∧
    ((s.layer.conns i).state = .closeWait → (s.layer.conns i).wasAccepted = true)

variable {s : Tracked lim} {op : Op lim} {i : Fin lim.maxConns}

/-- A call that is no `accept` and keeps the flag. -/
theorem tracks_of_keepsFlag (h : Tracks s i)
    (hkeeps : (s.layer.conns i).KeepsFlag ((step s.layer op).conns i))
    (hreturns : returns s.layer op i = false)
    (hopens : opens s.layer op i = true → op.isSegment = false) : Tracks (track s op) i := by
  intro hpassive
  simp only [track] at hpassive ⊢
  cases hopen : opens s.layer op i with
  | true =>
    rw [hopen, if_pos rfl, hopens hopen] at hpassive
    cases hpassive
  | false =>
    simp only [hopen, hreturns, Bool.false_eq_true, if_false] at hpassive ⊢
    obtain ⟨hle, hflag, hwait⟩ := h hpassive
    refine ⟨hle, fun hstate => ?_, fun hstate => ?_⟩
    · have hbefore : (s.layer.conns i).state ≠ .closed := by
        intro hclosed
        simp [opens, hclosed, hstate] at hopen
      rw [(hkeeps.resolve_left hstate).1]
      exact hflag hbefore
    · obtain ⟨hsame, hfrom⟩ := hkeeps.resolve_left (by rw [hstate]; exact fun h => by cases h)
      rw [hsame]
      exact (hfrom hstate).elim hwait id

theorem tracks_accept (h : Tracks s i) (port : UInt16) :
    Tracks (track s (.accept port)) i := by
  have hstate : ((s.layer.accept port).conns i).state = (s.layer.conns i).state := by
    rw [TcpLayer.conns_accept]
    split_ifs <;> rfl
  have hopens : opens s.layer (.accept port) i = false := by
    simp [opens, step, hstate]
  intro hpassive
  simp only [track, hopens, Bool.false_eq_true, if_false] at hpassive ⊢
  obtain ⟨hle, hflag, hwait⟩ := h hpassive
  show (if returns s.layer (.accept port) i then _ else _) ≤ 1 ∧
    (((s.layer.accept port).conns i).state ≠ _ → (((s.layer.accept port).conns i).wasAccepted = _ ↔
      (if returns s.layer (.accept port) i then _ else _) = 1)) ∧
    (((s.layer.accept port).conns i).state = _ → ((s.layer.accept port).conns i).wasAccepted = _)
  rw [hstate, TcpLayer.conns_accept]
  by_cases hslot : s.layer.acceptSlot port = some i
  · obtain ⟨hready, -, hclear⟩ := TcpLayer.ready_of_acceptSlot hslot
    have hzero : s.returned i = 0 := by
      have hne : s.returned i ≠ 1 := fun hone => by
        have := (hflag (by rw [hready]; decide)).2 hone
        rw [hclear] at this
        cases this
      omega
    simp [returns, hslot, hzero]
  · simp only [returns, hslot, decide_false, Bool.false_eq_true, if_false]
    exact ⟨hle, hflag, hwait⟩

theorem keepsFlag_set {t : TcpLayer lim} {j : Fin lim.maxConns} {c : TcpConn}
    (h : (t.conns j).KeepsFlag c) (i : Fin lim.maxConns) :
    (t.conns i).KeepsFlag ((t.set j c).conns i) := by
  rw [TcpLayer.set_conns]
  split_ifs with hij
  · exact hij ▸ h
  · exact .refl _

/-- A call of the application keeps the flag. -/
theorem keepsFlag_of_not_isSegment {t : TcpLayer lim} (hop : op.isSegment = false)
    (hreturns : ∀ port, op ≠ .accept port) (i : Fin lim.maxConns) :
    (t.conns i).KeepsFlag ((step t op).conns i) := by
  cases op with
  | accept port => exact absurd rfl (hreturns port)
  | handle now isn seg => cases hop
  | listen port =>
    rw [step, TcpLayer.listen]
    cases t.alloc with
    | none => exact .refl _
    | some j =>
      refine keepsFlag_set ?_ i
      exact .inr ⟨rfl, fun h => by cases h⟩
  | connect now isn dstIp dstPort srcPort =>
    rw [step, TcpLayer.connect]
    cases t.alloc with
    | none => exact .refl _
    | some j =>
      refine keepsFlag_set ?_ i
      exact .inr ⟨rfl, fun h => by cases h⟩
  | send j now linkOk data => exact keepsFlag_set (TcpConn.keepsFlag_sendData _ now linkOk data) i
  | recv j len => exact keepsFlag_set (TcpConn.keepsFlag_recv _ len) i
  | close j => exact keepsFlag_set (TcpConn.keepsFlag_close _) i
  | tick now => exact TcpConn.keepsFlag_tickConn _ now

/-- A SYN that opens a connection in a slot with a clear flag. -/
theorem tracks_passiveOpen {now : Nat} {isn : UInt32} {seg : Segment}
    (halloc : s.layer.alloc = some i) (hclear : (s.layer.conns i).wasAccepted = false)
    (heq : (s.layer.handle now isn seg).conns i =
      (s.layer.conns i).passiveOpen lim now isn s.layer.ourIp seg) :
    Tracks (track s (.handle now isn seg)) i := by
  have hopens : opens s.layer (.handle now isn seg) i = true := by
    simp [opens, step, heq, s.layer.state_alloc halloc, TcpConn.passiveOpen,
      TcpConn.resetConnState]
  intro _
  simp only [track, hopens, if_true, step, heq]
  refine ⟨Nat.zero_le _, fun _ => ?_, fun h => by cases h⟩
  show (s.layer.conns i).wasAccepted = true ↔ 0 = 1
  simp [hclear]

/-- A fresh call keeps the flag in step with the record. -/
theorem tracks_step (h : ∀ i, Tracks s i) (hfresh : Fresh s op) (i : Fin lim.maxConns) :
    Tracks (track s op) i := by
  by_cases haccept : ∃ port, op = .accept port
  · obtain ⟨port, rfl⟩ := haccept
    exact tracks_accept (h i) port
  have hreturns : returns s.layer op i = false := by
    cases op with
    | accept port => exact absurd ⟨port, rfl⟩ haccept
    | _ => rfl
  cases hop : op.isSegment with
  | false =>
    have hkeeps := keepsFlag_of_not_isSegment (t := s.layer) hop
      (fun port heq => haccept ⟨port, heq⟩) i
    exact tracks_of_keepsFlag (h i) hkeeps hreturns fun _ => hop
  | true =>
    cases op with
    | handle now isn seg =>
      obtain ⟨hsyn, hfin⟩ := hfresh
      -- A slot that is closed stays closed unless a SYN takes it.
      have hstays : ∀ c, (s.layer.handle now isn seg).conns i = c → (s.layer.conns i).KeepsFlag c →
          ((s.layer.conns i).state = .closed → c.state = .closed) →
          Tracks (track s (.handle now isn seg)) i := by
        intro c heq hkeeps hclosed
        refine tracks_of_keepsFlag (h i) (by rw [step, heq]; exact hkeeps) hreturns fun hopens => ?_
        simp only [opens, step, heq, Bool.and_eq_true, decide_eq_true_eq] at hopens
        exact absurd (hclosed hopens.1) hopens.2
      obtain heq | ⟨hfind, heq⟩ | ⟨⟨hfind, hhas, halloc⟩, heq⟩ :=
        TcpLayer.handle_cases (t := s.layer) now isn seg i
      · exact hstays _ heq (.refl _) id
      · refine hstays _ heq (TcpConn.keepsFlag_handleConn now fun hstate hhas => ?_)
          fun hclosed => absurd hclosed (s.layer.findConn_spec hfind).1
        cases hflag : (s.layer.conns i).wasAccepted with
        | true => rfl
        | false => rw [hfin i hfind hstate hflag] at hhas; cases hhas
      · exact tracks_passiveOpen halloc (hsyn hfind hhas i halloc) heq
    | _ => cases hop

/-- In a run of fresh calls the flags are in step with the record. -/
theorem run_tracks (ip : UInt32) {ops : List (Op lim)}
    (h : Guarded track Fresh (.init lim ip) ops) (i : Fin lim.maxConns) :
    Tracks (run track (.init lim ip) ops) i :=
  run_invariant_of_guarded (fun s => ∀ i, Tracks s i) (fun _ _ hs hop => tracks_step hs hop)
    (fun _ hpassive => by cases hpassive) h i

theorem acceptedOnce_of_tracks (h : ∀ i, Tracks s i) : AcceptedOnce s := by
  intro i hpassive
  obtain ⟨hle, hflag, hwait⟩ := h i hpassive
  refine ⟨hle, fun hstate hzero => ?_⟩
  have hclear : (s.layer.conns i).wasAccepted = false := by
    have hopen : (s.layer.conns i).state ≠ .closed := by
      obtain hstate | hstate := hstate
      · rw [hstate]
        decide
      · rw [hstate]
        decide
    rw [Bool.eq_false_iff]
    intro hset
    have hone := (hflag hopen).1 hset
    omega
  obtain hstate | hstate := hstate
  · exact TcpLayer.Ready.claimable ⟨hstate, rfl, hclear⟩
  · rw [hwait hstate] at hclear
    cases hclear

/-- In a run of fresh calls every connection from a peer is accepted once. -/
theorem acceptedOnce_run (lim : Limits) (ip : UInt32) (ops : List (Op lim))
    (h : Guarded track Fresh (.init lim ip) ops) : AcceptedOnce (run track (.init lim ip) ops) :=
  acceptedOnce_of_tracks (run_tracks ip h)

/-! ## A slot that is used again -/

/-- A segment from the peer to port 80 of the server. -/
def peerSegment (peer : UInt16) (flags : UInt8) (seq ackNum : UInt32) : Segment :=
  ⟨1, peer, 80, seq, ackNum, flags, 1000, [], []⟩

/-- The handshake of a peer whose first number is 100, with the server's 500. -/
def handshake (peer : UInt16) : List (Op ⟨8, 12⟩) :=
  [.handle 0 500 (peerSegment peer TCP_SYN 100 0),
    .handle 0 0 (peerSegment peer TCP_ACK 101 501)]

/-- The connection of a peer is accepted, and the peer and the server close it. -/
def firstConnection : List (Op ⟨8, 12⟩) :=
  .listen 80 :: handshake 7 ++
    [.accept 80, .handle 0 0 (peerSegment 7 (TCP_FIN ||| TCP_ACK) 101 501), .close 1,
      .handle 0 0 (peerSegment 7 TCP_ACK 102 502)]

/-- The connection is accepted and reset, and the slot serves the next peer. -/
def resetConnection : List (Op ⟨8, 12⟩) :=
  .listen 80 :: handshake 7 ++ [.accept 80, .handle 0 0 (peerSegment 7 TCP_RST 101 501)] ++
    handshake 8 ++ [.accept 80]

theorem acceptedOnce_resetConnection :
    let s := run track (.init ⟨8, 12⟩ 9) resetConnection
    (s.layer.conns 1).remotePort = 8 ∧ (s.layer.conns 1).wasAccepted = true ∧ AcceptedOnce s := by
  refine ⟨by decide +kernel, by decide +kernel, acceptedOnce_run _ _ _ ?_⟩
  refine ⟨trivial, ⟨?_, ?_⟩, ⟨?_, ?_⟩, trivial, ⟨?_, ?_⟩, ⟨?_, ?_⟩, ⟨?_, ?_⟩, trivial, trivial⟩ <;>
    decide +kernel

/-- After the exchange of FINs the flag stays, and the next connection in the slot is never
returned. -/
theorem second_connection_lost :
    ∃ ops : List (Op ⟨8, 12⟩), ¬ AcceptedOnce (run track (.init ⟨8, 12⟩ 9) ops) := by
  refine ⟨firstConnection ++ handshake 8, fun h => ?_⟩
  obtain ⟨-, hclaim⟩ := h 1 (by decide +kernel)
  exact TcpLayer.not_claimable (by decide +kernel) 1
    (hclaim (.inl (by decide +kernel)) (by decide +kernel))

end RobotOs.Net
