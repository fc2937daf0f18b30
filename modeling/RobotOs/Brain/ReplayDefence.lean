import RobotOs.Brain.Receive
import RobotOs.Lib.Run

/-!
# The replay defence of the envelope

A keyed receiver over any sequence of frames, whoever made them.  The tag is
checked before the nonce, so nothing here rests on what a forger can do: the
mark goes up with every envelope that is accepted, and with nothing else.

`unwrapConsuming_cases` lists the outcomes of one frame.  `drainAll_pieces` is
about a buffer of any bytes: the loop cuts envelopes off its front, and what is
left is empty or is refused.  `drainAll_sealed` says that fresh envelopes behind
one another are all read.
-/

namespace RobotOs.Brain

open Lib.Framing Lib.Run Crypto

/-- The nonce field of an envelope. -/
def nonceOf (envelope : Bytes) : UInt64 := UInt64.ofNat (ofBE (slice envelope 0 NONCE_BYTES))

/-- The packet in an envelope. -/
def innerOf (envelope : Bytes) : Bytes := envelope.drop ENVELOPE_OVERHEAD

/-- The bytes behind the nonce do not change it. -/
theorem nonceOf_take (frame : Bytes) {n : Nat} (h : ENVELOPE_OVERHEAD ≤ n) :
    nonceOf (frame.take n) = nonceOf frame := by
  have hmin : min NONCE_BYTES n = NONCE_BYTES := by
    simp only [ENVELOPE_OVERHEAD] at h
    omega
  simp only [nonceOf, slice, List.drop_zero, List.take_take, hmin]

/-! ## One frame -/

variable {e : Envelope} {key : Bytes}

/-- A frame is rejected and changes nothing, or it starts with an envelope whose
nonce is above the mark, and the mark moves there. -/
theorem unwrapConsuming_cases (P : Primitives) (hkey : e.key = some key) (frame : Bytes)
    (outLen : Nat) :
    unwrapConsuming P e frame outLen = (none, e) ∨
      ∃ n, ENVELOPE_OVERHEAD + n ≤ frame.length ∧ e.highestRxNonce < nonceOf frame ∧
        unwrapConsuming P e frame outLen =
          (some (innerOf (frame.take (ENVELOPE_OVERHEAD + n)), ENVELOPE_OVERHEAD + n),
            { e with highestRxNonce := nonceOf frame }) := by
  simp only [unwrapConsuming, hkey]
  split_ifs with hdenied hshort hmax hcut hroom htag hstale
  · exact .inl rfl
  · exact .inl rfl
  · exact .inl rfl
  · exact .inl rfl
  · exact .inl rfl
  · exact .inl rfl
  · -- The tag is right, and the nonce is not new.
    have hmark : max e.highestRxNonce (nonceOf frame) = e.highestRxNonce := fetchMax_of_le hstale
    exact .inl (Prod.ext rfl (by rw [← nonceOf, hmark, ← hkey]))
  · right
    have hfresh : e.highestRxNonce < nonceOf frame := UInt64.not_le.mp hstale
    have hmark := fetchMax_of_lt hfresh
    refine ⟨ofLE (slice frame (NONCE_BYTES + HMAC_BYTES) LEN_BYTES), by omega, hfresh,
      Prod.ext ?_ ?_⟩
    · simp only [innerOf, slice, List.drop_take, Nat.add_sub_cancel_left]
    · rw [← nonceOf, hmark]

/-! ## Sequences of frames -/

/-- The state after one more frame, with the room for its packet. -/
def feed (P : Primitives) (e : Envelope) (input : Bytes × Nat) : Envelope :=
  (unwrapConsuming P e input.1 input.2).2

/-- The envelopes that are accepted, in order. -/
def accepted (P : Primitives) : Envelope → List (Bytes × Nat) → List Bytes
  | _, [] => []
  | e, (frame, outLen) :: rest =>
    match unwrapConsuming P e frame outLen with
    | (some (_, eaten), e) => frame.take eaten :: accepted P e rest
    | (none, e) => accepted P e rest

/-- A rejected frame leaves the mark, and an accepted one reports a length
between that of an empty envelope and its own. -/
def Bounded (P : Primitives) (e : Envelope) (input : Bytes × Nat) : Prop :=
  match unwrapConsuming P e input.1 input.2 with
  | (none, e') => e'.highestRxNonce = e.highestRxNonce
  | (some (_, eaten), _) => ENVELOPE_OVERHEAD ≤ eaten ∧ eaten ≤ input.1.length

theorem key_feed (P : Primitives) (hkey : e.key = some key) (input : Bytes × Nat) :
    (feed P e input).key = some key := by
  unfold feed
  rcases unwrapConsuming_cases P hkey input.1 input.2 with hout | ⟨n, -, -, hout⟩
  · rw [hout]
    exact hkey
  · rw [hout]
    exact hkey

theorem bounded_of_key (P : Primitives) (hkey : e.key = some key) (input : Bytes × Nat) :
    Bounded P e input := by
  unfold Bounded
  rcases unwrapConsuming_cases P hkey input.1 input.2 with hout | ⟨n, hlen, -, hout⟩
  · rw [hout]
  · rw [hout]
    exact ⟨Nat.le_add_right _ _, hlen⟩

theorem guarded_bounded (P : Primitives) (hkey : e.key = some key) (inputs : List (Bytes × Nat)) :
    Guarded (feed P) (Bounded P) e inputs := by
  induction inputs generalizing e with
  | nil => trivial
  | cons input inputs ih => exact ⟨bounded_of_key P hkey input, ih (key_feed P hkey input)⟩

/-- What lies above the new mark lies above the old one. -/
theorem pairwise_cons_of_lt {mark nonce : UInt64} {nonces : List UInt64} (h : mark < nonce)
    (hrest : (nonce :: nonces).Pairwise (· < ·)) : (mark :: nonce :: nonces).Pairwise (· < ·) := by
  refine List.pairwise_cons.mpr ⟨fun later hmem => ?_, hrest⟩
  rcases List.mem_cons.mp hmem with rfl | hmem
  · exact h
  · exact UInt64.lt_trans h ((List.pairwise_cons.mp hrest).1 later hmem)

/-- The nonces of the accepted envelopes go up from the mark. -/
theorem pairwise_accepted (P : Primitives) (hkey : e.key = some key) (inputs : List (Bytes × Nat)) :
    (e.highestRxNonce :: (accepted P e inputs).map nonceOf).Pairwise (· < ·) := by
  induction inputs generalizing e with
  | nil => simp [accepted]
  | cons input inputs ih =>
    obtain ⟨frame, outLen⟩ := input
    unfold accepted
    rcases unwrapConsuming_cases P hkey frame outLen with hout | ⟨n, hlen, hfresh, hout⟩
    · rw [hout]
      exact ih hkey
    · rw [hout]
      simp only [List.map_cons, nonceOf_take frame (Nat.le_add_right _ n)]
      have hrest := ih (e := { e with highestRxNonce := nonceOf frame }) hkey
      exact pairwise_cons_of_lt hfresh hrest

/-! ## Draining a buffer -/

/-- One round of the loop that drains a buffer of envelopes. -/
def unwrapStep (P : Primitives) (outLen : Nat) (e : Envelope) (rest : Bytes) :
    Step Envelope Bytes :=
  match unwrapConsuming P e rest outLen with
  | (some (inner, eaten), e) => .emit inner eaten e
  | (none, e) => .stop e

/-- Of any buffer the loop reads envelopes from the front, each once and in
order, until nothing is left or the rest is refused. -/
theorem drainAll_pieces (P : Primitives) (hkey : e.key = some key) (outLen : Nat) (buf : Bytes) :
    ∃ (pieces : List Bytes) (rest : Bytes) (e' : Envelope), buf = pieces.flatten ++ rest ∧
      drainAll (unwrapStep P outLen) e buf = (pieces.map innerOf, e') ∧
      (e.highestRxNonce :: pieces.map nonceOf).Pairwise (· < ·) ∧
      (rest = [] ∨ unwrapConsuming P e' rest outLen = (none, e')) := by
  induction hlen : buf.length using Nat.strong_induction_on generalizing e buf with
  | _ len ih =>
    by_cases hbuf : buf = []
    · subst hbuf
      exact ⟨[], [], e, rfl, rfl, by simp, .inl rfl⟩
    rcases unwrapConsuming_cases P hkey buf outLen with hout | ⟨n, hfits, hfresh, hout⟩
    · refine ⟨[], buf, e, rfl, ?_, by simp, .inr hout⟩
      exact drainAll_stop _ hbuf (by simp only [unwrapStep, hout])
    · have hstep : unwrapStep P outLen e buf =
          .emit (innerOf (buf.take (ENVELOPE_OVERHEAD + n))) (ENVELOPE_OVERHEAD + n)
            { e with highestRxNonce := nonceOf buf } := by
        simp only [unwrapStep, hout]
      have hpos : ENVELOPE_OVERHEAD + n ≠ 0 := by
        simp only [ENVELOPE_OVERHEAD, NONCE_BYTES]
        omega
      obtain ⟨pieces, rest, e', hcut, hdrain, hnonces, hend⟩ :=
        ih (buf.drop (ENVELOPE_OVERHEAD + n)).length
          (by rw [List.length_drop]; omega) (e := { e with highestRxNonce := nonceOf buf })
          hkey _ rfl
      refine ⟨buf.take (ENVELOPE_OVERHEAD + n) :: pieces, rest, e', ?_, ?_, ?_, hend⟩
      · rw [List.flatten_cons, List.append_assoc, ← hcut, List.take_append_drop]
      · rw [drainAll_emit _ hbuf hpos hstep, hdrain, List.map_cons]
      · rw [List.map_cons, nonceOf_take buf (Nat.le_add_right _ n)]
        exact pairwise_cons_of_lt hfresh hnonces

/-- An envelope that the peer sealed. -/
structure Sealed where
  nonce : UInt64
  inner : Bytes

/-- The bytes of an envelope for this direction. -/
def Sealed.frame (P : Primitives) (key : Bytes) (m : Sealed) : Bytes :=
  envelopeFrame P key DIR_RX m.nonce m.inner

/-- The envelopes can be read one after the other: the nonces grow from the mark,
and the packets are of the size that `wrap` allows and the buffer has room for. -/
structure Readable (e : Envelope) (outLen : Nat) (msgs : List Sealed) : Prop where
  permitted : linkPolicyDenial e = none
  fresh : (e.highestRxNonce :: msgs.map Sealed.nonce).Pairwise (· < ·)
  small : ∀ m ∈ msgs, m.inner.length ≤ MAX_INNER_BYTES ∧ m.inner.length ≤ outLen

/-- Fresh envelopes behind one another are all read, each once and in order. -/
theorem drainAll_sealed (P : Primitives) (hkey : e.key = some key) {outLen : Nat}
    {msgs : List Sealed} (hread : Readable e outLen msgs) :
    (drainAll (unwrapStep P outLen) e (msgs.map (Sealed.frame P key)).flatten).1 =
      msgs.map Sealed.inner := by
  suffices hreads : ∃ e', Reads (unwrapStep P outLen) e (msgs.map (Sealed.frame P key))
      (msgs.map Sealed.inner) e' by
    obtain ⟨e', hreads⟩ := hreads
    rw [drainAll_reads _ hreads]
  induction msgs generalizing e with
  | nil => exact ⟨e, .nil e⟩
  | cons m msgs ih =>
    have hmark := List.pairwise_cons.mp hread.fresh
    obtain ⟨hmax, hroom⟩ := hread.small m (by simp)
    obtain ⟨e', hrest⟩ := ih (e := { e with highestRxNonce := m.nonce }) hkey
      ⟨hread.permitted, hmark.2, fun m' hm' => hread.small m' (by simp [hm'])⟩
    refine ⟨e', .cons ?_ (fun tail => ?_) hrest⟩
    · apply List.ne_nil_of_length_pos
      simp only [Sealed.frame, length_envelopeFrame, ENVELOPE_OVERHEAD, NONCE_BYTES]
      omega
    · have hopen := unwrapConsuming_envelopeFrame P hkey hread.permitted m.nonce
        (hmark.1 m.nonce (by simp)) m.inner tail hmax outLen hroom
      simp only [unwrapStep, Sealed.frame, hopen, length_envelopeFrame]

/-! ## The defence -/

/-- A keyed receiver, over every sequence of frames: the nonces of the accepted
envelopes grow, so none is accepted twice; a rejected frame leaves the mark, and
an accepted one reports its own length; and a buffer is drained envelope by
envelope, up to the first bytes that are refused. -/
theorem replay_defence (P : Primitives) (e : Envelope) (key : Bytes) (hkey : e.key = some key)
    (inputs : List (Bytes × Nat)) :
    ((accepted P e inputs).map nonceOf).Pairwise (· < ·) ∧
      (accepted P e inputs).Nodup ∧
      Guarded (feed P) (Bounded P) e inputs ∧
      (∀ outLen buf, ∃ (pieces : List Bytes) (rest : Bytes) (e' : Envelope),
        buf = pieces.flatten ++ rest ∧
        drainAll (unwrapStep P outLen) (run (feed P) e inputs) buf = (pieces.map innerOf, e') ∧
        (pieces.map nonceOf).Pairwise (· < ·) ∧
        (rest = [] ∨ unwrapConsuming P e' rest outLen = (none, e'))) ∧
      ∀ outLen msgs, Readable (run (feed P) e inputs) outLen msgs →
        (drainAll (unwrapStep P outLen) (run (feed P) e inputs)
          (msgs.map (Sealed.frame P key)).flatten).1 = msgs.map Sealed.inner := by
  have hnonces := (List.pairwise_cons.mp (pairwise_accepted P hkey inputs)).2
  have hend : (run (feed P) e inputs).key = some key :=
    run_invariant (fun e : Envelope => e.key = some key) (fun _ input h => key_feed P h input)
      hkey inputs
  refine ⟨hnonces, ?_, ?_, fun outLen buf => ?_, fun outLen msgs => drainAll_sealed P hend⟩
  · apply (List.pairwise_map.mp hnonces).imp
    intro envelope envelope' hlt heq
    exact UInt64.lt_irrefl _ (heq ▸ hlt)
  · exact guarded_bounded P hkey inputs
  · obtain ⟨pieces, rest, e', hcut, hdrain, hpieces, hstop⟩ := drainAll_pieces P hend outLen buf
    exact ⟨pieces, rest, e', hcut, hdrain, (List.pairwise_cons.mp hpieces).2, hstop⟩

/-- Two envelopes, the first of them again, and bytes that are none. -/
def replayedFrames : List (Bytes × Nat) :=
  let first := Sealed.frame samplePrimitives sampleKey ⟨5, [1, 2]⟩
  let second := Sealed.frame samplePrimitives sampleKey ⟨9, [3]⟩
  [(first, 64), (second, 64), (first, 64), ([0, 1, 2], 64)]

/-- Only the two envelopes are accepted, and none of them twice. -/
theorem replay_defence_replayed :
    ((accepted samplePrimitives (sampleReceiver false).envelope replayedFrames).map nonceOf) =
        [5, 9] ∧
      (accepted samplePrimitives (sampleReceiver false).envelope replayedFrames).Nodup :=
  ⟨by decide +kernel,
    (replay_defence samplePrimitives (sampleReceiver false).envelope sampleKey rfl
      replayedFrames).2.1⟩

end RobotOs.Brain
