import RobotOs.Crypto.Handshake
import RobotOs.Lib.Run
import RobotOs.Lib.Tally

/-!
# The gate of the enforced encryption

`AEAD_SESSIONS` of the encrypt-link crate counts the links in the state
`Established`.  `mark_established` moves it up and `Drop` moves it down, and
`envelope_frame_permitted` opens the gate while it is not zero.

The links are those that are live in memory, each at its own address.  No link
is at the null address, so there are fewer of them than a `usize` can count.  A
link that is assigned over is dropped first.
-/

namespace RobotOs.Crypto

open Lib.Framing Lib.Run Lib.Tally

/-- An address other than the null address. -/
abbrev Place := Fin (UInt64.size - 1)

/-- The live links and `AEAD_SESSIONS`. -/
structure Sessions where
  links : Place → Option Link
  count : UInt64

namespace Sessions

def boot : Sessions := ⟨fun _ => none, 0⟩

/-- `is_established` of the link at a place. -/
def established : Option Link → Bool
  | some l => l.link.state = .Established
  | none => false

/-- `envelope_frame_permitted`, by the build's `link_encrypt_enforced`. -/
def envelopeFramePermitted (enforced : Bool) (s : Sessions) : Bool :=
  !enforced || s.count != 0

/-- The counter in `mark_established`, for a link as it is before the call. -/
def markCount (l : Link) (count : UInt64) : UInt64 :=
  if l.link.state = .Established then count else count + 1

/-- The link at a place is written. -/
def put (s : Sessions) (p : Place) (l : Option Link) : Sessions :=
  { s with links := Function.update s.links p l }

/-- `Drop`.  The counter is moved with `saturating_sub`. -/
def drop (s : Sessions) (p : Place) : Sessions :=
  match s.links p with
  | none => s
  | some l =>
    (if l.link.state = .Established ∧ s.count ≠ 0 then { s with count := s.count - 1 }
      else s).put p none

/-- A handler that ends in `mark_established` when it succeeds. -/
def settle {α : Type} (s : Sessions) (p : Place) (l : Link) :
    Except HandshakeError α × Link → Sessions
  | (.ok _, l') => { s with count := markCount l s.count }.put p (some l')
  | (.error _, l') => s.put p (some l')

/-- What happens to the links. -/
inductive Op where
  | create (p : Place) (psk ephPriv : Key32)
  | startInitiator (p : Place)
  | peerHello (p : Place) (frame : Bytes)
  | initiatorHello (p : Place) (frame : Bytes)
  | initiatorConfirm (p : Place) (frame : Bytes)
  | encrypt (p : Place) (plaintext nonceRand : Bytes) (outLen : Nat)
  | drop (p : Place)

/-- An operation on the link at a place, when there is one. -/
def onLink (s : Sessions) (p : Place) (f : Link → Sessions) : Sessions :=
  match s.links p with
  | none => s
  | some l => f l

def step (P : Primitives) (X : X25519) (s : Sessions) : Op → Sessions
  | .create p psk ephPriv => (s.drop p).put p (some (Link.new X psk ephPriv))
  | .startInitiator p => s.onLink p fun l => s.put p (some (l.startInitiator).2)
  | .peerHello p frame => s.onLink p fun l => s.settle p l (l.handlePeerHello P X frame)
  | .initiatorHello p frame =>
    s.onLink p fun l => s.put p (some (l.handleInitiatorHello P X frame).2)
  | .initiatorConfirm p frame => s.onLink p fun l => s.settle p l (l.handleInitiatorConfirm P frame)
  | .encrypt p plaintext nonceRand outLen =>
    s.onLink p fun l => s.put p (some (l.encrypt P plaintext nonceRand outLen).2)
  | .drop p => s.drop p

/-! ## What one operation does -/

/-- A message with the proof that the link waits for, under its pre-shared key. -/
def Op.Proves (P : Primitives) (p : Place) (l : Link) (op : Op) : Prop :=
  (∃ peer, op = .peerHello p (helloReply peer (proofResponder P l.psk l.ephPub peer))) ∨
    op = .initiatorConfirm p (confirmMessage (proofInitiator P l.psk l.ephPub l.peerPub))

/-- One place is written at most, and the counter moves when the link there
becomes established or stops to be. -/
inductive Moves (P : Primitives) (s : Sessions) (op : Op) : Sessions → Prop where
  | idle : Moves P s op s
  | same (p : Place) (l : Option Link) (h : established l = established (s.links p)) :
      Moves P s op (s.put p l)
  | up (p : Place) (l l' : Link) (hlink : s.links p = some l) (hproof : op.Proves P p l)
      (hold : established (some l) = false) (hnew : established (some l') = true) :
      Moves P s op ({ s with count := s.count + 1 }.put p (some l'))
  | down (p : Place) (l : Option Link) (hold : established (s.links p) = true)
      (hnew : established l = false) :
      Moves P s op ((if s.count ≠ 0 then { s with count := s.count - 1 } else s).put p l)

section Step

variable {P : Primitives} {X : X25519} {s : Sessions} {op : Op}

theorem put_put (s : Sessions) (p : Place) (l l' : Option Link) :
    (s.put p l).put p l' = s.put p l' := by
  simp [put]

/-- A link that has not finished its handshake writes itself back. -/
theorem moves_put {p : Place} {l l' : Link} (hlink : s.links p = some l)
    (h : l'.link.state = .Established ↔ l.link.state = .Established) :
    Moves P s op (s.put p (some l')) := by
  apply Moves.same
  rw [hlink, established, established, decide_eq_decide]
  exact h

theorem moves_refused {p : Place} {l l' : Link} (hlink : s.links p = some l)
    (h : l' = l ∨ l.Refuses l') : Moves P s op (s.put p (some l')) := by
  refine moves_put hlink ?_
  rcases h with rfl | ⟨hstate, peer, rfl⟩
  · rfl
  · simp [Link.reject, Link.setState, hstate]

theorem moves_onLink {p : Place} {f : Link → Sessions}
    (h : ∀ l, s.links p = some l → Moves P s op (f l)) : Moves P s op (s.onLink p f) := by
  unfold onLink
  split
  · exact .idle
  next l hlink => exact h l hlink

/-- A link that was not established sends or checks its last proof. -/
theorem moves_settled {α : Type} {p : Place} {l l' : Link} {out : α} (hlink : s.links p = some l)
    (hproof : op.Proves P p l) (hold : l.link.state ≠ .Established)
    (hnew : l'.link.state = .Established) : Moves P s op (s.settle p l (.ok out, l')) := by
  rw [settle, markCount, if_neg hold]
  exact .up p l l' hlink hproof (by simp [established, hold]) (by simp [established, hnew])

/-- A place is cleared or gets a new link. -/
theorem moves_dropped (p : Place) {l : Option Link} (hnew : established l = false) :
    Moves P s op ((s.drop p).put p l) := by
  unfold drop
  split
  next hnone => exact .same p l (by rw [hnew, hnone]; rfl)
  next link hlink =>
    rw [put_put]
    by_cases hstate : link.link.state = .Established
    · simpa [hstate] using Moves.down p l (by simp [hlink, established, hstate]) hnew
    · rw [if_neg (by simp [hstate])]
      exact .same p l (by rw [hnew, hlink]; simp [established, hstate])

theorem put_drop (s : Sessions) (p : Place) : (s.drop p).put p none = s.drop p := by
  unfold drop
  split
  next hnone => simp [put, ← hnone]
  next => exact put_put _ _ _ _

theorem moves_step (P : Primitives) (X : X25519) (s : Sessions) (op : Op) :
    Moves P s op (step P X s op) := by
  cases op with
  | create p psk ephPriv => exact moves_dropped p rfl
  | drop p =>
    rw [step, ← put_drop]
    exact moves_dropped p rfl
  | startInitiator p =>
    refine moves_onLink fun l hlink => ?_
    rcases l.startInitiator_cases with h | ⟨hstate, h⟩ <;> rw [h]
    · exact moves_refused hlink (.inl rfl)
    · exact moves_put hlink (by simp [Link.setState, hstate])
  | peerHello p frame =>
    refine moves_onLink fun l hlink => ?_
    rcases l.handlePeerHello_cases P X frame with ⟨e, l', h, hl'⟩ |
      ⟨peer, inner, hstate, rfl, -, h⟩ <;> rw [h]
    · exact moves_refused hlink hl'
    · exact moves_settled hlink (.inl ⟨peer, rfl⟩) (by simp [hstate]) rfl
  | initiatorHello p frame =>
    refine moves_onLink fun l hlink => ?_
    rcases l.handleInitiatorHello_cases P X frame with ⟨e, l', h, hl'⟩ |
      ⟨peer, inner, hstate, -, -, h⟩ <;> rw [h]
    · exact moves_refused hlink hl'
    · exact moves_put hlink (by simp [Link.setState, hstate])
  | initiatorConfirm p frame =>
    refine moves_onLink fun l hlink => ?_
    rcases l.handleInitiatorConfirm_cases P frame with ⟨e, l', h, hl'⟩ | ⟨hstate, rfl, h⟩ <;> rw [h]
    · exact moves_refused hlink hl'
    · exact moves_settled hlink (.inr rfl) (by simp [hstate]) rfl
  | encrypt p plaintext nonceRand outLen =>
    refine moves_onLink fun l hlink => moves_put hlink ?_
    have hstate : (l.encrypt P plaintext nonceRand outLen).2.link.state = l.link.state := by
      unfold Link.encrypt
      split_ifs <;> rfl
    rw [hstate]

/-! ## The count is exact -/

/-- The counter is the number of established links. -/
def Exact (s : Sessions) : Prop := s.count.toNat = census established s.links

theorem exact_moves {s' : Sessions} (h : Exact s) (hmoves : Moves P s op s') : Exact s' := by
  unfold Exact at h ⊢
  cases hmoves with
  | idle => exact h
  | same p l hsame =>
    have hcensus := census_update established s.links p l
    rw [hsame] at hcensus
    exact h.trans (Nat.add_right_cancel hcensus).symm
  | up p l l' hlink hproof hold hnew =>
    have hcensus := census_update established s.links p (some l')
    rw [hlink, hold, hnew] at hcensus
    have hroom := census_le_card established (Function.update s.links p (some l'))
    rw [Fintype.card_fin] at hroom
    simp only [put, UInt64.toNat_add, UInt64.size] at h hroom ⊢
    simp only [Bool.toNat_false, Bool.toNat_true, UInt64.reduceToNat] at hcensus ⊢
    omega
  | down p l hold hnew =>
    have hcensus := census_update established s.links p l
    rw [hold, hnew] at hcensus
    have hpos := toNat_le_census established s.links p
    rw [hold] at hpos
    have hcount : 1 ≤ s.count.toNat := h.symm ▸ hpos
    have hne : s.count ≠ 0 := by
      intro hzero
      rw [hzero] at hcount
      exact absurd hcount (by decide)
    rw [if_pos hne]
    have hle : (1 : UInt64) ≤ s.count := UInt64.le_iff_toNat_le.mpr hcount
    simp only [put, UInt64.toNat_sub_of_le _ _ hle] at h ⊢
    simp only [Bool.toNat_false, Bool.toNat_true, UInt64.reduceToNat] at hcensus ⊢
    omega

theorem exact_run (ops : List Op) : Exact (run (step P X) boot ops) := by
  refine run_invariant Exact (fun s op h => exact_moves h (moves_step P X s op)) ?_ ops
  exact ((census_eq_zero_iff established _).mpr fun _ => rfl).symm

theorem links_drop (s : Sessions) (p : Place) :
    (s.drop p).links = Function.update s.links p none := by
  unfold drop
  split
  next hnone => rw [← hnone, Function.update_eq_self]
  next => split_ifs <;> rfl

/-- The counter comes down by one exactly when the link was established. -/
theorem count_drop (P : Primitives) (X : X25519) (h : Exact s) (p : Place) :
    (s.drop p).count.toNat + (established (s.links p)).toNat = s.count.toNat := by
  have hafter : (s.drop p).count.toNat = census established (s.drop p).links :=
    exact_moves h (moves_step P X s (.drop p))
  rw [links_drop] at hafter
  calc (s.drop p).count.toNat + (established (s.links p)).toNat
      = census established (Function.update s.links p none) + (established (s.links p)).toNat := by
        rw [hafter]
    _ = census established s.links + (established none).toNat :=
        census_update established s.links p none
    _ = census established s.links := Nat.add_zero _
    _ = s.count.toNat := h.symm

/-- A link becomes established by a proof only. -/
theorem proves_of_established {p : Place} (hold : established (s.links p) = false)
    (hnew : established ((step P X s op).links p) = true) :
    ∃ l, s.links p = some l ∧ op.Proves P p l := by
  have hmoves := moves_step P X s op
  generalize step P X s op = s' at hmoves hnew
  -- The place that the move writes is this one, or the link here is as before.
  have hother : ∀ q l, established (Function.update s.links q l p) = true → q = p := by
    intro q l hq
    by_contra hne
    rw [Function.update_of_ne (Ne.symm hne), hold] at hq
    exact Bool.false_ne_true hq
  cases hmoves with
  | idle => exact absurd (hold.symm.trans hnew) Bool.false_ne_true
  | same q l hsame =>
    obtain rfl := hother q l hnew
    simp only [put, Function.update_self, hsame, hold] at hnew
    exact absurd hnew Bool.false_ne_true
  | up q l l' hlink hproof _ _ =>
    obtain rfl := hother q (some l') hnew
    exact ⟨l, hlink, hproof⟩
  | down q l hwas hgone =>
    have hlinks : ((if s.count ≠ 0 then { s with count := s.count - 1 } else s).put q l).links =
        Function.update s.links q l := by
      split_ifs <;> rfl
    rw [hlinks] at hnew
    obtain rfl := hother q l hnew
    rw [Function.update_self, hgone] at hnew
    exact absurd hnew Bool.false_ne_true

end Step

/-- After every run the counter is the number of established links, a drop never
takes more than there is, the enforced gate is open exactly while a link is
established, and a link becomes established by a valid proof only. -/
theorem gate_exact (P : Primitives) (X : X25519) (ops : List Op) :
    (run (step P X) boot ops).count.toNat = census established (run (step P X) boot ops).links ∧
      (∀ p, ((run (step P X) boot ops).drop p).count.toNat +
          (established ((run (step P X) boot ops).links p)).toNat =
        (run (step P X) boot ops).count.toNat) ∧
      (envelopeFramePermitted true (run (step P X) boot ops) = true ↔
        ∃ p, established ((run (step P X) boot ops).links p) = true) ∧
      ∀ op p, established ((run (step P X) boot ops).links p) = false →
        established ((step P X (run (step P X) boot ops) op).links p) = true →
        ∃ l, (run (step P X) boot ops).links p = some l ∧ op.Proves P p l := by
  have hexact : Exact (run (step P X) boot ops) := exact_run ops
  refine ⟨hexact, count_drop P X hexact, ?_, fun op p => proves_of_established⟩
  generalize run (step P X) boot ops = s at hexact
  have hzero : s.count = 0 ↔ ∀ p, established (s.links p) = false := by
    rw [← census_eq_zero_iff, ← hexact, ← UInt64.toNat_inj]
    rfl
  simp [envelopeFramePermitted, hzero]

end Sessions

end RobotOs.Crypto
