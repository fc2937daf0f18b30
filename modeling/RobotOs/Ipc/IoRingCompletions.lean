import RobotOs.Ipc.IoRingDispatch

/-!
# Completions that wait

A pass writes a completion at `cq_tail` and moves the tail; the owner reads from `cq_head` and
moves the head.  Both indices run freely and wrap at `2 ^ 32`, and neither `io_ring_submit` nor
`io_ring_process_ring` compares them.  The completions from the head up to the tail wait for the
owner.

A turn writes over a completion that waits exactly when 32 of them do.  While every turn finds
room, a completion stays where it is until the head has passed it.
-/

namespace RobotOs.Ipc.IoRing

open RobotOs.Lib.Run

/-- The completion with this free-running index was written and not yet consumed. -/
def Unconsumed (page : Page) (i : UInt32) : Prop := i - page.cqHead < page.cqTail - page.cqHead

instance (page : Page) (i : UInt32) : Decidable (Unconsumed page i) :=
  inferInstanceAs (Decidable (_ < _))

/-- The completion entry that a step writes. -/
def Shared.writes (s : Shared) : RingOp → Option (Fin RING_CQ_SIZE)
  | .turn _ _ =>
    match s.pass with
    | some ⟨_, _ + 1, _⟩ => some (cqSlot s.page.cqTail)
    | _ => none
  | _ => none

/-- The step writes over no completion that waits. -/
def KeepsCompletions (s : Shared) (op : RingOp) : Prop :=
  ∀ i, Unconsumed s.page i → s.writes op ≠ some (cqSlot i)

/-- A turn with an entry to handle finds fewer than 32 completions that wait. -/
def HasRoom (s : Shared) : RingOp → Prop
  | .turn _ _ => ∀ p ∈ s.pass, p.left ≠ 0 → (s.page.cqTail - s.page.cqHead).toNat < RING_CQ_SIZE
  | _ => True

/-! ## The slots of free-running indices -/

/-- The size of the queue divides `2 ^ 32`, so the slot of a sum is found without the wrap. -/
theorem cqSlot_add (a b : UInt32) :
    (cqSlot (a + b)).val = (a.toNat + b.toNat) % RING_CQ_SIZE := by
  have hdvd : RING_CQ_SIZE ∣ 2 ^ 32 := by decide
  simp only [cqSlot, UInt32.toNat_add]
  exact Nat.mod_mod_of_dvd _ hdvd

/-- The index at the tail has the slot of a completion that waits exactly when the queue is
full. -/
theorem exists_unconsumed_cqSlot_iff (page : Page) :
    (∃ i, Unconsumed page i ∧ cqSlot page.cqTail = cqSlot i) ↔
      RING_CQ_SIZE ≤ (page.cqTail - page.cqHead).toNat := by
  have hsize : RING_CQ_SIZE = 32 := rfl
  constructor
  · rintro ⟨i, hi, hslot⟩
    -- The tail is `gap` places after `i`, and `gap` is a multiple of the size.
    have hgap : page.cqTail = i + (page.cqTail - i) := by
      rw [UInt32.add_comm, UInt32.sub_add_cancel]
    have hdist : (page.cqTail - i).toNat + (i - page.cqHead).toNat =
        (page.cqTail - page.cqHead).toNat := by
      have hlt := UInt32.lt_iff_toNat_lt.mp hi
      have ht := page.cqTail.toNat_lt
      have hh := page.cqHead.toNat_lt
      have hi' := i.toNat_lt
      simp only [UInt32.toNat_sub] at hlt ⊢
      omega
    have hpos : 0 < (page.cqTail - i).toNat := by
      have hlt := UInt32.lt_iff_toNat_lt.mp hi
      omega
    have hmod : (i.toNat + (page.cqTail - i).toNat) % RING_CQ_SIZE = i.toNat % RING_CQ_SIZE := by
      rw [← cqSlot_add, ← hgap, hslot]
      rfl
    rw [hsize] at hmod ⊢
    omega
  · intro hfull
    refine ⟨page.cqTail - 32, ?_, ?_⟩
    · have ht := page.cqTail.toNat_lt
      have hh := page.cqHead.toNat_lt
      rw [Unconsumed, UInt32.lt_iff_toNat_lt]
      have h32 : (32 : UInt32).toNat = 32 := rfl
      simp only [UInt32.toNat_sub, h32] at hfull ⊢
      omega
    · apply Fin.ext
      have hback : page.cqTail - 32 + 32 = page.cqTail := UInt32.sub_add_cancel _ _
      have h32 : (32 : UInt32).toNat = 32 := rfl
      calc (cqSlot page.cqTail).val
          = (cqSlot (page.cqTail - 32 + 32)).val := by rw [hback]
        _ = ((page.cqTail - 32).toNat + 32) % RING_CQ_SIZE := by rw [cqSlot_add, h32]
        _ = (cqSlot (page.cqTail - 32)).val := Nat.add_mod_right _ 32

/-! ## Steps and runs -/

theorem writes_turn {s : Shared} {ops : IoRingOps} {auth : Authority} {i : Fin RING_CQ_SIZE} :
    s.writes (.turn ops auth) = some i ↔
      (∃ p ∈ s.pass, p.left ≠ 0) ∧ cqSlot s.page.cqTail = i := by
  simp only [Shared.writes]
  split
  · next hp => simp [hp]
  · next hnone =>
    refine iff_of_false (by simp) ?_
    rintro ⟨⟨⟨head, left, handled⟩, hp, hleft⟩, -⟩
    cases left with
    | zero => exact hleft rfl
    | succ left => exact hnone _ _ _ hp

/-- A step writes over no completion that waits exactly when it finds room. -/
theorem keepsCompletions_iff (s : Shared) (op : RingOp) : KeepsCompletions s op ↔ HasRoom s op := by
  cases op with
  | turn ops auth =>
    have hfull := exists_unconsumed_cqSlot_iff s.page
    constructor
    · intro hkeep p hp hleft
      by_contra hlt
      obtain ⟨i, hi, hslot⟩ := hfull.mpr (not_lt.mp hlt)
      exact hkeep i hi (writes_turn.mpr ⟨⟨p, hp, hleft⟩, hslot⟩)
    · intro hroom i hi hwrites
      obtain ⟨⟨p, hp, hleft⟩, hslot⟩ := writes_turn.mp hwrites
      exact not_le.mpr (hroom p hp hleft) (hfull.mp ⟨i, hi, hslot⟩)
  | submit sqe => exact iff_of_true (fun _ _ => Option.some_ne_none _ ∘ Eq.symm) trivial
  | setTail tail => exact iff_of_true (fun _ _ => Option.some_ne_none _ ∘ Eq.symm) trivial
  | consume head => exact iff_of_true (fun _ _ => Option.some_ne_none _ ∘ Eq.symm) trivial
  | start => exact iff_of_true (fun _ _ => Option.some_ne_none _ ∘ Eq.symm) trivial
  | finish => exact iff_of_true (fun _ _ => Option.some_ne_none _ ∘ Eq.symm) trivial

/-- An entry that a step does not write stays. -/
theorem cqEntries_step {s : Shared} {op : RingOp} {i : Fin RING_CQ_SIZE}
    (h : s.writes op ≠ some i) : (s.step op).page.cqEntries i = s.page.cqEntries i := by
  cases op with
  | submit sqe => rfl
  | setTail tail => rfl
  | consume head => rfl
  | start =>
    simp only [Shared.step]
    split
    · rfl
    · rfl
  | finish =>
    simp only [Shared.step]
    split
    · rfl
    · rfl
  | turn ops auth =>
    simp only [Shared.step]
    split
    · next hp =>
      have hne : i ≠ cqSlot s.page.cqTail := by
        rintro rfl
        exact h (writes_turn.mpr ⟨⟨_, hp, Nat.succ_ne_zero _⟩, rfl⟩)
      exact Function.update_of_ne hne _ _
    · rfl

/-- Every step writes over no completion that waits exactly when it finds room.  In a run
whose steps all find room a completion stays as it was written for as long as it waits. -/
theorem completions_kept_iff (s : Shared) :
    (∀ op, KeepsCompletions s op ↔ HasRoom s op) ∧
    ∀ ops i, Guarded Shared.step HasRoom s ops →
      Guarded Shared.step (fun t _ => Unconsumed t.page i) s ops →
        (run Shared.step s ops).page.cqEntries (cqSlot i) = s.page.cqEntries (cqSlot i) := by
  refine ⟨keepsCompletions_iff s, fun ops i hroom hwaits => ?_⟩
  induction ops generalizing s with
  | nil => rfl
  | cons op ops ih =>
    have hkeep := (keepsCompletions_iff s op).mpr hroom.1 i hwaits.1
    exact (ih _ hroom.2 hwaits.2).trans (cqEntries_step hkeep)

/-! ## A full queue -/

/-- A new page. -/
def blankPage : Page := ⟨0, 0, fun _ => ⟨0, 0, 0, 0, 0, 0, 0, 0⟩, 0, 0, fun _ => ⟨0, 0, 0⟩⟩

/-- The owner submits an entry with the tag 7. -/
def taggedPage : Page :=
  (Shared.step ⟨blankPage, none⟩ (.submit ⟨0, 0, 0, 0, 0, 0, 0, 7⟩)).page

/-- The first pass has completed the entry with the tag 7. -/
def firstPass : Page := (processRing (fun _ => 0) socketOnly taggedPage).2

/-- The owner submits 32 more entries, the last one with the tag 8. -/
def refilledPage : Page :=
  (Shared.step ⟨{ firstPass with sqTail := 32 }, none⟩ (.submit ⟨0, 0, 0, 0, 0, 0, 0, 8⟩)).page

/-- The second pass has completed them. -/
def secondPass : Page := (processRing (fun _ => 0) socketOnly refilledPage).2

/-- The completion with the tag 7 waits before and after the second pass, and is gone. -/
theorem tagged_completion_lost :
    Unconsumed firstPass 0 ∧ firstPass.cqEntries (cqSlot 0) = ⟨7, 0, 0⟩ ∧
      Unconsumed secondPass 0 ∧ secondPass.cqHead = 0 ∧
      secondPass.cqEntries (cqSlot 0) = ⟨8, 0, 0⟩ := by
  decide +kernel

end RobotOs.Ipc.IoRing
