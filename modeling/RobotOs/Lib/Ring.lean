import Mathlib.Tactic

/-!
# Lists stored in arrays

An array is a function from positions to cells.  `Stores slots ix l` says that
the list `l` is in the array, its element `k` in the cell `ix k`; the other cells
are free to hold anything.  The index map is `id` for an array that is filled
from the front, and `ringIx cap head` for a ring.

`push` and `pop` are the two ends of a queue.  `Between` is the queue of a ring with
two positions, where one place always stays free.  `shiftDown` is the loop that
closes the gap of a removed element by moving the later ones one place down.
`Vacant` says that nothing is left in the other cells.
-/

namespace RobotOs.Lib.Ring

variable {α : Type}

/-- The list is in the array along the index map. -/
def Stores (slots : Nat → α) (ix : Nat → Nat) (l : List α) : Prop :=
  ∀ k (h : k < l.length), slots (ix k) = l[k]

/-- The first `n` places are different cells. -/
def Apart (ix : Nat → Nat) (n : Nat) : Prop := ∀ j k, j < n → k < n → ix j = ix k → j = k

/-- Place `k` of a ring that starts at `head`. -/
def ringIx (cap head k : Nat) : Nat := (head + k) % cap

theorem apart_id (n : Nat) : Apart id n := fun _ _ _ _ h => h

theorem apart_ringIx (cap head : Nat) : Apart (ringIx cap head) cap := by
  intro j k hj hk h
  have hmod : j ≡ k [MOD cap] := Nat.ModEq.add_left_cancel' head h
  rwa [Nat.ModEq, Nat.mod_eq_of_lt hj, Nat.mod_eq_of_lt hk] at hmod

theorem Apart.mono {ix : Nat → Nat} {m n : Nat} (h : Apart ix n) (hmn : m ≤ n) : Apart ix m :=
  fun j k hj hk => h j k (by omega) (by omega)

/-- The start of a ring may wrap at a multiple of its size. -/
theorem ringIx_mod_of_dvd {cap w : Nat} (h : cap ∣ w) (head k : Nat) :
    ringIx cap (head % w) k = ringIx cap head k := by
  rw [ringIx, ringIx, ← Nat.mod_add_mod, Nat.mod_mod_of_dvd _ h, Nat.mod_add_mod]

/-- A ring may count its start around. -/
theorem ringIx_mod (cap head k : Nat) : ringIx cap (head % cap) k = ringIx cap head k :=
  ringIx_mod_of_dvd (dvd_refl cap) head k

theorem ringIx_succ (cap head k : Nat) : ringIx cap (head + 1) k = ringIx cap head (k + 1) := by
  rw [ringIx, ringIx, Nat.add_assoc, Nat.add_comm 1]

namespace Stores

variable {slots : Nat → α} {ix : Nat → Nat} {l : List α}

theorem nil : Stores slots ix [] := fun _ h => absurd h (Nat.not_lt_zero _)

/-- Only the cells of the list matter. -/
theorem congr {slots' : Nat → α} {ix' : Nat → Nat} (h : Stores slots ix l)
    (hcell : ∀ k < l.length, slots' (ix' k) = slots (ix k)) : Stores slots' ix' l := by
  intro k hk
  rw [hcell k hk]
  exact h k hk

/-- A cell that the list does not use may be written. -/
theorem write (h : Stores slots ix l) (cell : Nat) (a : α) (hcell : ∀ k < l.length, ix k ≠ cell) :
    Stores (Function.update slots cell a) ix l :=
  h.congr fun k hk => Function.update_of_ne (hcell k hk) _ _

/-- An element at the end. -/
theorem push (h : Stores slots ix l) (hix : Apart ix (l.length + 1)) (a : α) :
    Stores (Function.update slots (ix l.length) a) ix (l ++ [a]) := by
  intro k hk
  rw [List.length_append, List.length_singleton] at hk
  by_cases hlast : k = l.length
  · subst hlast
    simp
  · have hlt : k < l.length := by omega
    have hne : ix k ≠ ix l.length := fun heq => hlast (hix k l.length hk (by omega) heq)
    rw [Function.update_of_ne hne, h k hlt, List.getElem_append_left hlt]

/-- The first element, and the rest. -/
theorem pop {a : α} (h : Stores slots ix (a :: l)) :
    slots (ix 0) = a ∧ Stores slots (fun k => ix (k + 1)) l :=
  ⟨h 0 (Nat.succ_pos _), fun k hk => h (k + 1) (Nat.succ_lt_succ hk)⟩

end Stores

/-! ## A ring with two positions -/

/-- The list stands between the two positions of the ring. -/
structure Between (cap : Nat) (slots : Nat → α) (head tail : Nat) (l : List α) : Prop where
  head_lt : head < cap
  tail_eq : tail = ringIx cap head l.length
  room : l.length < cap
  stores : Stores slots (ringIx cap head) l

namespace Between

variable {cap head tail : Nat} {slots : Nat → α} {l : List α}

theorem empty (slots : Nat → α) (h : head < cap) : Between cap slots head head [] where
  head_lt := h
  tail_eq := (Nat.mod_eq_of_lt h).symm
  room := (Nat.zero_le head).trans_lt h
  stores := .nil

theorem tail_lt (h : Between cap slots head tail l) : tail < cap := by
  rw [h.tail_eq]
  exact Nat.mod_lt _ ((Nat.zero_le head).trans_lt h.head_lt)

/-- The second position is past the list, once around the ring or not. -/
theorem tail_cases (h : Between cap slots head tail l) :
    tail = head + l.length ∨ tail + cap = head + l.length := by
  have hhead := h.head_lt
  have hroom := h.room
  rw [h.tail_eq, ringIx]
  by_cases hwrap : head + l.length < cap
  · exact .inl (Nat.mod_eq_of_lt hwrap)
  · right
    rw [Nat.mod_eq_sub_mod (Nat.le_of_not_lt hwrap), Nat.mod_eq_of_lt (by omega)]
    omega

/-- The number of elements, as the positions give it. -/
theorem length_eq (h : Between cap slots head tail l) :
    (if tail ≥ head then tail - head else cap - head + tail) = l.length := by
  have hhead := h.head_lt
  have hroom := h.room
  obtain htail | htail := h.tail_cases
  · rw [if_pos (by omega)]
    omega
  · rw [if_neg (by omega)]
    omega

/-- The first element goes. -/
theorem pop {a : α} (h : Between cap slots head tail (a :: l)) :
    slots (head % cap) = a ∧ Between cap slots ((head + 1) % cap) tail l := by
  obtain ⟨hfirst, hrest⟩ := h.stores.pop
  refine ⟨hfirst, ⟨Nat.mod_lt _ ((Nat.zero_le head).trans_lt h.head_lt), ?_, ?_, ?_⟩⟩
  · rw [ringIx_mod, ringIx_succ]
    exact h.tail_eq
  · exact (Nat.lt_succ_self _).trans h.room
  · refine hrest.congr fun k _ => ?_
    rw [ringIx_mod, ringIx_succ]

/-- An element comes, when a place stays free. -/
theorem push (h : Between cap slots head tail l) (hroom : l.length + 1 < cap) (a : α) :
    Between cap (Function.update slots tail a) head ((tail + 1) % cap) (l ++ [a]) := by
  refine ⟨h.head_lt, ?_, ?_, ?_⟩
  · rw [h.tail_eq, ringIx, ringIx, Nat.mod_add_mod, List.length_append, List.length_singleton,
      Nat.add_assoc]
  · rw [List.length_append, List.length_singleton]
    exact hroom
  · rw [h.tail_eq]
    exact h.stores.push ((apart_ringIx _ _).mono hroom.le) a

/-- A place stays free when the next position is not the first one. -/
theorem room_of_ne (h : Between cap slots head tail l) (hne : (tail + 1) % cap ≠ head) :
    l.length + 1 < cap := by
  have hhead := h.head_lt
  have hroom := h.room
  by_contra hfull
  apply hne
  obtain htail | htail := h.tail_cases
  · have hsum : tail + 1 = head + cap := by omega
    rw [hsum, Nat.add_mod_right, Nat.mod_eq_of_lt hhead]
  · have hsum : tail + 1 = head := by omega
    rw [hsum, Nat.mod_eq_of_lt hhead]

end Between

/-! ## Closing a gap -/

/-- Moves `n` cells, from place `i + 1` on, one place down.  The last cell is
left with `gap`. -/
def shiftDown (gap : α) (ix : Nat → Nat) : Nat → Nat → (Nat → α) → (Nat → α)
  | 0, _, slots => slots
  | n + 1, i, slots =>
    shiftDown gap ix n (i + 1)
      (Function.update (Function.update slots (ix i) (slots (ix (i + 1)))) (ix (i + 1)) gap)

section Shift

variable (gap : α) {ix : Nat → Nat} {l : List α} {off : Nat}

/-- The places below `i` hold the list without its element `off`, and those above
`i` are as they were. -/
structure Shifting (ix : Nat → Nat) (l : List α) (off i : Nat) (slots : Nat → α) : Prop where
  below : ∀ k, k < i → ∀ h : k < (l.eraseIdx off).length, slots (ix k) = (l.eraseIdx off)[k]
  above : ∀ k, i < k → ∀ h : k < l.length, slots (ix k) = l[k]

theorem Shifting.step {i : Nat} {slots : Nat → α} (h : Shifting ix l off i slots)
    (hix : Apart ix l.length) (hoff : off ≤ i) (hi : i + 1 < l.length) :
    Shifting ix l off (i + 1) (Function.update
      (Function.update slots (ix i) (slots (ix (i + 1)))) (ix (i + 1)) gap) := by
  have hne : ∀ j k, j < l.length → k < l.length → j ≠ k → ix j ≠ ix k :=
    fun j k hj hk hjk heq => hjk (hix j k hj hk heq)
  refine ⟨fun k hk hlen => ?_, fun k hk hlen => ?_⟩
  · rw [Function.update_of_ne (hne k (i + 1) (by omega) hi (by omega))]
    by_cases hki : k = i
    · subst hki
      rw [Function.update_self, h.above (k + 1) (Nat.lt_succ_self k) hi,
        List.getElem_eraseIdx_of_ge hlen hoff]
    · rw [Function.update_of_ne (hne k i (by omega) (by omega) hki)]
      exact h.below k (by omega) hlen
  · rw [Function.update_of_ne (hne k (i + 1) hlen hi (by omega)),
      Function.update_of_ne (hne k i hlen (by omega) (by omega))]
    exact h.above k (by omega) hlen

theorem shifting_shiftDown {n i : Nat} {slots : Nat → α} (h : Shifting ix l off i slots)
    (hix : Apart ix l.length) (hoff : off ≤ i) (hn : i + n < l.length) :
    Shifting ix l off (i + n) (shiftDown gap ix n i slots) := by
  induction n generalizing i slots with
  | zero => exact h
  | succ n ih =>
    have hstep := ih (h.step gap hix hoff (by omega)) (by omega) (by omega)
    rw [Nat.add_right_comm] at hstep
    exact hstep

/-- Taking out an element and closing the gap. -/
theorem Stores.erase {slots : Nat → α} (h : Stores slots ix l) (hix : Apart ix l.length)
    (hoff : off < l.length) :
    Stores (shiftDown gap ix (l.length - 1 - off) off (Function.update slots (ix off) gap)) ix
      (l.eraseIdx off) := by
  have hne : ∀ k, k < l.length → k ≠ off → ix k ≠ ix off :=
    fun k hk hkoff heq => hkoff (hix k off hk hoff heq)
  have hstart : Shifting ix l off off (Function.update slots (ix off) gap) := by
    refine ⟨fun k hk hlen => ?_, fun k hk hlen => ?_⟩
    · rw [Function.update_of_ne (hne k (by omega) (by omega)), h k (by omega),
        List.getElem_eraseIdx_of_lt hlen hk]
    · rw [Function.update_of_ne (hne k hlen (by omega)), h k hlen]
  have hend := shifting_shiftDown gap (n := l.length - 1 - off) hstart hix le_rfl (by omega)
  intro k hk
  refine hend.below k ?_ hk
  rw [List.length_eraseIdx_of_lt hoff] at hk
  omega

/-- The cells other than the first `n` places hold `gap`. -/
def Vacant (gap : α) (slots : Nat → α) (ix : Nat → Nat) (n : Nat) : Prop :=
  ∀ c, (∀ k < n, ix k ≠ c) → slots c = gap

theorem Vacant.push {slots : Nat → α} {n : Nat} (h : Vacant gap slots ix n) (a : α) :
    Vacant gap (Function.update slots (ix n) a) ix (n + 1) := by
  intro c hc
  rw [Function.update_of_ne (hc n n.lt_succ_self).symm]
  exact h c fun k hk => hc k (Nat.lt_succ_of_lt hk)

/-- The gap is at place `i` before the cells move and at place `i + n` after. -/
theorem shiftDown_gap {n i m : Nat} {slots : Nat → α} (hm : i + n < m)
    (h : ∀ c, (∀ k < m, k ≠ i → ix k ≠ c) → slots c = gap) :
    ∀ c, (∀ k < m, k ≠ i + n → ix k ≠ c) → shiftDown gap ix n i slots c = gap := by
  induction n generalizing i slots with
  | zero => exact h
  | succ n ih =>
    rw [← Nat.add_assoc, Nat.add_right_comm]
    refine ih (i := i + 1) (by omega) ?_
    intro c hc
    by_cases hnext : c = ix (i + 1)
    · rw [hnext, Function.update_self]
    · rw [Function.update_of_ne hnext, Function.update_of_ne (hc i (by omega) (by omega)).symm]
      apply h
      intro k hk hki
      by_cases hkn : k = i + 1
      · rw [hkn]
        exact Ne.symm hnext
      · exact hc k hk hkn

theorem Vacant.erase {slots : Nat → α} {n : Nat} (h : Vacant gap slots ix n) (hoff : off < n) :
    Vacant gap (shiftDown gap ix (n - 1 - off) off (Function.update slots (ix off) gap)) ix
      (n - 1) := by
  intro c hc
  refine shiftDown_gap gap (m := n) (by omega) ?_ c fun k hk hkn => hc k (by omega)
  intro c hc
  by_cases hcell : c = ix off
  · rw [hcell, Function.update_self]
  · rw [Function.update_of_ne hcell]
    apply h
    intro k hk
    by_cases hkoff : k = off
    · rw [hkoff]
      exact Ne.symm hcell
    · exact hc k hk hkoff

end Shift

/-! ## Searching -/

/-- A search along the places finds what a search of the list finds. -/
theorem Stores.find_range {slots : Nat → Option α} {ix : Nat → Nat} {l : List α}
    (h : Stores slots ix (l.map some)) (p : α → Bool) :
    ((List.range l.length).find? fun k => (slots (ix k)).any p) = l.findIdx? p := by
  have hcell : ∀ k (hk : k < l.length), (slots (ix k)).any p = p l[k] := by
    intro k hk
    rw [h k (by rwa [List.length_map]), List.getElem_map, Option.any_some]
  cases hfind : l.findIdx? p with
  | none =>
    rw [List.find?_eq_none]
    intro k hk
    have hlt := List.mem_range.mp hk
    rw [hcell k hlt]
    simpa using List.findIdx?_eq_none_iff.mp hfind _ (List.getElem_mem hlt)
  | some i =>
    obtain ⟨hlt, hp, hbefore⟩ := List.findIdx?_eq_some_iff_getElem.mp hfind
    refine List.find?_range_eq_some.mpr ⟨?_, List.mem_range.mpr hlt, ?_⟩
    · rw [hcell i hlt, hp]
    · intro j hj
      rw [hcell j (hj.trans hlt)]
      simpa using hbefore j hj

end RobotOs.Lib.Ring
