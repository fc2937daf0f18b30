import Mathlib.Tactic

/-!
# Free lists in an array of links

A pool of `n` cells keeps the free ones in a list that is threaded through an array of links:
`head` is the first free cell, `next i` the one after `i`, and `nil` ends the list.  A count and
a mark for each cell that is in use say the same thing twice more.

`Tracks` says that the three agree: the links from `head` visit exactly the cells that are
not in use, each once, and the count is their number.  The rules are those of a pool: `pop`
takes the head, `push` gives a cell back, and `write` changes the link of a cell in use.
-/

namespace RobotOs.Lib.FreeList

/-- From `h` the links visit the cells of the list in order, and then end. -/
def Chain (next : Nat → Nat) (nil : Nat) : Nat → List Nat → Prop
  | h, [] => h = nil
  | h, i :: l => h = i ∧ Chain next nil (next i) l

theorem Chain.congr {next next' : Nat → Nat} {nil h : Nat} {l : List Nat}
    (hl : ∀ i ∈ l, next' i = next i) (hc : Chain next nil h l) : Chain next' nil h l := by
  induction l generalizing h with
  | nil => exact hc
  | cons i l ih =>
    obtain ⟨rfl, hrest⟩ := hc
    refine ⟨rfl, ?_⟩
    rw [hl h List.mem_cons_self]
    exact ih (fun j hj => hl j (List.mem_cons_of_mem _ hj)) hrest

/-- The links visit exactly the cells that are not in use, each once. -/
def Tracks (next : Nat → Nat) (nil n head count : Nat) (used : Nat → Bool) : Prop :=
  ∃ l, Chain next nil head l ∧ l.Nodup ∧ (∀ i, i ∈ l ↔ i < n ∧ used i = false) ∧ l.length = count

namespace Tracks

variable {next : Nat → Nat} {nil n head count i : Nat} {used : Nat → Bool}

/-- The list of a new pool: each cell links to the one after it. -/
theorem init (hn : 0 < n) (hnext : ∀ i < n, next i = if i + 1 = n then nil else i + 1)
    (hused : ∀ i < n, used i = false) : Tracks next nil n 0 n used := by
  refine ⟨List.range n, ?_, List.nodup_range, fun i => ?_, List.length_range⟩
  · -- The chain from `k` is the range of the cells from `k` on.
    have hchain : ∀ m k, k + m = n → 0 < m → Chain next nil k (List.range' k m) := by
      intro m
      induction m with
      | zero => exact fun k _ hm => absurd hm (lt_irrefl 0)
      | succ m ih =>
        intro k hk _
        refine ⟨rfl, ?_⟩
        rw [hnext k (by omega)]
        rcases Nat.eq_zero_or_pos m with rfl | hm
        · rw [if_pos hk]
          rfl
        · rw [if_neg (by omega)]
          exact ih (k + 1) (by omega) hm
    rw [List.range_eq_range']
    exact hchain n 0 (Nat.zero_add n) hn
  · rw [List.mem_range]
    exact ⟨fun hi => ⟨hi, hused i hi⟩, And.left⟩

/-- A cell in use is missing from the count. -/
theorem count_lt (h : Tracks next nil n head count used) (hi : i < n) (hused : used i = true) :
    count < n := by
  obtain ⟨l, -, hnodup, hmem, rfl⟩ := h
  have hnot : i ∉ l := fun hil => Bool.false_ne_true (((hmem i).mp hil).2.symm.trans hused)
  have hsub : i :: l ⊆ List.range n := by
    rintro j hj
    rcases List.mem_cons.mp hj with rfl | hj
    · exact List.mem_range.mpr hi
    · exact List.mem_range.mpr ((hmem j).mp hj).1
  simpa using (List.subperm_of_subset (List.nodup_cons.mpr ⟨hnot, hnodup⟩) hsub).length_le

/-- The count is full exactly when no cell is in use. -/
theorem count_eq_iff (h : Tracks next nil n head count used) :
    count = n ↔ ∀ i < n, used i = false := by
  constructor
  · intro hfull i hi
    by_contra hused
    have hlt := h.count_lt hi (by simpa using hused)
    omega
  · intro hfree
    obtain ⟨l, -, hnodup, hmem, rfl⟩ := h
    have hsub : List.range n ⊆ l := fun i hi =>
      (hmem i).mpr ⟨List.mem_range.mp hi, hfree i (List.mem_range.mp hi)⟩
    have hge := (List.subperm_of_subset List.nodup_range hsub).length_le
    have hle : l.length ≤ n := by
      have hsub' : l ⊆ List.range n := fun i hi => List.mem_range.mpr ((hmem i).mp hi).1
      simpa using (List.subperm_of_subset hnodup hsub').length_le
    rw [List.length_range] at hge
    omega

/-- Without a free cell every cell is in use. -/
theorem used_of_count_eq_zero (h : Tracks next nil n head 0 used) (hi : i < n) :
    used i = true := by
  obtain ⟨l, -, -, hmem, hlen⟩ := h
  have hnil : l = [] := List.length_eq_zero_iff.mp hlen
  by_contra hused
  have hil := (hmem i).mpr ⟨hi, by simpa using hused⟩
  rw [hnil] at hil
  exact List.not_mem_nil hil

/-- The head of a list with a free cell is free. -/
theorem head_free (h : Tracks next nil n head count used) (hcount : count ≠ 0) :
    head < n ∧ used head = false := by
  obtain ⟨l, hchain, -, hmem, rfl⟩ := h
  cases l with
  | nil => exact absurd rfl hcount
  | cons i l =>
    obtain ⟨rfl, -⟩ := hchain
    exact (hmem head).mp List.mem_cons_self

/-- The head is taken. -/
theorem pop (h : Tracks next nil n head count used) (hcount : count ≠ 0) :
    Tracks next nil n (next head) (count - 1) (Function.update used head true) := by
  obtain ⟨l, hchain, hnodup, hmem, rfl⟩ := h
  cases l with
  | nil => exact absurd rfl hcount
  | cons i l =>
    obtain ⟨rfl, hrest⟩ := hchain
    obtain ⟨hnot, hnodup⟩ := List.nodup_cons.mp hnodup
    refine ⟨l, hrest, hnodup, fun j => ?_, by simp⟩
    by_cases hj : j = head
    · subst hj
      simp [hnot]
    · rw [Function.update_of_ne hj, ← hmem j, List.mem_cons]
      simp [hj]

/-- A cell is given back. -/
theorem push (h : Tracks next nil n head count used) (hi : i < n) (hused : used i = true) :
    Tracks (Function.update next i head) nil n i (count + 1) (Function.update used i false) := by
  obtain ⟨l, hchain, hnodup, hmem, rfl⟩ := h
  have hnot : i ∉ l := fun hil => Bool.false_ne_true (((hmem i).mp hil).2.symm.trans hused)
  refine ⟨i :: l, ⟨rfl, ?_⟩, List.nodup_cons.mpr ⟨hnot, hnodup⟩, fun j => ?_, rfl⟩
  · rw [Function.update_self]
    exact hchain.congr fun j hj => Function.update_of_ne (ne_of_mem_of_not_mem hj hnot) _ _
  · by_cases hj : j = i
    · subst hj
      simp [hi]
    · rw [Function.update_of_ne hj, ← hmem j, List.mem_cons]
      simp [hj]

/-- The link of a cell in use may change. -/
theorem write (h : Tracks next nil n head count used) (hused : used i = true) (v : Nat) :
    Tracks (Function.update next i v) nil n head count used := by
  obtain ⟨l, hchain, hnodup, hmem, hlen⟩ := h
  have hnot : i ∉ l := fun hil => Bool.false_ne_true (((hmem i).mp hil).2.symm.trans hused)
  exact ⟨l, hchain.congr fun j hj => Function.update_of_ne (ne_of_mem_of_not_mem hj hnot) _ _,
    hnodup, hmem, hlen⟩

end Tracks

end RobotOs.Lib.FreeList
