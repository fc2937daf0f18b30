import Mathlib.Tactic

/-!
# Totals over a table

A table is a function from a finite set of indices to entries.  `total f` adds up
a number that `f` reads off every entry, and `census p` counts the entries with
a property.

A program keeps such a total in a counter beside the table and moves the counter
when it writes an entry.  `total_update` says what the write does to the total,
in the form that `omega` uses: old and new total, old and new entry.
-/

namespace RobotOs.Lib.Tally

variable {I E : Type} [Fintype I]

/-- The sum of a number of every entry. -/
def total (f : E → Nat) (table : I → E) : Nat := ∑ i, f (table i)

/-- The number of entries with a property. -/
def census (p : E → Bool) (table : I → E) : Nat := total (fun e => (p e).toNat) table

section Total

variable (f : E → Nat) (table : I → E)

/-- The total after one entry is written. -/
theorem total_update [DecidableEq I] (i : I) (e : E) :
    total f (Function.update table i e) + f (table i) = total f table + f e := by
  have hsplit : ∀ t : I → E, total f t = f (t i) + ∑ j ∈ Finset.univ.erase i, f (t j) :=
    fun t => (Finset.add_sum_erase Finset.univ (fun j => f (t j)) (Finset.mem_univ i)).symm
  have hrest : ∑ j ∈ Finset.univ.erase i, f (Function.update table i e j) =
      ∑ j ∈ Finset.univ.erase i, f (table j) := by
    apply Finset.sum_congr rfl
    intro j hj
    rw [Function.update_of_ne (Finset.ne_of_mem_erase hj)]
  rw [hsplit (Function.update table i e), hsplit table, hrest, Function.update_self]
  omega

theorem le_total (i : I) : f (table i) ≤ total f table :=
  Finset.single_le_sum (fun j _ => Nat.zero_le (f (table j))) (Finset.mem_univ i)

theorem total_eq_zero_iff : total f table = 0 ↔ ∀ i, f (table i) = 0 := by
  simp [total]

end Total

section Census

variable (p : E → Bool) (table : I → E)

theorem census_update [DecidableEq I] (i : I) (e : E) :
    census p (Function.update table i e) + (p (table i)).toNat = census p table + (p e).toNat :=
  total_update (fun e => (p e).toNat) table i e

theorem toNat_le_census (i : I) : (p (table i)).toNat ≤ census p table :=
  le_total (fun e => (p e).toNat) table i

theorem census_le_card : census p table ≤ Fintype.card I := by
  have hone : ∀ i ∈ Finset.univ, (p (table i)).toNat ≤ 1 := fun i _ => Bool.toNat_le _
  simpa [census, total] using Finset.sum_le_card_nsmul Finset.univ _ 1 hone

/-- The count of a table without such entries. -/
theorem census_eq_zero_iff : census p table = 0 ↔ ∀ i, p (table i) = false := by
  simp [census, total_eq_zero_iff]

/-- The count over the entries in their order. -/
theorem countP_finRange {m : Nat} (table : Fin m → E) :
    (List.finRange m).countP (fun i => p (table i)) = census p table := by
  rw [census, total, ← List.sum_ofFn, List.ofFn_eq_map]
  induction List.finRange m with
  | nil => rfl
  | cons i rest ih =>
    rw [List.countP_cons, ih, List.map_cons, List.sum_cons]
    cases p (table i) <;> simp
    omega

end Census

end RobotOs.Lib.Tally
