import Mathlib.Tactic

/-!
# Arithmetic that stops on overflow

Integers of `w` bits are `Int` and `Nat` values.  A checked operation computes
the exact result and has a value only when that result fits; a cast keeps the
low bits.  A computation of several checked operations is a `do` block in
`Option`, and `none` is the overflow that stops the program.

`Yields x Q` says that the computation `x` does not stop and that its value
meets `Q`.  The rules follow the structure of a `do` block (`Yields.bind`) and of
the two list traversals (`Yields.mapM`, `yields_sum`).  The bounds are carried as
`Within b n`, the symmetric range, through products, truncated quotients and
casts.
-/

namespace RobotOs.Lib.Checked

/-! ## Values of a fixed width -/

/-- `n` is a value of a signed integer of `w` bits. -/
def Fits (w : Nat) (n : Int) : Prop := -2 ^ (w - 1) ≤ n ∧ n < 2 ^ (w - 1)

instance (w : Nat) (n : Int) : Decidable (Fits w n) :=
  inferInstanceAs (Decidable (_ ∧ _))

/-- The exact result `n` of a signed operation on `w` bits, if it fits. -/
def checked (w : Nat) (n : Int) : Option Int := if Fits w n then some n else none

/-- The exact result `n` of an unsigned operation on `w` bits, if it fits. -/
def checkedU (w n : Nat) : Option Nat := if n < 2 ^ w then some n else none

/-- The cast to a signed integer of `w` bits. -/
def truncate (w : Nat) (n : Int) : Int := n.bmod (2 ^ w)

/-- `-b ≤ n ≤ b`. -/
def Within (b n : Int) : Prop := -b ≤ n ∧ n ≤ b

instance (b n : Int) : Decidable (Within b n) :=
  inferInstanceAs (Decidable (_ ∧ _))

theorem Within.mono {a b n : Int} (h : Within a n) (hab : a ≤ b) : Within b n := by
  obtain ⟨hlo, hhi⟩ := h
  exact ⟨by omega, by omega⟩

theorem Within.neg {b n : Int} (h : Within b n) : Within b (-n) := by
  obtain ⟨hlo, hhi⟩ := h
  exact ⟨by omega, by omega⟩

theorem Within.add {a b m n : Int} (hm : Within a m) (hn : Within b n) :
    Within (a + b) (m + n) := by
  obtain ⟨hmlo, hmhi⟩ := hm
  obtain ⟨hnlo, hnhi⟩ := hn
  exact ⟨by omega, by omega⟩

theorem Within.sub {a b m n : Int} (hm : Within a m) (hn : Within b n) :
    Within (a + b) (m - n) := by
  rw [sub_eq_add_neg]
  exact hm.add hn.neg

theorem within_iff_abs {b n : Int} : Within b n ↔ |n| ≤ b := abs_le.symm

theorem Within.mul {a b m n : Int} (hm : Within a m) (hn : Within b n) :
    Within (a * b) (m * n) := by
  rw [within_iff_abs] at hm hn ⊢
  rw [abs_mul]
  exact mul_le_mul hm hn (abs_nonneg n) ((abs_nonneg m).trans hm)

/-- A quotient truncated towards zero keeps a bound on the dividend. -/
theorem Within.tdiv {b n d : Int} (h : Within b n) (hd : 0 < d) :
    Within (b / d) (n.tdiv d) := by
  obtain ⟨hlo, hhi⟩ := h
  rcases le_total 0 n with hn | hn
  · rw [Int.tdiv_eq_ediv_of_nonneg hn]
    have hle : n / d ≤ b / d := Int.ediv_le_ediv hd hhi
    have hnonneg : 0 ≤ n / d := Int.ediv_nonneg hn hd.le
    exact ⟨by omega, hle⟩
  · have hneg : n.tdiv d = -((-n) / d) := by
      rw [← Int.tdiv_eq_ediv_of_nonneg (show 0 ≤ -n by omega), Int.neg_tdiv, neg_neg]
    have hle : (-n) / d ≤ b / d := Int.ediv_le_ediv hd (by omega)
    have hnonneg : 0 ≤ (-n) / d := Int.ediv_nonneg (by omega) hd.le
    rw [hneg]
    exact ⟨by omega, by omega⟩

/-- Quotients by a positive number of at least one stay in the bound. -/
theorem Within.tdiv_self {b n d : Int} (h : Within b n) (hb : 0 ≤ b) (hd : 0 < d) :
    Within b (n.tdiv d) :=
  (h.tdiv hd).mono (Int.ediv_le_self d hb)

theorem fits_of_within {w : Nat} {b n : Int} (h : Within b n) (hb : b < 2 ^ (w - 1)) :
    Fits w n := by
  obtain ⟨hlo, hhi⟩ := h
  exact ⟨by omega, by omega⟩

theorem within_of_fits {w : Nat} {n : Int} (h : Fits w n) : Within (2 ^ (w - 1)) n := by
  obtain ⟨hlo, hhi⟩ := h
  exact ⟨hlo, hhi.le⟩

theorem truncate_fits (w : Nat) (hw : 0 < w) (n : Int) : Fits w (truncate w n) := by
  obtain ⟨k, rfl⟩ : ∃ k, w = k + 1 := ⟨w - 1, by omega⟩
  have hhalf : ((2 ^ (k + 1) : Nat) : Int) = 2 * 2 ^ k := by
    push_cast
    ring
  have hlo := Int.le_bmod (x := n) (m := 2 ^ (k + 1)) (by positivity)
  have hhi := Int.bmod_lt (x := n) (m := 2 ^ (k + 1)) (by positivity)
  rw [hhalf] at hlo hhi
  unfold Fits truncate
  rw [show k + 1 - 1 = k from rfl]
  exact ⟨by omega, by omega⟩

/-- A cast of a value that fits does not change it. -/
theorem truncate_of_fits {w : Nat} (hw : 0 < w) {n : Int} (h : Fits w n) :
    truncate w n = n := by
  obtain ⟨k, rfl⟩ : ∃ k, w = k + 1 := ⟨w - 1, by omega⟩
  obtain ⟨hlo, hhi⟩ := h
  rw [show k + 1 - 1 = k from rfl] at hlo hhi
  have hhalf : ((2 ^ (k + 1) : Nat) : Int) = 2 * 2 ^ k := by
    push_cast
    ring
  unfold truncate
  apply Int.bmod_eq_of_le_mul_two
  · rw [hhalf]
    omega
  · rw [hhalf]
    omega

theorem Within.truncate {w : Nat} {b n : Int} (hw : 0 < w) (h : Within b n)
    (hb : b < 2 ^ (w - 1)) : Within b (truncate w n) := by
  rw [truncate_of_fits hw (fits_of_within h hb)]
  exact h

/-! ## Computations that do not stop -/

section Yields

variable {α β : Type}

/-- `x` does not stop and its value meets `Q`. -/
def Yields (x : Option α) (Q : α → Prop) : Prop := ∃ a, x = some a ∧ Q a

theorem Yields.of_some {Q : α → Prop} {a : α} (h : Q a) : Yields (some a) Q := ⟨a, rfl, h⟩

theorem Yields.imp {x : Option α} {Q R : α → Prop} (h : Yields x Q) (hqr : ∀ a, Q a → R a) :
    Yields x R := by
  obtain ⟨a, hx, ha⟩ := h
  exact ⟨a, hx, hqr a ha⟩

theorem Yields.bind {x : Option α} {f : α → Option β} {Q : α → Prop} {R : β → Prop}
    (hx : Yields x Q) (hf : ∀ a, Q a → Yields (f a) R) : Yields (x >>= f) R := by
  obtain ⟨a, rfl, ha⟩ := hx
  exact hf a ha

theorem yields_checked {w : Nat} {b n : Int} (h : Within b n) (hb : b < 2 ^ (w - 1)) :
    Yields (checked w n) (Within b) :=
  ⟨n, if_pos (fits_of_within h hb), h⟩

theorem yields_checkedU {w n : Nat} (h : n < 2 ^ w) : Yields (checkedU w n) (· = n) :=
  ⟨n, if_pos h, rfl⟩

/-- A traversal does not stop when none of its steps does. -/
theorem Yields.mapM {f : α → Option β} {Q : β → Prop} :
    ∀ (xs : List α), (∀ x ∈ xs, Yields (f x) Q) →
      Yields (xs.mapM f) (fun ys => ys.length = xs.length ∧ ∀ y ∈ ys, Q y)
  | [], _ => Yields.of_some ⟨rfl, by simp⟩
  | x :: xs, h => by
    rw [List.mapM_cons]
    refine (h x List.mem_cons_self).bind fun y hy => ?_
    refine (Yields.mapM xs fun x' hx' => h x' (List.mem_cons_of_mem x hx')).bind ?_
    rintro ys ⟨hlen, hys⟩
    refine Yields.of_some ⟨by simp [hlen], ?_⟩
    intro z hz
    rcases List.mem_cons.mp hz with rfl | hz
    · exact hy
    · exact hys z hz

/-- The sum of computed terms from left to right, checked at every addition. -/
def sumChecked (w : Nat) : Int → List (Option Int) → Option Int
  | acc, [] => some acc
  | acc, term :: terms => do
    let n ← term
    let next ← checked w (acc + n)
    sumChecked w next terms

/-- A sum of bounded terms does not overflow when the bounds do not. -/
theorem yields_sum {w : Nat} {b : Int} (hb : 0 ≤ b) :
    ∀ (terms : List (Option Int)) (a acc : Int), Within a acc →
      a + terms.length * b < 2 ^ (w - 1) → (∀ t ∈ terms, Yields t (Within b)) →
      Yields (sumChecked w acc terms) fun _ => True
  | [], _, _, _, _, _ => Yields.of_some trivial
  | term :: terms, a, acc, hacc, hroom, hterms => by
    have hlen : ((term :: terms).length : Int) * b = b + terms.length * b := by
      push_cast [List.length_cons]
      ring
    rw [hlen] at hroom
    have hrest : 0 ≤ (terms.length : Int) * b := by positivity
    refine (hterms term List.mem_cons_self).bind fun n hn => ?_
    refine (yields_checked (hacc.add hn) (by omega)).bind fun next hnext => ?_
    exact yields_sum hb terms (a + b) next hnext (by omega)
      fun t ht => hterms t (List.mem_cons_of_mem term ht)

end Yields

end RobotOs.Lib.Checked
