import Mathlib.Data.List.Nodup

/-!
# Links to a parent

A forest is a function from a node to its parent, if it has one.  `Depth` says
how many links a node is away from its root, so that a node with a depth is on no
cycle.  `trace` walks up from a node, at most a given number of nodes.
-/

namespace RobotOs.Lib.Forest

variable {ι : Type} {parent : ι → Option ι}

/-- `i` is `d` links away from a root. -/
inductive Depth (parent : ι → Option ι) : ι → Nat → Prop
  | root {i : ι} (h : parent i = none) : Depth parent i 0
  | link {i p : ι} {d : Nat} (h : parent i = some p) (hp : Depth parent p d) :
    Depth parent i (d + 1)

/-- The nodes on the way up from `i`, at most `n`. -/
def trace (parent : ι → Option ι) : Nat → ι → List ι
  | 0, _ => []
  | n + 1, i => i :: ((parent i).map (trace parent n)).getD []

theorem Depth.unique {i : ι} {d d' : Nat} (h : Depth parent i d) (h' : Depth parent i d') :
    d = d' := by
  induction h generalizing d' with
  | root hroot =>
    cases h' with
    | root => rfl
    | link hlink => rw [hroot] at hlink; cases hlink
  | link hlink hp ih =>
    cases h' with
    | root hroot => rw [hroot] at hlink; cases hlink
    | link hlink' hp' =>
      rw [hlink, Option.some_inj] at hlink'
      rw [ih (hlink' ▸ hp')]

theorem depth_of_mem_trace {i j : ι} {d n : Nat} (h : Depth parent i d)
    (hj : j ∈ trace parent n i) : ∃ e ≤ d, Depth parent j e := by
  induction h generalizing n with
  | root hroot =>
    cases n with
    | zero => cases hj
    | succ n =>
      rw [trace, hroot, List.mem_cons] at hj
      obtain rfl | hj := hj
      · exact ⟨0, Nat.le_refl 0, .root hroot⟩
      · cases hj
  | @link i p d hlink hp ih =>
    cases n with
    | zero => cases hj
    | succ n =>
      rw [trace, hlink, List.mem_cons] at hj
      obtain rfl | hj := hj
      · exact ⟨d + 1, Nat.le_refl _, .link hlink hp⟩
      · obtain ⟨e, he, hdepth⟩ := ih hj
        exact ⟨e, by omega, hdepth⟩

/-- The way up from a node with a depth comes by no node twice. -/
theorem nodup_trace {i : ι} {d : Nat} (h : Depth parent i d) (n : Nat) :
    (trace parent n i).Nodup := by
  induction h generalizing n with
  | root hroot =>
    cases n with
    | zero => exact List.nodup_nil
    | succ n => simp [trace, hroot]
  | @link i p d hlink hp ih =>
    cases n with
    | zero => exact List.nodup_nil
    | succ n =>
      rw [trace, hlink]
      refine List.nodup_cons.mpr ⟨fun hmem => ?_, ih n⟩
      obtain ⟨e, he, hdepth⟩ := depth_of_mem_trace hp hmem
      have := hdepth.unique (.link hlink hp)
      omega

theorem length_trace_le (parent : ι → Option ι) (n : Nat) (i : ι) :
    (trace parent n i).length ≤ n := by
  induction n generalizing i with
  | zero => exact Nat.le_refl 0
  | succ n ih =>
    rw [trace]
    cases parent i with
    | none => exact Nat.succ_le_succ (Nat.zero_le n)
    | some p => exact Nat.succ_le_succ (ih p)

/-- What every link of a way up has, and every node on it. -/
theorem isChain_trace {P : ι → Prop} {R : ι → ι → Prop}
    (hstep : ∀ i p, P i → parent i = some p → P p ∧ R i p) {i : ι} (hi : P i) (n : Nat) :
    (trace parent n i).IsChain R ∧ ∀ j ∈ trace parent n i, P j := by
  induction n generalizing i with
  | zero => exact ⟨.nil, by simp [trace]⟩
  | succ n ih =>
    rw [trace]
    cases hp : parent i with
    | none => exact ⟨.singleton i, by simpa using hi⟩
    | some p =>
      obtain ⟨hP, hR⟩ := hstep i p hi hp
      obtain ⟨hchain, hmem⟩ := ih hP
      refine ⟨?_, by simpa using ⟨hi, hmem⟩⟩
      cases n with
      | zero => exact .singleton i
      | succ n => exact .cons_cons hR hchain

/-- A way up that is shorter than it may be ends at a root. -/
theorem root_of_length_trace_lt {i : ι} {n : Nat} (h : (trace parent n i).length < n) :
    ∃ r ∈ (trace parent n i).getLast?, parent r = none := by
  induction n generalizing i with
  | zero => exact absurd h (Nat.not_lt_zero _)
  | succ n ih =>
    rw [trace] at h ⊢
    cases hp : parent i with
    | none => exact ⟨i, rfl, hp⟩
    | some p =>
      rw [hp] at h
      obtain ⟨r, hr, hroot⟩ := ih (Nat.lt_of_succ_lt_succ h)
      refine ⟨r, ?_, hroot⟩
      rw [Option.mem_def] at hr
      simp [List.getLast?_cons, hr]

end RobotOs.Lib.Forest
