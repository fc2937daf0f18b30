import Mathlib.Tactic

/-!
# Length-delimited framing

Words in a fixed byte order, fields cut out of a byte string, and the loop that
drains a buffer frame by frame.

The loop is the usual receive loop.  A step function looks at the rest of the
buffer and either emits a value and says how many items it consumed, skips some
items, or stops.  `drainAll` runs it until the buffer is empty or the step
stops.  `Reads step s frames as s'` says that the step function reads each frame
of a list in turn, whatever follows it.  The rule is `drainAll_reads`: the loop
then emits exactly those values from the concatenation of the frames.
-/

namespace RobotOs.Lib.Framing

/-- A byte string. -/
abbrev Bytes := List UInt8

/-- An IPv4 address. -/
structure Ip where
  a : UInt8
  b : UInt8
  c : UInt8
  d : UInt8
  deriving DecidableEq, Repr

/-! ## Words in a fixed byte order -/

/-- The low `w` bytes of `n`, least significant first. -/
def leBytes : Nat → Nat → Bytes
  | 0, _ => []
  | w + 1, n => UInt8.ofNat n :: leBytes w (n / 256)

/-- The number whose little-endian bytes are given. -/
def ofLE : Bytes → Nat
  | [] => 0
  | b :: bs => b.toNat + 256 * ofLE bs

/-- The low `w` bytes of `n`, most significant first. -/
def beBytes (w n : Nat) : Bytes := (leBytes w n).reverse

/-- The number whose big-endian bytes are given. -/
def ofBE (bs : Bytes) : Nat := ofLE bs.reverse

@[simp] theorem length_leBytes (w n : Nat) : (leBytes w n).length = w := by
  induction w generalizing n with
  | zero => rfl
  | succ w ih => simp [leBytes, ih]

@[simp] theorem length_beBytes (w n : Nat) : (beBytes w n).length = w := by
  simp [beBytes]

theorem ofLE_leBytes (w n : Nat) (h : n < 256 ^ w) : ofLE (leBytes w n) = n := by
  induction w generalizing n with
  | zero =>
    have hn : n = 0 := by simpa using h
    simp [hn, leBytes, ofLE]
  | succ w ih =>
    have hdiv : n / 256 < 256 ^ w := by
      apply Nat.div_lt_of_lt_mul
      rwa [pow_succ, Nat.mul_comm] at h
    simp only [leBytes, ofLE, UInt8.toNat_ofNat', ih _ hdiv]
    omega

theorem ofLE_lt (bs : Bytes) : ofLE bs < 256 ^ bs.length := by
  induction bs with
  | nil => simp [ofLE]
  | cons b bs ih =>
    have hb : b.toNat < 256 := b.toNat_lt
    rw [ofLE, List.length_cons, pow_succ]
    omega

theorem ofBE_beBytes (w n : Nat) (h : n < 256 ^ w) : ofBE (beBytes w n) = n := by
  simp [ofBE, beBytes, ofLE_leBytes w n h]

/-! ## Fields of a frame -/

/-- `len` items of `xs` from offset `off` on, as `&xs[off..off + len]`. -/
def slice {β : Type} (xs : List β) (off len : Nat) : List β := (xs.drop off).take len

theorem slice_zero_append {β : Type} (a b : List β) (len : Nat) (h : a.length = len) :
    slice (a ++ b) 0 len = a := by
  simp [slice, ← h]

theorem slice_append_right {β : Type} (a b : List β) (off len : Nat) (h : a.length ≤ off) :
    slice (a ++ b) off len = slice b (off - a.length) len := by
  simp [slice, List.drop_append, List.drop_eq_nil_of_le h]

/-! ## The drain loop -/

/-- What one look at the rest of a buffer decides. -/
inductive Step (σ α : Type) where
  /-- A value was read from the first `n` items. -/
  | emit (a : α) (n : Nat) (s : σ)
  /-- The first `n` items hold nothing. -/
  | skip (n : Nat) (s : σ)
  /-- The loop ends here. -/
  | stop (s : σ)

section Drain

variable {σ α β : Type} (step : σ → List β → Step σ α)

/-- The loop, with a bound on the number of rounds.  A round that consumes
nothing ends it. -/
def drain : Nat → σ → List β → List α × σ
  | 0, s, _ => ([], s)
  | _ + 1, s, [] => ([], s)
  | fuel + 1, s, b :: bs =>
    match step s (b :: bs) with
    | .emit a n s' =>
      if n = 0 then ([], s')
      else (a :: (drain fuel s' ((b :: bs).drop n)).1, (drain fuel s' ((b :: bs).drop n)).2)
    | .skip n s' => if n = 0 then ([], s') else drain fuel s' ((b :: bs).drop n)
    | .stop s' => ([], s')

/-- The loop over a whole buffer.  Every round consumes an item, so the length
of the buffer bounds the number of rounds. -/
def drainAll (s : σ) (buf : List β) : List α × σ := drain step buf.length s buf

/-- Rounds beyond the length of the buffer change nothing. -/
theorem drain_eq_drainAll (fuel : Nat) (s : σ) (buf : List β) (h : buf.length ≤ fuel) :
    drain step fuel s buf = drainAll step s buf := by
  suffices ∀ n fuel s (buf : List β), buf.length ≤ n → n ≤ fuel →
      drain step fuel s buf = drain step n s buf from this _ _ _ _ (le_refl _) h
  intro n
  induction n with
  | zero =>
    intro fuel s buf hn _
    have hbuf : buf = [] := by simpa using hn
    subst hbuf
    cases fuel <;> rfl
  | succ n ih =>
    intro fuel s buf hn hfuel
    obtain ⟨fuel, rfl⟩ : ∃ k, fuel = k + 1 := ⟨fuel - 1, by omega⟩
    cases buf with
    | nil => rfl
    | cons b bs =>
      have hrest : ∀ k s', k ≠ 0 → drain step fuel s' ((b :: bs).drop k) =
          drain step n s' ((b :: bs).drop k) := by
        intro k s' hk
        apply ih
        · simp only [List.length_drop, List.length_cons] at hn ⊢
          omega
        · omega
      simp only [drain]
      cases step s (b :: bs) with
      | emit a k s' =>
        by_cases hk : k = 0
        · simp [hk]
        · simp only [hk, if_false, hrest k s' hk]
      | skip k s' =>
        by_cases hk : k = 0
        · simp [hk]
        · simp only [hk, if_false, hrest k s' hk]
      | stop s' => rfl

@[simp] theorem drainAll_nil (s : σ) : drainAll step s [] = ([], s) := rfl

/-- One round of the loop that emits a value. -/
theorem drainAll_emit {s s' : σ} {buf : List β} {a : α} {n : Nat} (hbuf : buf ≠ [])
    (hn : n ≠ 0) (h : step s buf = .emit a n s') :
    drainAll step s buf =
      (a :: (drainAll step s' (buf.drop n)).1, (drainAll step s' (buf.drop n)).2) := by
  cases buf with
  | nil => exact absurd rfl hbuf
  | cons b bs =>
    have hrest := drain_eq_drainAll step bs.length s' ((b :: bs).drop n)
      (by simp only [List.length_drop, List.length_cons]; omega)
    simp only [drainAll, List.length_cons, drain, h, hn, if_false]
    rw [hrest]
    rfl

/-- One round of the loop that skips items. -/
theorem drainAll_skip {s s' : σ} {buf : List β} {n : Nat} (hbuf : buf ≠ []) (hn : n ≠ 0)
    (h : step s buf = .skip n s') : drainAll step s buf = drainAll step s' (buf.drop n) := by
  cases buf with
  | nil => exact absurd rfl hbuf
  | cons b bs =>
    have hrest := drain_eq_drainAll step bs.length s' ((b :: bs).drop n)
      (by simp only [List.length_drop, List.length_cons]; omega)
    simp only [drainAll, List.length_cons, drain, h, hn, if_false]
    rw [hrest]
    rfl

/-- The loop emits only what a round emits. -/
theorem drainAll_emits {P : α → Prop} (h : ∀ s buf a n s', step s buf = .emit a n s' → P a)
    (s : σ) (buf : List β) : ∀ a ∈ (drainAll step s buf).1, P a := by
  suffices ∀ fuel s buf, ∀ a ∈ (drain step fuel s buf).1, P a from this _ _ _
  intro fuel
  induction fuel with
  | zero => simp [drain]
  | succ fuel ih =>
    intro s buf
    cases buf with
    | nil => simp [drain]
    | cons b bs =>
      rw [drain]
      cases hlook : step s (b :: bs) with
      | emit a n s' =>
        by_cases hn : n = 0
        · simp [hn]
        · simp only [hn, if_false, List.forall_mem_cons]
          exact ⟨h _ _ _ _ _ hlook, ih _ _⟩
      | skip n s' =>
        by_cases hn : n = 0
        · simp [hn]
        · simp only [hn, if_false]
          exact ih _ _
      | stop s' => simp

/-- The round in which the step stops. -/
theorem drainAll_stop {s s' : σ} {buf : List β} (hbuf : buf ≠ [])
    (h : step s buf = .stop s') : drainAll step s buf = ([], s') := by
  cases buf with
  | nil => exact absurd rfl hbuf
  | cons b bs => simp only [drainAll, List.length_cons, drain, h]

/-! ## Reading a list of frames -/

/-- The step function reads each of `frames` in turn, whatever follows it, and
emits `as`. -/
inductive Reads : σ → List (List β) → List α → σ → Prop where
  | nil (s : σ) : Reads s [] [] s
  | cons {s s' s'' : σ} {frame : List β} {frames : List (List β)} {a : α} {as : List α}
      (hframe : frame ≠ [])
      (hstep : ∀ tail, step s (frame ++ tail) = .emit a frame.length s')
      (hrest : Reads s' frames as s'') : Reads s (frame :: frames) (a :: as) s''

/-- A loop that reads each frame emits what the frames hold, each once and in
order. -/
theorem drainAll_reads {s s' : σ} {frames : List (List β)} {as : List α}
    (h : Reads step s frames as s') : drainAll step s frames.flatten = (as, s') := by
  induction h with
  | nil s => rfl
  | @cons s s' s'' frame frames a as hframe hstep _ ih =>
    have hne : frame ++ frames.flatten ≠ [] := by simp [hframe]
    have hlen : frame.length ≠ 0 := by simpa using hframe
    rw [List.flatten_cons, drainAll_emit step hne hlen (hstep _), List.drop_left, ih]

end Drain

end RobotOs.Lib.Framing
