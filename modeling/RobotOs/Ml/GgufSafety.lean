import RobotOs.Ml.Gguf

/-!
# What a hostile model file can do

The metadata of a file is described by its format: where a string ends, where a
pair of key and value ends, where the pair with a given number starts
(`PairAt`).  The functions that skip it compute these places
(`skipKv_eq_ok_iff`), so a place can stand for the state of the parser.

The parser faults on one kind of file: a pair that is an array of numbers whose
size in bytes fits in a `usize` while its end does not (`ArraysFit`).  Everything
else that it reads is checked first.
-/

namespace RobotOs.Ml

open RobotOs.Lib.Untrusted
open RobotOs.Lib.Framing (Bytes ofLE ofLE_lt)

variable {d : Slice} {pos q : Nat}

/-! ## The format of the metadata -/

/-- The words of the file at a place. -/
def word4 (d : Slice) (pos : Nat) : Nat := ofLE ((d.bytes.drop pos).take 4)
def word8 (d : Slice) (pos : Nat) : Nat := ofLE ((d.bytes.drop pos).take 8)

/-- The string at `pos` ends at `q`. -/
def StringEnds (d : Slice) (pos q : Nat) : Prop := q = pos + 8 + word8 d pos ∧ q ≤ d.len

/-- The strings from `pos` on end at `q`. -/
def StringsEnd (d : Slice) : Nat → Nat → Nat → Prop
  | 0, pos, q => pos = q
  | n + 1, pos, q => ∃ r, StringEnds d pos r ∧ StringsEnd d n r q

/-- The array at `pos`, after the tag, ends at `q`. -/
def ArrayEnds (d : Slice) (pos q : Nat) : Prop :=
  pos + 12 ≤ d.len ∧
    if word4 d pos = GGUF_TYPE_STRING then StringsEnd d (word8 d (pos + 4)) (pos + 12) q
    else ∃ esz, kvScalarSize (word4 d pos) = some esz ∧
      q = pos + 12 + word8 d (pos + 4) * esz ∧ q ≤ d.len

/-- The value with a tag at `pos` ends at `q`. -/
def ValueEnds (d : Slice) (tag pos q : Nat) : Prop :=
  if tag = GGUF_TYPE_STRING then StringEnds d pos q
  else if tag = GGUF_TYPE_ARRAY then ArrayEnds d pos q
  else ∃ sz, kvScalarSize tag = some sz ∧ q = pos + sz

/-- The pair at `pos` ends at `q`. -/
def PairEnds (d : Slice) (pos q : Nat) : Prop :=
  ∃ v, StringEnds d pos v ∧ v + 4 ≤ d.len ∧ ValueEnds d (word4 d v) (v + 4) q

/-- The pair with number `k` starts at `pos`. -/
inductive PairAt (d : Slice) : Nat → Nat → Prop where
  | first : PairAt d 0 24
  | next {k pos q : Nat} (h : PairAt d k pos) (hend : PairEnds d pos q) : PairAt d (k + 1) q

/-- The header is one that the parser goes on with. -/
def HeaderOk (d : Slice) : Prop :=
  24 ≤ d.len ∧ d.bytes.take 4 = [0x47, 0x47, 0x55, 0x46] ∧
    (1 ≤ word4 d 4 ∧ word4 d 4 ≤ 3) ∧ word8 d 8 ≤ MAX_TENSORS

/-- The array of numbers at `pos`, after the tag, has an end that fits. -/
def ArrayFits (d : Slice) (pos : Nat) : Prop :=
  pos + 12 ≤ d.len → word4 d pos ≠ GGUF_TYPE_STRING →
    ∀ esz, kvScalarSize (word4 d pos) = some esz → word8 d (pos + 4) * esz < 2 ^ 64 →
      pos + 12 + word8 d (pos + 4) * esz < 2 ^ 64

/-- The arrays of the metadata fit. -/
def ArraysFit (d : Slice) : Prop :=
  HeaderOk d → ∀ k < word8 d 16, ∀ pos v, PairAt d k pos → StringEnds d pos v →
    v + 4 ≤ d.len → word4 d v = GGUF_TYPE_ARRAY → ArrayFits d (v + 4)

/-! ## The functions that skip -/

theorem len_lt (d : Slice) : d.len < 2 ^ 63 := d.size

@[simp] theorem u32Le_eq_ok_iff {n : Nat} :
    u32Le d pos = .ok n ↔ pos + 4 ≤ d.len ∧ word4 d pos = n := by
  simp only [u32Le, bind_eq_ok_iff, demand_eq_ok_iff, pure_eq_ok_iff, exists_const, word4]

@[simp] theorem safe_u32Le_iff : Safe (u32Le d pos) ↔ pos + 4 ≤ d.len := by
  simp only [u32Le, safe_bind_iff, safe_demand_iff, safe_pure, implies_true, and_true]

@[simp] theorem u64Le_eq_ok_iff {n : Nat} :
    u64Le d pos = .ok n ↔ pos + 8 ≤ d.len ∧ word8 d pos = n := by
  simp only [u64Le, bind_eq_ok_iff, demand_eq_ok_iff, pure_eq_ok_iff, exists_const, word8]

@[simp] theorem safe_u64Le_iff : Safe (u64Le d pos) ↔ pos + 8 ≤ d.len := by
  simp only [u64Le, safe_bind_iff, safe_demand_iff, safe_pure, implies_true, and_true]

theorem u32Le_of {p : Nat} (h : p + 4 ≤ d.len) : u32Le d p = .ok (word4 d p) :=
  u32Le_eq_ok_iff.mpr ⟨h, rfl⟩

theorem u64Le_of {p : Nat} (h : p + 8 ≤ d.len) : u64Le d p = .ok (word8 d p) :=
  u64Le_eq_ok_iff.mpr ⟨h, rfl⟩

theorem safe_skipString (hpos : pos ≤ d.len + 8) : Safe (skipString d pos) := by
  have := len_lt d
  have hsum : pos + 8 < 2 ^ 64 := by omega
  simp only [skipString, safe_bind_iff, safe_unchecked_iff, safe_require, unchecked_eq_ok_iff,
    require_eq_ok_iff, safe_u64Le_iff, safe_checked, safe_pure, implies_true, and_true, true_and]
  refine ⟨hsum, ?_⟩
  rintro _ ⟨-, rfl⟩ - hlen
  exact hlen

theorem skipString_eq_ok_iff (hpos : pos ≤ d.len + 8) :
    skipString d pos = .ok q ↔ StringEnds d pos q := by
  have := len_lt d
  have hsum : pos + 8 < 2 ^ 64 := by omega
  simp only [skipString, bind_eq_ok_iff, unchecked_eq_ok_iff, require_eq_ok_iff, u64Le_eq_ok_iff,
    checked_eq_ok_iff, pure_eq_ok_iff, StringEnds]
  constructor
  · rintro ⟨a, ⟨-, rfl⟩, -, hlen, n, ⟨-, rfl⟩, b, ⟨-, rfl⟩, c, ⟨-, rfl⟩, -, hc, rfl⟩
    exact ⟨rfl, hc⟩
  · rintro ⟨rfl, hq⟩
    refine ⟨_, ⟨hsum, rfl⟩, (), by omega, _, ⟨by omega, rfl⟩, _, ⟨hsum, rfl⟩, _, ⟨by omega, rfl⟩,
      (), hq, rfl⟩

theorem StringEnds.le (h : StringEnds d pos q) : q ≤ d.len := h.2

theorem StringEnds.lt (h : StringEnds d pos q) : pos < q := by
  obtain ⟨rfl, -⟩ := h
  omega

theorem safe_skipStrings {n : Nat} (hpos : pos ≤ d.len + 8) :
    Safe (timesM n (skipString d) pos) := by
  refine safe_timesM_iff.mpr fun k _ q hq => safe_skipString ?_
  refine timesM_invariant (fun q => q ≤ d.len + 8) (fun a b ha hb => ?_) hpos hq
  have := ((skipString_eq_ok_iff ha).mp hb).le
  omega

theorem skipStrings_eq_ok_iff {n : Nat} (hpos : pos ≤ d.len + 8) :
    timesM n (skipString d) pos = .ok q ↔ StringsEnd d n pos q := by
  induction n generalizing pos with
  | zero => simp [timesM, StringsEnd]
  | succ n ih =>
    rw [timesM, bind_eq_ok_iff, StringsEnd]
    refine exists_congr fun r => ?_
    rw [skipString_eq_ok_iff hpos]
    refine and_congr_right fun hr => ih ?_
    have := hr.le
    omega

theorem safe_skipArray_iff (hpos : pos ≤ d.len) : Safe (skipArray d pos) ↔ ArrayFits d pos := by
  have := len_lt d
  have hsum : pos + 12 < 2 ^ 64 := by omega
  have hmid : pos + 4 < 2 ^ 64 := by omega
  simp only [skipArray, safe_bind_iff, safe_unchecked_iff, unchecked_eq_ok_iff, safe_require,
    require_eq_ok_iff, u32Le_eq_ok_iff, safe_u32Le_iff, u64Le_eq_ok_iff, safe_u64Le_iff, true_and]
  constructor
  · rintro ⟨-, h⟩ hlen htype esz hesz hmul
    obtain ⟨-, h⟩ := h _ ⟨hsum, rfl⟩ () hlen
    obtain ⟨-, h⟩ := h _ ⟨by omega, rfl⟩
    obtain ⟨-, h⟩ := h _ ⟨hmid, rfl⟩
    obtain ⟨-, h⟩ := h _ ⟨by omega, rfl⟩
    have h := h _ ⟨hsum, rfl⟩
    rw [if_neg htype] at h
    simp only [safe_bind_iff, expect_eq_ok_iff, checked_eq_ok_iff, safe_unchecked_iff] at h
    exact ((h.2 _ hesz).2 _ ⟨hmul, rfl⟩).1
  · intro hfits
    refine ⟨hsum, ?_⟩
    rintro _ ⟨-, rfl⟩ - hlen
    refine ⟨by omega, ?_⟩
    rintro elemType ⟨-, rfl⟩
    refine ⟨hmid, ?_⟩
    rintro _ ⟨-, rfl⟩
    refine ⟨by omega, ?_⟩
    rintro count ⟨-, rfl⟩
    refine ⟨hsum, ?_⟩
    rintro _ ⟨-, rfl⟩
    split
    · exact safe_skipStrings (by omega)
    · next htype =>
      simp only [safe_bind_iff, safe_expect, expect_eq_ok_iff, safe_checked, checked_eq_ok_iff,
        safe_unchecked_iff, safe_require, safe_pure, implies_true, and_true, true_and]
      rintro esz hesz _ ⟨hmul, rfl⟩
      exact hfits hlen htype esz hesz hmul

theorem skipArray_eq_ok_iff :
    skipArray d pos = .ok q ↔ ArrayEnds d pos q := by
  have := len_lt d
  simp only [skipArray, bind_eq_ok_iff, unchecked_eq_ok_iff, require_eq_ok_iff, u32Le_eq_ok_iff,
    u64Le_eq_ok_iff, ArrayEnds]
  constructor
  · rintro ⟨_, ⟨-, rfl⟩, -, hlen, _, ⟨-, rfl⟩, _, ⟨-, rfl⟩, _, ⟨-, rfl⟩, _, ⟨-, rfl⟩, h⟩
    refine ⟨hlen, ?_⟩
    split at h
    · next htype => rwa [if_pos htype, ← skipStrings_eq_ok_iff (by omega)]
    · next htype =>
      simp only [bind_eq_ok_iff, expect_eq_ok_iff, checked_eq_ok_iff, unchecked_eq_ok_iff,
        require_eq_ok_iff, pure_eq_ok_iff] at h
      obtain ⟨esz, hesz, _, ⟨-, rfl⟩, _, ⟨-, rfl⟩, -, hle, rfl⟩ := h
      rw [if_neg htype]
      exact ⟨esz, hesz, rfl, hle⟩
  · rintro ⟨hlen, h⟩
    refine ⟨_, ⟨by omega, rfl⟩, (), hlen, _, ⟨by omega, rfl⟩, _, ⟨by omega, rfl⟩, _,
      ⟨by omega, rfl⟩, _, ⟨by omega, rfl⟩, ?_⟩
    split at h
    · next htype => rwa [if_pos htype, skipStrings_eq_ok_iff (by omega)]
    · next htype =>
      obtain ⟨esz, hesz, rfl, hle⟩ := h
      simp only [if_neg htype, bind_eq_ok_iff, expect_eq_ok_iff, checked_eq_ok_iff,
        unchecked_eq_ok_iff, require_eq_ok_iff, pure_eq_ok_iff]
      exact ⟨esz, hesz, _, ⟨by omega, rfl⟩, _, ⟨by omega, rfl⟩, (), hle, rfl⟩

theorem kvScalarSize_bounds {typ n : Nat} (h : kvScalarSize typ = some n) : 1 ≤ n ∧ n ≤ 8 := by
  unfold kvScalarSize at h
  split at h <;> simp at h <;> omega

theorem StringsEnd.bounds {n : Nat} (hpos : pos ≤ d.len) (h : StringsEnd d n pos q) :
    pos ≤ q ∧ q ≤ d.len := by
  induction n generalizing pos with
  | zero =>
    obtain rfl : pos = q := h
    exact ⟨le_rfl, hpos⟩
  | succ n ih =>
    obtain ⟨r, hr, hrest⟩ := h
    have := ih hr.le hrest
    have := hr.lt
    omega

theorem ArrayEnds.bounds (h : ArrayEnds d pos q) : pos ≤ q ∧ q ≤ d.len := by
  obtain ⟨hlen, h⟩ := h
  split at h
  · have := StringsEnd.bounds (by omega) h
    omega
  · obtain ⟨esz, -, rfl, hle⟩ := h
    exact ⟨by omega, hle⟩

/-- A pair takes some room, and only a number can end after the file. -/
theorem PairEnds.bounds (h : PairEnds d pos q) : pos < q ∧ q ≤ d.len + 8 := by
  obtain ⟨v, hkey, hv, hvalue⟩ := h
  have := hkey.lt
  unfold ValueEnds at hvalue
  split at hvalue
  · have := hvalue.lt
    have := hvalue.le
    omega
  · split at hvalue
    · have := hvalue.bounds
      omega
    · obtain ⟨sz, hsz, rfl⟩ := hvalue
      have := kvScalarSize_bounds hsz
      omega

theorem skipKv_eq_ok_iff (hpos : pos ≤ d.len + 8) :
    skipKv d pos = .ok q ↔ PairEnds d pos q := by
  have := len_lt d
  simp only [skipKv, bind_eq_ok_iff, skipString_eq_ok_iff hpos, unchecked_eq_ok_iff,
    require_eq_ok_iff, u32Le_eq_ok_iff, PairEnds]
  refine exists_congr fun v => and_congr_right fun hkey => ?_
  have hvalue (hv : v + 4 ≤ d.len) :
      (if word4 d v = GGUF_TYPE_STRING then skipString d (v + 4)
        else if word4 d v = GGUF_TYPE_ARRAY then skipArray d (v + 4)
        else do
          let sz ← expect (kvScalarSize (word4 d v))
          unchecked 64 (v + 4 + sz)) = .ok q ↔ ValueEnds d (word4 d v) (v + 4) q := by
    unfold ValueEnds
    split
    · exact skipString_eq_ok_iff (by omega)
    · split
      · exact skipArray_eq_ok_iff
      · simp only [bind_eq_ok_iff, expect_eq_ok_iff, unchecked_eq_ok_iff]
        refine exists_congr fun sz => and_congr_right fun hsz => ?_
        have := kvScalarSize_bounds hsz
        omega
  constructor
  · rintro ⟨_, ⟨-, rfl⟩, -, hv, _, ⟨-, rfl⟩, _, ⟨-, rfl⟩, h⟩
    exact ⟨hv, (hvalue hv).mp h⟩
  · rintro ⟨hv, h⟩
    exact ⟨_, ⟨by omega, rfl⟩, (), hv, _, ⟨hv, rfl⟩, _, ⟨by omega, rfl⟩, (hvalue hv).mpr h⟩

theorem safe_skipKv_iff (hpos : pos ≤ d.len + 8) :
    Safe (skipKv d pos) ↔ ∀ v, StringEnds d pos v → v + 4 ≤ d.len →
      word4 d v = GGUF_TYPE_ARRAY → ArrayFits d (v + 4) := by
  have := len_lt d
  simp only [skipKv, safe_bind_iff, skipString_eq_ok_iff hpos, safe_skipString hpos,
    safe_unchecked_iff, unchecked_eq_ok_iff, safe_require, require_eq_ok_iff, u32Le_eq_ok_iff,
    safe_u32Le_iff, true_and]
  refine forall_congr' fun v => forall_congr' fun hkey => ?_
  have := hkey.le
  constructor
  · rintro ⟨-, h⟩ hv hkind
    obtain ⟨-, h⟩ := h _ ⟨by omega, rfl⟩ () hv
    obtain ⟨-, h⟩ := h _ ⟨hv, rfl⟩
    have h := h _ ⟨by omega, rfl⟩
    rw [hkind, if_neg (by decide), if_pos rfl] at h
    exact (safe_skipArray_iff hv).mp h
  · intro hfits
    refine ⟨by omega, ?_⟩
    rintro _ ⟨-, rfl⟩ - hv
    refine ⟨hv, ?_⟩
    rintro _ ⟨-, rfl⟩
    refine ⟨by omega, ?_⟩
    rintro _ ⟨-, rfl⟩
    split
    · exact safe_skipString (by omega)
    · split
      · next hkind => exact (safe_skipArray_iff hv).mpr (hfits hv hkind)
      · simp only [safe_bind_iff, safe_expect, expect_eq_ok_iff, safe_unchecked_iff, true_and]
        intro sz hsz
        have := kvScalarSize_bounds hsz
        omega

/-! ## The metadata -/

theorem PairAt.le {k : Nat} (hlen : 24 ≤ d.len) (h : PairAt d k pos) : pos ≤ d.len + 8 := by
  cases h with
  | first => omega
  | next _ hend => exact hend.bounds.2

/-- The loop over the pairs comes to the places where the pairs are. -/
theorem skipPairs_eq_ok_iff (hlen : 24 ≤ d.len) {k : Nat} :
    timesM k (skipKv d) 24 = .ok pos ↔ PairAt d k pos := by
  induction k generalizing pos with
  | zero =>
    constructor
    · intro h
      obtain rfl := Except.ok.inj h
      exact .first
    · rintro ⟨⟩
      rfl
  | succ k ih =>
    rw [timesM_succ_eq_ok_iff]
    constructor
    · rintro ⟨q, hq, hpos⟩
      have hat := ih.mp hq
      exact .next hat ((skipKv_eq_ok_iff (hat.le hlen)).mp hpos)
    · rintro (_ | ⟨hat, hend⟩)
      exact ⟨_, ih.mpr hat, (skipKv_eq_ok_iff (hat.le hlen)).mpr hend⟩

theorem safe_skipPairs_iff (hlen : 24 ≤ d.len) {n : Nat} :
    Safe (timesM n (skipKv d) 24) ↔ ∀ k < n, ∀ pos v, PairAt d k pos → StringEnds d pos v →
      v + 4 ≤ d.len → word4 d v = GGUF_TYPE_ARRAY → ArrayFits d (v + 4) := by
  rw [safe_timesM_iff]
  refine forall_congr' fun k => forall_congr' fun _ => forall_congr' fun pos => ?_
  rw [skipPairs_eq_ok_iff hlen]
  constructor
  · intro h v hat
    exact (safe_skipKv_iff (hat.le hlen)).mp (h hat) v
  · intro h hat
    exact (safe_skipKv_iff (hat.le hlen)).mpr fun v => h v hat

/-! ## The tensors -/

/-- What `parse_tensor_info` makes sure of. -/
def TensorInfo.WellFormed (t : TensorInfo) : Prop := t.nDims ≤ 4 ∧ t.dims.length = 4

section

variable {β : Type} {f : Nat → Attempt β} {q : β → Prop}

theorem runs_u32Le (h : pos + 4 ≤ d.len) (hf : Runs (f (word4 d pos)) q) :
    Runs (u32Le d pos >>= f) q :=
  Runs.bind (m := fun n => word4 d pos = n)
    ⟨safe_u32Le_iff.mpr h, fun _ hn => (u32Le_eq_ok_iff.mp hn).2⟩ fun _ hn => hn ▸ hf

theorem runs_u64Le (h : pos + 8 ≤ d.len) (hf : Runs (f (word8 d pos)) q) :
    Runs (u64Le d pos >>= f) q :=
  Runs.bind (m := fun n => word8 d pos = n)
    ⟨safe_u64Le_iff.mpr h, fun _ hn => (u64Le_eq_ok_iff.mp hn).2⟩ fun _ hn => hn ▸ hf

end

theorem runs_readDims {nDims : Nat} (hdims : nDims ≤ 4) (hpos : pos + 8 * nDims ≤ d.len) :
    Runs (timesM (min nDims 4) (readDim d pos) (TensorInfo.empty.dims, 0))
      (fun r => r.1.length = 4) := by
  have := len_lt d
  have h := Runs.timesM (f := readDim d pos) (n := min nDims 4)
    (fun k r => r.1.length = 4 ∧ r.2 = k) (a := (TensorInfo.empty.dims, 0)) ⟨rfl, rfl⟩ ?_
  · exact ⟨h.1, fun r hr => (h.2 r hr).1⟩
  · rintro k hk ⟨dims, i⟩ ⟨hlen, rfl⟩
    have hk : i < 4 ∧ i < nDims := by simp only at hk; omega
    refine Runs.demand (by simp only at hlen ⊢; omega) ?_
    refine Runs.unchecked (by omega) ?_
    refine runs_u64Le (by omega) ?_
    exact Runs.pure ⟨by simpa using hlen, rfl⟩

theorem runs_parseTensorInfo (hpos : pos ≤ d.len + 8) :
    Runs (parseTensorInfo d pos) fun r => r.1.WellFormed ∧ r.2 ≤ d.len := by
  have := len_lt d
  refine Runs.unchecked (by omega) (Runs.require fun hlen => ?_)
  refine runs_u64Le hlen (Runs.unchecked (by omega) (Runs.require fun hname => ?_))
  have hname' : word8 d pos ≤ 64 := hname
  refine Runs.unchecked (by omega) (Runs.require fun hend => ?_)
  refine Runs.demand ⟨hname, hend⟩ (Runs.unchecked (by omega) ?_)
  generalize pos + 8 + word8 d pos = pos at hend
  refine Runs.unchecked (by omega) (Runs.require fun hlen => runs_u32Le hlen ?_)
  refine Runs.require fun hdims => Runs.unchecked (by omega) ?_
  have hdims : word4 d pos ≤ 4 := hdims
  refine Runs.unchecked (by omega) (Runs.require fun hlen => ?_)
  refine Runs.bind (runs_readDims hdims hlen) fun r hr => ?_
  refine Runs.unchecked (by omega) (Runs.unchecked (by omega) (Runs.require fun hlen => ?_))
  refine runs_u32Le hlen (Runs.unchecked (by omega) (Runs.unchecked (by omega) ?_))
  refine Runs.require fun hlen => runs_u64Le hlen (Runs.unchecked (by omega) ?_)
  exact Runs.pure ⟨⟨hdims, hr⟩, hlen⟩

theorem runs_readTensors {n : Nat} (hn : n ≤ MAX_TENSORS) (hpos : pos ≤ d.len + 8) :
    Runs (timesM n (readTensor d) ([], pos)) fun r =>
      (∀ t ∈ r.1, t.WellFormed) ∧ r.2 ≤ d.len + 8 := by
  have h := Runs.timesM (f := readTensor d) (n := n)
    (fun k r => ((∀ t ∈ r.1, t.WellFormed) ∧ r.2 ≤ d.len + 8) ∧ r.1.length = k)
    (a := ([], pos)) ⟨⟨by simp, hpos⟩, rfl⟩ ?_
  · exact ⟨h.1, fun r hr => (h.2 r hr).1⟩
  · rintro k hk ⟨tensors, pos⟩ ⟨⟨hwf, hpos⟩, rfl⟩
    refine Runs.bind (runs_parseTensorInfo hpos) fun r hr => ?_
    refine Runs.demand (by simp only at hk; omega) (Runs.pure ⟨⟨?_, ?_⟩, by simp⟩)
    · simp only [List.mem_append, List.mem_singleton]
      rintro t (ht | rfl)
      · exact hwf t ht
      · exact hr.1
    · have := hr.2
      simp only
      omega

theorem TensorInfo.WellFormed.safe_nElements {t : TensorInfo} (ht : t.WellFormed) :
    Safe t.nElements := by
  have h := Runs.timesM (n := t.nDims)
    (f := fun r => do
      demand (r.2 < t.dims.length)
      return (GgmlType.saturate (r.1 * t.dims.getD r.2 0), r.2 + 1))
    (fun k r => r.2 = k) (a := (1, 0)) rfl ?_
  · exact (Runs.bind (q := fun _ => True) h fun _ _ => Runs.pure trivial).1
  · rintro k hk ⟨n, i⟩ rfl
    have := ht.1
    have := ht.2
    exact Runs.demand (by simp only at hk ⊢; omega) (Runs.pure rfl)

/-! ## A whole file -/

/-- The bytes lie inside of the file. -/
def Slice.Inside (d : Slice) (bytes : Bytes) : Prop :=
  ∃ start stop, start ≤ stop ∧ stop ≤ d.len ∧ bytes = (d.bytes.drop start).take (stop - start)

/-- The tensors of a parsed file are well formed. -/
def GgufFile.WellFormed (f : GgufFile) : Prop := ∀ t ∈ f.tensors, t.WellFormed

theorem GgufFile.WellFormed.tensorData {f : GgufFile} (hf : f.WellFormed) (name : Bytes) :
    Runs (f.tensorData name) fun r => f.data.Inside r.1 := by
  refine Runs.expect fun t ht => ?_
  have hwf := hf t (List.mem_of_find?_eq_some ht)
  refine Runs.bind (m := fun _ => True) ⟨hwf.safe_nElements, fun _ _ => trivial⟩ fun n _ => ?_
  refine Runs.checked fun _ => Runs.checked fun _ => Runs.require fun hstop => ?_
  exact Runs.demand ⟨by omega, hstop⟩ (Runs.pure ⟨_, _, by omega, hstop, rfl⟩)

/-- The part of `parse` after the metadata. -/
theorem runs_body {version n : Nat} (hn : n ≤ MAX_TENSORS) (hpos : pos ≤ d.len + 8) :
    Runs (do
      let (tensors, pos) ← timesM n (readTensor d) ([], pos)
      let align := if version ≥ 3 then 32 else 64
      let dataOffset ← unchecked 64 (((← unchecked 64 (pos + align)) - 1) / align * align)
      return (⟨d, dataOffset, tensors⟩ : GgufFile))
      fun f => f.data = d ∧ f.WellFormed := by
  have := len_lt d
  refine Runs.bind (runs_readTensors hn hpos) fun ⟨tensors, pos⟩ ⟨hwf, hpos⟩ => ?_
  have halign : (if version ≥ 3 then 32 else 64) ≤ 64 := by split <;> omega
  refine Runs.unchecked (by simp only at hpos ⊢; omega) (Runs.unchecked ?_ (Runs.pure ⟨rfl, hwf⟩))
  have := Nat.div_mul_le_self (pos + (if version ≥ 3 then 32 else 64) - 1)
    (if version ≥ 3 then 32 else 64)
  simp only at hpos ⊢
  omega

/-- Past the header, `parse` is the loop over the metadata and the rest. -/
theorem parse_eq (h : HeaderOk d) :
    parse d = (timesM (word8 d 16) (skipKv d) 24 >>= fun pos => do
      let (tensors, pos) ← timesM (word8 d 8) (readTensor d) ([], pos)
      let align := if word4 d 4 ≥ 3 then 32 else 64
      let dataOffset ← unchecked 64 (((← unchecked 64 (pos + align)) - 1) / align * align)
      return ⟨d, dataOffset, tensors⟩) := by
  obtain ⟨hlen, hmagic, hversion, htensors⟩ := h
  simp only [parse, require_of hlen, require_of hmagic, u32Le_of (d := d) (p := 4) (by omega),
    u64Le_of (d := d) (p := 8) (by omega), u64Le_of (d := d) (p := 16) (by omega),
    require_of hversion, require_of htensors, ok_bind]

theorem parse_eq_reject (h : ¬ HeaderOk d) : parse d = .error .reject := by
  by_cases hlen : 24 ≤ d.len
  case neg => simp only [parse, require_of_not hlen, error_bind]
  by_cases hmagic : d.bytes.take 4 = [0x47, 0x47, 0x55, 0x46]
  case neg => simp only [parse, require_of hlen, require_of_not hmagic, ok_bind, error_bind]
  have hv := u32Le_of (d := d) (p := 4) (by omega)
  have ht := u64Le_of (d := d) (p := 8) (by omega)
  have hk := u64Le_of (d := d) (p := 16) (by omega)
  by_cases hversion : 1 ≤ word4 d 4 ∧ word4 d 4 ≤ 3
  case neg =>
    simp only [parse, require_of hlen, require_of hmagic, hv, ht, hk, require_of_not hversion,
      ok_bind, error_bind]
  have htensors : ¬ word8 d 8 ≤ MAX_TENSORS := fun ht => h ⟨hlen, hmagic, hversion, ht⟩
  simp only [parse, require_of hlen, require_of hmagic, hv, ht, hk, require_of hversion,
    require_of_not htensors, ok_bind, error_bind]

theorem safe_parse_iff : Safe (parse d) ↔ ArraysFit d := by
  by_cases h : HeaderOk d
  · rw [parse_eq h, safe_bind_iff, safe_skipPairs_iff h.1]
    constructor
    · rintro ⟨hfits, -⟩ -
      exact hfits
    · intro hfits
      refine ⟨hfits h, fun pos hpos => (runs_body h.2.2.2 ?_).1⟩
      exact ((skipPairs_eq_ok_iff h.1).mp hpos).le h.1
  · rw [parse_eq_reject h]
    simp [ArraysFit, h]

/-- A file that the parser accepts is this file, with well-formed tensors. -/
theorem parse_wellFormed {f : GgufFile} (h : parse d = .ok f) : f.data = d ∧ f.WellFormed := by
  by_cases hheader : HeaderOk d
  · rw [parse_eq hheader] at h
    obtain ⟨pos, hpos, h⟩ := bind_eq_ok_iff.mp h
    have hle := ((skipPairs_eq_ok_iff hheader.1).mp hpos).le hheader.1
    exact (runs_body hheader.2.2.2 hle).2 f h
  · rw [parse_eq_reject hheader] at h
    cases h

/-! ## The file as a whole -/

/-- The loops stop within a number of rounds given by the size of the file,
whatever the counts in it are. -/
def RoundsBounded (d : Slice) : Prop :=
  (24 ≤ d.len → ∀ n m, d.len < n → d.len < m →
    timesM n (skipKv d) 24 = timesM m (skipKv d) 24) ∧
  ∀ pos ≤ d.len, ∀ n m, d.len < n → d.len < m →
    timesM n (skipString d) pos = timesM m (skipString d) pos

theorem roundsBounded (d : Slice) : RoundsBounded d := by
  constructor
  · intro hlen n m hn hm
    refine timesM_eq_of_lt (fun pos => d.len + 8 - pos) (fun pos => pos ≤ d.len + 8)
      (fun a b ha hb => ?_) (by omega) (by omega) (by omega)
    have := ((skipKv_eq_ok_iff ha).mp hb).bounds
    omega
  · intro pos hpos n m hn hm
    refine timesM_eq_of_lt (fun pos => d.len - pos) (fun pos => pos ≤ d.len)
      (fun a b ha hb => ?_) hpos (by omega) (by omega)
    have hend := (skipString_eq_ok_iff (by omega)).mp hb
    have := hend.lt
    have := hend.le
    omega

/-- Parsing does not fault, and neither does reading a tensor of a file that was
accepted; what is read lies inside of the file. -/
def HandlesFile (d : Slice) : Prop :=
  Safe (parse d) ∧ ∀ f, parse d = .ok f → ∀ name,
    Safe (f.tensorData name) ∧ ∀ r, f.tensorData name = .ok r → d.Inside r.1

/-- A file is handled exactly when the arrays of its metadata fit.  The loops
are bounded in every case. -/
theorem handlesFile_iff_arraysFit (d : Slice) :
    RoundsBounded d ∧ (HandlesFile d ↔ ArraysFit d) := by
  refine ⟨roundsBounded d, fun h => safe_parse_iff.mp h.1, fun h => ⟨safe_parse_iff.mpr h, ?_⟩⟩
  intro f hf name
  obtain ⟨rfl, hwf⟩ := parse_wellFormed hf
  exact hwf.tensorData name

/-- A header with one pair, an array of `2 ^ 61 - 1` words of eight bytes. -/
def overlongBytes : Bytes :=
  [0x47, 0x47, 0x55, 0x46, 3, 0, 0, 0, 0, 0, 0, 0, 0, 0, 0, 0, 1, 0, 0, 0, 0, 0, 0, 0,
    0, 0, 0, 0, 0, 0, 0, 0, 9, 0, 0, 0, 10, 0, 0, 0, 255, 255, 255, 255, 255, 255, 255, 31]

theorem overlongBytes_length_lt : overlongBytes.length < 2 ^ 63 := by decide

def overlongArray : Slice := ⟨overlongBytes, overlongBytes_length_lt⟩

theorem overlongArray_faults : parse overlongArray = .error .fault ∧
    ¬ HandlesFile overlongArray := by
  have h : parse overlongArray = .error .fault := by rfl
  exact ⟨h, fun hsafe => hsafe.1 h⟩

end RobotOs.Ml
