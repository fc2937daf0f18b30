import RobotOs.Lib.Run
import RobotOs.Lib.Untrusted

/-!
# The allocator of physical pages

`pmm.rs` of the mm crate: one bit for each page of 4 KiB, set while the page is in
use, and a counter of the free ones.  `MAX_PAGES` is a build parameter.  A fault is an
overflow, on which the kernel panics.

`System` has the allocator and what its callers know: the pages that were handed out
and not freed since, and the ranges that were reserved, `init`'s own included.
`Sound` says what a call may do, and `sound_of_careful` proves it for every
run whose calls are `Careful`.
-/

namespace RobotOs.Mm

open RobotOs.Lib.Untrusted RobotOs.Lib.Run

def PAGE_SIZE : Nat := 4096

namespace Pmm

/-- `BITMAP_WORDS`. -/
def bitmapWords (maxPages : Nat) : Nat := (maxPages + 63) / 64

/-- `PmmInner`.  Bit `64 * w + b` of the bitmap is bit `b` of word `w`. -/
structure PmmInner where
  bitmap : Nat → Bool
  totalPages : Nat
  freePages : Nat
  managedStart : Nat

/-- The static before `init`. -/
def PmmInner.zeroed : PmmInner := ⟨fun _ => false, 0, 0, 0⟩

inductive KernelError where
  | invalidArg | notAligned | doubleFree
  deriving DecidableEq, Repr

/-- `count_ones` of a word. -/
def countOnes (bitmap : Nat → Bool) (word : Nat) : Nat :=
  (List.range 64).countP fun bit => bitmap (64 * word + bit)

/-- The loop of `init` that marks the pages of the kernel. -/
def markReserved (total reservedPages : Nat) : Nat → Bool :=
  (List.range reservedPages).foldl
    (fun bitmap i => if i < total then Function.update bitmap i true else bitmap) fun _ => false

/-- `init`. -/
def init (maxPages memStart memSize kernelEnd : Nat) : Attempt PmmInner := do
  let total := min (memSize / PAGE_SIZE) maxPages
  demand (memStart ≤ kernelEnd)
  let padded ← unchecked 64 (kernelEnd - memStart + PAGE_SIZE)
  let bitmap := markReserved total ((padded - 1) / PAGE_SIZE)
  let used := ((List.range (bitmapWords maxPages)).map (countOnes bitmap)).sum
  return ⟨bitmap, total, total - used, memStart⟩

namespace PmmInner

variable (p : PmmInner)

/-- `(!word).trailing_zeros()`. -/
def firstZero (word : Nat) : Nat :=
  ((List.range 64).find? fun bit => !p.bitmap (64 * word + bit)).getD 64

/-- The scan of `alloc_page`, over the words that are left. -/
def scan : List Nat → Option Nat
  | [] => none
  | word :: words =>
    if word * 64 ≥ p.totalPages then none
    else if (List.range 64).all fun bit => p.bitmap (64 * word + bit) then scan words
    else
      let page := word * 64 + p.firstZero word
      if page ≥ p.totalPages then none else some page

/-- `alloc_page`: the address of the page, or `none` when memory is out. -/
def allocPage (maxPages : Nat) : Attempt (PmmInner × Option Nat) :=
  match p.scan (List.range (bitmapWords maxPages)) with
  | none => .ok (p, none)
  | some page => do
    demand (0 < p.freePages)
    let addr ← unchecked 64 (p.managedStart + page * PAGE_SIZE)
    return ({ p with
      bitmap := Function.update p.bitmap page true, freePages := p.freePages - 1 }, some addr)

/-- `free_page`. -/
def freePage (phys : Nat) : Except KernelError PmmInner :=
  if phys < p.managedStart then .error .invalidArg
  else if phys % PAGE_SIZE ≠ 0 then .error .notAligned
  else
    let page := (phys - p.managedStart) / PAGE_SIZE
    if page ≥ p.totalPages then .error .invalidArg
    else if !p.bitmap page then .error .doubleFree
    else .ok { p with
      bitmap := Function.update p.bitmap page false, freePages := p.freePages + 1 }

/-- The loop of `reserve_range`, for the pages that are left. -/
def reserveLoop : Nat → Nat → PmmInner → PmmInner
  | 0, _, p => p
  | n + 1, page, p =>
    if page ≥ p.totalPages then p
    else if !p.bitmap page then
      reserveLoop n (page + 1) { p with
        bitmap := Function.update p.bitmap page true, freePages := p.freePages - 1 }
    else reserveLoop n (page + 1) p

/-- `reserve_range`. -/
def reserveRange (start size : Nat) : Attempt PmmInner :=
  if start < p.managedStart then .ok p
  else do
    let padded ← unchecked 64 (size + PAGE_SIZE)
    return reserveLoop ((padded - 1) / PAGE_SIZE) ((start - p.managedStart) / PAGE_SIZE) p

/-- The pages whose bit is clear. -/
def clearPages : Finset Nat := (Finset.range p.totalPages).filter fun page => p.bitmap page = false

/-- The address of a page. -/
def addrOf (page : Nat) : Nat := p.managedStart + page * PAGE_SIZE

theorem mem_clearPages {page : Nat} :
    page ∈ p.clearPages ↔ page < p.totalPages ∧ p.bitmap page = false := by
  simp [clearPages]

end PmmInner

/-! ## The bitmap of `init` -/

theorem markReserved_apply (total n page : Nat) :
    markReserved total n page = decide (page < n ∧ page < total) := by
  induction n with
  | zero => simp [markReserved]
  | succ n ih =>
    rw [markReserved] at ih ⊢
    rw [List.range_succ, List.foldl_append, List.foldl_cons, List.foldl_nil]
    by_cases hn : n < total
    · rw [if_pos hn, Function.update_apply, ih]
      by_cases hpage : page = n
      · simp [hpage, hn]
      · rw [if_neg hpage]
        congr 1
        apply propext
        omega
    · rw [if_neg hn, ih]
      congr 1
      apply propext
      omega

/-- The counts of the words add up to the number of bits set. -/
theorem sum_countOnes (bitmap : Nat → Bool) (words : Nat) :
    ((List.range words).map (countOnes bitmap)).sum =
      ((Finset.range (64 * words)).filter fun page => bitmap page = true).card := by
  have hcount : ∀ n, (List.range n).countP bitmap =
      ((Finset.range n).filter fun page => bitmap page = true).card := by
    intro n
    induction n with
    | zero => rfl
    | succ n ih =>
      rw [List.range_succ, List.countP_append, ih, Finset.range_add_one, Finset.filter_insert]
      cases hbit : bitmap n <;> simp [hbit]
  rw [← hcount]
  induction words with
  | zero => rfl
  | succ words ih =>
    rw [List.range_succ, List.map_append, List.sum_append, ih, Nat.mul_succ, List.range_add,
      List.countP_append, List.countP_map]
    simp [countOnes, Function.comp_def]

/-- What is left when the marked pages are counted off is the number of clear ones. -/
theorem sub_countOnes_markReserved {total words : Nat} (n : Nat) (h : total ≤ 64 * words) :
    total - ((List.range words).map (countOnes (markReserved total n))).sum =
      ((Finset.range total).filter fun page => markReserved total n page = false).card := by
  have hused : ((Finset.range (64 * words)).filter fun page => markReserved total n page = true) =
      (Finset.range total).filter fun page => markReserved total n page = true := by
    ext page
    simp only [Finset.mem_filter, Finset.mem_range, markReserved_apply, decide_eq_true_eq]
    omega
  have hsplit := Finset.card_filter_add_card_filter_not (s := Finset.range total)
    fun page => markReserved total n page = true
  simp only [Finset.card_range, Bool.not_eq_true] at hsplit
  rw [sum_countOnes, hused]
  omega

/-- `init` marks the pages below the end of the kernel, and counts the others. -/
theorem init_cases {maxPages memStart memSize kernelEnd : Nat} {p : PmmInner}
    (h : init maxPages memStart memSize kernelEnd = .ok p) :
    p.managedStart = memStart ∧ p.totalPages ≤ maxPages ∧ p.totalPages * PAGE_SIZE ≤ memSize ∧
      memStart ≤ kernelEnd ∧ p.freePages = p.clearPages.card ∧ ∀ page, page < p.totalPages →
        (p.bitmap page = true ↔ memStart + page * PAGE_SIZE < kernelEnd) := by
  obtain ⟨u, hle, h⟩ := bind_eq_ok_iff.mp h
  obtain ⟨padded, hpadded, h⟩ := bind_eq_ok_iff.mp h
  obtain ⟨-, rfl⟩ := unchecked_eq_ok_iff.mp hpadded
  rw [demand_eq_ok_iff] at hle
  cases h
  refine ⟨rfl, Nat.min_le_right _ _, ?_, hle, ?_, ?_⟩
  · exact (Nat.mul_le_mul_right _ (Nat.min_le_left _ _)).trans (Nat.div_mul_le_self _ _)
  · apply sub_countOnes_markReserved
    have hmax := Nat.min_le_right (memSize / PAGE_SIZE) maxPages
    rw [bitmapWords]
    omega
  · intro page hpage
    dsimp only at hpage ⊢
    rw [markReserved_apply, decide_eq_true_eq]
    simp only [PAGE_SIZE] at hpage ⊢
    omega

/-! ## What the calls do -/

namespace PmmInner

variable {p p' : PmmInner}

/-- The page that the scan finds is a clear one. -/
theorem scan_sound {words : List Nat} {page : Nat} (h : p.scan words = some page) :
    page < p.totalPages ∧ p.bitmap page = false := by
  induction words with
  | nil => cases h
  | cons word words ih =>
    rw [scan] at h
    dsimp only at h
    split_ifs at h with hend hfull hbeyond
    · exact ih h
    · obtain rfl := Option.some.inj h
      refine ⟨by omega, ?_⟩
      simp only [List.all_eq_true, List.mem_range, not_forall] at hfull
      obtain ⟨bit, hbit, hclear⟩ := hfull
      have hfound : ((List.range 64).find? fun bit => !p.bitmap (64 * word + bit)).isSome := by
        rw [List.find?_isSome]
        exact ⟨bit, List.mem_range.mpr hbit, by simpa using hclear⟩
      obtain ⟨first, hfirst⟩ := Option.isSome_iff_exists.mp hfound
      rw [firstZero, hfirst, Option.getD_some, Nat.mul_comm]
      simpa using List.find?_some hfirst

/-- When the scan finds nothing, no page of the words is clear. -/
theorem scan_complete {word n : Nat} (h : p.scan (List.range' word n) = none) :
    ∀ page, 64 * word ≤ page → page < 64 * (word + n) → page < p.totalPages →
      p.bitmap page = true := by
  induction n generalizing word with
  | zero =>
    intro page hlo hhi
    omega
  | succ n ih =>
    intro page hlo hhi htotal
    rw [List.range'_succ, scan] at h
    dsimp only at h
    split_ifs at h with hend hfull hbeyond
    · omega
    · -- A full word: the page is in it, or in the words behind it.
      by_cases hin : page < 64 * (word + 1)
      · have hbit := List.all_eq_true.mp hfull (page - 64 * word)
          (List.mem_range.mpr (by omega))
        rwa [Nat.add_sub_cancel' hlo] at hbit
      · exact ih h page (by omega) (by omega) htotal
    · -- The first clear bit of the last word is behind the last page.
      by_contra hclear
      rw [firstZero] at hbeyond
      cases hfirst : (List.range 64).find? fun bit => !p.bitmap (64 * word + bit) with
      | none =>
        have hin : page < 64 * (word + 1) ∨ 64 * (word + 1) ≤ page := by omega
        rw [hfirst] at hbeyond
        simp only [Option.getD_none] at hbeyond
        have := List.find?_eq_none.mp hfirst (page - 64 * word) (List.mem_range.mpr (by omega))
        rw [Nat.add_sub_cancel' hlo] at this
        simp [hclear] at this
      | some first =>
        rw [hfirst] at hbeyond
        simp only [Option.getD_some] at hbeyond
        have hfirst64 := List.mem_range.mp (List.mem_of_find?_eq_some hfirst)
        have hbefore := (List.find?_eq_some_iff_getElem.mp hfirst).2
        obtain ⟨i, hi, heq, hbefore⟩ := hbefore
        rw [List.getElem_range] at heq
        have := hbefore (page - 64 * word) (by omega)
        rw [List.getElem_range, Nat.add_sub_cancel' hlo] at this
        simp [hclear] at this

/-- One bit more is set. -/
theorem clearPages_set {page : Nat} (hpage : page < p.totalPages) (hclear : p.bitmap page = false)
    (free : Nat) :
    ({ p with bitmap := Function.update p.bitmap page true, freePages := free }
      : PmmInner).clearPages.card + 1 = p.clearPages.card := by
  have hmem : page ∈ p.clearPages := p.mem_clearPages.mpr ⟨hpage, hclear⟩
  rw [← Finset.card_erase_add_one hmem]
  congr 2
  ext q
  simp only [mem_clearPages, Finset.mem_erase, Function.update_apply]
  by_cases hq : q = page <;> simp [hq]

/-- One bit less is set. -/
theorem clearPages_clear {page : Nat} (hpage : page < p.totalPages) (hset : p.bitmap page = true)
    (free : Nat) :
    ({ p with bitmap := Function.update p.bitmap page false, freePages := free }
      : PmmInner).clearPages.card = p.clearPages.card + 1 := by
  have hmem : page ∉ p.clearPages := by
    simp [mem_clearPages, hset]
  rw [← Finset.card_insert_of_notMem hmem]
  congr 1
  ext q
  simp only [mem_clearPages, Finset.mem_insert, Function.update_apply]
  by_cases hq : q = page <;> simp [hq, hpage]

/-- `alloc_page` takes a clear page, or there is none. -/
theorem allocPage_cases {maxPages : Nat} {r : Option Nat} (hmax : p.totalPages ≤ maxPages)
    (h : p.allocPage maxPages = .ok (p', r)) :
    (r = none ∧ p' = p ∧ ∀ page, page < p.totalPages → p.bitmap page = true) ∨
      ∃ page, page < p.totalPages ∧ p.bitmap page = false ∧ r = some (p.addrOf page) ∧
        p' = { p with
          bitmap := Function.update p.bitmap page true, freePages := p.freePages - 1 } := by
  unfold allocPage at h
  split at h
  · next hscan =>
    cases h
    refine .inl ⟨rfl, rfl, ?_⟩
    intro page hpage
    rw [List.range_eq_range'] at hscan
    apply scan_complete hscan page (by omega) _ hpage
    rw [bitmapWords]
    omega
  · next page hscan =>
    obtain ⟨u, -, h⟩ := bind_eq_ok_iff.mp h
    obtain ⟨addr, haddr, h⟩ := bind_eq_ok_iff.mp h
    obtain ⟨-, rfl⟩ := unchecked_eq_ok_iff.mp haddr
    cases h
    obtain ⟨hpage, hclear⟩ := scan_sound hscan
    exact .inr ⟨page, hpage, hclear, rfl, rfl⟩

/-- While the counter is right and the pages end within the address space, `alloc_page` returns. -/
theorem allocPage_returns (maxPages : Nat) (hcount : p.freePages = p.clearPages.card)
    (hfits : p.managedStart + p.totalPages * PAGE_SIZE ≤ 2 ^ 64) :
    ∃ p' r, p.allocPage maxPages = .ok (p', r) := by
  unfold allocPage
  split
  · exact ⟨p, none, rfl⟩
  · next page hscan =>
    obtain ⟨hpage, hclear⟩ := scan_sound hscan
    have hfree : 0 < p.freePages := by
      rw [hcount]
      exact Finset.card_pos.mpr ⟨page, p.mem_clearPages.mpr ⟨hpage, hclear⟩⟩
    have haddr : p.managedStart + page * PAGE_SIZE < 2 ^ 64 := by
      simp only [PAGE_SIZE] at hfits ⊢
      omega
    rw [(demand_eq_ok_iff (u := ())).mpr hfree, unchecked_eq_ok_iff.mpr ⟨haddr, rfl⟩]
    exact ⟨_, _, rfl⟩

/-- `free_page` clears the bit of a page in use. -/
theorem freePage_cases {phys : Nat} (haligned : p.managedStart % PAGE_SIZE = 0)
    (h : p.freePage phys = .ok p') :
    ∃ page, page < p.totalPages ∧ p.bitmap page = true ∧ phys = p.addrOf page ∧
      p' = { p with
        bitmap := Function.update p.bitmap page false, freePages := p.freePages + 1 } := by
  unfold freePage at h
  dsimp only at h
  split_ifs at h with hlow hmis hend hset
  cases h
  refine ⟨_, by omega, by simpa using hset, ?_, rfl⟩
  rw [addrOf]
  simp only [PAGE_SIZE] at *
  omega

/-- `reserve_range` sets the bits of its pages, and keeps the count. -/
theorem reserveLoop_spec (n page : Nat) (hcount : p.freePages = p.clearPages.card) :
    (reserveLoop n page p).totalPages = p.totalPages ∧
      (reserveLoop n page p).managedStart = p.managedStart ∧
      (reserveLoop n page p).freePages = (reserveLoop n page p).clearPages.card ∧
      ∀ q, q < p.totalPages →
        ((reserveLoop n page p).bitmap q = true ↔
          p.bitmap q = true ∨ page ≤ q ∧ q < page + n) := by
  induction n generalizing page p with
  | zero =>
    refine ⟨rfl, rfl, hcount, ?_⟩
    intro q _
    rw [reserveLoop]
    simp only [iff_self_or]
    omega
  | succ n ih =>
    rw [reserveLoop]
    split_ifs with hend hclear
    · refine ⟨rfl, rfl, hcount, ?_⟩
      intro q hq
      simp only [iff_self_or]
      omega
    · rw [Bool.not_eq_true'] at hclear
      have hset := clearPages_set (not_le.mp hend) hclear (p.freePages - 1)
      obtain ⟨htotal, hstart, hfree, hbits⟩ := ih (p := { p with
        bitmap := Function.update p.bitmap page true, freePages := p.freePages - 1 }) (page + 1)
        (by dsimp only at hset ⊢; omega)
      refine ⟨htotal, hstart, hfree, ?_⟩
      intro q hq
      rw [hbits q hq]
      dsimp only
      rw [Function.update_apply]
      by_cases hqp : q = page
      · simp [hqp]
      · simp only [if_neg hqp]
        apply or_congr_right
        omega
    · rw [Bool.not_eq_true', Bool.not_eq_false] at hclear
      obtain ⟨htotal, hstart, hfree, hbits⟩ := ih (page + 1) hcount
      refine ⟨htotal, hstart, hfree, ?_⟩
      intro q hq
      rw [hbits q hq]
      by_cases hqp : q = page
      · simp [hqp, hclear]
      · apply or_congr_right
        omega

end PmmInner

/-! ## The allocator and its callers -/

inductive Op where
  | init (memStart memSize kernelEnd : Nat)
  | allocPage
  | freePage (phys : Nat)
  | reserveRange (start size : Nat)

/-- The allocator, the pages that are out, and the ranges that were reserved. -/
structure System where
  pmm : PmmInner
  handed : List Nat
  reserved : List (Nat × Nat)

namespace System

/-- Nothing was called yet. -/
def boot : System := ⟨.zeroed, [], []⟩

variable (s : System)

/-- A reserved range has a byte of the page at `addr`. -/
def Reserved (addr : Nat) : Prop :=
  ∃ range ∈ s.reserved, range.1 < addr + PAGE_SIZE ∧ addr < range.1 + range.2

instance (addr : Nat) : Decidable (s.Reserved addr) :=
  inferInstanceAs (Decidable (∃ range ∈ s.reserved, _ ∧ _))

/-- One call.  A panic stops the system where it is. -/
def step (maxPages : Nat) (s : System) : Op → System
  | .init memStart memSize kernelEnd =>
    match init maxPages memStart memSize kernelEnd with
    | .ok pmm => { s with pmm, reserved := (memStart, kernelEnd - memStart) :: s.reserved }
    | .error _ => s
  | .allocPage =>
    match s.pmm.allocPage maxPages with
    | .ok (pmm, some addr) => { s with pmm, handed := addr :: s.handed }
    | .ok (pmm, none) => { s with pmm }
    | .error _ => s
  | .freePage phys =>
    match s.pmm.freePage phys with
    | .ok pmm => { s with pmm, handed := s.handed.erase phys }
    | .error _ => s
  | .reserveRange start size =>
    match s.pmm.reserveRange start size with
    | .ok pmm => { s with pmm, reserved := (start, size) :: s.reserved }
    | .error _ => s

/-- The counter is right, and the call does what it may do.  An allocation returns, and a page that
it hands out is a managed one, not reserved and not out already; it fails only when every page is
out or reserved; to free a page that is not out is an error. -/
def Sound (maxPages : Nat) (s : System) (op : Op) : Prop :=
  s.pmm.freePages = s.pmm.clearPages.card ∧
    match op with
    | .allocPage => ∃ pmm r, s.pmm.allocPage maxPages = .ok (pmm, r) ∧
      match r with
      | some addr => (∃ page, page < s.pmm.totalPages ∧ addr = s.pmm.addrOf page) ∧
          addr ∉ s.handed ∧ ¬ s.Reserved addr
      | none => ∀ page, page < s.pmm.totalPages →
          s.pmm.addrOf page ∈ s.handed ∨ s.Reserved (s.pmm.addrOf page)
    | .freePage phys => phys ∉ s.handed → ∃ e, s.pmm.freePage phys = .error e
    | _ => True

/-- What the caller has to see to, in the state before the call. -/
def Careful (s : System) : Op → Prop
  | .init memStart memSize _ => s.handed = [] ∧ s.reserved = [] ∧ memStart % PAGE_SIZE = 0 ∧
      memStart + memSize ≤ 2 ^ 64
  | .allocPage => True
  | .freePage phys => phys % PAGE_SIZE = 0 → ¬ s.Reserved phys
  | .reserveRange start size => s.pmm.managedStart ≤ start ∧
      start % PAGE_SIZE + size ≤ (size + PAGE_SIZE - 1) / PAGE_SIZE * PAGE_SIZE

instance : (op : Op) → Decidable (s.Careful op)
  | .init .. => inferInstanceAs (Decidable (_ ∧ _ ∧ _ ∧ _))
  | .allocPage => inferInstanceAs (Decidable True)
  | .freePage _ => inferInstanceAs (Decidable (_ → ¬ _))
  | .reserveRange .. => inferInstanceAs (Decidable (_ ∧ _))

/-- The bits are those of the pages that are out or reserved. -/
structure Tracks (maxPages : Nat) (s : System) : Prop where
  total : s.pmm.totalPages ≤ maxPages
  count : s.pmm.freePages = s.pmm.clearPages.card
  aligned : s.pmm.managedStart % PAGE_SIZE = 0
  fits : s.pmm.managedStart + s.pmm.totalPages * PAGE_SIZE ≤ 2 ^ 64
  bits : ∀ page, page < s.pmm.totalPages →
    (s.pmm.bitmap page = true ↔
      s.pmm.addrOf page ∈ s.handed ∨ s.Reserved (s.pmm.addrOf page))
  managed : ∀ addr ∈ s.handed, ∃ page, page < s.pmm.totalPages ∧ addr = s.pmm.addrOf page
  nodup : s.handed.Nodup

theorem tracks_boot (maxPages : Nat) : Tracks maxPages boot where
  total := Nat.zero_le _
  count := rfl
  aligned := rfl
  fits := by decide
  bits page hpage := absurd hpage (Nat.not_lt_zero page)
  managed addr haddr := by cases haddr
  nodup := .nil

theorem addrOf_inj {p : PmmInner} {page page' : Nat} :
    p.addrOf page = p.addrOf page' ↔ page = page' := by
  simp only [PmmInner.addrOf, PAGE_SIZE]
  omega

variable {s} {maxPages : Nat}

theorem reserved_cons {pmm : PmmInner} {range : Nat × Nat} {handed : List Nat} {addr : Nat} :
    Reserved ⟨pmm, handed, range :: s.reserved⟩ addr ↔
      range.1 < addr + PAGE_SIZE ∧ addr < range.1 + range.2 ∨ s.Reserved addr := by
  simp [Reserved]

theorem Tracks.init (h : Tracks maxPages s) {memStart memSize kernelEnd : Nat}
    (hcare : s.Careful (.init memStart memSize kernelEnd)) :
    Tracks maxPages (s.step maxPages (.init memStart memSize kernelEnd)) := by
  obtain ⟨hhanded, hreserved, haligned, hend⟩ := hcare
  rw [step]
  split
  · next pmm hinit =>
    obtain ⟨rfl, htotal, hsize, hle, hcount, hbits⟩ := init_cases hinit
    refine ⟨htotal, hcount, haligned, (Nat.add_le_add_left hsize _).trans hend, ?_, ?_, ?_⟩
    · intro page hpage
      rw [hbits page hpage, reserved_cons]
      simp only [hhanded, hreserved, Reserved, PmmInner.addrOf, PAGE_SIZE, List.not_mem_nil,
        false_and, exists_false, or_false, false_or]
      omega
    · simp [hhanded]
    · simp [hhanded]
  · exact h

theorem Tracks.allocPage (h : Tracks maxPages s) :
    Tracks maxPages (s.step maxPages .allocPage) ∧ s.Sound maxPages .allocPage := by
  constructor
  · rw [step]
    split
    · next pmm addr halloc =>
      obtain ⟨hr, -, -⟩ | ⟨page, hpage, hclear, hr, rfl⟩ :=
        PmmInner.allocPage_cases h.total halloc
      · cases hr
      · obtain rfl := Option.some.inj hr
        have hset := PmmInner.clearPages_set hpage hclear (s.pmm.freePages - 1)
        have hfree := h.count
        refine ⟨h.total, by dsimp only at hset ⊢; omega, h.aligned, h.fits, ?_, ?_, ?_⟩
        · intro q hq
          show Function.update s.pmm.bitmap page true q = true ↔
            s.pmm.addrOf q ∈ s.pmm.addrOf page :: s.handed ∨ s.Reserved (s.pmm.addrOf q)
          rw [Function.update_apply, List.mem_cons, addrOf_inj]
          by_cases hqp : q = page
          · simp [hqp]
          · simp only [hqp, false_or]
            exact h.bits q hq
        · intro a ha
          obtain rfl | ha := List.mem_cons.mp ha
          · exact ⟨page, hpage, rfl⟩
          · exact h.managed a ha
        · refine List.nodup_cons.mpr ⟨?_, h.nodup⟩
          intro hmem
          have := (h.bits page hpage).mpr (.inl hmem)
          rw [hclear] at this
          cases this
    · next pmm halloc =>
      obtain ⟨-, rfl, -⟩ | ⟨page, -, -, hr, -⟩ := PmmInner.allocPage_cases h.total halloc
      · exact h
      · cases hr
    · exact h
  · obtain ⟨pmm, r, halloc⟩ := PmmInner.allocPage_returns maxPages h.count h.fits
    refine ⟨h.count, pmm, r, halloc, ?_⟩
    obtain ⟨rfl, -, hall⟩ | ⟨page, hpage, hclear, rfl, -⟩ :=
      PmmInner.allocPage_cases h.total halloc
    · intro page hpage
      exact (h.bits page hpage).mp (hall page hpage)
    · have hnot : ¬ (s.pmm.addrOf page ∈ s.handed ∨ s.Reserved (s.pmm.addrOf page)) := by
        rw [← h.bits page hpage, hclear]
        exact Bool.false_ne_true
      rw [not_or] at hnot
      exact ⟨⟨page, hpage, rfl⟩, hnot⟩

theorem Tracks.freePage (h : Tracks maxPages s) {phys : Nat}
    (hcare : s.Careful (.freePage phys)) :
    Tracks maxPages (s.step maxPages (.freePage phys)) ∧ s.Sound maxPages (.freePage phys) := by
  -- A page that `free_page` frees is one that is out.
  have hout : ∀ {p'}, s.pmm.freePage phys = .ok p' → ∃ page, page < s.pmm.totalPages ∧
      s.pmm.bitmap page = true ∧ phys = s.pmm.addrOf page ∧ phys ∈ s.handed ∧
      ¬ s.Reserved phys ∧ p' = { s.pmm with
        bitmap := Function.update s.pmm.bitmap page false, freePages := s.pmm.freePages + 1 } := by
    intro p' hfree
    obtain ⟨page, hpage, hset, rfl, heq⟩ := PmmInner.freePage_cases h.aligned hfree
    have hres : ¬ s.Reserved (s.pmm.addrOf page) := by
      apply hcare
      have haligned := h.aligned
      simp only [PmmInner.addrOf, PAGE_SIZE] at haligned ⊢
      omega
    exact ⟨page, hpage, hset, rfl, ((h.bits page hpage).mp hset).resolve_right hres, hres, heq⟩
  constructor
  · rw [step]
    split
    · next pmm hfree =>
      obtain ⟨page, hpage, hset, rfl, hmem, hres, rfl⟩ := hout hfree
      have hcard := PmmInner.clearPages_clear hpage hset (s.pmm.freePages + 1)
      have hcount := h.count
      refine ⟨h.total, by dsimp only at hcard ⊢; omega, h.aligned, h.fits, ?_, ?_,
        h.nodup.erase _⟩
      · intro q hq
        show Function.update s.pmm.bitmap page false q = true ↔
          s.pmm.addrOf q ∈ s.handed.erase (s.pmm.addrOf page) ∨ s.Reserved (s.pmm.addrOf q)
        rw [Function.update_apply, h.nodup.mem_erase_iff, ne_eq, addrOf_inj]
        by_cases hqp : q = page
        · simp [hqp, hres]
        · simp only [hqp, not_false_eq_true, true_and]
          exact h.bits q hq
      · intro a ha
        exact h.managed a (List.mem_of_mem_erase ha)
    · exact h
  · refine ⟨h.count, ?_⟩
    intro hnot
    cases hfree : s.pmm.freePage phys with
    | error e => exact ⟨e, rfl⟩
    | ok p' =>
      obtain ⟨page, -, -, -, hmem, -, -⟩ := hout hfree
      exact absurd hmem hnot

theorem Tracks.reserveRange (h : Tracks maxPages s) {start size : Nat}
    (hcare : s.Careful (.reserveRange start size)) :
    Tracks maxPages (s.step maxPages (.reserveRange start size)) := by
  obtain ⟨hlow, hfits⟩ := hcare
  rw [step]
  split
  · next pmm hreserve =>
    rw [PmmInner.reserveRange, if_neg (not_lt.mpr hlow)] at hreserve
    obtain ⟨padded, hpadded, hreserve⟩ := bind_eq_ok_iff.mp hreserve
    obtain ⟨-, rfl⟩ := unchecked_eq_ok_iff.mp hpadded
    cases hreserve
    obtain ⟨htotal, hstart, hcount, hbits⟩ := PmmInner.reserveLoop_spec
      ((size + PAGE_SIZE - 1) / PAGE_SIZE) ((start - s.pmm.managedStart) / PAGE_SIZE) h.count
    have haddr : ∀ q, (PmmInner.reserveLoop ((size + PAGE_SIZE - 1) / PAGE_SIZE)
        ((start - s.pmm.managedStart) / PAGE_SIZE) s.pmm).addrOf q = s.pmm.addrOf q := by
      intro q
      rw [PmmInner.addrOf, hstart, PmmInner.addrOf]
    have haligned := h.aligned
    rw [← hstart] at haligned
    refine ⟨htotal ▸ h.total, hcount, haligned, ?_, ?_, ?_, h.nodup⟩
    · dsimp only
      rw [hstart, htotal]
      exact h.fits
    · intro q hq
      dsimp only at hq ⊢
      rw [htotal] at hq
      rw [haddr, hbits q hq, reserved_cons, h.bits q hq]
      rw [hstart] at haligned
      have hrange : (start - s.pmm.managedStart) / PAGE_SIZE ≤ q ∧
          q < (start - s.pmm.managedStart) / PAGE_SIZE + (size + PAGE_SIZE - 1) / PAGE_SIZE ↔
          start < s.pmm.addrOf q + PAGE_SIZE ∧ s.pmm.addrOf q < start + size := by
        simp only [PmmInner.addrOf, PAGE_SIZE] at haligned hfits ⊢
        omega
      rw [or_assoc, hrange]
      exact or_congr_right or_comm
    · intro a ha
      obtain ⟨page, hpage, heq⟩ := h.managed a ha
      exact ⟨page, htotal ▸ hpage, by rw [haddr, heq]⟩
  · exact h

/-- A careful call keeps the track, and is sound. -/
theorem Tracks.step (h : Tracks maxPages s) {op : Op} (hcare : s.Careful op) :
    s.Sound maxPages op ∧ Tracks maxPages (s.step maxPages op) := by
  cases op with
  | init memStart memSize kernelEnd => exact ⟨⟨h.count, trivial⟩, h.init hcare⟩
  | allocPage => exact h.allocPage.symm
  | freePage phys => exact (h.freePage hcare).symm
  | reserveRange start size => exact ⟨⟨h.count, trivial⟩, h.reserveRange hcare⟩

/-- In every run of careful calls every call is sound, and the counter is right. -/
theorem sound_of_careful (maxPages : Nat) (ops : List Op)
    (hcare : Guarded (step maxPages) Careful boot ops) :
    Guarded (step maxPages) (Sound maxPages) boot ops ∧
      (run (step maxPages) boot ops).pmm.freePages =
        (run (step maxPages) boot ops).pmm.clearPages.card := by
  constructor
  · apply guarded_of_invariant (Tracks maxPages) _ (tracks_boot maxPages) hcare
    intro s op h hop
    exact h.step hop
  · have h : Tracks maxPages (run (step maxPages) boot ops) := by
      apply run_invariant_of_guarded (Tracks maxPages) _ (tracks_boot maxPages) hcare
      intro s op h hop
      exact (h.step hop).2
    exact h.count

/-- A run of careful calls: 4 pages, the first one for the kernel and the second one
reserved. -/
def carefulRun : List Op :=
  [.init 0 16384 100, .reserveRange 4096 4096, .allocPage, .freePage 8192, .allocPage]

theorem sound_carefulRun :
    Guarded (step 4) (Sound 4) boot carefulRun ∧
      (run (step 4) boot carefulRun).pmm.freePages =
        (run (step 4) boot carefulRun).pmm.clearPages.card := by
  apply sound_of_careful
  decide

/-- A range that does not start at a page: it has bytes of the pages 0 and 1, and takes
one page only. -/
def misalignedRun : List Op := [.init 0 16384 0, .reserveRange 1 4096]

/-- The allocator hands out a reserved page. -/
theorem misalignedRun_not_sound : ¬ Sound 4 (run (step 4) boot misalignedRun) .allocPage := by
  intro h
  have hreserved : Reserved (run (step 4) boot misalignedRun) 4096 := by decide
  have halloc : ((run (step 4) boot misalignedRun).pmm.allocPage 4).map (·.2) =
      .ok (some 4096) := by decide
  obtain ⟨-, pmm, r, hcall, hsound⟩ := h
  rw [hcall] at halloc
  obtain rfl : r = some 4096 := Except.ok.inj halloc
  exact hsound.2.2 hreserved

end System

end Pmm

end RobotOs.Mm
