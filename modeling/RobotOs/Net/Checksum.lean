import RobotOs.Lib.Checked
import RobotOs.Lib.Framing

/-!
# The Internet checksum

`tcp_checksum` of `tcp.rs`, over the sum that `pseudo_checksum` of `ip.rs`
starts with.  The sender computes it with zeros in bytes 16 and 17 and stores
the result there; the receiver computes it over what came and takes the segment
if it is zero.

The sum is a `u32`, and an addition that overflows stops the kernel.
`tcpChecksum_eq` says that this does not happen for the length of a segment.
The checksum is zero exactly if the sum of the words is a positive multiple of
65535 (`verifies_iff`), so the two representations of zero only differ for a
segment of zeros.
-/

namespace RobotOs.Net.Checksum

open RobotOs.Lib.Framing RobotOs.Lib.Checked

/-- `pseudo_checksum`.  Six words do not overflow. -/
def pseudoChecksum (src dst : Ip) (proto : UInt8) (len : UInt16) : Nat :=
  ofBE [src.a, src.b] + ofBE [src.c, src.d] + ofBE [dst.a, dst.b] + ofBE [dst.c, dst.d] +
    proto.toNat + len.toNat

/-- The words of the segment onto a sum.  A last odd byte is the high byte of a word. -/
def addWords (sum : Nat) : Bytes → Option Nat
  | hi :: lo :: rest => do
    let sum ← checkedU 32 (sum + ofBE [hi, lo])
    addWords sum rest
  | [hi] => checkedU 32 (sum + hi.toNat * 256)
  | [] => some sum

/-- The loop that folds the carries. -/
def foldCarries (sum : Nat) : Nat :=
  if sum / 65536 = 0 then sum else foldCarries (sum % 65536 + sum / 65536)
termination_by sum
decreasing_by omega

def tcpChecksum (pseudoSum : Nat) (data : Bytes) : Option UInt16 :=
  (addWords pseudoSum data).map fun sum => ~~~ UInt16.ofNat (foldCarries sum)

def TCP_CHECKSUM_OFFSET : Nat := 16
def TCP_CHECKSUM_OFFSET_HI : Nat := 17

/-- The two stores of the sender. -/
def storeChecksum (data : Bytes) (cs : UInt16) : Bytes :=
  (data.set TCP_CHECKSUM_OFFSET (UInt8.ofNat (cs.toNat / 256))).set TCP_CHECKSUM_OFFSET_HI
    (UInt8.ofNat cs.toNat)

/-- The checksum of a segment between two addresses, as both sides compute it. -/
def segmentChecksum (src dst : Ip) (proto : UInt8) (data : Bytes) : Option UInt16 :=
  tcpChecksum (pseudoChecksum src dst proto (UInt16.ofNat data.length)) data

/-! ## The words of a segment -/

def words : Bytes → List Nat
  | hi :: lo :: rest => ofBE [hi, lo] :: words rest
  | [hi] => [hi.toNat * 256]
  | [] => []

/-- All words that the checksum covers, those of the pseudo-header first. -/
def covered (src dst : Ip) (proto : UInt8) (data : Bytes) : List Nat :=
  [ofBE [src.a, src.b], ofBE [src.c, src.d], ofBE [dst.a, dst.b], ofBE [dst.c, dst.d],
    proto.toNat, data.length] ++ words data

theorem ofBE_pair (hi lo : UInt8) : ofBE [hi, lo] = lo.toNat + 256 * hi.toNat := rfl

theorem ofBE_pair_le (hi lo : UInt8) : ofBE [hi, lo] ≤ 65535 := by
  have hhi := hi.toNat_lt
  have hlo := lo.toNat_lt
  rw [ofBE_pair]
  omega

theorem length_words (data : Bytes) : (words data).length = (data.length + 1) / 2 := by
  fun_induction words data with
  | case1 hi lo rest ih => simp only [List.length_cons, ih]; omega
  | case2 hi => simp
  | case3 => rfl

theorem sum_words_le (data : Bytes) : (words data).sum ≤ 65535 * ((data.length + 1) / 2) := by
  fun_induction words data with
  | case1 hi lo rest ih =>
    have hword := ofBE_pair_le hi lo
    simp only [List.sum_cons, List.length_cons]
    omega
  | case2 hi =>
    have hhi := hi.toNat_lt
    simp
    omega
  | case3 => simp

theorem sum_words_append (a b : Bytes) (ha : a.length % 2 = 0) :
    (words (a ++ b)).sum = (words a).sum + (words b).sum := by
  fun_induction words a with
  | case1 hi lo rest ih =>
    have hrest : rest.length % 2 = 0 := by simpa [Nat.add_assoc] using ha
    simp only [List.cons_append, words, List.sum_cons, ih hrest]
    omega
  | case2 hi => simp at ha
  | case3 => simp

theorem addWords_eq {sum : Nat} {data : Bytes} (h : sum + (words data).sum < 2 ^ 32) :
    addWords sum data = some (sum + (words data).sum) := by
  fun_induction words data generalizing sum with
  | case1 hi lo rest ih =>
    rw [List.sum_cons] at h ⊢
    have hword : sum + ofBE [hi, lo] < 2 ^ 32 := by omega
    rw [addWords, checkedU, if_pos hword, Option.bind_eq_bind, Option.bind_some, ih (by omega),
      Nat.add_assoc]
  | case2 hi =>
    have hword : sum + hi.toNat * 256 < 2 ^ 32 := by simpa using h
    rw [addWords, checkedU, if_pos hword, List.sum_singleton]
  | case3 => rfl

/-! ## The carries -/

theorem foldCarries_lt (sum : Nat) : foldCarries sum < 65536 := by
  fun_induction foldCarries sum with
  | case1 sum h => omega
  | case2 sum h ih => exact ih

theorem foldCarries_modEq (sum : Nat) : foldCarries sum ≡ sum [MOD 65535] := by
  fun_induction foldCarries sum with
  | case1 sum h => rfl
  | case2 sum h ih =>
    refine ih.trans ?_
    show (sum % 65536 + sum / 65536) % 65535 = sum % 65535
    omega

theorem foldCarries_eq_zero (sum : Nat) : foldCarries sum = 0 ↔ sum = 0 := by
  fun_induction foldCarries sum with
  | case1 sum h => rfl
  | case2 sum h ih =>
    rw [ih]
    omega

theorem toNat_not_foldCarries (sum : Nat) :
    (~~~ UInt16.ofNat (foldCarries sum)).toNat = 65535 - foldCarries sum := by
  rw [UInt16.toNat_not, UInt16.toNat_ofNat', Nat.mod_eq_of_lt (foldCarries_lt sum)]
  rfl

section

variable {src dst : Ip} {proto : UInt8} {data : Bytes}

/-- A segment's words never overflow the sum. -/
theorem tcpChecksum_eq (hmax : data.length ≤ 65535) :
    segmentChecksum src dst proto data =
      some (~~~ UInt16.ofNat (foldCarries (covered src dst proto data).sum)) := by
  have hlen : (UInt16.ofNat data.length).toNat = data.length :=
    UInt16.toNat_ofNat_of_lt' (show data.length < 65536 by omega)
  have hsum : (covered src dst proto data).sum =
      pseudoChecksum src dst proto (UInt16.ofNat data.length) + (words data).sum := by
    simp only [covered, pseudoChecksum, hlen, List.sum_append, List.sum_cons, List.sum_nil]
    omega
  have hpseudo : pseudoChecksum src dst proto (UInt16.ofNat data.length) ≤ 6 * 65535 := by
    have hproto := proto.toNat_lt
    have hsrc := ofBE_pair_le src.a src.b
    have hsrc' := ofBE_pair_le src.c src.d
    have hdst := ofBE_pair_le dst.a dst.b
    have hdst' := ofBE_pair_le dst.c dst.d
    rw [pseudoChecksum, hlen]
    omega
  have hwords := sum_words_le data
  rw [segmentChecksum, tcpChecksum, addWords_eq (by omega), Option.map_some, hsum]

/-- The receiver takes the segment. -/
theorem verifies_iff (hmax : data.length ≤ 65535) :
    segmentChecksum src dst proto data = some 0 ↔
      (covered src dst proto data).sum ≠ 0 ∧ 65535 ∣ (covered src dst proto data).sum := by
  set sum := (covered src dst proto data).sum
  have hlt := foldCarries_lt sum
  have hmod : foldCarries sum % 65535 = sum % 65535 := foldCarries_modEq sum
  have hzero := foldCarries_eq_zero sum
  rw [tcpChecksum_eq hmax, Option.some_inj, ← UInt16.toNat_inj, toNat_not_foldCarries]
  show 65535 - foldCarries sum = 0 ↔ _
  omega

end

/-! ## Storing the checksum -/

/-- The stored checksum is one more word. -/
theorem sum_words_storeChecksum {data : Bytes} {cs : UInt16} (hmin : 18 ≤ data.length)
    (hhi : data[16] = 0) (hlo : data[17] = 0) :
    (words (storeChecksum data cs)).sum = (words data).sum + cs.toNat := by
  have hdata : data = data.take 16 ++ 0 :: 0 :: data.drop 18 := by
    conv_lhs => rw [← List.take_append_drop 16 data]
    rw [List.drop_eq_getElem_cons (by omega), List.drop_eq_getElem_cons (by omega), hhi, hlo]
  have hfront : (data.take 16).length = 16 := List.length_take_of_le (by omega)
  generalize data.take 16 = front at hdata hfront
  generalize data.drop 18 = back at hdata
  have hstored : storeChecksum data cs =
      front ++ UInt8.ofNat (cs.toNat / 256) :: UInt8.ofNat cs.toNat :: back := by
    rw [storeChecksum, TCP_CHECKSUM_OFFSET, TCP_CHECKSUM_OFFSET_HI, hdata,
      List.set_append_right _ _ (by omega), List.set_append_right _ _ (by omega), hfront]
    rfl
  have hcs := cs.toNat_lt
  rw [hstored, hdata, sum_words_append _ _ (by omega), sum_words_append _ _ (by omega)]
  simp only [words, List.sum_cons, ofBE_pair, UInt8.toNat_ofNat']
  simp only [UInt8.toNat_zero]
  omega

/-- Two lists that differ in one place at most. -/
theorem sum_of_one_change {l l' : List Nat} {i : Nat} (hlen : l'.length = l.length)
    (hsame : ∀ j, j ≠ i → l'[j]? = l[j]?) : l'.sum + l.getD i 0 = l.sum + l'.getD i 0 := by
  induction l generalizing l' i with
  | nil => simp [List.length_eq_zero_iff.mp hlen]
  | cons w l ih =>
    obtain ⟨w', l', rfl⟩ := List.exists_cons_of_length_eq_add_one hlen
    cases i with
    | zero =>
      have htail : l' = l := List.ext_getElem? fun j => hsame (j + 1) (by omega)
      simp [htail]
      omega
    | succ i =>
      have hhead : w' = w := by simpa using hsame 0 (by omega)
      have htail : l'.sum + l.getD i 0 = l.sum + l'.getD i 0 :=
        ih (by simpa using hlen) fun j hj => hsame (j + 1) (by omega)
      simp only [List.sum_cons, List.getD_cons_succ]
      omega

/-- The checksum that the sender stores verifies, and no longer does when one
word of the segment or of the pseudo-header becomes another one modulo 65535. -/
theorem checksum_round_trip (src dst : Ip) (proto : UInt8) (data : Bytes)
    (hmin : 18 ≤ data.length) (hmax : data.length ≤ 65535)
    (hhi : data[16] = 0) (hlo : data[17] = 0) :
    ∃ cs, segmentChecksum src dst proto data = some cs ∧
      segmentChecksum src dst proto (storeChecksum data cs) = some 0 ∧
      ∀ (src' dst' : Ip) (proto' : UInt8) (data' : Bytes) (i : Nat),
        data'.length = data.length →
        (∀ j, j ≠ i → (covered src' dst' proto' data')[j]? =
          (covered src dst proto (storeChecksum data cs))[j]?) →
        ¬ (covered src' dst' proto' data').getD i 0 ≡
          (covered src dst proto (storeChecksum data cs)).getD i 0 [MOD 65535] →
        segmentChecksum src' dst' proto' data' ≠ some 0 := by
  set cs := ~~~ UInt16.ofNat (foldCarries (covered src dst proto data).sum)
  have hlength : (storeChecksum data cs).length = data.length := by simp [storeChecksum]
  have hsum : (covered src dst proto (storeChecksum data cs)).sum =
      (covered src dst proto data).sum + cs.toNat := by
    simp only [covered, List.sum_append, sum_words_storeChecksum hmin hhi hlo, hlength]
    omega
  have hverifies : segmentChecksum src dst proto (storeChecksum data cs) = some 0 := by
    have hlt := foldCarries_lt (covered src dst proto data).sum
    have hmod : _ % 65535 = _ % 65535 := foldCarries_modEq (covered src dst proto data).sum
    have hzero := foldCarries_eq_zero (covered src dst proto data).sum
    rw [verifies_iff (by omega), hsum, toNat_not_foldCarries]
    omega
  refine ⟨cs, tcpChecksum_eq hmax, hverifies, ?_⟩
  intro src' dst' proto' data' i hlen hsame hchanged hverifies'
  have hone := sum_of_one_change
    (by simp [covered, length_words, hlen, hlength]) hsame
  have hdvd := ((verifies_iff (by omega)).mp hverifies).2
  have hdvd' := ((verifies_iff (by omega)).mp hverifies').2
  apply hchanged
  show _ % 65535 = _ % 65535
  omega

/-- A segment of nineteen bytes, the last one alone in its word. -/
theorem checksum_round_trip_odd :
    ∃ cs, segmentChecksum ⟨10, 0, 0, 1⟩ ⟨10, 0, 0, 2⟩ 6 (List.replicate 18 0 ++ [7]) = some cs ∧
      segmentChecksum ⟨10, 0, 0, 1⟩ ⟨10, 0, 0, 2⟩ 6
        (storeChecksum (List.replicate 18 0 ++ [7]) cs) = some 0 := by
  obtain ⟨cs, hcs, hverifies, -⟩ := checksum_round_trip ⟨10, 0, 0, 1⟩ ⟨10, 0, 0, 2⟩ 6
    (List.replicate 18 0 ++ [7]) (by decide) (by decide) rfl rfl
  exact ⟨cs, hcs, hverifies⟩

end RobotOs.Net.Checksum
