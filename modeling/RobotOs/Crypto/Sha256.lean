import RobotOs.Lib.Framing
import RobotOs.Lib.Checked

/-!
# SHA-256

`sha256.rs` of the crypto crate: the compression function, and the hasher that
cuts its input into blocks.  The buffer is an array that keeps stale bytes
behind `bufLen`.  The length counts bytes in a `u64`, and a sum or a product
that overflows stops the kernel.

`Holds h msg` says what the hasher `h` knows after the bytes `msg`: the whole
blocks of `msg` are in the state and the rest is in the buffer.  Each update
keeps it (`holds_update`), wherever the message is cut, and `finalize` is two more
updates.
-/

namespace RobotOs.Crypto.Sha256

open Lib.Framing Lib.Checked

/-! ## The compression function -/

def K : List UInt32 :=
  [0x428a2f98, 0x71374491, 0xb5c0fbcf, 0xe9b5dba5, 0x3956c25b, 0x59f111f1, 0x923f82a4, 0xab1c5ed5,
    0xd807aa98, 0x12835b01, 0x243185be, 0x550c7dc3, 0x72be5d74, 0x80deb1fe, 0x9bdc06a7, 0xc19bf174,
    0xe49b69c1, 0xefbe4786, 0x0fc19dc6, 0x240ca1cc, 0x2de92c6f, 0x4a7484aa, 0x5cb0a9dc, 0x76f988da,
    0x983e5152, 0xa831c66d, 0xb00327c8, 0xbf597fc7, 0xc6e00bf3, 0xd5a79147, 0x06ca6351, 0x14292967,
    0x27b70a85, 0x2e1b2138, 0x4d2c6dfc, 0x53380d13, 0x650a7354, 0x766a0abb, 0x81c2c92e, 0x92722c85,
    0xa2bfe8a1, 0xa81a664b, 0xc24b8b70, 0xc76c51a3, 0xd192e819, 0xd6990624, 0xf40e3585, 0x106aa070,
    0x19a4c116, 0x1e376c08, 0x2748774c, 0x34b0bcb5, 0x391c0cb3, 0x4ed8aa4a, 0x5b9cca4f, 0x682e6ff3,
    0x748f82ee, 0x78a5636f, 0x84c87814, 0x8cc70208, 0x90befffa, 0xa4506ceb, 0xbef9a3f7, 0xc67178f2]

/-- The eight words of the state. -/
structure State where
  a : UInt32
  b : UInt32
  c : UInt32
  d : UInt32
  e : UInt32
  f : UInt32
  g : UInt32
  h : UInt32

def H0 : State :=
  ⟨0x6a09e667, 0xbb67ae85, 0x3c6ef372, 0xa54ff53a, 0x510e527f, 0x9b05688c, 0x1f83d9ab, 0x5be0cd19⟩

def BLOCK_SIZE : Nat := 64

def rotateRight (x n : UInt32) : UInt32 := (x >>> n) ||| (x <<< (32 - n))

def ch (x y z : UInt32) : UInt32 := (x &&& y) ^^^ (~~~ x &&& z)
def maj (x y z : UInt32) : UInt32 := (x &&& y) ^^^ (x &&& z) ^^^ (y &&& z)
def bigSigma0 (x : UInt32) : UInt32 := rotateRight x 2 ^^^ rotateRight x 13 ^^^ rotateRight x 22
def bigSigma1 (x : UInt32) : UInt32 := rotateRight x 6 ^^^ rotateRight x 11 ^^^ rotateRight x 25
def smallSigma0 (x : UInt32) : UInt32 := rotateRight x 7 ^^^ rotateRight x 18 ^^^ (x >>> 3)
def smallSigma1 (x : UInt32) : UInt32 := rotateRight x 17 ^^^ rotateRight x 19 ^^^ (x >>> 10)

/-- The message schedule: the words of the block, and 48 words over them. -/
def schedule (block : Bytes) : List UInt32 :=
  (List.range 48).foldl
    (fun w i => w ++ [smallSigma1 (w.getD (i + 14) 0) + w.getD (i + 9) 0 +
      smallSigma0 (w.getD (i + 1) 0) + w.getD i 0])
    ((List.range 16).map fun i => UInt32.ofNat (ofBE (slice block (i * 4) 4)))

/-- One of the 64 rounds. -/
def round (s : State) (k w : UInt32) : State :=
  let t1 := s.h + bigSigma1 s.e + ch s.e s.f s.g + k + w
  let t2 := bigSigma0 s.a + maj s.a s.b s.c
  ⟨t1 + t2, s.a, s.b, s.c, s.d + t1, s.e, s.f, s.g⟩

def compress (state : State) (block : Bytes) : State :=
  let s := (K.zip (schedule block)).foldl (fun s kw => round s kw.1 kw.2) state
  ⟨state.a + s.a, state.b + s.b, state.c + s.c, state.d + s.d,
    state.e + s.e, state.f + s.f, state.g + s.g, state.h + s.h⟩

/-- The digest that the state is written out as. -/
def State.digest (s : State) : Bytes :=
  [s.a, s.b, s.c, s.d, s.e, s.f, s.g, s.h].flatMap fun w => beBytes 4 w.toNat

/-! ## The hasher -/

structure Hasher where
  state : State
  buf : Bytes
  bufLen : Nat
  totalLen : Nat

namespace Hasher

def new : Hasher := ⟨H0, List.replicate BLOCK_SIZE 0, 0, 0⟩

/-- `copy_from_slice` of the data into the buffer from `off`. -/
def copyInto (buf : Bytes) (off : Nat) (data : Bytes) : Bytes :=
  buf.take off ++ data ++ buf.drop (off + data.length)

/-- The first part of `update`: a buffer that is not empty is filled up.  Returns
the data that is left. -/
def fillBuffer (h : Hasher) (data : Bytes) : Hasher × Bytes :=
  if 0 < h.bufLen then
    let take := min data.length (BLOCK_SIZE - h.bufLen)
    let buf := copyInto h.buf h.bufLen (data.take take)
    if h.bufLen + take = BLOCK_SIZE then
      ({ h with state := compress h.state buf, buf := buf, bufLen := 0 }, data.drop take)
    else ({ h with buf := buf, bufLen := h.bufLen + take }, data.drop take)
  else (h, data)

/-- The loop over the full blocks.  Returns the remainder. -/
def processBlocks (state : State) (data : Bytes) : State × Bytes :=
  if BLOCK_SIZE ≤ data.length then
    processBlocks (compress state (data.take BLOCK_SIZE)) (data.drop BLOCK_SIZE)
  else (state, data)
termination_by data.length
decreasing_by simp only [List.length_drop, BLOCK_SIZE] at *; omega

/-- The last part of `update`. -/
def bufferRemainder (h : Hasher) (remaining : Bytes) : Hasher :=
  if remaining = [] then h
  else { h with buf := copyInto h.buf 0 remaining, bufLen := remaining.length }

/-- The two parts of `update` behind the first one. -/
def absorb (h : Hasher) (data : Bytes) : Hasher :=
  let (state, remaining) := processBlocks h.state data
  bufferRemainder { h with state := state } remaining

def update (h : Hasher) (data : Bytes) : Option Hasher := do
  let totalLen ← checkedU 64 (h.totalLen + data.length)
  let (h, rest) := fillBuffer { h with totalLen := totalLen } data
  some (h.absorb rest)

def finalize (h : Hasher) : Option Bytes := do
  let bitLen ← checkedU 64 (h.totalLen * 8)
  let pad : Bytes := 0x80 :: List.replicate 63 0
  let padLen := if h.bufLen < 56 then 56 - h.bufLen else 120 - h.bufLen
  let h ← h.update (pad.take padLen)
  let h ← h.update (beBytes 8 bitLen)
  some h.state.digest

end Hasher

/-- `sha256`. -/
def sha256 (data : Bytes) : Option Bytes := do
  let h ← Hasher.new.update data
  h.finalize

/-! ## Blocks -/

/-- The first `n` blocks of the data. -/
def blocks : Nat → Bytes → List Bytes
  | 0, _ => []
  | n + 1, data => data.take BLOCK_SIZE :: blocks n (data.drop BLOCK_SIZE)

theorem blocks_append {n : Nat} {front : Bytes} (h : front.length = BLOCK_SIZE * n) (m : Nat)
    (back : Bytes) : blocks (n + m) (front ++ back) = blocks n front ++ blocks m back := by
  induction n generalizing front with
  | zero =>
    rw [Nat.mul_zero, List.length_eq_zero_iff] at h
    rw [h, Nat.zero_add]
    rfl
  | succ n ih =>
    have hlen : BLOCK_SIZE ≤ front.length := by rw [h]; unfold BLOCK_SIZE; omega
    have hrest : (front.drop BLOCK_SIZE).length = BLOCK_SIZE * n := by
      rw [List.length_drop, h, Nat.mul_succ]
      omega
    rw [Nat.add_right_comm, blocks, blocks, List.take_append_of_le_length hlen,
      List.drop_append_of_le_length hlen, ih hrest, List.cons_append]

theorem processBlocks_eq (state : State) (data : Bytes) : ∃ n front remaining,
    data = front ++ remaining ∧ front.length = BLOCK_SIZE * n ∧ remaining.length < BLOCK_SIZE ∧
      Hasher.processBlocks state data = ((blocks n front).foldl compress state, remaining) := by
  fun_induction Hasher.processBlocks state data with
  | case1 state data hlen ih =>
    obtain ⟨n, front, remaining, hdata, hfront, hremaining, heq⟩ := ih
    have hblock : (data.take BLOCK_SIZE).length = BLOCK_SIZE * 1 := by simpa using hlen
    refine ⟨1 + n, data.take BLOCK_SIZE ++ front, remaining, ?_, ?_, hremaining, ?_⟩
    · rw [List.append_assoc, ← hdata, List.take_append_drop]
    · rw [List.length_append, hblock, hfront, Nat.mul_add]
    · rw [heq, blocks_append hblock, List.foldl_append, blocks, blocks, List.take_take,
        Nat.min_self, List.foldl_cons, List.foldl_nil]
  | case2 state data hlen => exact ⟨0, [], data, rfl, rfl, Nat.lt_of_not_le hlen, rfl⟩

/-! ## What the hasher knows -/

/-- The whole blocks of `msg` are in the state, the rest is in the buffer. -/
structure Holds (h : Hasher) (msg : Bytes) : Prop where
  length_buf : h.buf.length = BLOCK_SIZE
  bufLen_lt : h.bufLen < BLOCK_SIZE
  split : ∃ n whole, whole.length = BLOCK_SIZE * n ∧ msg = whole ++ h.buf.take h.bufLen ∧
    h.state = (blocks n whole).foldl compress H0

theorem length_copyInto {buf data : Bytes} {off : Nat} (h : off + data.length ≤ buf.length) :
    (Hasher.copyInto buf off data).length = buf.length := by
  simp only [Hasher.copyInto, List.length_append, List.length_take, List.length_drop]
  omega

theorem take_copyInto {buf : Bytes} {off : Nat} (h : off ≤ buf.length) (data : Bytes) :
    (Hasher.copyInto buf off data).take (off + data.length) = buf.take off ++ data := by
  rw [Hasher.copyInto, List.take_append_of_le_length] <;>
    simp [List.take_of_length_le, Nat.min_eq_left h]

theorem fillBuffer_of_pos {h : Hasher} {data : Bytes} {take : Nat} (hpos : 0 < h.bufLen)
    (htake : take = min data.length (BLOCK_SIZE - h.bufLen)) :
    h.fillBuffer data =
      if h.bufLen + take = BLOCK_SIZE then
        (⟨compress h.state (Hasher.copyInto h.buf h.bufLen (data.take take)),
          Hasher.copyInto h.buf h.bufLen (data.take take), 0, h.totalLen⟩, data.drop take)
      else
        (⟨h.state, Hasher.copyInto h.buf h.bufLen (data.take take), h.bufLen + take,
          h.totalLen⟩, data.drop take) := by
  subst htake
  exact if_pos hpos

/-- The buffer takes the front of the data, and it is empty unless it takes all. -/
theorem holds_fillBuffer {h : Hasher} {msg : Bytes} (hh : Holds h msg) (data : Bytes) :
    ∃ h' taken rest, h.fillBuffer data = (h', rest) ∧ data = taken ++ rest ∧
      Holds h' (msg ++ taken) ∧ (h'.bufLen = 0 ∨ rest = []) ∧ h'.totalLen = h.totalLen := by
  obtain ⟨n, whole, hwhole, hmsg, hstate⟩ := hh.split
  have hbuf := hh.length_buf
  have hlt := hh.bufLen_lt
  by_cases hempty : 0 < h.bufLen
  · obtain ⟨take, htake⟩ : ∃ take, take = min data.length (BLOCK_SIZE - h.bufLen) := ⟨_, rfl⟩
    have hlen : (data.take take).length = take := List.length_take_of_le (by omega)
    have hdata : data = data.take take ++ data.drop take := (List.take_append_drop _ _).symm
    have hnew := take_copyInto (hbuf ▸ hlt.le) (data.take take)
    have hsize : (Hasher.copyInto h.buf h.bufLen (data.take take)).length = h.buf.length :=
      length_copyInto (by omega)
    rw [fillBuffer_of_pos hempty htake]
    rw [hlen] at hnew
    generalize Hasher.copyInto h.buf h.bufLen (data.take take) = buf at hnew hsize
    by_cases hfull : h.bufLen + take = BLOCK_SIZE
    · rw [if_pos hfull]
      have hblock : buf = h.buf.take h.bufLen ++ data.take take := by
        rw [← hnew, hfull, List.take_of_length_le (hsize.trans hbuf).le]
      refine ⟨_, _, _, rfl, hdata, ⟨hsize.trans hbuf, ?_, n + 1, whole ++ buf, ?_, ?_, ?_⟩,
        .inl rfl, rfl⟩
      · show 0 < BLOCK_SIZE
        decide
      · rw [List.length_append, hsize, hwhole, hbuf, Nat.mul_succ]
      · rw [hmsg, hblock, List.append_assoc, List.take_zero, List.append_nil]
      · rw [blocks_append hwhole, List.foldl_append, ← hstate, blocks, blocks,
          List.take_of_length_le (hsize.trans hbuf).le, List.foldl_cons, List.foldl_nil]
    · rw [if_neg hfull]
      refine ⟨_, _, _, rfl, hdata, ⟨hsize.trans hbuf, ?_, n, whole, hwhole, ?_, hstate⟩, .inr ?_,
        rfl⟩
      · show h.bufLen + take < BLOCK_SIZE
        omega
      · rw [hmsg, hnew, List.append_assoc]
      · exact List.drop_of_length_le (by omega)
  · refine ⟨h, [], data, if_neg hempty, rfl, (List.append_nil msg).symm ▸ hh,
      .inl (Nat.eq_zero_of_not_pos hempty), rfl⟩

theorem totalLen_absorb (h : Hasher) (data : Bytes) : (h.absorb data).totalLen = h.totalLen := by
  simp only [Hasher.absorb, Hasher.bufferRemainder]
  split_ifs <;> rfl

theorem holds_absorb {h : Hasher} {msg data : Bytes} (hh : Holds h msg)
    (hready : h.bufLen = 0 ∨ data = []) : Holds (h.absorb data) (msg ++ data) := by
  obtain ⟨n, whole, hwhole, hmsg, hstate⟩ := hh.split
  obtain ⟨m, front, remaining, hdata, hfront, hlt, heq⟩ := processBlocks_eq h.state data
  have hstate' : (blocks m front).foldl compress h.state =
      (blocks (n + m) (whole ++ front)).foldl compress H0 := by
    rw [blocks_append hwhole, List.foldl_append, ← hstate]
  have hlength : (whole ++ front).length = BLOCK_SIZE * (n + m) := by
    rw [List.length_append, hwhole, hfront, Nat.mul_add]
  simp only [Hasher.absorb, heq, Hasher.bufferRemainder]
  by_cases hnone : remaining = []
  · rw [if_pos hnone]
    refine ⟨hh.length_buf, hh.bufLen_lt, n + m, whole ++ front, hlength, ?_, hstate'⟩
    rw [hnone, List.append_nil] at hdata
    rw [hmsg, hdata, List.append_assoc, List.append_assoc]
    obtain hzero | hnil := hready
    · simp [hzero]
    · rw [← hdata, hnil, List.append_nil, List.nil_append]
  · rw [if_neg hnone]
    have hzero : h.bufLen = 0 := by
      refine hready.resolve_right fun hnil => hnone ?_
      exact (List.append_eq_nil_iff.mp (hdata.symm.trans hnil)).2
    have hbuf := hh.length_buf
    have htake : (Hasher.copyInto h.buf 0 remaining).take remaining.length = remaining := by
      conv_lhs => rw [← Nat.zero_add remaining.length]
      exact take_copyInto (Nat.zero_le _) remaining
    refine ⟨(length_copyInto (by omega)).trans hbuf, hlt, n + m, whole ++ front, hlength, ?_,
      hstate'⟩
    show msg ++ data = whole ++ front ++ (Hasher.copyInto h.buf 0 remaining).take remaining.length
    rw [htake, hmsg, hdata, hzero, List.take_zero, List.append_nil, List.append_assoc]

/-- One update, for any data. -/
theorem holds_update {h : Hasher} {msg : Bytes} (hh : Holds h msg)
    (htotal : h.totalLen = msg.length) (data : Bytes) (hfits : msg.length + data.length < 2 ^ 64) :
    ∃ h', h.update data = some h' ∧ Holds h' (msg ++ data) ∧
      h'.totalLen = (msg ++ data).length := by
  have hchecked : checkedU 64 (h.totalLen + data.length) = some (h.totalLen + data.length) :=
    if_pos (htotal ▸ hfits)
  have hholds : Holds { h with totalLen := h.totalLen + data.length } msg :=
    ⟨hh.length_buf, hh.bufLen_lt, hh.split⟩
  obtain ⟨h', taken, rest, hfill, hdata, hfilled, hready, hlen⟩ := holds_fillBuffer hholds data
  refine ⟨h'.absorb rest, ?_, ?_, ?_⟩
  · rw [Hasher.update, hchecked, Option.bind_eq_bind, Option.bind_some, hfill]
  · have habsorbed := holds_absorb hfilled hready
    rwa [List.append_assoc, ← hdata] at habsorbed
  · rw [totalLen_absorb, hlen, List.length_append, ← htotal]

theorem holds_new : Holds .new [] :=
  ⟨List.length_replicate, by decide, 0, [], rfl, rfl, rfl⟩

/-- The updates of a whole message, wherever it is cut. -/
theorem holds_chunks (chunks : List Bytes) {h : Hasher} {msg : Bytes} (hh : Holds h msg)
    (htotal : h.totalLen = msg.length) (hfits : msg.length + chunks.flatten.length < 2 ^ 64) :
    ∃ h', chunks.foldlM Hasher.update h = some h' ∧ Holds h' (msg ++ chunks.flatten) ∧
      h'.totalLen = (msg ++ chunks.flatten).length := by
  induction chunks generalizing h msg with
  | nil => exact ⟨h, rfl, by simpa using hh, by simpa using htotal⟩
  | cons chunk chunks ih =>
    rw [List.flatten_cons, List.length_append] at hfits
    obtain ⟨h₁, hupdate, hholds, hlen⟩ := holds_update hh htotal chunk (by omega)
    obtain ⟨h', hrest, hholds', hlen'⟩ := ih hholds hlen (by rw [List.length_append]; omega)
    rw [List.append_assoc] at hholds' hlen'
    exact ⟨h', by rw [List.foldlM_cons, hupdate]; exact hrest, hholds', hlen'⟩

/-- The state after whole blocks. -/
theorem Holds.state_eq {h : Hasher} {msg : Bytes} (hh : Holds h msg)
    (hwhole : BLOCK_SIZE ∣ msg.length) :
    h.state = (blocks (msg.length / BLOCK_SIZE) msg).foldl compress H0 := by
  obtain ⟨n, whole, hlen, hmsg, hstate⟩ := hh.split
  have hlt := hh.bufLen_lt
  have hlength : msg.length = BLOCK_SIZE * n + h.bufLen := by
    rw [hmsg, List.length_append, hlen, List.length_take, hh.length_buf, Nat.min_eq_left hlt.le]
  unfold BLOCK_SIZE at *
  have hzero : h.bufLen = 0 := by omega
  have hcount : msg.length / 64 = n := by omega
  rw [hcount, hmsg, hzero, List.take_zero, List.append_nil, hstate]

/-- The message with its padding: a bit, zeros and its length in bits. -/
def padded (msg : Bytes) (zeros : Nat) : Bytes :=
  msg ++ (0x80 :: List.replicate zeros 0) ++ beBytes 8 (msg.length * 8)

/-- The padding of `finalize` has the least number of zeros. -/
theorem finalize_eq {h : Hasher} {msg : Bytes} (hh : Holds h msg)
    (htotal : h.totalLen = msg.length) (hshort : msg.length < 2 ^ 61) :
    ∃ zeros, IsLeast {z | BLOCK_SIZE ∣ msg.length + 1 + z + 8} zeros ∧
      h.finalize = some ((blocks ((padded msg zeros).length / BLOCK_SIZE)
        (padded msg zeros)).foldl compress H0).digest := by
  set padLen := if h.bufLen < 56 then 56 - h.bufLen else 120 - h.bufLen with hpadLen
  obtain ⟨n, whole, hwhole, hmsg, -⟩ := hh.split
  have hlt := hh.bufLen_lt
  have hlength : msg.length = BLOCK_SIZE * n + h.bufLen := by
    rw [hmsg, List.length_append, hwhole, List.length_take, hh.length_buf, Nat.min_eq_left hlt.le]
  have hpad : 1 ≤ padLen ∧ padLen ≤ 64 ∧ (h.bufLen + padLen) % 64 = 56 := by
    unfold BLOCK_SIZE at *
    rw [hpadLen]
    split_ifs <;> omega
  have htake : (0x80 :: List.replicate 63 0 : Bytes).take padLen =
      0x80 :: List.replicate (padLen - 1) 0 := by
    obtain ⟨k, hk⟩ := Nat.exists_eq_add_of_le' hpad.1
    rw [hk, List.take_succ_cons, List.take_replicate, Nat.min_eq_left (by omega),
      Nat.add_sub_cancel]
  have hbits : checkedU 64 (h.totalLen * 8) = some (msg.length * 8) := by
    rw [htotal]
    exact if_pos (by omega)
  obtain ⟨h₁, hupdate₁, hholds₁, htotal₁⟩ := holds_update hh htotal
    (0x80 :: List.replicate (padLen - 1) 0)
    (by rw [List.length_cons, List.length_replicate]; omega)
  obtain ⟨h₂, hupdate₂, hholds₂, -⟩ := holds_update hholds₁ htotal₁
    (beBytes 8 (msg.length * 8))
    (by simp only [List.length_append, List.length_cons, List.length_replicate, length_beBytes]
        omega)
  refine ⟨padLen - 1, ⟨?_, ?_⟩, ?_⟩
  · show BLOCK_SIZE ∣ msg.length + 1 + (padLen - 1) + 8
    unfold BLOCK_SIZE at *
    omega
  · intro z hz
    have hz : BLOCK_SIZE ∣ msg.length + 1 + z + 8 := hz
    unfold BLOCK_SIZE at *
    omega
  · have hdvd : BLOCK_SIZE ∣ (padded msg (padLen - 1)).length := by
      simp only [padded, List.length_append, List.length_cons, List.length_replicate,
        length_beBytes]
      unfold BLOCK_SIZE at *
      omega
    rw [← Holds.state_eq (show Holds h₂ (padded msg (padLen - 1)) from hholds₂) hdvd]
    simp only [Hasher.finalize, hbits, ← hpadLen, htake, hupdate₁, hupdate₂, Option.bind_eq_bind,
      Option.bind_some]

/-- The digest of a message, wherever it was cut into updates, is the fold of the
compression function over the blocks of the padded message. -/
theorem finalize_chunks_eq (chunks : List Bytes) (hshort : chunks.flatten.length < 2 ^ 61) :
    ∃ zeros, IsLeast {z | BLOCK_SIZE ∣ chunks.flatten.length + 1 + z + 8} zeros ∧
      (chunks.foldlM Hasher.update .new).bind Hasher.finalize =
        some ((blocks ((padded chunks.flatten zeros).length / BLOCK_SIZE)
          (padded chunks.flatten zeros)).foldl compress H0).digest := by
  obtain ⟨h, hchunks, hholds, htotal⟩ := holds_chunks chunks holds_new rfl
    (by rw [List.length_nil]; omega)
  rw [hchunks, Option.bind_some]
  exact finalize_eq hholds htotal hshort

/-- The message `abc` in three updates, the second one without data. -/
def abc : List Bytes := [[0x61], [], [0x62, 0x63]]

theorem finalize_abc : ∃ zeros, (abc.foldlM Hasher.update .new).bind Hasher.finalize =
    some ((blocks ((padded abc.flatten zeros).length / BLOCK_SIZE)
      (padded abc.flatten zeros)).foldl compress H0).digest := by
  obtain ⟨zeros, -, hdigest⟩ := finalize_chunks_eq abc (by decide)
  exact ⟨zeros, hdigest⟩

end RobotOs.Crypto.Sha256
