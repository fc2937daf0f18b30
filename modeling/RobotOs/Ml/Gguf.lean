import RobotOs.Lib.Untrusted
import RobotOs.Lib.Framing

/-!
# GGUF model files

`gguf.rs` of the ml crate.  The parser reads the header and the tensor entries
of a file that lies in memory, and skips the metadata between them.  `None` is a
rejection.  A fault is what resets the board: an index or a range outside of the
file, or a sum that does not fit in a `usize`.

`usize` has 64 bits, and a slice is shorter than `2 ^ 63`.
-/

namespace RobotOs.Ml

open RobotOs.Lib.Untrusted
open RobotOs.Lib.Framing (Bytes ofLE)

def MAX_TENSORS : Nat := 32
def MAX_KLEN : Nat := 64

/-- The bytes of a file. -/
structure Slice where
  bytes : Bytes
  size : bytes.length < 2 ^ 63

/-- `len`. -/
def Slice.len (d : Slice) : Nat := d.bytes.length

/-- `GgmlType`. -/
inductive GgmlType where
  | f32 | f16 | q4_0 | q4_1 | q8_0 | unknown
  deriving DecidableEq, Repr

namespace GgmlType

/-- `from_u32`. -/
def fromU32 : Nat → GgmlType
  | 0 => .f32
  | 1 => .f16
  | 2 => .q4_0
  | 3 => .q4_1
  | 8 => .q8_0
  | _ => .unknown

/-- `block_params`: the elements of a block, and its bytes. -/
def blockParams : GgmlType → Nat × Nat
  | .f32 => (1, 4)
  | .f16 => (1, 2)
  | .q4_0 => (32, 18)
  | .q4_1 => (32, 20)
  | .q8_0 => (32, 34)
  | .unknown => (1, 1)

/-- `saturating_add` and `saturating_mul` on a `usize`. -/
def saturate (n : Nat) : Nat := min n (2 ^ 64 - 1)

/-- `byte_size`. -/
def byteSize (t : GgmlType) (n : Nat) : Nat :=
  let (blk, bpb) := t.blockParams
  saturate (saturate (n + (blk - 1)) / blk * bpb)

end GgmlType

/-- `TensorInfo`.  `name` has the first `name_len` bytes. -/
structure TensorInfo where
  name : Bytes
  nDims : Nat
  dims : List Nat
  ggmlType : GgmlType
  offset : Nat

namespace TensorInfo

/-- `empty`. -/
def empty : TensorInfo := ⟨[], 0, [0, 0, 0, 0], .f32, 0⟩

/-- `n_elements`. -/
def nElements (t : TensorInfo) : Attempt Nat := do
  let (n, _) ← timesM t.nDims
    (fun (n, i) => do
      demand (i < t.dims.length)
      return (GgmlType.saturate (n * t.dims.getD i 0), i + 1))
    (1, 0)
  return n

end TensorInfo

/-- `GgufFile`. -/
structure GgufFile where
  data : Slice
  dataOffset : Nat
  tensors : List TensorInfo

/-- `u32_le(&data[pos..])`. -/
def u32Le (d : Slice) (pos : Nat) : Attempt Nat := do
  demand (pos + 4 ≤ d.len)
  return ofLE ((d.bytes.drop pos).take 4)

/-- `u64_le(&data[pos..])`. -/
def u64Le (d : Slice) (pos : Nat) : Attempt Nat := do
  demand (pos + 8 ≤ d.len)
  return ofLE ((d.bytes.drop pos).take 8)

def GGUF_TYPE_STRING : Nat := 8
def GGUF_TYPE_ARRAY : Nat := 9

/-- `kv_scalar_size`. -/
def kvScalarSize (typ : Nat) : Option Nat :=
  match typ with
  | 0 | 1 | 7 => some 1
  | 2 | 3 => some 2
  | 4 | 5 | 6 => some 4
  | 10 | 11 | 12 => some 8
  | _ => none

/-- `skip_string`. -/
def skipString (d : Slice) (pos : Nat) : Attempt Nat := do
  require ((← unchecked 64 (pos + 8)) ≤ d.len)
  let len ← u64Le d pos
  let stop ← checked 64 ((← checked 64 (pos + 8)) + len)
  require (stop ≤ d.len)
  return stop

/-- The array of `skip_kv`, after the tag.  The end of an array of scalars is an
unchecked sum. -/
def skipArray (d : Slice) (pos : Nat) : Attempt Nat := do
  require ((← unchecked 64 (pos + 12)) ≤ d.len)
  let elemType ← u32Le d pos
  let count ← u64Le d (← unchecked 64 (pos + 4))
  let pos ← unchecked 64 (pos + 12)
  if elemType = GGUF_TYPE_STRING then timesM count (skipString d) pos
  else do
    let esz ← expect (kvScalarSize elemType)
    let stop ← unchecked 64 (pos + (← checked 64 (count * esz)))
    require (stop ≤ d.len)
    return stop

/-- `skip_kv`. -/
def skipKv (d : Slice) (pos : Nat) : Attempt Nat := do
  let pos ← skipString d pos
  require ((← unchecked 64 (pos + 4)) ≤ d.len)
  let vtype ← u32Le d pos
  let pos ← unchecked 64 (pos + 4)
  if vtype = GGUF_TYPE_STRING then skipString d pos
  else if vtype = GGUF_TYPE_ARRAY then skipArray d pos
  else do
    let sz ← expect (kvScalarSize vtype)
    unchecked 64 (pos + sz)

/-- One dimension of `parse_tensor_info`. -/
def readDim (d : Slice) (pos : Nat) : List Nat × Nat → Attempt (List Nat × Nat)
  | (dims, i) => do
    demand (i < dims.length)
    let dim ← u64Le d (← unchecked 64 (pos + i * 8))
    return (dims.set i dim, i + 1)

/-- `parse_tensor_info`. -/
def parseTensorInfo (d : Slice) (pos : Nat) : Attempt (TensorInfo × Nat) := do
  require ((← unchecked 64 (pos + 8)) ≤ d.len)
  let nameLen ← u64Le d pos
  let pos ← unchecked 64 (pos + 8)
  require (nameLen ≤ MAX_KLEN)
  require ((← unchecked 64 (pos + nameLen)) ≤ d.len)
  demand (nameLen ≤ MAX_KLEN ∧ pos + nameLen ≤ d.len)
  let name := (d.bytes.drop pos).take nameLen
  let pos ← unchecked 64 (pos + nameLen)
  require ((← unchecked 64 (pos + 4)) ≤ d.len)
  let nDims ← u32Le d pos
  require (nDims ≤ TensorInfo.empty.dims.length)
  let pos ← unchecked 64 (pos + 4)
  require ((← unchecked 64 (pos + 8 * nDims)) ≤ d.len)
  let (dims, _) ← timesM (min nDims 4) (readDim d pos) (TensorInfo.empty.dims, 0)
  let pos ← unchecked 64 (pos + 8 * nDims)
  require ((← unchecked 64 (pos + 4)) ≤ d.len)
  let ggmlType ← u32Le d pos
  let pos ← unchecked 64 (pos + 4)
  require ((← unchecked 64 (pos + 8)) ≤ d.len)
  let offset ← u64Le d pos
  let pos ← unchecked 64 (pos + 8)
  return (⟨name, nDims, dims, .fromU32 ggmlType, offset⟩, pos)

/-- One tensor of `parse`. -/
def readTensor (d : Slice) : List TensorInfo × Nat → Attempt (List TensorInfo × Nat)
  | (tensors, pos) => do
    let (info, next) ← parseTensorInfo d pos
    demand (tensors.length < MAX_TENSORS)
    return (tensors ++ [info], next)

/-- `GgufFile::parse`. -/
def parse (d : Slice) : Attempt GgufFile := do
  require (24 ≤ d.len)
  require (d.bytes.take 4 = [0x47, 0x47, 0x55, 0x46])
  let version ← u32Le d 4
  let nTensors ← u64Le d 8
  let nKv ← u64Le d 16
  require (1 ≤ version ∧ version ≤ 3)
  require (nTensors ≤ MAX_TENSORS)
  let pos ← timesM nKv (skipKv d) 24
  let (tensors, pos) ← timesM nTensors (readTensor d) ([], pos)
  let align := if version ≥ 3 then 32 else 64
  let dataOffset ← unchecked 64 (((← unchecked 64 (pos + align)) - 1) / align * align)
  return ⟨d, dataOffset, tensors⟩

/-- `tensor_data`: the bytes, the type and the number of elements. -/
def GgufFile.tensorData (f : GgufFile) (name : Bytes) : Attempt (Bytes × GgmlType × Nat) := do
  let t ← expect (f.tensors.find? fun t => t.name = name)
  let n ← t.nElements
  let bytes := t.ggmlType.byteSize n
  let start ← checked 64 (f.dataOffset + t.offset)
  let stop ← checked 64 (start + bytes)
  require (stop ≤ f.data.len)
  demand (start ≤ stop ∧ stop ≤ f.data.len)
  return ((f.data.bytes.drop start).take (stop - start), t.ggmlType, n)

end RobotOs.Ml
