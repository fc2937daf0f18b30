import Mathlib.Data.Nat.Bitwise
import Mathlib.Tactic

/-!
# The wire format of a capability handle

`crates/abi/src/cap.rs`.  A capability crosses the system call boundary as
a `u32`: four bits of kind, four bits of permissions, eight bits of
generation and sixteen bits of slot index.

`CapPerms` carries the fact that only the low four bits are in use.  The
source keeps its field private and every constructor masks, so no value
outside that range exists there either.

The results are the round trip of `pack` with the four field readers, and
that `CapPerms.contains` is reflexive and transitive.
-/

namespace RobotOs.Abi

/-! ## Kinds -/

/-- `CapKind`: the four-bit tag of the resource a handle names. -/
inductive CapKind where
  | null | channel | shm | port | irq | mmioRegion | ioRing | sensor
  | gpio | i2c | pwm | motor | file | socket | task | aiSession
  deriving DecidableEq, Repr

namespace CapKind

/-- `kind as u8`. -/
def toRaw : CapKind → UInt8
  | null => 0
  | channel => 1
  | shm => 2
  | port => 3
  | irq => 4
  | mmioRegion => 5
  | ioRing => 6
  | sensor => 7
  | gpio => 8
  | i2c => 9
  | pwm => 10
  | motor => 11
  | file => 12
  | socket => 13
  | task => 14
  | aiSession => 15

/-- The tag fits in four bits. -/
theorem toRaw_lt (kind : CapKind) : kind.toRaw.toNat < 16 := by
  cases kind <;> decide

/-- Two kinds with one tag are the same kind. -/
theorem toRaw_injective : Function.Injective toRaw := by
  intro a b h
  cases a <;> cases b <;> first | rfl | exact absurd h (by decide)

end CapKind

/-! ## Permissions -/

/-- `CapPerms`: the permission bits.  Only the low four bits are in use. -/
structure CapPerms where
  bits : UInt8
  valid : bits &&& 0b1111 = bits
  deriving DecidableEq

namespace CapPerms

def READ : CapPerms := ⟨0b0001, by decide⟩
def WRITE : CapPerms := ⟨0b0010, by decide⟩
def EXEC : CapPerms := ⟨0b0100, by decide⟩
def DUP : CapPerms := ⟨0b1000, by decide⟩
def NONE : CapPerms := ⟨0, by decide⟩
def RW : CapPerms := ⟨0b0011, by decide⟩
def RW_DUP : CapPerms := ⟨0b1011, by decide⟩

/-- `from_bits_truncate`: mask the raw bits to the valid range. -/
def fromBitsTruncate (raw : UInt8) : CapPerms :=
  ⟨raw &&& 0b1111, by rw [UInt8.and_assoc]; rfl⟩

/-- `contains`: every bit of `other` is a bit of `self`. -/
def contains (self other : CapPerms) : Bool :=
  self.bits &&& other.bits == other.bits

theorem contains_iff {a b : CapPerms} :
    a.contains b = true ↔ a.bits &&& b.bits = b.bits := by
  simp [contains]

@[simp] theorem contains_refl (a : CapPerms) : a.contains a = true := by
  simp [contains]

/-- Containment composes, so an attenuation of an attenuation is one. -/
theorem contains_trans {a b c : CapPerms}
    (hab : a.contains b = true) (hbc : b.contains c = true) :
    a.contains c = true := by
  rw [contains_iff] at hab hbc ⊢
  calc a.bits &&& c.bits
      = a.bits &&& (b.bits &&& c.bits) := by rw [hbc]
    _ = (a.bits &&& b.bits) &&& c.bits := by rw [UInt8.and_assoc]
    _ = b.bits &&& c.bits := by rw [hab]
    _ = c.bits := hbc

/-- The bits of a permission set fit in four bits. -/
theorem bits_lt (perms : CapPerms) : perms.bits.toNat < 16 := by
  have h := congrArg UInt8.toNat perms.valid
  rw [UInt8.toNat_and, show (0b1111 : UInt8).toNat = 2 ^ 4 - 1 from rfl,
    Nat.and_two_pow_sub_one_eq_mod] at h
  omega

end CapPerms

/-! ## Handles -/

/-- `CapHandle`: the 32-bit wire form. -/
structure CapHandle where
  raw : UInt32
  deriving DecidableEq, Repr

/-- `CAP_NULL`. -/
def CAP_NULL : CapHandle := ⟨0⟩

namespace CapHandle

/-- `is_null`. -/
def isNull (h : CapHandle) : Bool := h.raw == 0

/-- `pack`: kind, permissions, generation and slot in one word. -/
def pack (kind : CapKind) (perms : CapPerms) (generation : UInt8)
    (slot : UInt16) : CapHandle :=
  ⟨(kind.toRaw.toUInt32 &&& 0xF) <<< 28 ||| (perms.bits.toUInt32 &&& 0xF) <<< 24 |||
    (generation.toUInt32 &&& 0xFF) <<< 16 ||| (slot.toUInt32 &&& 0xFFFF)⟩

/-- `kind`: the tag in bits 31..28. -/
def kind (h : CapHandle) : UInt8 := ((h.raw >>> 28) &&& 0xF).toUInt8

/-- `perms`: the permissions in bits 27..24. -/
def perms (h : CapHandle) : CapPerms :=
  CapPerms.fromBitsTruncate ((h.raw >>> 24) &&& 0xF).toUInt8

/-- `generation`: the counter in bits 23..16. -/
def generation (h : CapHandle) : UInt8 := ((h.raw >>> 16) &&& 0xFF).toUInt8

/-- `slot`: the index in bits 15..0. -/
def slot (h : CapHandle) : UInt16 := (h.raw &&& 0xFFFF).toUInt16

/-! ## The round trip

`pack` builds the word by disjoint shifts.  `toNat_pack` is its value as a
sum, and each field reader is then one division and one remainder. -/

/-- Masking with the low `w` bits changes nothing below `2 ^ w`. -/
private theorem and_mask_of_lt {x : Nat} (w : Nat) (hx : x < 2 ^ w) :
    x &&& (2 ^ w - 1) = x := by
  rw [Nat.and_two_pow_sub_one_eq_mod, Nat.mod_eq_of_lt hx]

/-- A shifted field above a field that fits below it is their sum. -/
private theorem shiftLeft_or_of_lt {x y i : Nat} (hy : y < 2 ^ i) :
    x <<< i ||| y = x * 2 ^ i + y := by
  rw [← Nat.shiftLeft_add_eq_or_of_lt hy, Nat.shiftLeft_eq]

/-- The word that `pack` builds, as a sum. -/
theorem toNat_pack (kind : CapKind) (perms : CapPerms) (generation : UInt8)
    (slot : UInt16) :
    (pack kind perms generation slot).raw.toNat =
      kind.toRaw.toNat * 2 ^ 28 + (perms.bits.toNat * 2 ^ 24 +
        (generation.toNat * 2 ^ 16 + slot.toNat)) := by
  have hk : kind.toRaw.toNat < 2 ^ 4 := kind.toRaw_lt
  have hp : perms.bits.toNat < 2 ^ 4 := perms.bits_lt
  have hg : generation.toNat < 2 ^ 8 := generation.toNat_lt
  have hs : slot.toNat < 2 ^ 16 := slot.toNat_lt
  have fits : ∀ {x w i : Nat}, x < 2 ^ w → w + i ≤ 32 →
      x <<< i % 2 ^ 32 = x <<< i := by
    intro x w i hx hi
    rw [Nat.mod_eq_of_lt]
    calc x <<< i = x * 2 ^ i := Nat.shiftLeft_eq x i
      _ < 2 ^ w * 2 ^ i := Nat.mul_lt_mul_of_pos_right hx (by positivity)
      _ = 2 ^ (w + i) := (Nat.pow_add 2 w i).symm
      _ ≤ 2 ^ 32 := Nat.pow_le_pow_right (by decide) hi
  have hfields : (pack kind perms generation slot).raw.toNat =
      kind.toRaw.toNat <<< 28 ||| (perms.bits.toNat <<< 24 |||
        (generation.toNat <<< 16 ||| slot.toNat)) := by
    simp only [pack, UInt32.toNat_or, UInt32.toNat_shiftLeft, UInt32.toNat_and,
      UInt8.toNat_toUInt32, UInt16.toNat_toUInt32, Nat.or_assoc]
    rw [show (15 : UInt32).toNat = 2 ^ 4 - 1 from rfl,
      show (255 : UInt32).toNat = 2 ^ 8 - 1 from rfl,
      show (65535 : UInt32).toNat = 2 ^ 16 - 1 from rfl,
      and_mask_of_lt 4 hk, and_mask_of_lt 4 hp, and_mask_of_lt 8 hg, and_mask_of_lt 16 hs,
      show (28 : UInt32).toNat % 32 = 28 from rfl,
      show (24 : UInt32).toNat % 32 = 24 from rfl,
      show (16 : UInt32).toNat % 32 = 16 from rfl,
      fits hk (by decide), fits hp (by decide), fits hg (by decide)]
  -- From the inside out: each field fits below the shift of the next one.
  rw [hfields, shiftLeft_or_of_lt hs, shiftLeft_or_of_lt (i := 24) (by omega),
    shiftLeft_or_of_lt (i := 28) (by omega)]

/-- Reading a field of a word: a shift and a mask are a division and a
remainder. -/
private theorem toNat_field (w : UInt32) (i k : UInt32) (b : Nat)
    (hi : i.toNat < 32) (hk : k.toNat = 2 ^ b - 1) :
    ((w >>> i) &&& k).toNat = w.toNat / 2 ^ i.toNat % 2 ^ b := by
  rw [UInt32.toNat_and, UInt32.toNat_shiftRight, hk, Nat.and_two_pow_sub_one_eq_mod,
    Nat.shiftRight_eq_div_pow, Nat.mod_eq_of_lt hi]

@[simp] theorem kind_pack (k : CapKind) (p : CapPerms) (g : UInt8) (s : UInt16) :
    (pack k p g s).kind = k.toRaw := by
  have hk := k.toRaw_lt
  have hp := p.bits_lt
  have hg : g.toNat < 2 ^ 8 := g.toNat_lt
  have hs : s.toNat < 2 ^ 16 := s.toNat_lt
  apply UInt8.toNat_inj.mp
  rw [kind, UInt32.toNat_toUInt8, toNat_field _ 28 0xF 4 (by decide) rfl, toNat_pack,
    show (28 : UInt32).toNat = 28 from rfl]
  omega

@[simp] theorem generation_pack (k : CapKind) (p : CapPerms) (g : UInt8) (s : UInt16) :
    (pack k p g s).generation = g := by
  have hg : g.toNat < 2 ^ 8 := g.toNat_lt
  have hs : s.toNat < 2 ^ 16 := s.toNat_lt
  apply UInt8.toNat_inj.mp
  rw [generation, UInt32.toNat_toUInt8, toNat_field _ 16 0xFF 8 (by decide) rfl, toNat_pack,
    show (16 : UInt32).toNat = 16 from rfl]
  omega

@[simp] theorem slot_pack (k : CapKind) (p : CapPerms) (g : UInt8) (s : UInt16) :
    (pack k p g s).slot = s := by
  have hs : s.toNat < 2 ^ 16 := s.toNat_lt
  apply UInt16.toNat_inj.mp
  rw [slot, UInt32.toNat_toUInt16, UInt32.toNat_and,
    show (0xFFFF : UInt32).toNat = 2 ^ 16 - 1 from rfl,
    Nat.and_two_pow_sub_one_eq_mod, toNat_pack]
  omega

/-- A packed handle of a real kind is not the null handle. -/
theorem isNull_pack {k : CapKind} (hk : k ≠ .null) (p : CapPerms) (g : UInt8)
    (s : UInt16) : (pack k p g s).isNull = false := by
  have hne : (pack k p g s).raw ≠ 0 := by
    intro h
    have hkind := kind_pack k p g s
    rw [kind, h] at hkind
    exact hk (CapKind.toRaw_injective hkind.symm)
  simpa [isNull] using hne

end CapHandle

end RobotOs.Abi
