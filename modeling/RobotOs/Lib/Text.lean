import RobotOs.Lib.Framing
import Mathlib.Data.List.TakeWhile

/-!
# Text of keys and values

The bytes that a text of `key=value` lines is cut at.  A key goes up to `=` and a
value up to the end of its line; `takeWhile_append_stop` cuts one of them off.
-/

namespace RobotOs.Lib.Text

open RobotOs.Lib.Framing

/-- The bytes of a literal. -/
def ascii (s : String) : Bytes := s.toList.map fun c => UInt8.ofNat c.toNat

def NEWLINE : UInt8 := 0x0a
def CARRIAGE_RETURN : UInt8 := 0x0d
def EQUALS : UInt8 := 0x3d
def HASH : UInt8 := 0x23

/-- Blanks and line ends. -/
def isBlank (b : UInt8) : Bool := b == 0x20 || b == 0x09
def isSpace (b : UInt8) : Bool := b == NEWLINE || b == CARRIAGE_RETURN || isBlank b

/-- The bytes of a key and of a value: a key ends at `=` or at a line end. -/
def isKeyByte (b : UInt8) : Bool := b != EQUALS && b != NEWLINE
def isValByte (b : UInt8) : Bool := b != NEWLINE && b != CARRIAGE_RETURN

theorem takeWhile_append_stop {α : Type} {p : α → Bool} {xs : List α} {stop : α}
    (hxs : ∀ b ∈ xs, p b = true) (hstop : p stop = false) (rest : List α) :
    (xs ++ stop :: rest).takeWhile p = xs ∧ (xs ++ stop :: rest).dropWhile p = stop :: rest := by
  constructor
  · rw [List.takeWhile_append_of_pos hxs, List.takeWhile_cons_of_neg (by simp [hstop]),
      List.append_nil]
  · rw [List.dropWhile_append_of_pos hxs, List.dropWhile_cons_of_neg (by simp [hstop])]

end RobotOs.Lib.Text
