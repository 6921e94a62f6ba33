import Mathlib.Data.List.DropRight

/-!
# Python strings

The character classes of Python's `str` (those of Unicode, as Python 3.11 has
them) and the operations the program uses, on lists of characters.
-/

namespace Yuviz.Python

/-- `str.isspace` of one character, which is also the `\s` of a regular expression. -/
def isspace (c : Char) : Bool :=
  c.toNat ∈ [0x9, 0xa, 0xb, 0xc, 0xd, 0x1c, 0x1d, 0x1e, 0x1f, 0x20, 0x85, 0xa0, 0x1680, 0x2000,
    0x2001, 0x2002, 0x2003, 0x2004, 0x2005, 0x2006, 0x2007, 0x2008, 0x2009, 0x200a, 0x2028, 0x2029,
    0x202f, 0x205f, 0x3000]

/-- The zeros of the decimal digits, each followed by the other nine. -/
def decimalZeros : List ℕ :=
  [0x30, 0x660, 0x6f0, 0x7c0, 0x966, 0x9e6, 0xa66, 0xae6, 0xb66, 0xbe6, 0xc66, 0xce6, 0xd66, 0xde6,
    0xe50, 0xed0, 0xf20, 0x1040, 0x1090, 0x17e0, 0x1810, 0x1946, 0x19d0, 0x1a80, 0x1a90, 0x1b50,
    0x1bb0, 0x1c40, 0x1c50, 0xa620, 0xa8d0, 0xa900, 0xa9d0, 0xa9f0, 0xaa50, 0xabf0, 0xff10, 0x104a0,
    0x10d30, 0x11066, 0x110f0, 0x11136, 0x111d0, 0x112f0, 0x11450, 0x114d0, 0x11650, 0x116c0,
    0x11730, 0x118e0, 0x11950, 0x11c50, 0x11d50, 0x11da0, 0x16a60, 0x16ac0, 0x16b50, 0x1d7ce,
    0x1d7d8, 0x1d7e2, 0x1d7ec, 0x1d7f6, 0x1e140, 0x1e2f0, 0x1e950, 0x1fbf0]

/-- `str.isdecimal` of one character, which is also the `\d` of a regular expression. -/
def isdecimal (c : Char) : Bool :=
  decimalZeros.any fun z => z ≤ c.toNat ∧ c.toNat < z + 10

/-- `str.strip`. -/
def strip (s : List Char) : List Char := (s.dropWhile isspace).rdropWhile isspace

theorem strip_strip (s : List Char) : strip (strip s) = strip s := by
  have hdrop : (strip s).dropWhile isspace = strip s := by
    rw [List.dropWhile_eq_self_iff]
    intro hpos
    have hpre : strip s <+: s.dropWhile isspace := List.rdropWhile_prefix _ _
    have hne : s.dropWhile isspace ≠ [] := hpre.ne_nil (List.ne_nil_of_length_pos hpos)
    rw [hpre.getElem hpos]
    exact Bool.eq_false_iff.1 (List.head_eq_getElem hne ▸ List.head_dropWhile_not isspace hne)
  rw [strip, hdrop]
  exact List.rdropWhile_idempotent _ _
/-- `str.strip` of a string. -/
def stripStr (s : String) : String := String.ofList (strip s.toList)

theorem stripStr_stripStr (s : String) : stripStr (stripStr s) = stripStr s := by
  rw [stripStr, stripStr, String.toList_ofList, strip_strip]

/-- `str.split` without a separator: the words. -/
def words (s : List Char) : List (List Char) := (s.splitOnP isspace).filter (· ≠ [])

/-- Python's `x or y` on an optional string: the empty string counts as absent. -/
def orElse (x : Option String) (y : String) : String :=
  match x with
  | some s => if s = "" then y else s
  | none => y

@[simp] theorem orElse_none (y : String) : orElse none y = y := rfl

end Yuviz.Python
