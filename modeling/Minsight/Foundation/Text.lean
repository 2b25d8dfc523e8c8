import Mathlib.Data.Int.Notation
import Mathlib.Data.List.Basic

/-! # Texts as lists of characters

Slicing and stripping as a scripting language does them, on characters.
-/

namespace Minsight

/-- White space as `str.isspace` sees it. -/
def isSpace (c : Char) : Bool :=
  let n := c.toNat
  (9 ≤ n && n ≤ 13) || (28 ≤ n && n ≤ 32) || n == 0x85 || n == 0xA0 || n == 0x1680
    || (0x2000 ≤ n && n ≤ 0x200A) || n == 0x2028 || n == 0x2029 || n == 0x202F || n == 0x205F
    || n == 0x3000

/-- `text.strip()` on characters. -/
def stripChars (cs : List Char) : List Char :=
  ((cs.dropWhile isSpace).reverse.dropWhile isSpace).reverse

def strip (s : String) : String := String.ofList (stripChars s.toList)

/-- `text[:n]` -/
def takeText (n : ℕ) (s : String) : String := String.ofList (s.toList.take n)

/-- `text[:n]`, where a negative `n` counts from the end. -/
def sliceText (n : ℤ) (s : String) : String :=
  if 0 ≤ n then takeText n.toNat s
  else takeText (s.length - n.natAbs) s

/-- `items[:n]`, where a negative `n` counts from the end. -/
def sliceList {α : Type} (limit : ℤ) (l : List α) : List α :=
  if 0 ≤ limit then l.take limit.toNat else l.take (l.length - limit.natAbs)

/-- `sep.join(parts)` -/
def joinText (sep : String) : List String → String
  | [] => ""
  | [s] => s
  | s :: rest => s ++ sep ++ joinText sep rest

/-- `part in text` -/
def occursIn (part text : String) : Bool :=
  text.toList.tails.any part.toList.isPrefixOf

def padded (width : ℕ) (n : ℤ) : String :=
  let digits := toString n.toNat
  String.ofList (List.replicate (width - digits.length) '0') ++ digits

end Minsight
