import Mathlib.Data.List.Basic
import Minsight.Foundation.Codec

/-! # Lines of texts

A file that is open as text has fewer line ends than `str.splitlines` knows.
-/

namespace Minsight

/-- The lines of a text, without their ends. What follows the last end is a line unless empty. -/
def linesBy (isEnd : Char → Bool) (cs : List Char) : List (List Char) :=
  let pieces := cs.splitOnP isEnd
  if pieces.getLast? = some [] then pieces.dropLast else pieces

def fileLines (cs : List Char) : List (List Char) :=
  linesBy (· == '\n') (universalNewlines cs)

/-- The line ends that `str.splitlines` knows, besides carriage returns. -/
def isLineEnd (c : Char) : Bool :=
  let n := c.toNat
  (10 ≤ n && n ≤ 12) || (28 ≤ n && n ≤ 30) || n == 0x85 || n == 0x2028 || n == 0x2029

/-- `text.splitlines()` -/
def splitlines (cs : List Char) : List (List Char) :=
  linesBy isLineEnd (universalNewlines cs)

def ended (e : Char) (ls : List (List Char)) : List Char := ls.flatMap (· ++ [e])

section

variable {isEnd : Char → Bool} {e : Char}

theorem splitOnP_ended (he : isEnd e = true) (ls : List (List Char)) :
    (ended e ls).splitOnP isEnd = ls.flatMap (List.splitOnP isEnd) ++ [[]] := by
  induction ls with
  | nil => rfl
  | cons l ls ih =>
    have heq : ended e (l :: ls) = l ++ e :: ended e ls := by
      rw [ended, List.flatMap_cons, List.append_assoc, List.singleton_append, ← ended]
    rw [heq, List.splitOnP_append_cons _ _ he, ih, List.flatMap_cons, List.append_assoc]

/-- Lines that are ended are cut at the ends that they have themselves, and there only. -/
theorem linesBy_ended (he : isEnd e = true) (ls : List (List Char)) :
    linesBy isEnd (ended e ls) = ls.flatMap (List.splitOnP isEnd) := by
  rw [linesBy, splitOnP_ended he]
  simp only [List.getLast?_append, List.getLast?_singleton, Option.some_or, if_true,
    List.dropLast_concat]

theorem linesBy_ended_of_forall (he : isEnd e = true) {ls : List (List Char)}
    (hls : ∀ l ∈ ls, ∀ c ∈ l, isEnd c = false) : linesBy isEnd (ended e ls) = ls := by
  rw [linesBy_ended he]
  induction ls with
  | nil => rfl
  | cons l ls ih =>
    rw [List.flatMap_cons, List.splitOnP_eq_singleton (hls l List.mem_cons_self),
      ih fun l' hl' => hls l' (List.mem_cons_of_mem _ hl'), List.singleton_append]

theorem intercalate_ended (ls : List (List Char)) :
    [e].intercalate ls ++ (if ls.isEmpty then [] else [e]) = ended e ls := by
  induction ls with
  | nil => rfl
  | cons l ls ih =>
    cases ls with
    | nil => simp [ended, List.intercalate]
    | cons l' ls =>
      have hjoin : [e].intercalate (l :: l' :: ls) = l ++ e :: [e].intercalate (l' :: ls) := by
        simp [List.intercalate]
      rw [hjoin, List.append_assoc, List.cons_append]
      have hrest : ended e (l :: l' :: ls) = l ++ e :: ended e (l' :: ls) := by
        simp [ended]
      rw [hrest, ← ih]
      rfl

theorem universalNewlines_of_notMem {cs : List Char} (h : '\r' ∉ cs) :
    universalNewlines cs = cs := by
  induction cs with
  | nil => rfl
  | cons c cs ih =>
    have hc : c ≠ '\r' := fun hc => h (hc ▸ List.mem_cons_self)
    rw [universalNewlines_cons hc, ih fun hmem => h (List.mem_cons_of_mem _ hmem)]

end

end Minsight
