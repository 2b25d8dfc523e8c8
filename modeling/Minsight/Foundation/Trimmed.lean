import Mathlib.Data.List.Infix
import Mathlib.Data.List.TakeWhile
import Minsight.Foundation.Text

/-! # Texts without white space around them

Stripping makes such a text, and changes no other.
-/

namespace Minsight

def Trimmed (cs : List Char) : Prop :=
  (∀ c ∈ cs.head?, isSpace c = false) ∧ ∀ c ∈ cs.getLast?, isSpace c = false

theorem dropWhile_isSpace {cs : List Char} (h : ∀ c ∈ cs.head?, isSpace c = false) :
    cs.dropWhile isSpace = cs := by
  cases cs with
  | nil => rfl
  | cons c cs => simp [h c rfl]

theorem stripChars_of_trimmed {cs : List Char} (h : Trimmed cs) : stripChars cs = cs := by
  have hlast : ∀ c ∈ cs.reverse.head?, isSpace c = false := by
    rw [List.head?_reverse]
    exact h.2
  rw [stripChars, dropWhile_isSpace h.1, dropWhile_isSpace hlast, List.reverse_reverse]

theorem head?_dropWhile_isSpace (cs : List Char) :
    ∀ c ∈ (cs.dropWhile isSpace).head?, isSpace c = false := by
  intro c hc
  have hhead := List.head?_dropWhile_not isSpace cs
  rw [Option.mem_def.mp hc] at hhead
  simpa using hhead

theorem trimmed_stripChars (cs : List Char) : Trimmed (stripChars cs) := by
  constructor
  · -- what is dropped at the end leaves the first character, unless nothing is left
    intro c hc
    have hprefix : stripChars cs <+: cs.dropWhile isSpace := by
      rw [stripChars, ← List.reverse_suffix, List.reverse_reverse]
      exact List.dropWhile_suffix isSpace
    obtain ⟨rest, hrest⟩ := hprefix
    refine head?_dropWhile_isSpace cs c ?_
    rw [← hrest, List.head?_append, Option.mem_def.mp hc]
    rfl
  · rw [stripChars, List.getLast?_reverse]
    exact head?_dropWhile_isSpace _

theorem Trimmed.of_tail {start front tail : List Char} {d : Char} (h : Trimmed (start ++ d :: tail))
    (hd : isSpace d = false) (hfront : ∀ c ∈ front, isSpace c = false) :
    Trimmed (front ++ d :: tail) := by
  have hlast (start : List Char) :
      (start ++ d :: tail).getLast? = some (tail.getLast?.getD d) := by
    rw [List.getLast?_append, List.getLast?_cons, Option.some_or]
  constructor
  · intro c hc
    rw [List.head?_append] at hc
    rcases Option.or_eq_some_iff.mp hc with hc | ⟨-, hc⟩
    · exact hfront c (List.mem_of_mem_head? hc)
    · exact Option.some.inj hc ▸ hd
  · have hend := h.2
    rw [hlast] at hend ⊢
    exact hend

theorem exists_append_stripChars (cs : List Char) : ∃ front back,
    cs = front ++ (stripChars cs ++ back) ∧ (∀ c ∈ front, isSpace c = true) ∧
      ∀ c ∈ back, isSpace c = true := by
  refine ⟨cs.takeWhile isSpace, ((cs.dropWhile isSpace).reverse.takeWhile isSpace).reverse,
    ?_, ?_, ?_⟩
  · rw [stripChars, ← List.reverse_append, List.takeWhile_append_dropWhile, List.reverse_reverse,
      List.takeWhile_append_dropWhile]
  · exact fun c hc => List.mem_takeWhile_imp hc
  · exact fun c hc => List.mem_takeWhile_imp (List.mem_reverse.mp hc)

theorem strip_strip (s : String) : strip (strip s) = strip s := by
  rw [strip, strip, String.toList_ofList, stripChars_of_trimmed (trimmed_stripChars _)]

theorem trimmed_of_forall {cs : List Char} (h : ∀ c ∈ cs, isSpace c = false) : Trimmed cs :=
  ⟨fun c hc => h c (List.mem_of_mem_head? hc), fun c hc => h c (List.mem_of_mem_getLast? hc)⟩

end Minsight
