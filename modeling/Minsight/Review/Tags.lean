import Minsight.Review.Message

/-! # Tags in texts

Where the first tag of a text is found when the text is put together from parts.
-/

namespace Minsight

def tagHead : List Char := ['#', 'E', 'V', 'T', '-']

def firstCode (cs : List Char) : Option (List Char) := (cs.tails.findSome? tagAt?).map Prod.fst

def breaksTag (x : Char) : Bool := !tagHead.contains x && !isHexDigit x

section

variable {as bs cs : List Char} {x : Char}

theorem tagAt?_eq : (tagAt? cs).map Prod.fst =
    if cs.take 5 = tagHead ∧ ((cs.drop 5).take 8).length = 8 ∧ ((cs.drop 5).take 8).all isHexDigit
    then some ((cs.drop 5).take 8) else none := by
  by_cases hhead : cs.take 5 = tagHead
  · obtain ⟨rest, rfl⟩ : ∃ rest, cs = '#' :: 'E' :: 'V' :: 'T' :: '-' :: rest :=
      ⟨cs.drop 5, by rw [← List.take_append_drop 5 cs, hhead]; rfl⟩
    simp only [tagAt?, List.drop_succ_cons, List.drop_zero, hhead, true_and]
    by_cases h : (rest.take 8).length = 8 ∧ (rest.take 8).all isHexDigit = true
    · rw [if_pos h]
      simp [h.1, h.2]
    · rw [if_neg h, if_neg (by simpa using h)]
      rfl
  · have hnone : tagAt? cs = none := by
      unfold tagAt?
      split
      · exact absurd rfl hhead
      · rfl
    rw [hnone, if_neg fun h => hhead h.1]
    rfl

theorem tagAt?_append (hx : breaksTag x = true) (has : as ≠ []) :
    (tagAt? (as ++ x :: bs)).map Prod.fst = (tagAt? as).map Prod.fst := by
  obtain ⟨hhead, hhex⟩ : x ∉ tagHead ∧ isHexDigit x = false := by
    simpa [breaksTag] using hx
  have hpos : 0 < as.length := List.length_pos_iff.mpr has
  rw [tagAt?_eq, tagAt?_eq]
  by_cases hlong : 13 ≤ as.length
  · rw [List.take_append_of_le_length (by omega), List.drop_append_of_le_length (by omega),
      List.take_append_of_le_length (by rw [List.length_drop]; omega)]
  · rw [if_neg, if_neg]
    · rintro ⟨-, hlen, -⟩
      rw [List.length_take, List.length_drop] at hlen
      omega
    · rintro ⟨htake, hlen, hall⟩
      by_cases hshort : as.length < 5
      · refine hhead ?_
        rw [← htake]
        refine List.mem_of_getElem? (i := as.length) ?_
        rw [List.getElem?_take_of_lt hshort, List.getElem?_append_right le_rfl, Nat.sub_self]
        rfl
      · have hmem : x ∈ ((as ++ x :: bs).drop 5).take 8 := by
          refine List.mem_of_getElem? (i := as.length - 5) ?_
          rw [List.getElem?_take_of_lt (by omega), List.getElem?_drop,
            List.getElem?_append_right (by omega)]
          rw [show 5 + (as.length - 5) - as.length = 0 by omega]
          rfl
        rw [List.all_eq_true.mp hall x hmem] at hhex
        cases hhex

theorem firstCode_nil : firstCode [] = none := rfl

theorem firstCode_cons : firstCode (x :: cs) =
    ((tagAt? (x :: cs)).map Prod.fst).or (firstCode cs) := by
  unfold firstCode
  rw [show (x :: cs).tails = (x :: cs) :: cs.tails from rfl, List.findSome?_cons]
  cases tagAt? (x :: cs) <;> rfl

theorem firstCode_append (hx : breaksTag x = true) :
    firstCode (as ++ x :: bs) = (firstCode as).or (firstCode bs) := by
  induction as with
  | nil =>
    have hnone : tagAt? (x :: bs) = none := by
      unfold tagAt?
      split
      · rename_i hcons
        obtain rfl : x = '#' := (List.cons.inj hcons).1
        exact absurd hx (by decide)
      · rfl
    rw [List.nil_append, firstCode_cons, hnone, firstCode_nil]
    rfl
  | cons a as ih =>
    rw [firstCode_cons, List.cons_append, firstCode_cons, ← List.cons_append,
      tagAt?_append hx (List.cons_ne_nil a as), ih, Option.or_assoc]

theorem firstCode_short (h : cs.length < 13) : firstCode cs = none := by
  induction cs with
  | nil => rfl
  | cons c cs ih =>
    rw [firstCode_cons, ih (by rw [List.length_cons] at h; omega), tagAt?_eq, if_neg]
    · rfl
    · rintro ⟨-, hlen, -⟩
      rw [List.length_take, List.length_drop] at hlen
      omega

theorem firstCode_tag {code : List Char} (hlen : code.length = 8)
    (hhex : code.all isHexDigit = true) : firstCode (tagHead ++ code ++ cs) = some code := by
  have htag : (tagAt? (tagHead ++ code ++ cs)).map Prod.fst = some code := by
    rw [tagAt?_eq]
    have hcode : ((tagHead ++ code ++ cs).drop 5).take 8 = code := by
      rw [List.append_assoc]
      exact List.take_left' hlen
    rw [hcode, if_pos ⟨by rw [List.append_assoc]; exact List.take_left' rfl, hlen, hhex⟩]
  change firstCode ('#' :: ('E' :: 'V' :: 'T' :: '-' :: (code ++ cs))) = some code
  rw [firstCode_cons]
  rw [show '#' :: 'E' :: 'V' :: 'T' :: '-' :: (code ++ cs) = tagHead ++ code ++ cs by
    rw [List.append_assoc]; rfl, htag]
  rfl

end

end Minsight
