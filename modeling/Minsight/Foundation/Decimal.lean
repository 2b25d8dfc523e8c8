import Mathlib.Data.Int.ConditionallyCompleteOrder
import Mathlib.Data.Rat.Floor
import Mathlib.Tactic.Linarith
import Minsight.Foundation.Text

/-! # Rounded numbers in texts -/

namespace Minsight

def roundEven (q : ℚ) : ℤ :=
  let low := ⌊q⌋
  let rest := q - low
  if rest < 1 / 2 then low
  else if 1 / 2 < rest then low + 1
  else if low % 2 = 0 then low else low + 1

theorem floor_le_roundEven (q : ℚ) : ⌊q⌋ ≤ roundEven q := by
  unfold roundEven
  dsimp only
  split_ifs <;> omega

theorem roundEven_le_floor (q : ℚ) : roundEven q ≤ ⌊q⌋ + 1 := by
  unfold roundEven
  dsimp only
  split_ifs <;> omega

theorem roundEven_mono : Monotone roundEven := by
  intro q q' h
  rcases lt_or_eq_of_le (Int.floor_mono h) with hlt | heq
  · calc roundEven q ≤ ⌊q⌋ + 1 := roundEven_le_floor q
      _ ≤ ⌊q'⌋ := hlt
      _ ≤ roundEven q' := floor_le_roundEven q'
  · have hrest : q - ⌊q⌋ ≤ q' - ⌊q'⌋ := by rw [heq]; exact sub_le_sub_right h _
    -- in one unit interval only the side of the half counts
    simp only [roundEven]
    rw [heq] at hrest ⊢
    split_ifs <;> first | omega | linarith

/-- `f"{q:.0f}"` -/
def fixed0 (q : ℚ) : String :=
  (if q < 0 then "-" else "") ++ toString (roundEven q).natAbs

/-- `f"{q:.2f}"` -/
def fixed2 (q : ℚ) : String :=
  let n := roundEven (q * 100)
  (if q < 0 then "-" else "") ++ toString (n.natAbs / 100) ++ "." ++ padded 2 (n.natAbs % 100)

end Minsight
