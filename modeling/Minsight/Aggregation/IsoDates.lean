import Mathlib.Data.List.Count
import Minsight.Aggregation.Key
import Minsight.Foundation.IsoTime
import Minsight.Foundation.Joined

/-! # Days as texts

`isoformat` writes different days of the years 1 to 9999 differently, and without bars.
-/

namespace Minsight

section

variable {width : ℕ} {n m : ℤ} {c : Char}

theorem toList_padded (width : ℕ) (n : ℤ) : (padded width n).toList =
    List.replicate (width - (toString n.toNat).length) '0' ++ Nat.toDigits 10 n.toNat := by
  simp [padded]

theorem padded_inj (hn : 0 ≤ n) (hm : 0 ≤ m) : padded width n = padded width m ↔ n = m := by
  constructor
  · intro h
    have hvalue := congrArg (fun s => Nat.ofDigitChars 10 s.toList 0) h
    simp only [toList_padded, Nat.ofDigitChars_append, Nat.ofDigitChars_replicate_zero, mul_zero,
      Nat.ofDigitChars_ten_toDigits] at hvalue
    omega
  · rintro rfl
    rfl

theorem separators_padded (hc : c.isDigit = false) : separators c (padded width n) = 0 := by
  rw [separators, toList_padded, List.count_eq_zero]
  intro hmem
  rcases List.mem_append.mp hmem with hzero | hdigit
  · rw [List.eq_of_mem_replicate hzero] at hc
    exact absurd hc (by decide)
  · rw [Nat.isDigit_of_mem_toDigits (by decide) (by decide) hdigit] at hc
    exact absurd hc (by decide)

end

/-- The year of a day of the 400-year cycle, counting from March, and the day in that year. -/
theorem yearOfEra_bounds {doe yoe : ℤ} (hlow : 0 ≤ doe) (hhigh : doe < 146097)
    (hyoe : yoe = (doe - doe / 1460 + doe / 36524 - doe / 146096) / 365) :
    (0 ≤ yoe ∧ yoe < 400) ∧
      0 ≤ doe - (365 * yoe + yoe / 4 - yoe / 100) ∧
      doe - (365 * yoe + yoe / 4 - yoe / 100) ≤ 366 := by
  refine ⟨by omega, ?_, by omega⟩
  have hcentury : yoe / 100 = 0 ∨ yoe / 100 = 1 ∨ yoe / 100 = 2 ∨ yoe / 100 = 3 := by omega
  have hdays : doe / 36524 = 0 ∨ doe / 36524 = 1 ∨ doe / 36524 = 2 ∨ doe / 36524 = 3 ∨
      doe / 36524 = 4 := by omega
  -- the divisions are linear within a century
  rcases hdays with h | h | h | h | h <;> rcases hcentury with h' | h' | h' | h' <;> omega

theorem civilDate_parts (day : ℤ) : ∃ era yoe doy mp : ℤ,
    (0 ≤ yoe ∧ yoe < 400) ∧ (0 ≤ mp ∧ mp ≤ 11) ∧ (5 * doy + 2) / 153 = mp ∧
      day + 719468 = era * 146097 + (365 * yoe + yoe / 4 - yoe / 100) + doy ∧
      civilDate day = (yoe + era * 400 + (if mp < 10 then 0 else 1),
        if mp < 10 then mp + 3 else mp - 9, doy - (153 * mp + 2) / 5 + 1) := by
  set era := (day + 719468) / 146097 with heradef
  set doe := day + 719468 - era * 146097 with hdoe
  obtain ⟨hyoe, hlow, hhigh⟩ := @yearOfEra_bounds doe _ (by omega) (by omega) rfl
  set yoe := (doe - doe / 1460 + doe / 36524 - doe / 146096) / 365 with hyoedef
  set doy := doe - (365 * yoe + yoe / 4 - yoe / 100) with hdoy
  refine ⟨era, yoe, doy, (5 * doy + 2) / 153, hyoe, by omega, rfl, by omega, ?_⟩
  simp only [civilDate, ← heradef, ← hdoe, ← hyoedef, ← hdoy]
  split <;> simp <;> omega

theorem dayNumber_civilDate (day : ℤ) :
    dayNumber (civilDate day).1 (civilDate day).2.1 (civilDate day).2.2 = day := by
  obtain ⟨era, yoe, doy, mp, hyoe, hmp, hdoy, hday, hdate⟩ := civilDate_parts day
  rw [hdate]
  by_cases h : mp < 10
  · have hm : ¬ mp + 3 ≤ 2 := by omega
    simp only [dayNumber, h, if_true, if_neg hm]
    omega
  · have hm : mp - 9 ≤ 2 := by omega
    simp only [dayNumber, h, if_false, if_pos hm]
    omega

theorem civilDate_nonneg {day : ℤ} (h : -719468 ≤ day) :
    0 ≤ (civilDate day).1 ∧ 0 ≤ (civilDate day).2.1 ∧ 0 ≤ (civilDate day).2.2 := by
  obtain ⟨era, yoe, doy, mp, hyoe, hmp, hdoy, hday, hdate⟩ := civilDate_parts day
  rw [hdate]
  by_cases h : mp < 10
  · simp only [h, if_true]
    omega
  · simp only [h, if_false]
    omega

section

variable {day day' : ℤ} {ts : Time}

/-- The time of day in `ts.isoformat()`. -/
def clockText (ts : Time) : String :=
  let seconds := ts % 86400000000 / 1000000
  padded 2 (seconds / 3600) ++ ":" ++ padded 2 (seconds / 60 % 60) ++ ":" ++ padded 2 (seconds % 60)
    ++ if ts % 86400000000 % 1000000 = 0 then "" else "." ++ padded 6 (ts % 86400000000 % 1000000)

theorem isoformat_eq (ts : Time) : isoformat ts = joinText (String.singleton '-')
    [padded 4 (civilDate (utcDay ts)).1, padded 2 (civilDate (utcDay ts)).2.1,
      padded 2 (civilDate (utcDay ts)).2.2 ++ String.singleton 'T' ++ clockText ts] := by
  have hdash : String.singleton '-' = "-" := by decide
  have ht : String.singleton 'T' = "T" := by decide
  simp only [isoformat, clockText, joinText, hdash, ht, String.append_assoc]

theorem separators_clockText {c : Char} (hdigit : c.isDigit = false) (hcolon : c ≠ ':')
    (hdot : c ≠ '.') : separators c (clockText ts) = 0 := by
  have hcolons : separators c ":" = 0 := by simp [separators, hcolon.symm]
  have hdots : separators c "." = 0 := by simp [separators, hdot.symm]
  have hempty : separators c "" = 0 := rfl
  simp only [clockText, separators_append, separators_padded hdigit, hcolons]
  split <;> simp [separators_padded hdigit, hdots, hempty]

theorem utcDay_eq_of_isoformat {ts' : Time} (hday : -719468 ≤ utcDay ts)
    (hday' : -719468 ≤ utcDay ts') (h : isoformat ts = isoformat ts') : utcDay ts = utcDay ts' := by
  obtain ⟨hy, hm, hd⟩ := civilDate_nonneg hday
  obtain ⟨hy', hm', hd'⟩ := civilDate_nonneg hday'
  have hclock : ∀ t, separators '-' (clockText t) = 0 := fun t =>
    separators_clockText (by decide) (by decide) (by decide)
  have hdigits : ∀ width n, separators '-' (padded width n) = 0 := fun width n =>
    separators_padded (by decide)
  rw [isoformat_eq, isoformat_eq, joinText_inj (by simp [hclock, hdigits])] at h
  obtain ⟨hyear, hmonth, htail⟩ : _ ∧ _ ∧ _ := by simpa only [List.cons.injEq, and_true] using h
  have hdom : padded 2 (civilDate (utcDay ts)).2.2 = padded 2 (civilDate (utcDay ts')).2.2 := by
    have hsplit := congrArg String.toList htail
    simp only [String.toList_append, String.toList_singleton, List.append_assoc,
      List.singleton_append] at hsplit
    have hT : ∀ n, separators 'T' (padded 2 n) = 0 := fun n => separators_padded (by decide)
    exact String.toList_inj.mp ((append_sep_inj ((hT _).trans (hT _).symm)).mp hsplit).1
  rw [padded_inj hy hy'] at hyear
  rw [padded_inj hm hm'] at hmonth
  rw [padded_inj hd hd'] at hdom
  rw [← dayNumber_civilDate (utcDay ts), hyear, hmonth, hdom, dayNumber_civilDate]

theorem separators_isoformat {c : Char} (hdigit : c.isDigit = false) (hcolon : c ≠ ':')
    (hdot : c ≠ '.') (hdash : c ≠ '-') (hT : c ≠ 'T') (ts : Time) :
    separators c (isoformat ts) = 0 := by
  have hdashes : separators c (String.singleton '-') = 0 := by simp [separators, hdash.symm]
  have hTs : separators c (String.singleton 'T') = 0 := by simp [separators, hT.symm]
  simp only [isoformat_eq, joinText, separators_append, separators_padded hdigit, hdashes, hTs,
    separators_clockText hdigit hcolon hdot]

end

end Minsight
