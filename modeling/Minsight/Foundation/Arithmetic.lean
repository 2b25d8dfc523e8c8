import Mathlib.Algebra.Order.Field.Power
import Mathlib.Data.Int.Log
import Mathlib.Tactic.Positivity
import Minsight.Foundation.Decimal

/-! # Arithmetic with rounded results

An arithmetic computes exactly and rounds the result to a number it has. Exact arithmetic rounds
nothing; floating point keeps a number of binary digits and rounds halves to even.
-/

namespace Minsight

theorem roundEven_intCast (n : ℤ) : roundEven n = n := by
  simp [roundEven]

theorem roundEven_le {q : ℚ} {n : ℤ} (h : q ≤ n) : roundEven q ≤ n := by
  rw [← roundEven_intCast n]
  exact roundEven_mono h

theorem le_roundEven {q : ℚ} {n : ℤ} (h : n ≤ q) : n ≤ roundEven q := by
  rw [← roundEven_intCast n]
  exact roundEven_mono h

theorem roundEven_neg (q : ℚ) : roundEven (-q) = -roundEven q := by
  have hfloor := Int.floor_le q
  have hlt := Int.lt_floor_add_one q
  by_cases hint : q = ⌊q⌋
  · rw [hint, ← Int.cast_neg, roundEven_intCast, roundEven_intCast]
  · have hneg : ⌊-q⌋ = -⌊q⌋ - 1 := by
      rw [Int.floor_eq_iff]
      push_cast
      constructor
      · linarith
      · linarith [lt_of_le_of_ne hfloor (Ne.symm hint)]
    simp only [roundEven, hneg]
    push_cast
    split_ifs <;> first | omega | (exfalso; linarith)

/-- A half below an even number is rounded up to it. -/
theorem le_roundEven_iff {q : ℚ} {n : ℤ} (hn : Even n) : n ≤ roundEven q ↔ n - 1 / 2 ≤ q := by
  constructor
  · intro h
    by_contra hlt
    have hfloor : ⌊q⌋ < n := Int.floor_lt.mpr (by linarith)
    have hlow : (⌊q⌋ : ℚ) ≤ n - 1 := by exact_mod_cast Int.le_sub_one_of_lt hfloor
    have hup := roundEven_le_floor q
    have heq : ⌊q⌋ = n - 1 := by omega
    have hrest : q - ⌊q⌋ < 1 / 2 := by rw [heq]; push_cast; linarith
    simp only [roundEven, if_pos hrest] at h
    omega
  · intro h
    have hhalf : roundEven (n - 1 / 2) = n := by
      have hfloor : ⌊(n : ℚ) - 1 / 2⌋ = n - 1 := by
        rw [Int.floor_eq_iff]
        push_cast
        constructor <;> linarith
      have hodd : ¬ (n - 1) % 2 = 0 := by have := Int.even_iff.mp hn; omega
      simp only [roundEven, hfloor, hodd, if_false]
      push_cast
      split_ifs <;> first | omega | (exfalso; linarith)
    rw [← hhalf]
    exact roundEven_mono h

structure Arithmetic where
  round : ℚ → ℚ
  mono : Monotone round
  idem : ∀ q, round (round q) = round q
  zero : round 0 = 0

namespace Arithmetic

variable (a : Arithmetic) {terms : List ℚ}

def exact : Arithmetic where
  round := id
  mono := monotone_id
  idem _ := rfl
  zero := rfl

theorem round_nonneg {q : ℚ} (h : 0 ≤ q) : 0 ≤ a.round q := by
  rw [← a.zero]
  exact a.mono h

/-- The sum of the terms, from left to right. -/
def sum (terms : List ℚ) : ℚ := terms.foldl (fun s t => a.round (s + t)) 0

theorem foldl_nonneg {s : ℚ} (hs : 0 ≤ s) (h : ∀ t ∈ terms, 0 ≤ t) :
    0 ≤ terms.foldl (fun s t => a.round (s + t)) s := by
  induction terms generalizing s with
  | nil => exact hs
  | cons t terms ih =>
    apply ih
    · exact a.round_nonneg (add_nonneg hs (h t List.mem_cons_self))
    · exact fun t' ht' => h t' (List.mem_cons_of_mem t ht')

theorem sum_nonneg (h : ∀ t ∈ terms, 0 ≤ t) : 0 ≤ a.sum terms := a.foldl_nonneg le_rfl h

theorem foldl_le_foldl {terms' : List ℚ} {s s' : ℚ} (hs : s ≤ s')
    (h : List.Forall₂ (· ≤ ·) terms terms') :
    terms.foldl (fun s t => a.round (s + t)) s ≤ terms'.foldl (fun s t => a.round (s + t)) s' := by
  induction h generalizing s s' with
  | nil => exact hs
  | cons hhead _ ih => exact ih (a.mono (add_le_add hs hhead))

theorem sum_le_sum {terms' : List ℚ} (h : List.Forall₂ (· ≤ ·) terms terms') :
    a.sum terms ≤ a.sum terms' := a.foldl_le_foldl le_rfl h

theorem round_foldl {s : ℚ} (hs : a.round s = s) :
    a.round (terms.foldl (fun s t => a.round (s + t)) s) =
      terms.foldl (fun s t => a.round (s + t)) s := by
  induction terms generalizing s with
  | nil => exact hs
  | cons t terms ih => exact ih (a.idem _)

theorem round_sum (terms : List ℚ) : a.round (a.sum terms) = a.sum terms := a.round_foldl a.zero

/-- The number written with so many decimals that is nearest to `q`. -/
def roundTo (digits : ℕ) (q : ℚ) : ℚ := a.round (roundEven (q * 10 ^ digits) / 10 ^ digits)

theorem roundTo_mono (digits : ℕ) : Monotone (a.roundTo digits) := by
  intro q q' h
  have hscaled : roundEven (q * 10 ^ digits) ≤ roundEven (q' * 10 ^ digits) :=
    roundEven_mono (mul_le_mul_of_nonneg_right h (by positivity))
  exact a.mono (div_le_div_of_nonneg_right (Int.cast_le.mpr hscaled) (by positivity))

end Arithmetic

/-- Numbers of `precision + 1` binary digits whose last place is at least `2 ^ minExponent`. -/
structure BinaryFormat where
  precision : ℕ
  minExponent : ℤ

namespace BinaryFormat

variable (f : BinaryFormat) {q r : ℚ} {k m : ℤ}

/-- The exponent of the last place of `q`. -/
def lastPlace (q : ℚ) : ℤ := max (Int.log 2 |q| - f.precision) f.minExponent

/-- The number of the format nearest to `q`. -/
def nearest (q : ℚ) : ℚ := roundEven (q / 2 ^ f.lastPlace q) * 2 ^ f.lastPlace q

variable {f}

theorem nearest_zero : f.nearest 0 = 0 := by
  have hzero : roundEven 0 = 0 := roundEven_intCast 0
  simp [nearest, hzero]

theorem lastPlace_neg : f.lastPlace (-q) = f.lastPlace q := by
  rw [lastPlace, lastPlace, abs_neg]

theorem nearest_neg : f.nearest (-q) = -f.nearest q := by
  rw [nearest, nearest, lastPlace_neg, neg_div, roundEven_neg]
  push_cast
  ring

theorem lastPlace_mono (hq : 0 < q) (h : q ≤ r) : f.lastPlace q ≤ f.lastPlace r := by
  rw [lastPlace, lastPlace, abs_of_pos hq, abs_of_pos (hq.trans_le h)]
  exact max_le_max_right _ (sub_le_sub_right (Int.log_mono_right hq h) _)

/-- A power of two that is a multiple of the last place is a whole number of last places. -/
theorem zpow_div_zpow (h : k ≤ m) : ((2 : ℚ) ^ m / 2 ^ k) = ((2 ^ (m - k).toNat : ℤ) : ℚ) := by
  rw [← zpow_sub₀ two_ne_zero]
  push_cast
  rw [← zpow_natCast, Int.toNat_of_nonneg (by omega)]

theorem nearest_le_zpow (hm : f.lastPlace q ≤ m) (h : q ≤ 2 ^ m) : f.nearest q ≤ 2 ^ m := by
  have hpos : (0 : ℚ) < 2 ^ f.lastPlace q := by positivity
  rw [nearest, ← le_div_iff₀ hpos, zpow_div_zpow hm]
  apply Int.cast_le.mpr
  apply roundEven_le
  rw [← zpow_div_zpow hm]
  exact div_le_div_of_nonneg_right h hpos.le

theorem zpow_le_nearest (hm : f.lastPlace q ≤ m) (h : 2 ^ m ≤ q) : 2 ^ m ≤ f.nearest q := by
  have hpos : (0 : ℚ) < 2 ^ f.lastPlace q := by positivity
  rw [nearest, ← div_le_iff₀ hpos, zpow_div_zpow hm]
  apply Int.cast_le.mpr
  apply le_roundEven
  rw [← zpow_div_zpow hm]
  exact div_le_div_of_nonneg_right h hpos.le

theorem nearest_nonneg (h : 0 ≤ q) : 0 ≤ f.nearest q := by
  have hround : 0 ≤ roundEven (q / 2 ^ f.lastPlace q) :=
    le_roundEven (by simpa using div_nonneg h (by positivity))
  exact mul_nonneg (Int.cast_nonneg hround) (by positivity)

/-- Above zero a larger number is rounded in the same binade or across a power of two. -/
theorem nearest_mono_pos (hq : 0 < q) (h : q ≤ r) : f.nearest q ≤ f.nearest r := by
  rcases (lastPlace_mono (f := f) hq h).eq_or_lt with heq | hlt
  · rw [nearest, nearest, heq]
    have hround : roundEven (q / 2 ^ f.lastPlace r) ≤ roundEven (r / 2 ^ f.lastPlace r) :=
      roundEven_mono (div_le_div_of_nonneg_right h (by positivity))
    exact mul_le_mul_of_nonneg_right (Int.cast_le.mpr hround) (by positivity)
  · have hr : 0 < r := hq.trans_le h
    have hlog : Int.log 2 q < Int.log 2 r ∧ f.lastPlace r ≤ Int.log 2 r := by
      simp only [lastPlace, abs_of_pos hq, abs_of_pos hr] at hlt ⊢
      omega
    have hbelow : q ≤ 2 ^ Int.log 2 r :=
      (Int.lt_zpow_succ_log_self one_lt_two q).le.trans
        (zpow_le_zpow_right₀ one_le_two (by omega))
    have habove : 2 ^ Int.log 2 r ≤ r := Int.zpow_log_le_self one_lt_two hr
    exact (nearest_le_zpow (hlt.le.trans hlog.2) hbelow).trans (zpow_le_nearest hlog.2 habove)

theorem nearest_mono : Monotone f.nearest := by
  intro q r h
  rcases lt_trichotomy q 0 with hq | rfl | hq
  · rcases lt_or_ge r 0 with hr | hr
    · have hneg := nearest_mono_pos (f := f) (neg_pos.mpr hr) (neg_le_neg h)
      rw [nearest_neg, nearest_neg] at hneg
      exact neg_le_neg_iff.mp hneg
    · have hnonneg := nearest_nonneg (f := f) (neg_nonneg.mpr hq.le)
      rw [nearest_neg] at hnonneg
      exact (neg_nonneg.mp hnonneg).trans (nearest_nonneg hr)
  · rw [nearest_zero]
    exact nearest_nonneg h
  · exact nearest_mono_pos hq h

theorem nearest_eq_self {n : ℤ} (h : f.lastPlace q ≤ k) (hq : q = n * 2 ^ k) :
    f.nearest q = q := by
  have hwhole : q / 2 ^ f.lastPlace q = ((n * 2 ^ (k - f.lastPlace q).toNat : ℤ) : ℚ) := by
    rw [Int.cast_mul, ← zpow_div_zpow h, ← mul_div_assoc, ← hq]
  rw [nearest, hwhole, roundEven_intCast, ← hwhole, div_mul_cancel₀ _ (by positivity)]

theorem nearest_idem_pos (hq : 0 < q) : f.nearest (f.nearest q) = f.nearest q := by
  set k := f.lastPlace q with hk
  have hlast : k = max (Int.log 2 q - f.precision) f.minExponent := by
    rw [hk, lastPlace, abs_of_pos hq]
  have hbelow : q ≤ 2 ^ (Int.log 2 q + 1) := (Int.lt_zpow_succ_log_self one_lt_two q).le
  rcases (nearest_nonneg (f := f) hq.le).eq_or_lt with hzero | hpos
  · rw [← hzero, nearest_zero]
  rcases lt_or_ge (f.nearest q) (2 ^ (max (Int.log 2 q + 1) k)) with hlt | hge
  · -- the digits of the result are those of `q`
    apply nearest_eq_self (q := f.nearest q) (k := k) _ rfl
    have hlog : Int.log 2 (f.nearest q) < max (Int.log 2 q + 1) k :=
      (Int.lt_zpow_iff_log_lt one_lt_two hpos).mp (by exact_mod_cast hlt)
    rw [lastPlace, abs_of_pos hpos]
    omega
  · -- the result is the next power of two
    have hle : f.nearest q ≤ 2 ^ (max (Int.log 2 q + 1) k) :=
      nearest_le_zpow (le_max_right _ _)
        (hbelow.trans (zpow_le_zpow_right₀ one_le_two (le_max_left _ _)))
    have heq : f.nearest q = (1 : ℤ) * 2 ^ (max (Int.log 2 q + 1) k) := by
      rw [Int.cast_one, one_mul]
      exact hle.antisymm hge
    apply nearest_eq_self _ heq
    have hlog : Int.log 2 (f.nearest q) = max (Int.log 2 q + 1) k := by
      rw [heq, Int.cast_one, one_mul]
      exact_mod_cast Int.log_zpow (R := ℚ) one_lt_two _
    rw [lastPlace, abs_of_pos hpos, hlog]
    omega

theorem nearest_idem (q : ℚ) : f.nearest (f.nearest q) = f.nearest q := by
  rcases lt_trichotomy q 0 with hq | rfl | hq
  · have hidem := nearest_idem_pos (f := f) (neg_pos.mpr hq)
    rw [nearest_neg, nearest_neg] at hidem
    exact neg_injective hidem
  · rw [nearest_zero, nearest_zero]
  · exact nearest_idem_pos hq

variable (f)

def arithmetic : Arithmetic where
  round := f.nearest
  mono := nearest_mono
  idem := nearest_idem
  zero := nearest_zero

end BinaryFormat

def Arithmetic.binary64 : Arithmetic := BinaryFormat.arithmetic ⟨52, -1074⟩

end Minsight
