import Mathlib.Data.List.Basic
import Mathlib.Tactic.IntervalCases

/-! # Digits

Numbers as their digits to a base of at most sixteen.
-/

namespace Minsight

namespace Digits

def digitValue (c : Char) : ℕ :=
  if '0' ≤ c ∧ c ≤ '9' then c.toNat - 48
  else if 'a' ≤ c ∧ c ≤ 'f' then c.toNat - 87
  else if 'A' ≤ c ∧ c ≤ 'F' then c.toNat - 55
  else 0

def isDecimal (c : Char) : Bool := '0' ≤ c && c ≤ '9'

def isHex (c : Char) : Bool := isDecimal c || ('a' ≤ c && c ≤ 'f') || ('A' ≤ c && c ≤ 'F')

/-- `int(text, base)` on digits -/
def digitsValue (base : ℕ) (text : List Char) : ℕ :=
  text.foldl (fun n c => base * n + digitValue c) 0

theorem digitValue_digitChar {d : ℕ} (h : d < 16) : digitValue d.digitChar = d := by
  interval_cases d <;> decide

theorem isHex_digitChar {d : ℕ} (h : d < 16) : isHex d.digitChar = true := by
  interval_cases d <;> decide

theorem isDecimal_digitChar {d : ℕ} (h : d < 10) : isDecimal d.digitChar = true := by
  interval_cases d <;> decide

theorem digitsValue_append (base : ℕ) (text : List Char) (c : Char) :
    digitsValue base (text ++ [c]) = base * digitsValue base text + digitValue c := by
  rw [digitsValue, List.foldl_append]
  rfl

section

variable {base n : ℕ}

theorem forall_mem_toDigits {P : Char → Prop} (hbase : 1 < base)
    (hdigit : ∀ d < base, P d.digitChar) (n : ℕ) : ∀ c ∈ Nat.toDigits base n, P c := by
  induction n using Nat.strongRecOn with
  | ind n ih =>
    rw [Nat.toDigits_eq_if hbase]
    split
    · rename_i hn
      rw [List.forall_mem_singleton]
      exact hdigit n hn
    · rename_i hn
      have hpos : 0 < n := (Nat.zero_lt_of_lt hbase).trans_le (not_lt.mp hn)
      rw [List.forall_mem_append, List.forall_mem_singleton]
      exact ⟨ih _ (Nat.div_lt_self hpos hbase), hdigit _ (Nat.mod_lt _ (Nat.zero_lt_of_lt hbase))⟩

theorem digitsValue_toDigits (hbase : 1 < base) (hle : base ≤ 16) (n : ℕ) :
    digitsValue base (Nat.toDigits base n) = n := by
  induction n using Nat.strongRecOn with
  | ind n ih =>
    rw [Nat.toDigits_eq_if hbase]
    split
    · rename_i hn
      simp [digitsValue, digitValue_digitChar (hn.trans_le hle)]
    · rename_i hn
      have hpos : 0 < n := (Nat.zero_lt_of_lt hbase).trans_le (not_lt.mp hn)
      have hmod : n % base < 16 := (Nat.mod_lt _ (Nat.zero_lt_of_lt hbase)).trans_le hle
      rw [digitsValue_append, ih _ (Nat.div_lt_self hpos hbase), digitValue_digitChar hmod,
        Nat.div_add_mod]

theorem toDigits_head (hbase : 1 < base) (hle : base ≤ 16) (n : ℕ)
    (hhead : (Nat.toDigits base n).head? = some '0') : Nat.toDigits base n = ['0'] := by
  induction n using Nat.strongRecOn with
  | ind n ih =>
    rw [Nat.toDigits_eq_if hbase] at hhead ⊢
    split at hhead
    · rename_i hn
      rw [if_pos hn]
      rw [List.head?_cons] at hhead
      rw [Option.some.inj hhead]
    · rename_i hn
      have hpos : 0 < n := (Nat.zero_lt_of_lt hbase).trans_le (not_lt.mp hn)
      rw [List.head?_append_of_ne_nil _ Nat.toDigits_ne_nil] at hhead
      -- what stands before the last digit would be zero, and then there is nothing before it
      have hzero := ih _ (Nat.div_lt_self hpos hbase) hhead
      have hvalue := digitsValue_toDigits hbase hle (n / base)
      rw [hzero] at hvalue
      have hdiv : n / base = 0 := hvalue.symm
      rw [Nat.div_eq_zero_iff] at hdiv
      omega

end

end Digits

end Minsight
