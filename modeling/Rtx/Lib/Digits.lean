import Mathlib.Algebra.Order.Ring.Nat
import Mathlib.Data.Nat.Digits.Lemmas
import Mathlib.Tactic.Common

/-!
# Digits

The digits of a number, found by dividing by falling powers of the base. Mathlib and core find them
from the other end; `top_succ` is the step between the two, and `toDigits_eq` says that they agree.

Division by the base finds them from the lowest on. Where it truncates, the digits of a negative
number are those of its magnitude with a minus sign each (`signed`).
-/

namespace Digits

variable {b k n : ℕ}

/-- The last `k` digits, the highest first. -/
def top (b : ℕ) : ℕ → ℕ → List ℕ
  | 0, _ => []
  | k + 1, n => n / b ^ k :: top b k (n % b ^ k)

@[simp] theorem length_top (b k n : ℕ) : (top b k n).length = k := by
  induction k generalizing n with
  | zero => rfl
  | succ k ih => rw [top, List.length_cons, ih]

/-- The lowest digit is the remainder, and the others are the digits of the quotient. -/
theorem top_succ (h : n < b ^ (k + 1)) : top b (k + 1) n = top b k (n / b) ++ [n % b] := by
  induction k generalizing n with
  | zero =>
    rw [zero_add, pow_one] at h
    simp [top, Nat.mod_eq_of_lt h]
  | succ k ih =>
    have hpos : 0 < b ^ (k + 1) := by
      refine Nat.pos_of_ne_zero fun hzero => ?_
      rw [pow_succ, hzero, zero_mul] at h
      exact absurd h (Nat.not_lt_zero n)
    have hrest : top b (k + 1) (n % b ^ (k + 1)) =
        top b k (n % b ^ (k + 1) / b) ++ [n % b ^ (k + 1) % b] := ih (Nat.mod_lt n hpos)
    have hhead : n / b ^ (k + 1) = n / b / b ^ k := by
      rw [Nat.div_div_eq_div_mul, pow_succ, mul_comm]
    have hquot : n % b ^ (k + 1) / b = n / b % b ^ k := by
      rw [pow_succ, mul_comm, Nat.mod_mul_right_div_self]
    have hmod : n % b ^ (k + 1) % b = n % b := Nat.mod_mod_of_dvd n (dvd_pow_self b (by omega))
    rw [top, hrest, hhead, hquot, hmod, top, List.cons_append]

theorem toDigits_eq (hb : 1 < b) (hlow : b ^ k ≤ n) (hhigh : n < b ^ (k + 1)) :
    Nat.toDigits b n = (top b (k + 1) n).map Nat.digitChar := by
  induction k generalizing n with
  | zero =>
    rw [zero_add, pow_one] at hhigh
    rw [Nat.toDigits_of_lt_base hhigh]
    simp [top]
  | succ k ih =>
    have hle : b ≤ n := (Nat.le_self_pow (by omega) b).trans hlow
    have hlow' : b ^ k ≤ n / b := by
      rw [Nat.le_div_iff_mul_le (by omega), ← pow_succ]
      exact hlow
    have hhigh' : n / b < b ^ (k + 1) := by
      rw [Nat.div_lt_iff_lt_mul (by omega), ← pow_succ]
      exact hhigh
    rw [Nat.toDigits_of_base_le hb hle, ih hlow' hhigh', top_succ hhigh, List.map_append,
      List.map_singleton]

/-! ## By truncating division -/

theorem toDigits_eq_digits (hb : 1 < b) (hn : n ≠ 0) :
    Nat.toDigits b n = ((Nat.digits b n).map Nat.digitChar).reverse := by
  induction n using Nat.strong_induction_on with
  | _ n ih =>
    rw [Nat.digits_def' hb (Nat.pos_of_ne_zero hn), Nat.toDigits_eq_if hb, List.map_cons,
      List.reverse_cons]
    split
    · next hlt =>
      rw [Nat.div_eq_of_lt hlt, Nat.mod_eq_of_lt hlt, Nat.digits_zero]
      rfl
    · next hge =>
      have hquot : n / b ≠ 0 := Nat.div_ne_zero_iff.2 ⟨by omega, not_lt.1 hge⟩
      rw [ih (n / b) (Nat.div_lt_self (Nat.pos_of_ne_zero hn) hb) hquot]

/-- The remainders of truncating division, the lowest first. -/
def signed (b : ℕ) (n : ℤ) : List ℤ := (Nat.digits b n.natAbs).map fun d : ℕ => n.sign * d

variable {m r : ℤ}

@[simp] theorem signed_zero (b : ℕ) : signed b 0 = [] := by
  simp [signed]

theorem signed_natCast (b n : ℕ) : signed b n = (Nat.digits b n).map fun d : ℕ => (d : ℤ) := by
  rcases Nat.eq_zero_or_pos n with rfl | hn
  · simp
  · rw [signed, Int.sign_eq_one_of_pos (by exact_mod_cast hn), Int.natAbs_natCast]
    simp only [one_mul]

theorem signed_neg (b : ℕ) (m : ℤ) : signed b (-m) = (signed b m).map fun r => -r := by
  simp [signed, Function.comp_def]

theorem signed_of_ne_zero (hb : 1 < b) (hm : m ≠ 0) :
    signed b m = m.tmod b :: signed b (m.tdiv b) := by
  have hpos : ∀ n : ℕ, n ≠ 0 → signed b n = (n : ℤ).tmod b :: signed b ((n : ℤ).tdiv b) := by
    intro n hn
    rw [← Int.ofNat_tmod, ← Int.ofNat_tdiv, signed_natCast, signed_natCast,
      Nat.digits_def' hb (Nat.pos_of_ne_zero hn), List.map_cons]
  obtain ⟨n, rfl | rfl⟩ := Int.eq_nat_or_neg m
  · exact hpos n (by simpa using hm)
  · rw [signed_neg, hpos n (by simpa using hm), List.map_cons, Int.neg_tmod, Int.neg_tdiv,
      signed_neg]

theorem length_signed_le_iff (hb : 1 < b) : (signed b m).length ≤ k ↔ m.natAbs < b ^ k := by
  rw [signed, List.length_map, Nat.digits_length_le_iff hb]

theorem natAbs_lt_of_mem_signed (hb : 1 < b) (hr : r ∈ signed b m) : r.natAbs < b := by
  obtain ⟨d, hd, rfl⟩ := List.mem_map.1 hr
  have hlt : d < b := Nat.digits_lt_base hb hd
  rw [Int.natAbs_mul, Int.natAbs_natCast, Int.natAbs_sign]
  split
  · rw [zero_mul]
    exact Nat.zero_lt_of_lt hlt
  · rwa [one_mul]

theorem nonneg_of_mem_signed (hm : 0 ≤ m) (hr : r ∈ signed b m) : 0 ≤ r := by
  obtain ⟨d, -, rfl⟩ := List.mem_map.1 hr
  exact mul_nonneg (Int.sign_nonneg_iff.2 hm) (Int.natCast_nonneg d)

theorem nonpos_of_mem_signed (hm : m ≤ 0) (hr : r ∈ signed b m) : r ≤ 0 := by
  obtain ⟨d, -, rfl⟩ := List.mem_map.1 hr
  exact mul_nonpos_of_nonpos_of_nonneg (Int.sign_nonpos_iff.2 hm) (Int.natCast_nonneg d)

theorem exists_neg_mem_signed (b : ℕ) (hm : m < 0) : ∃ r ∈ signed b m, r < 0 := by
  have hne : Nat.digits b m.natAbs ≠ [] := Nat.digits_ne_nil_iff_ne_zero.2 (by omega)
  refine ⟨m.sign * (Nat.digits b m.natAbs).getLast hne, ?_, ?_⟩
  · exact List.mem_map.2 ⟨_, List.getLast_mem hne, rfl⟩
  · have htop := Nat.getLast_digit_ne_zero b (show m.natAbs ≠ 0 by omega)
    rw [Int.sign_eq_neg_one_of_neg hm]
    omega

end Digits
