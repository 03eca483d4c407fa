import Mathlib.Algebra.Order.Ring.Int
import Rtx.Coldfire.Structs

/-!
# Strings

`rtx_sprintf` of `utils.c`. A string is the list of its characters, without the terminating NUL.
There is no result where the code divides by zero, writes in front of the string or reads behind
the format, and none where it returns null: the string is left without an end then.
-/

namespace Rtx.Coldfire

/-- A string, without its NUL. -/
abbrev Text := List UInt8

/-- The characters of a string literal. -/
def cstr (s : String) : Text := s.toList.map Char.toUInt8

/-- What an element of `params` points to. -/
inductive Param
  | int (value : ℤ)
  | str (text : Text)

/-! ## Numbers -/

/-- `while(num/div > 0) { size++; div*=10; }`. A power of ten is no multiple of `2 ^ 32` before the
thirty-second. -/
def sizeLoop (num : ℤ) : ℕ → ℕ → ℤ → Option (ℕ × ℤ)
  | 0, _, _ => none
  | fuel + 1, size, div =>
    if div = 0 then none
    else if num.tdiv div > 0 then sizeLoop num fuel (size + 1) (wrap32 (div * 10))
    else some (size, div)

/-- `while(size > 0)`. -/
def digitLoop : ℕ → ℤ → ℤ → Text → Option Text
  | 0, _, _, str => some str
  | size + 1, num, div, str =>
    if div = 0 then none
    else
      let digit := num.tdiv div
      digitLoop size (wrap32 (num - wrap32 (digit * div))) (div.tdiv 10)
        (str ++ [UInt8.ofNat (('0'.toNat + digit) % 256).toNat])

/-- `if(size < spaces)`: what goes in front of the number. A sign takes the place of the last. -/
def padInt (zero neg : Bool) (spaces size : ℕ) (str : Text) : Text :=
  if size < spaces then
    let str := str ++ List.replicate (spaces - size) (if zero then '0' else ' ').toUInt8
    if neg then str.dropLast else str
  else str

/-- The branch for `i`, `d` and `u`. -/
def sprintfInt (zero : Bool) (spaces : ℕ) (value : ℤ) (str : Text) : Option Text := do
  let neg := decide (value < 0)
  let num := if value < 0 then wrap32 (value * -1) else value
  let (size, div) ← sizeLoop num 33 0 1
  let div := div.tdiv 10
  let str := padInt zero neg spaces size str
  -- A zero goes where the last character was.
  let str ← if size = 0 then if str = [] then none else some (str.dropLast ++ cstr "0")
    else some str
  digitLoop size num div (if neg then str ++ cstr "-" else str)

/-! ## Formats -/

/-- `if(format[k] == '0')`. -/
def zeroFlag : Text → Bool × Text
  | c :: format => if c = '0'.toUInt8 then (true, format) else (false, c :: format)
  | [] => (false, [])

/-- `int spaces = format[k] - '0'`, and whether it is a width. -/
def spacesOf : Text → ℕ × Text
  | c :: format =>
    if '0'.toUInt8 < c ∧ c ≤ '9'.toUInt8 then (c.toNat - '0'.toNat, format) else (0, c :: format)
  | [] => (0, [])

/-- The loop over the format. -/
def rtxSprintfLoop : ℕ → Text → List Param → Text → Option Text
  | 0, _, _, _ => none
  | _ + 1, [], _, str => some str
  | fuel + 1, c :: format, params, str =>
    if c = '%'.toUInt8 then
      let (zero, format) := zeroFlag format
      let (spaces, format) := spacesOf format
      match params, format with
      | [], _ => none
      | _, [] => none
      | param :: rest, c :: format =>
        if c = 'c'.toUInt8 then
          match param with
          | .str text => rtxSprintfLoop fuel format rest
              (str ++ List.replicate (spaces - 1) ' '.toUInt8 ++ [text.headD 0])
          | .int _ => none
        else if c = 's'.toUInt8 then
          match param with
          | .str text => rtxSprintfLoop fuel format rest
              (str ++ text ++ List.replicate spaces ' '.toUInt8)
          | .int _ => none
        else if c = 'i'.toUInt8 ∨ c = 'd'.toUInt8 ∨ c = 'u'.toUInt8 then
          match param with
          | .int value => do
            let str ← sprintfInt zero spaces value str
            rtxSprintfLoop fuel format rest str
          | .str _ => none
        else rtxSprintfLoop fuel format params (str ++ cstr "%" ++ [c])
    else rtxSprintfLoop fuel format params (str ++ [c])

/-- `rtx_sprintf`: the text that `str` is afterwards. -/
def rtxSprintf (format : Text) (params : List Param) : Option Text :=
  rtxSprintfLoop (format.length + 1) format params []

/-! ## What can be printed -/

/-- The integers that go through: those with at most nine digits, and `-2 ^ 31`, whose negation is
negative. -/
def Printable (x : ℤ) : Prop := x.natAbs < 10 ^ 9 ∨ x = -2 ^ 31

instance (x : ℤ) : Decidable (Printable x) := by
  unfold Printable
  infer_instance

theorem digitLoop_isSome_iff {size : ℕ} {num div : ℤ} {str : Text} :
    (digitLoop size num div str).isSome = true ↔ size = 0 ∨ 10 ^ (size - 1) ≤ div.natAbs := by
  induction size generalizing num div str with
  | zero => simp [digitLoop]
  | succ size ih =>
    have hpos : 0 < 10 ^ size := Nat.pow_pos (by decide)
    unfold digitLoop
    split
    · rename_i hdiv
      subst hdiv
      simp
    · rename_i hdiv
      have hquot : (div.tdiv 10).natAbs = div.natAbs / 10 := Int.natAbs_tdiv div 10
      rw [ih, hquot, Nat.le_div_iff_mul_le (by decide)]
      cases size with
      | zero => simp; omega
      | succ size => simp [pow_succ]

theorem tdiv_pos_of_le {num div : ℤ} (hdiv : 0 < div) (hnum : div ≤ num) : num.tdiv div > 0 := by
  rw [Int.tdiv_eq_ediv_of_nonneg (hdiv.le.trans hnum)]
  have hquot : 1 ≤ num / div := Int.le_ediv_of_mul_le hdiv (by rwa [one_mul])
  omega

theorem sizeLoop_step {num div : ℤ} {fuel size : ℕ} (hdiv : 0 < div) (hnum : div ≤ num) :
    sizeLoop num (fuel + 1) size div = sizeLoop num fuel (size + 1) (wrap32 (div * 10)) := by
  rw [sizeLoop, if_neg hdiv.ne', if_pos (tdiv_pos_of_le hdiv hnum)]

theorem sizeLoop_stop {num div : ℤ} {fuel size : ℕ} (hpos : 0 ≤ num) (hnum : num < div) :
    sizeLoop num (fuel + 1) size div = some (size, div) := by
  have hquot : num.tdiv div = 0 := Int.tdiv_eq_zero_of_lt hpos hnum
  rw [sizeLoop, if_neg (by omega), if_neg (by omega)]

theorem sizeLoop_small {num : ℤ} (hpos : 0 ≤ num) (hnum : num < 10 ^ 9) {fuel k : ℕ} (hk : k ≤ 9)
    (hlow : 0 < k → 10 ^ (k - 1) ≤ num) (hfuel : 9 < fuel + k) :
    ∃ size, size ≤ 9 ∧ num < 10 ^ size ∧ (0 < size → 10 ^ (size - 1) ≤ num) ∧
      sizeLoop num fuel k (10 ^ k) = some (size, 10 ^ size) := by
  induction fuel generalizing k with
  | zero => omega
  | succ fuel ih =>
    rcases lt_or_ge num (10 ^ k) with hlt | hge
    · exact ⟨k, hk, hlt, hlow, sizeLoop_stop hpos hlt⟩
    · have hk9 : k ≠ 9 := by
        rintro rfl
        omega
      have hwrap : wrap32 ((10 : ℤ) ^ k * 10) = 10 ^ (k + 1) := by
        rw [pow_succ]
        have hbound : (10 : ℤ) ^ k ≤ 10 ^ 8 := pow_le_pow_right₀ (by decide) (by omega)
        have hpow : (0 : ℤ) < 10 ^ k := pow_pos (by decide) k
        exact wrap32_of_range (by omega) (by omega)
      rw [sizeLoop_step (pow_pos (by decide) k) hge, hwrap]
      exact ih (by omega) (fun _ => hge) (by omega)

/-- From ten digits on the divisor overflows, and the digits outnumber it. -/
theorem sizeLoop_large {num : ℤ} (hnum : 10 ^ 9 ≤ num) (hrange : num < 2 ^ 31) :
    sizeLoop num 33 0 1 = some (10, 1410065408) ∨ sizeLoop num 33 0 1 = some (12, -727379968) := by
  have hstep : ∀ {fuel size : ℕ} {div : ℤ}, 0 < div → div ≤ num →
      sizeLoop num (fuel + 1) size div = sizeLoop num fuel (size + 1) (wrap32 (div * 10)) :=
    sizeLoop_step
  have hten : sizeLoop num 33 0 1 = sizeLoop num 23 10 1410065408 := by
    iterate 10 rw [hstep (by decide) (le_trans (by decide) hnum)]
    rfl
  rw [hten]
  rcases lt_or_ge num 1410065408 with hlt | hge
  · exact .inl (sizeLoop_stop (by omega) hlt)
  · refine .inr ?_
    rw [hstep (by decide) hge, hstep (by decide) (le_trans (by decide) hge)]
    have hquot : ¬ num.tdiv (-727379968) > 0 :=
      not_lt_of_ge (Int.tdiv_nonpos_of_nonneg_of_nonpos (by omega) (by decide))
    exact (if_neg (by decide)).trans (if_neg hquot)

/-- The divisor lasts exactly for the printable integers. -/
theorem sizeLoop_cases {value : ℤ} (hlow : -2 ^ 31 ≤ value) (hhigh : value < 2 ^ 31) :
    ∃ size div, sizeLoop (if value < 0 then wrap32 (value * -1) else value) 33 0 1 =
      some (size, div) ∧ (Printable value ↔ size = 0 ∨ 10 ^ (size - 1) ≤ (div.tdiv 10).natAbs) := by
  by_cases hmin : value = -2 ^ 31
  · subst hmin
    exact ⟨0, 1, by decide +kernel, by decide⟩
  have hnum : (if value < 0 then wrap32 (value * -1) else value) = value.natAbs := by
    split
    · rw [wrap32_of_range (by omega) (by omega)]
      omega
    · omega
  rw [hnum]
  rcases lt_or_ge value.natAbs (10 ^ 9) with hlt | hge
  · obtain ⟨size, -, -, -, hsize⟩ : ∃ size : ℕ, size ≤ 9 ∧ _ ∧ _ ∧
        sizeLoop value.natAbs 33 0 (10 ^ 0) = some (size, 10 ^ size) :=
      sizeLoop_small (by omega) (by omega) (by omega) (by simp) (by omega)
    refine ⟨size, _, hsize, iff_of_true (.inl hlt) ?_⟩
    cases size with
    | zero => exact .inl rfl
    | succ size =>
      refine .inr (le_of_eq ?_)
      rw [pow_succ, Int.mul_tdiv_cancel _ (by decide), Int.natAbs_pow]
      rfl
  · have hprint : ¬ Printable value := by
      rintro (h | h)
      · omega
      · exact hmin h
    have hlarge : (10 : ℤ) ^ 9 ≤ value.natAbs := by omega
    rcases sizeLoop_large hlarge (by omega) with hsize | hsize
    · exact ⟨_, _, hsize, iff_of_false hprint (by decide)⟩
    · exact ⟨_, _, hsize, iff_of_false hprint (by decide)⟩

theorem padInt_ne_nil {zero neg : Bool} {spaces size : ℕ} {str : Text} (hstr : str ≠ []) :
    padInt zero neg spaces size str ≠ [] := by
  have hpos : 0 < str.length := List.length_pos_iff.2 hstr
  rw [← List.length_pos_iff]
  unfold padInt
  split
  · simp only
    split <;> simp <;> omega
  · exact hpos

theorem sprintfInt_isSome_iff {zero : Bool} {spaces : ℕ} {value : ℤ} {str : Text}
    (hlow : -2 ^ 31 ≤ value) (hhigh : value < 2 ^ 31) (hstr : str ≠ []) :
    (sprintfInt zero spaces value str).isSome = true ↔ Printable value := by
  obtain ⟨size, div, hsize, hprint⟩ := sizeLoop_cases hlow hhigh
  simp only [sprintfInt, hsize, Option.bind_eq_bind, Option.bind_some]
  rw [hprint]
  rw [if_neg (padInt_ne_nil hstr)]
  split
  · exact digitLoop_isSome_iff
  · exact digitLoop_isSome_iff

example : rtxSprintf (cstr "%4d: %02u%s") [.int (-17), .int 5, .str (cstr "x")] =
    some (cstr " -17: 05x") := by decide +kernel

end Rtx.Coldfire
