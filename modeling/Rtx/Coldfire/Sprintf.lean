import Rtx.Coldfire.Utils
import Rtx.Lib.Digits

/-!
# Printing integers

The integer directives of `rtx_sprintf`. The divisor of the two digit loops grows one power of ten
beyond the number, so the arithmetic is safe up to nine digits only (`sprintf_arithmetic_safe_iff`).
Within these, a directive appends the numeral of its argument but in two cases
(`sprintf_int_faithful_iff`): a zero without a width takes the place of the character before it, and
where zeros are to fill more than the place of the sign, a minus sign comes behind them.
-/

namespace Rtx.Coldfire

open Digits

/-! ## Numerals -/

/-- The decimal numeral of a number. -/
def numeral (n : ℕ) : Text := (Nat.toDigits 10 n).map Char.toUInt8

/-- The sign of a numeral. -/
def sign (v : ℤ) : Text := if v < 0 then cstr "-" else []

/-- The numeral of an integer, padded on the left to the width: with spaces, or with zeros behind
the sign. -/
def padded (zero : Bool) (width : ℕ) (v : ℤ) : Text :=
  let digits := numeral v.natAbs
  let missing := width - ((sign v).length + digits.length)
  if zero then sign v ++ List.replicate missing '0'.toUInt8 ++ digits
  else List.replicate missing ' '.toUInt8 ++ sign v ++ digits

/-- A directive: the flag, the width if there is one, and the letter. -/
def directive (zero : Bool) (width : ℕ) (letter : Char) : Text :=
  '%'.toUInt8 :: ((if zero then cstr "0" else []) ++
    (if width = 0 then [] else numeral width) ++ [letter.toUInt8])

theorem numeral_eq {k n : ℕ} (hlow : 10 ^ k ≤ n) (hhigh : n < 10 ^ (k + 1)) :
    numeral n = (top 10 (k + 1) n).map fun d => d.digitChar.toUInt8 := by
  rw [numeral, toDigits_eq (by decide) hlow hhigh, List.map_map]
  rfl

theorem toUInt8_digitChar : ∀ d : ℕ, d < 10 →
    UInt8.ofNat (('0'.toNat + (d : ℤ)) % 256).toNat = d.digitChar.toUInt8 := by
  decide

/-! ## The two loops -/

theorem digitLoop_eq {size n : ℕ} {div : ℤ} (hsize : size ≤ 9) (hn : n < 10 ^ size)
    (hdiv : 0 < size → div = (10 ^ (size - 1) : ℕ)) (str : Text) :
    digitLoop size n div str =
      some (str ++ (top 10 size n).map fun d => d.digitChar.toUInt8) := by
  induction size generalizing n div str with
  | zero => simp [digitLoop, top]
  | succ size ih =>
    obtain rfl : div = (10 ^ size : ℕ) := hdiv (Nat.succ_pos _)
    have hpos : 0 < 10 ^ size := Nat.pow_pos (by decide)
    have hle : 10 ^ size ≤ 10 ^ 8 := Nat.pow_le_pow_right (by decide) (by omega)
    have hdigit : n / 10 ^ size < 10 := by
      rw [Nat.div_lt_iff_lt_mul hpos, mul_comm, ← pow_succ]
      exact hn
    have hquot : (n : ℤ).tdiv (10 ^ size : ℕ) = (n / 10 ^ size : ℕ) := Int.ofNat_tdiv n (10 ^ size)
    have hmod : n % 10 ^ size + n / 10 ^ size * 10 ^ size = n := Nat.mod_add_div' n (10 ^ size)
    have hlt : n % 10 ^ size < 10 ^ size := Nat.mod_lt n hpos
    have hprod : n / 10 ^ size * 10 ^ size ≤ 9 * 10 ^ 8 := Nat.mul_le_mul (by omega) hle
    have hin : wrap32 (n / 10 ^ size * 10 ^ size : ℕ) = (n / 10 ^ size * 10 ^ size : ℕ) :=
      wrap32_of_range (by omega) (by omega)
    have hrest : wrap32 (n - wrap32 ((n / 10 ^ size : ℕ) * (10 ^ size : ℕ))) =
        (n % 10 ^ size : ℕ) := by
      rw [← Nat.cast_mul, hin, wrap32_of_range (by omega) (by omega)]
      omega
    have hnext : 0 < size → ((10 ^ size : ℕ) : ℤ).tdiv 10 = (10 ^ (size - 1) : ℕ) := by
      intro hs
      have hsize : 10 ^ size = 10 ^ (size - 1) * 10 := by rw [← pow_succ, Nat.sub_add_cancel hs]
      rw [hsize, Nat.cast_mul]
      exact Int.mul_tdiv_cancel _ (by decide)
    rw [digitLoop, if_neg (by omega)]
    simp only [hquot, toUInt8_digitChar _ hdigit, hrest]
    rw [ih (by omega) hlt hnext, top, List.map_cons, List.append_assoc, List.singleton_append]

theorem sizeLoop_eq {n : ℕ} (hn : n < 10 ^ 9) : ∃ size : ℕ, size ≤ 9 ∧ n < 10 ^ size ∧
    (0 < size → 10 ^ (size - 1) ≤ n) ∧ sizeLoop n 33 0 1 = some (size, ((10 ^ size : ℕ) : ℤ)) := by
  obtain ⟨size, hsize, hhigh, hlow, hloop⟩ : ∃ size : ℕ, size ≤ 9 ∧ _ ∧ _ ∧
      sizeLoop n 33 0 (10 ^ 0) = some (size, 10 ^ size) :=
    sizeLoop_small (Int.natCast_nonneg n) (by exact_mod_cast hn) (Nat.zero_le 9) (by simp)
      (by omega)
  exact ⟨size, hsize, by exact_mod_cast hhigh, fun h => by exact_mod_cast hlow h,
    by rw [Nat.cast_pow]; exact hloop⟩

/-! ## One number -/

/-- A number with at most nine digits goes behind its padding and its sign. -/
theorem sprintfInt_digits {zero : Bool} {width : ℕ} {v : ℤ} (hv : v ≠ 0)
    (hsmall : v.natAbs < 10 ^ 9)
    (str : Text) : sprintfInt zero width v str =
      some (padInt zero (decide (v < 0)) width (numeral v.natAbs).length str ++ sign v ++
        numeral v.natAbs) := by
  have hnum : (if v < 0 then wrap32 (v * -1) else v) = v.natAbs := by
    split
    · rw [wrap32_of_range (by omega) (by omega)]
      omega
    · omega
  obtain ⟨size, hsize, hhigh, hlow, hloop⟩ := sizeLoop_eq hsmall
  have hpos : 0 < size := by
    refine Nat.pos_of_ne_zero fun h => ?_
    rw [h, pow_zero] at hhigh
    omega
  have hnumeral : numeral v.natAbs = (top 10 size v.natAbs).map fun d => d.digitChar.toUInt8 := by
    obtain ⟨k, rfl⟩ : ∃ k, size = k + 1 := ⟨size - 1, by omega⟩
    exact numeral_eq (hlow hpos) hhigh
  have hlength : (numeral v.natAbs).length = size := by rw [hnumeral, List.length_map, length_top]
  have hdiv : ((10 ^ size : ℕ) : ℤ).tdiv 10 = (10 ^ (size - 1) : ℕ) := by
    have hpow : 10 ^ size = 10 ^ (size - 1) * 10 := by rw [← pow_succ, Nat.sub_add_cancel hpos]
    rw [hpow, Nat.cast_mul]
    exact Int.mul_tdiv_cancel _ (by decide)
  simp only [sprintfInt, hnum, hloop, Option.bind_eq_bind, Option.bind_some, hpos.ne', if_false]
  rw [digitLoop_eq hsize hhigh fun _ => hdiv, hlength, ← hnumeral]
  unfold sign
  by_cases hneg : v < 0 <;> simp [hneg]

/-- A zero takes the place of the character before it, or of the last one of its padding. -/
theorem sprintfInt_zero (zero : Bool) (width : ℕ) (str : Text) : sprintfInt zero width 0 str =
    if width = 0 ∧ str = [] then none
    else some ((padInt zero false width 0 str).dropLast ++ cstr "0") := by
  have hloop : sizeLoop 0 33 0 1 = some (0, 1) := rfl
  simp only [sprintfInt, hloop, Option.bind_eq_bind, Option.bind_some, lt_irrefl, if_false, if_true,
    decide_false, digitLoop]
  have hnil : padInt zero false width 0 str = [] ↔ width = 0 ∧ str = [] := by
    unfold padInt
    cases width <;> simp
  simp only [hnil]
  split <;> rfl

/-- The smallest number has no digits, as its negation is not positive. -/
theorem sprintfInt_min (zero : Bool) (width : ℕ) (str : Text) :
    sprintfInt zero width (-2 ^ 31) str =
    if padInt zero true width 0 str = [] then none
    else some ((padInt zero true width 0 str).dropLast ++ cstr "0" ++ cstr "-") := by
  have hloop : sizeLoop (wrap32 (-2 ^ 31 * -1)) 33 0 1 = some (0, 1) := by decide +kernel
  have hneg : (-2 ^ 31 : ℤ) < 0 := by decide
  simp only [sprintfInt, hneg, if_true, hloop, Option.bind_eq_bind, Option.bind_some, decide_true,
    digitLoop]
  split <;> rfl

theorem sprintfInt_large {zero : Bool} {width : ℕ} {v : ℤ} (hlow : -2 ^ 31 ≤ v) (hhigh : v < 2 ^ 31)
    (hprint : ¬ Printable v) (str : Text) : sprintfInt zero width v str = none := by
  obtain ⟨size, div, hloop, hiff⟩ := sizeLoop_cases hlow hhigh
  rw [hiff, not_or] at hprint
  have hdigits : ∀ str, digitLoop size (if v < 0 then wrap32 (v * -1) else v) (div.tdiv 10) str =
      none := by
    intro str
    rw [← Option.not_isSome_iff_eq_none, digitLoop_isSome_iff]
    exact not_or.2 hprint
  simp only [sprintfInt, hloop, Option.bind_eq_bind, Option.bind_some, hprint.1, if_false, hdigits]

theorem padInt_eq (zero neg : Bool) (width size : ℕ) (str : Text) :
    padInt zero neg width size str = str ++ List.replicate (width - size - neg.toNat)
      (if zero then '0' else ' ').toUInt8 := by
  unfold padInt
  split
  · cases neg with
    | false => rfl
    | true =>
      have hne : List.replicate (width - size) (if zero then '0' else ' ').toUInt8 ≠ [] := by
        simp
        omega
      simp [List.dropLast_append_of_ne_nil hne]
  · have hnone : width - size - neg.toNat = 0 := by omega
    rw [hnone, List.replicate_zero, List.append_nil]

/-! ## Directives -/

/-- The directive does what it should: the number has at most nine digits, a zero has a width, and
zeros do not fill more than the place of a minus sign. -/
def Renders (zero : Bool) (width : ℕ) (v : ℤ) : Prop :=
  v.natAbs < 10 ^ 9 ∧ (v = 0 → 0 < width) ∧
    (zero = true → v < 0 → width ≤ (numeral v.natAbs).length + 1)

instance (zero : Bool) (width : ℕ) (v : ℤ) : Decidable (Renders zero width v) := by
  unfold Renders
  infer_instance

variable {zero : Bool} {width : ℕ} {v : ℤ} {str : Text}

theorem sprintfInt_zero_iff (zero : Bool) (width : ℕ) (str : Text) :
    sprintfInt zero width 0 str = some (str ++ padded zero width 0) ↔ 0 < width := by
  have hpadded : padded zero width 0 = List.replicate (width - 1)
      (if zero then '0' else ' ').toUInt8 ++ cstr "0" := by
    have hnumeral : numeral 0 = cstr "0" := rfl
    have hsign : sign 0 = [] := rfl
    have hlength : (cstr "0").length = 1 := rfl
    cases zero <;> simp [padded, hnumeral, hsign, hlength]
  rw [sprintfInt_zero, padInt_eq, hpadded]
  cases width with
  | zero =>
    refine iff_of_false (fun h => ?_) (lt_irrefl 0)
    split at h
    · contradiction
    · rename_i hstr
      have hlength := congrArg List.length (Option.some.inj h)
      have hpos : 0 < str.length := List.length_pos_iff.2 fun hnil => hstr ⟨rfl, hnil⟩
      simp at hlength
      omega
  | succ width =>
    refine iff_of_true ?_ (Nat.succ_pos width)
    have hdrop : (str ++ List.replicate (width + 1) (if zero then '0' else ' ').toUInt8).dropLast =
        str ++ List.replicate width (if zero then '0' else ' ').toUInt8 := by
      rw [List.replicate_succ', ← List.append_assoc, List.dropLast_concat]
    rw [if_neg fun h => Nat.succ_ne_zero width h.1]
    simp [hdrop]

theorem sprintfInt_digits_iff (hv : v ≠ 0) (hsmall : v.natAbs < 10 ^ 9) :
    sprintfInt zero width v str = some (str ++ padded zero width v) ↔
      (zero = true → v < 0 → width ≤ (numeral v.natAbs).length + 1) := by
  have hmissing : width - (numeral v.natAbs).length - (decide (v < 0)).toNat =
      width - ((sign v).length + (numeral v.natAbs).length) := by
    have hlength : (cstr "-").length = 1 := rfl
    by_cases hneg : v < 0
    · simp only [sign, hneg, decide_true, Bool.toNat_true, if_true, hlength]
      omega
    · simp [sign, hneg]
  rw [sprintfInt_digits hv hsmall, padInt_eq, hmissing]
  unfold padded
  cases zero with
  | false => simp
  | true =>
    by_cases hneg : v < 0
    · have hsign : sign v = cstr "-" := if_pos hneg
      have hlength : (cstr "-").length = 1 := rfl
      simp only [hsign, hlength, hneg, if_true, List.append_assoc, Option.some.injEq,
        List.append_cancel_left_eq, forall_const]
      constructor
      · intro h
        by_contra hwide
        obtain ⟨m, hm⟩ : ∃ m, width - (1 + (numeral v.natAbs).length) = m + 1 :=
          ⟨width - (1 + (numeral v.natAbs).length) - 1, by omega⟩
        -- The first character is a zero on the left, and the sign on the right.
        rw [hm, List.replicate_succ] at h
        exact absurd (List.cons.inj h).1 (by decide)
      · intro h
        have hnone : width - (1 + (numeral v.natAbs).length) = 0 := by omega
        rw [hnone]
        rfl
    · simp [hneg, sign]

/-- A directive appends the numeral of its argument in these cases, and in no others. -/
theorem sprintfInt_eq_iff (hlow : -2 ^ 31 ≤ v) (hhigh : v < 2 ^ 31) (hwidth : width ≤ 9)
    (zero : Bool) (str : Text) :
    sprintfInt zero width v str = some (str ++ padded zero width v) ↔ Renders zero width v := by
  by_cases hsmall : v.natAbs < 10 ^ 9
  · by_cases hv : v = 0
    · subst hv
      rw [sprintfInt_zero_iff]
      simp [Renders]
    · rw [sprintfInt_digits_iff hv hsmall]
      exact ⟨fun h => ⟨hsmall, fun hzero => absurd hzero hv, h⟩, fun h => h.2.2⟩
  refine iff_of_false (fun h => ?_) fun h => hsmall h.1
  by_cases hmin : v = -2 ^ 31
  · -- No width is as wide as the numeral.
    subst hmin
    have hnumeral : (numeral (-2 ^ 31 : ℤ).natAbs).length = 10 := by decide +kernel
    have hsign : (sign (-2 ^ 31)).length = 1 := rfl
    have hpadded : 11 ≤ (padded zero width (-2 ^ 31)).length := by
      unfold padded
      cases zero <;>
        simp only [Bool.false_eq_true, if_false, if_true, List.length_append, hsign,
          hnumeral] <;> omega
    rw [sprintfInt_min, padInt_eq] at h
    generalize (if zero then '0' else ' ').toUInt8 = pad at h
    split at h
    · contradiction
    · have hlength := congrArg List.length (Option.some.inj h)
      have hone : (cstr "0").length = 1 ∧ (cstr "-").length = 1 := ⟨rfl, rfl⟩
      simp only [List.length_append, List.length_dropLast, List.length_replicate, hone] at hlength
      omega
  · rw [sprintfInt_large hlow hhigh] at h
    · contradiction
    · exact not_or.2 ⟨hsmall, hmin⟩

/-! ## The directive in its format -/

theorem spacesOf_numeral : ∀ width : ℕ, width < 10 → 0 < width → ∃ c, numeral width = [c] ∧
    c ≠ '0'.toUInt8 ∧ '0'.toUInt8 < c ∧ c ≤ '9'.toUInt8 ∧ c.toNat - '0'.toNat = width := by
  have hdigit : ∀ width : ℕ, width < 10 → 0 < width →
      let c := UInt8.ofNat (48 + width)
      numeral width = [c] ∧ c ≠ '0'.toUInt8 ∧ '0'.toUInt8 < c ∧ c ≤ '9'.toUInt8 ∧
        c.toNat - '0'.toNat = width := by decide
  exact fun width hwidth hpos => ⟨_, hdigit width hwidth hpos⟩

theorem rtxSprintfLoop_directive {letter : Char} (hwidth : width ≤ 9)
    (hletter : letter = 'd' ∨ letter = 'i') (fuel : ℕ) (format : Text) (params : List Param) :
    rtxSprintfLoop (fuel + 1) (directive zero width letter ++ format) (.int v :: params) str =
      (sprintfInt zero width v str).bind (rtxSprintfLoop fuel format params) := by
  have hflag : zeroFlag ((if zero then cstr "0" else []) ++
      ((if width = 0 then [] else numeral width) ++ letter.toUInt8 :: format)) =
        (zero, (if width = 0 then [] else numeral width) ++ letter.toUInt8 :: format) := by
    cases zero with
    | true => rfl
    | false =>
      by_cases hzero : width = 0
      · rw [if_pos hzero]
        rcases hletter with rfl | rfl <;> rfl
      · obtain ⟨c, hc, hne, -⟩ := spacesOf_numeral width (by omega) (Nat.pos_of_ne_zero hzero)
        simp [hzero, hc, zeroFlag, hne]
  have hspaces : spacesOf ((if width = 0 then [] else numeral width) ++ letter.toUInt8 :: format) =
      (width, letter.toUInt8 :: format) := by
    by_cases hzero : width = 0
    · rw [if_pos hzero, hzero]
      rcases hletter with rfl | rfl <;> rfl
    · obtain ⟨c, hc, -, hlow, hhigh, heq⟩ :=
        spacesOf_numeral width (by omega) (Nat.pos_of_ne_zero hzero)
      simpa [hzero, hc, spacesOf, hlow, hhigh] using heq
  have hformat : directive zero width letter ++ format = '%'.toUInt8 ::
      ((if zero then cstr "0" else []) ++
        ((if width = 0 then [] else numeral width) ++ letter.toUInt8 :: format)) := by
    simp [directive]
  rw [hformat, rtxSprintfLoop, if_pos rfl, hflag]
  simp only [hspaces]
  rcases hletter with rfl | rfl <;> rfl

/-- A directive for an integer, with or without the flag and of any width, appends the padded
numeral of its argument to what is there and the loop goes on behind it, if the number has at most
nine digits, a zero has a width, and zeros need not fill more than the place of a minus sign: and
only then. -/
theorem sprintf_int_faithful_iff {letter : Char} (hlow : -2 ^ 31 ≤ v) (hhigh : v < 2 ^ 31)
    (hwidth : width ≤ 9) (hletter : letter = 'd' ∨ letter = 'i') (zero : Bool) (str : Text) :
    (∀ fuel format params,
      rtxSprintfLoop (fuel + 1) (directive zero width letter ++ format) (.int v :: params) str =
        rtxSprintfLoop fuel format params (str ++ padded zero width v)) ↔ Renders zero width v := by
  rw [← sprintfInt_eq_iff hlow hhigh hwidth zero str]
  constructor
  · intro h
    -- At the end of the format the loop gives the text back.
    have hend := h 1 [] []
    rw [rtxSprintfLoop_directive hwidth hletter] at hend
    cases hint : sprintfInt zero width v str with
    | none => simp [hint, rtxSprintfLoop] at hend
    | some text => simpa [hint, rtxSprintfLoop] using hend
  · intro h fuel format params
    rw [rtxSprintfLoop_directive hwidth hletter, h, Option.bind_some]

theorem sprintf_int_faithful_iff_trace :
    (-2 ^ 31 ≤ (-17 : ℤ) ∧ (-17 : ℤ) < 2 ^ 31 ∧ 4 ≤ 9 ∧ ('d' = 'd' ∨ 'd' = 'i')) ∧
      ((∀ fuel format params,
        rtxSprintfLoop (fuel + 1) (directive false 4 'd' ++ format) (.int (-17) :: params)
            (cstr "at ") =
          rtxSprintfLoop fuel format params (cstr "at " ++ padded false 4 (-17))) ↔
        Renders false 4 (-17)) ∧ padded false 4 (-17) = cstr " -17" :=
  ⟨by decide,
    sprintf_int_faithful_iff (by decide) (by decide) (by decide) (Or.inl rfl) false (cstr "at "),
    by decide +kernel⟩

/-- `%06d` of -17 puts the sign behind the zeros; `%d` of a zero is written over the character
before it, or in front of the string; ten digits end with a division by zero. -/
theorem sprintf_int_unfaithful :
    rtxSprintf (directive true 6 'd') [.int (-17)] = some (cstr "000-17") ∧
      padded true 6 (-17) = cstr "-00017" ∧
      rtxSprintf (cstr "x" ++ directive false 0 'd') [.int 0] = some (cstr "0") ∧
      rtxSprintf (directive false 0 'd') [.int 0] = none ∧
      rtxSprintf (directive false 0 'd') [.int (10 ^ 9)] = none := by
  decide +kernel

/-! ## The arithmetic of the two loops -/

/-- A value of a signed 32-bit integer. -/
def InInt (x : ℤ) : Prop := -2 ^ 31 ≤ x ∧ x < 2 ^ 31

/-- The digit-counting loop comes to its end without an overflow or a division by zero. -/
inductive CountsSafely (num : ℤ) : ℕ → ℤ → ℕ → ℤ → Prop
  | stop {size : ℕ} {div : ℤ} (hdiv : div ≠ 0) (hquot : ¬ num.tdiv div > 0) :
      CountsSafely num size div size div
  | step {size size' : ℕ} {div div' : ℤ} (hdiv : div ≠ 0) (hquot : num.tdiv div > 0)
      (hmul : InInt (div * 10)) (h : CountsSafely num (size + 1) (div * 10) size' div') :
      CountsSafely num size div size' div'

/-- The digit-emitting loop does, and what it emits are digits. -/
inductive EmitsSafely : ℕ → ℤ → ℤ → Prop
  | stop {num div : ℤ} : EmitsSafely 0 num div
  | step {size : ℕ} {num div : ℤ} (hdiv : div ≠ 0) (hlow : 0 ≤ num.tdiv div)
      (hhigh : num.tdiv div ≤ 9) (hmul : InInt (num.tdiv div * div))
      (h : EmitsSafely size (wrap32 (num - num.tdiv div * div)) (div.tdiv 10)) :
      EmitsSafely (size + 1) num div

/-- The arithmetic for one argument. -/
def SafeArithmetic (value : ℤ) : Prop :=
  (value < 0 → InInt (value * -1)) ∧
    let num := if value < 0 then value * -1 else value
    ∃ size div, CountsSafely num 0 1 size div ∧ EmitsSafely size num (div.tdiv 10)

theorem CountsSafely.sizeLoop_eq {num : ℤ} {size size' : ℕ} {div div' : ℤ}
    (h : CountsSafely num size div size' div') {fuel : ℕ} {r : ℕ × ℤ}
    (hloop : sizeLoop num fuel size div = some r) : r = (size', div') := by
  induction h generalizing fuel with
  | stop hdiv hquot =>
    cases fuel with
    | zero => contradiction
    | succ fuel =>
      rw [sizeLoop, if_neg hdiv, if_neg hquot] at hloop
      exact (Option.some.inj hloop).symm
  | step hdiv hquot hmul h ih =>
    cases fuel with
    | zero => contradiction
    | succ fuel =>
      rw [sizeLoop, if_neg hdiv, if_pos hquot, wrap32_of_range hmul.1 hmul.2] at hloop
      exact ih hloop

theorem EmitsSafely.digitLoop_isSome {size : ℕ} {num div : ℤ} (h : EmitsSafely size num div)
    (str : Text) : (digitLoop size num div str).isSome = true := by
  induction h generalizing str with
  | stop => rfl
  | step hdiv _ _ hmul h ih =>
    rw [digitLoop, if_neg hdiv]
    simp only [wrap32_of_range hmul.1 hmul.2]
    exact ih _

/-- A number whose arithmetic is safe is written, if there is something before it. -/
theorem SafeArithmetic.sprintfInt_isSome {value : ℤ} (h : SafeArithmetic value)
    (hlow : -2 ^ 31 ≤ value) (hhigh : value < 2 ^ 31) (hstr : str ≠ []) :
    (sprintfInt zero width value str).isSome = true := by
  obtain ⟨hneg, size, div, hcount, hemit⟩ := h
  obtain ⟨size', div', hloop, -⟩ := sizeLoop_cases hlow hhigh
  have hnum : (if value < 0 then wrap32 (value * -1) else value) =
      if value < 0 then value * -1 else value := by
    split
    · rename_i hvalue
      exact wrap32_of_range (hneg hvalue).1 (hneg hvalue).2
    · rfl
  rw [hnum] at hloop
  obtain ⟨rfl, rfl⟩ := Prod.mk.inj (hcount.sizeLoop_eq hloop)
  simp only [sprintfInt, hnum, hloop, Option.bind_eq_bind, Option.bind_some]
  rw [if_neg (padInt_ne_nil hstr)]
  split <;> exact hemit.digitLoop_isSome _

theorem countsSafely_of_lt {num : ℤ} (hpos : 0 ≤ num) (hnum : num < 10 ^ 9) :
    ∃ size : ℕ, size ≤ 9 ∧ num < 10 ^ size ∧ CountsSafely num 0 1 size (10 ^ size) := by
  have hcount : ∀ left k : ℕ, k + left = 9 → ∃ size : ℕ, size ≤ 9 ∧ num < 10 ^ size ∧
      CountsSafely num k (10 ^ k) size (10 ^ size) := by
    intro left
    induction left with
    | zero =>
      intro k hk
      obtain rfl : k = 9 := by omega
      refine ⟨9, le_rfl, hnum, .stop (by decide) ?_⟩
      rw [Int.tdiv_eq_zero_of_lt hpos hnum]
      exact lt_irrefl 0
    | succ left ih =>
      intro k hk
      have hpow : (0 : ℤ) < 10 ^ k := pow_pos (by decide) k
      have hbound : (10 : ℤ) ^ k ≤ 10 ^ 8 := pow_le_pow_right₀ (by decide) (by omega)
      rcases lt_or_ge num (10 ^ k) with hlt | hge
      · refine ⟨k, by omega, hlt, .stop hpow.ne' ?_⟩
        rw [Int.tdiv_eq_zero_of_lt hpos hlt]
        exact lt_irrefl 0
      · obtain ⟨size, hsize, hlt, hrest⟩ := ih (k + 1) (by omega)
        rw [pow_succ] at hrest
        exact ⟨size, hsize, hlt,
          .step hpow.ne' (tdiv_pos_of_le hpow hge) ⟨by omega, by omega⟩ hrest⟩
  exact hcount 9 0 rfl

theorem emitsSafely_of_lt {size : ℕ} (hsize : size ≤ 9) {num div : ℤ} (hpos : 0 ≤ num)
    (hnum : num < 10 ^ size) (hdiv : 0 < size → div = 10 ^ (size - 1)) :
    EmitsSafely size num div := by
  induction size generalizing num div with
  | zero => exact .stop
  | succ size ih =>
    obtain rfl : div = 10 ^ size := hdiv (Nat.succ_pos size)
    have hpow : (0 : ℤ) < 10 ^ size := pow_pos (by decide) size
    have hbound : (10 : ℤ) ^ size ≤ 10 ^ 8 := pow_le_pow_right₀ (by decide) (by omega)
    have hquot : num.tdiv (10 ^ size) = num / 10 ^ size := Int.tdiv_eq_ediv_of_nonneg hpos
    have hlow : 0 ≤ num / 10 ^ size := Int.ediv_nonneg hpos hpow.le
    have hhigh : num / 10 ^ size < 10 := Int.ediv_lt_of_lt_mul hpow (by rwa [← pow_succ'])
    have hmul : num / 10 ^ size * 10 ^ size ≤ num := Int.ediv_mul_le num hpow.ne'
    have hmod : num - num / 10 ^ size * 10 ^ size = num % 10 ^ size := by
      have := Int.emod_add_ediv_mul num (10 ^ size)
      omega
    have hnext : num % 10 ^ size < 10 ^ size := Int.emod_lt_of_pos num hpow
    have hnonneg : 0 ≤ num % 10 ^ size := Int.emod_nonneg num hpow.ne'
    have hsmall : num < 10 ^ 9 := hnum.trans_le (pow_le_pow_right₀ (by decide) hsize)
    have hprod : 0 ≤ num / 10 ^ size * 10 ^ size := mul_nonneg hlow hpow.le
    refine .step hpow.ne' (by omega) (by omega) ?_ ?_
    · rw [hquot]
      exact ⟨by omega, by omega⟩
    · rw [hquot, hmod, wrap32_of_range (by omega) (by omega)]
      refine ih (by omega) hnonneg hnext fun hs => ?_
      obtain ⟨k, rfl⟩ : ∃ k, size = k + 1 := ⟨size - 1, by omega⟩
      rw [pow_succ]
      exact Int.mul_tdiv_cancel _ (by decide)

theorem not_countsSafely {num : ℤ} (hnum : 10 ^ 9 ≤ num) {size size' : ℕ} {div div' : ℤ}
    (h : CountsSafely num size div size' div') : ∀ k ≤ 9, div ≠ 10 ^ k := by
  induction h with
  | stop hdiv hquot =>
    rintro k hk rfl
    have hpow : (0 : ℤ) < 10 ^ k := pow_pos (by decide) k
    have hle : (10 : ℤ) ^ k ≤ num := (pow_le_pow_right₀ (by decide) hk).trans hnum
    exact hquot (tdiv_pos_of_le hpow hle)
  | step hdiv hquot hmul h ih =>
    rintro k hk rfl
    rcases hk.lt_or_eq with hlt | rfl
    · exact ih (k + 1) hlt (pow_succ 10 k).symm
    · exact absurd hmul.2 (by decide)

/-- The arithmetic is safe for the numbers with at most nine digits, and for no others. -/
theorem sprintf_arithmetic_safe_iff {value : ℤ} (hlow : -2 ^ 31 ≤ value) (hhigh : value < 2 ^ 31) :
    SafeArithmetic value ↔ value.natAbs < 10 ^ 9 := by
  have hnum : (if value < 0 then value * -1 else value) = value.natAbs := by
    split <;> omega
  simp only [SafeArithmetic, hnum]
  constructor
  · rintro ⟨-, size, div, hcount, -⟩
    by_contra hlarge
    exact not_countsSafely (by omega) hcount 0 (by decide) (pow_zero 10).symm
  · intro hsmall
    have hnat : (value.natAbs : ℤ) < 10 ^ 9 := by omega
    obtain ⟨size, hsize, hlt, hcount⟩ := countsSafely_of_lt (Int.natCast_nonneg _) hnat
    refine ⟨fun hneg => ⟨by omega, by omega⟩, size, 10 ^ size, hcount,
      emitsSafely_of_lt hsize (Int.natCast_nonneg _) hlt fun hpos => ?_⟩
    obtain ⟨k, rfl⟩ : ∃ k, size = k + 1 := ⟨size - 1, by omega⟩
    rw [pow_succ]
    exact Int.mul_tdiv_cancel _ (by decide)

theorem sprintf_arithmetic_safe_iff_nine_digits :
    SafeArithmetic (-999999999) ↔ (-999999999 : ℤ).natAbs < 10 ^ 9 :=
  sprintf_arithmetic_safe_iff (by decide) (by decide)

/-- The negation of the smallest number overflows, and so does the divisor for ten digits: it ends
as a wrong power, that runs out before the digits do. -/
theorem sprintf_arithmetic_unsafe :
    ¬ InInt (-2 ^ 31 * -1) ∧ ¬ SafeArithmetic (-2 ^ 31) ∧ ¬ SafeArithmetic (10 ^ 9) ∧
      sizeLoop (10 ^ 9) 33 0 1 = some (10, 1410065408) ∧
      sprintfInt false 0 (10 ^ 9) [] = none := by
  refine ⟨fun h => absurd h.2 (by decide), fun h => absurd (h.1 (by decide)).2 (by decide), ?_,
    by decide +kernel, by decide +kernel⟩
  rintro ⟨-, size, div, hcount, -⟩
  exact not_countsSafely (by decide) hcount 0 (by decide) (pow_zero 10).symm

end Rtx.Coldfire
