import Rtx.Coldfire.Utils

/-!
# Copying, comparing and splitting strings

`rtx_strcpy`, `rtx_strcmp`, `rtx_strtok` and `rtx_atoi` of `utils.c`. A `char` is signed.
-/

namespace Rtx.Coldfire

/-- The loop of `rtx_strcpy` from `i` on: what goes to `str[i]` and behind. -/
def rtxStrcpyLoop (strSize : ℤ) : ℕ → Text → Text
  | _, [] => []
  | i, c :: cpyStr => if strSize > i - 1 then c :: rtxStrcpyLoop strSize (i + 1) cpyStr else []

/-- `rtx_strcpy`: the text that `str` is afterwards. -/
def rtxStrcpy (cpyStr : Text) (strSize : ℤ) : Text := rtxStrcpyLoop strSize 0 cpyStr

/-- The text and its NUL, written to the start of a body. -/
def putText (b : Body) (text : Text) : Body := fun i => (text ++ [0]).getD i (b i)

/-- The loop of `rtx_strcmp`. At the end of the shorter string its NUL makes the difference. -/
def rtxStrcmp : Text → Text → ℤ
  | [], [] => 0
  | c :: str1, d :: str2 => if c ≠ d then 1 else rtxStrcmp str1 str2
  | _, _ => 1

@[simp] theorem rtxStrcmp_eq_zero_iff {str1 str2 : Text} :
    rtxStrcmp str1 str2 = 0 ↔ str1 = str2 := by
  induction str1 generalizing str2 with
  | nil => cases str2 <;> simp [rtxStrcmp]
  | cons c str1 ih =>
    cases str2 with
    | nil => simp [rtxStrcmp]
    | cons d str2 =>
      by_cases hcd : c = d
      · simp [rtxStrcmp, hcd, ih]
      · simp [rtxStrcmp, hcd]

/-- `_findChar`. -/
def findChar (ch : UInt8) (str : Text) : ℤ := if ch ∈ str then 1 else 0

/-- `rtx_strtok`: the token, and what is left of `copy` behind `i`. At most 101 characters are
copied, so `i` does not leave its byte. -/
def rtxStrtok (str : Option Text) (copy : Text) (delimiters : Text) : Text × Text :=
  let copy := match str with
    | some str => rtxStrcpy str 100
    | none => copy
  let copy := copy.dropWhile fun ch => findChar ch delimiters = 1
  (copy.takeWhile fun ch => findChar ch delimiters = 0,
    copy.dropWhile fun ch => findChar ch delimiters = 0)

/-- The loop of `rtx_atoi` over the digits; nothing where it returns early. -/
def rtxAtoiLoop : Text → ℤ → ℤ → Option (ℤ × ℤ)
  | [], num, ret => some (num, ret)
  | c :: str, num, _ =>
    let tmp := ((c.toNat : ℤ) - '0'.toNat).bmod (2 ^ 8)
    if tmp < 0 ∨ tmp > 10 then none
    else rtxAtoiLoop str (wrap32 (wrap32 (num * 10) + tmp)) 1

/-- `rtx_atoi`: what it returns, and what it writes to `num_p`. -/
def rtxAtoi (str : Text) : ℤ × Option ℤ :=
  let str := str.dropWhile (· = ' '.toUInt8)
  let (neg, str) : ℤ × Text := match str with
    | c :: rest =>
      if c = '-'.toUInt8 then (-1, rest) else if c = '+'.toUInt8 then (1, rest) else (1, c :: rest)
    | [] => (1, [])
  match rtxAtoiLoop str 0 0 with
  | none => (0, none)
  | some (num, ret) => (ret, some (wrap32 (neg * num)))

end Rtx.Coldfire
