import Mathlib.Data.Nat.Digits.Defs
import Rtx.Coldfire.Tokens

/-!
# Reading integers

What `rtx_atoi` accepts: spaces, at most one sign, and then one or more characters that pass its
digit test. The test compares with ten where nine is meant, so it lets the colon through, which
follows the nine. But for this a string is accepted exactly if it is the numeral of an integer, and
then the integer is stored if it fits (`rtx_atoi_decimal_iff`).
-/

namespace Rtx.Coldfire

/-! ## Numerals -/

/-- A decimal digit. -/
def IsDigit (c : UInt8) : Prop := '0'.toUInt8 ≤ c ∧ c ≤ '9'.toUInt8

/-- What the test of the code lets through. -/
def PassesTest (c : UInt8) : Prop := '0'.toUInt8 ≤ c ∧ c ≤ ':'.toUInt8

/-- The signs a numeral can have, and if they make it negative. -/
inductive IsSign : Text → Bool → Prop
  | none : IsSign [] false
  | plus : IsSign (cstr "+") false
  | minus : IsSign (cstr "-") true

/-- Spaces, at most one sign, and then one or more characters of the kind. -/
def Scans (kind : UInt8 → Prop) (str : Text) (neg : Bool) (digits : Text) : Prop :=
  digits ≠ [] ∧ (∀ c ∈ digits, kind c) ∧ ∃ spaces sign, IsSign sign neg ∧
    str = List.replicate spaces ' '.toUInt8 ++ sign ++ digits

/-- The value of a digit sequence, the highest first. -/
def digitsValue (digits : Text) : ℕ :=
  Nat.ofDigits 10 (digits.reverse.map fun c => c.toNat - '0'.toNat)

/-- `str` is a numeral of the integer. -/
def IsNumeral (str : Text) (v : ℤ) : Prop :=
  ∃ neg digits, Scans IsDigit str neg digits ∧
    v = (if neg then -1 else 1) * (digitsValue digits : ℤ)

/-- What `rtx_atoi` is to do with a string: it accepts the numerals and nothing else, and stores the
values that fit. -/
def AtoiMeets (str : Text) : Prop :=
  ((rtxAtoi str).1 = 1 ↔ ∃ v, IsNumeral str v) ∧
    (∀ v, IsNumeral str v → -2 ^ 31 ≤ v → v < 2 ^ 31 → (rtxAtoi str).2 = some v) ∧
    ((¬ ∃ v, IsNumeral str v) → (rtxAtoi str).1 = 0)

/-- The string has the form of a numeral, with one or more colons among the digits. -/
def ColonNumeral (str : Text) : Prop :=
  ∃ neg digits, Scans PassesTest str neg digits ∧ ':'.toUInt8 ∈ digits

/-! ## The loop over the digits -/

theorem passesTest_iff (c : UInt8) : PassesTest c ↔
    ¬ (((c.toNat : ℤ) - '0'.toNat).bmod (2 ^ 8) < 0 ∨
      ((c.toNat : ℤ) - '0'.toNat).bmod (2 ^ 8) > 10) := by
  have hlt : c.toNat < 256 := c.toNat_lt
  have hzero : '0'.toUInt8.toNat = 48 := rfl
  have hcolon : ':'.toUInt8.toNat = 58 := rfl
  have hnat : '0'.toNat = 48 := rfl
  rw [PassesTest, UInt8.le_iff_toNat_le, UInt8.le_iff_toNat_le, hzero, hcolon, hnat, Int.bmod_def]
  split <;> omega

theorem PassesTest.bmod_eq {c : UInt8} (h : PassesTest c) :
    ((c.toNat : ℤ) - '0'.toNat).bmod (2 ^ 8) = (c.toNat - '0'.toNat : ℕ) := by
  have hlow : '0'.toUInt8.toNat ≤ c.toNat := UInt8.le_iff_toNat_le.1 h.1
  have hhigh : c.toNat ≤ ':'.toUInt8.toNat := UInt8.le_iff_toNat_le.1 h.2
  have hzero : '0'.toUInt8.toNat = 48 := rfl
  have hcolon : ':'.toUInt8.toNat = 58 := rfl
  have hnat : '0'.toNat = 48 := rfl
  rw [hnat, Int.bmod_def]
  split <;> omega

theorem IsDigit.passesTest {c : UInt8} (h : IsDigit c) : PassesTest c :=
  ⟨h.1, UInt8.le_trans h.2 (by decide)⟩

/-- The colon is what the test lets through besides. -/
theorem PassesTest.isDigit {c : UInt8} (h : PassesTest c) (hc : c ≠ ':'.toUInt8) : IsDigit c := by
  refine ⟨h.1, ?_⟩
  have hle : c.toNat ≤ ':'.toUInt8.toNat := UInt8.le_iff_toNat_le.1 h.2
  have hne : c.toNat ≠ ':'.toUInt8.toNat := fun heq => hc (UInt8.toNat_inj.1 heq)
  have hcolon : ':'.toUInt8.toNat = 58 := rfl
  have hnine : '9'.toUInt8.toNat = 57 := rfl
  rw [UInt8.le_iff_toNat_le]
  omega

theorem wrap32_mul_add (n t : ℤ) : wrap32 (wrap32 (wrap32 n * 10) + t) = wrap32 (n * 10 + t) := by
  simp only [wrap32, Int.bmod_mul_bmod, Int.bmod_add_bmod]

theorem rtxAtoiLoop_eq {digits : Text} (h : ∀ c ∈ digits, PassesTest c) (n : ℕ) (ret : ℤ) :
    rtxAtoiLoop digits (wrap32 n) ret = some
      (wrap32 (digits.foldl (fun n c => n * 10 + (c.toNat - '0'.toNat)) n : ℕ),
        if digits = [] then ret else 1) := by
  induction digits generalizing n ret with
  | nil => rfl
  | cons c digits ih =>
    have hc : PassesTest c := h c List.mem_cons_self
    have hrest : ∀ c ∈ digits, PassesTest c := fun d hd => h d (List.mem_cons_of_mem c hd)
    rw [rtxAtoiLoop, if_neg ((passesTest_iff c).1 hc), hc.bmod_eq, wrap32_mul_add]
    have hcast : ((n : ℤ) * 10 + (c.toNat - '0'.toNat : ℕ)) =
        (n * 10 + (c.toNat - '0'.toNat) : ℕ) := by
      push_cast
      rfl
    rw [hcast, ih hrest, List.foldl_cons]
    simp

theorem digitsValue_eq (digits : Text) :
    digits.foldl (fun n c => n * 10 + (c.toNat - '0'.toNat)) 0 = digitsValue digits := by
  have hfold : ∀ n : ℕ, digits.foldl (fun n c => n * 10 + (c.toNat - '0'.toNat)) n =
      n * 10 ^ digits.length + digitsValue digits := by
    induction digits with
    | nil => simp [digitsValue]
    | cons c digits ih =>
      intro n
      have hvalue : digitsValue (c :: digits) =
          digitsValue digits + 10 ^ digits.length * (c.toNat - '0'.toNat) := by
        simp [digitsValue, Nat.ofDigits_append]
      rw [List.foldl_cons, ih, hvalue, List.length_cons, pow_succ]
      ring
  simpa using hfold 0

theorem rtxAtoiLoop_eq_none {digits : Text} (h : ¬ ∀ c ∈ digits, PassesTest c) (num ret : ℤ) :
    rtxAtoiLoop digits num ret = none := by
  induction digits generalizing num ret with
  | nil => exact absurd (fun c hc => absurd hc List.not_mem_nil) h
  | cons c digits ih =>
    rw [rtxAtoiLoop]
    by_cases hc : PassesTest c
    · rw [if_neg ((passesTest_iff c).1 hc)]
      exact ih (fun hrest => h (List.forall_mem_cons.2 ⟨hc, hrest⟩)) _ _
    · exact if_pos (not_not.1 ((passesTest_iff c).not.1 hc))

/-! ## The whole string -/

/-- What the code does behind the sign. -/
def atoiTail (neg : ℤ) (rest : Text) : ℤ × Option ℤ :=
  match rtxAtoiLoop rest 0 0 with
  | none => (0, none)
  | some (num, ret) => (ret, some (wrap32 (neg * num)))

/-- A text that is neither more spaces nor a sign. -/
def Plain (rest : Text) : Prop :=
  ∀ c ∈ rest.head?, c ≠ ' '.toUInt8 ∧ c ≠ '-'.toUInt8 ∧ c ≠ '+'.toUInt8

theorem dropWhile_spaces (spaces : ℕ) {rest : Text} (h : ∀ c ∈ rest.head?, c ≠ ' '.toUInt8) :
    (List.replicate spaces ' '.toUInt8 ++ rest).dropWhile (· = ' '.toUInt8) = rest := by
  induction spaces with
  | zero =>
    cases rest with
    | nil => rfl
    | cons c rest =>
      have hc : c ≠ ' '.toUInt8 := h c rfl
      simp [hc]
  | succ spaces ih => simpa [List.replicate_succ] using ih

theorem rtxAtoi_eq {sign rest : Text} {neg : Bool} (hsign : IsSign sign neg)
    (hplain : sign = [] → Plain rest) (spaces : ℕ) :
    rtxAtoi (List.replicate spaces ' '.toUInt8 ++ sign ++ rest) =
      atoiTail (if neg then -1 else 1) rest := by
  have hhead : ∀ c ∈ (sign ++ rest).head?, c ≠ ' '.toUInt8 := by
    cases hsign with
    | none => exact fun c hc => (hplain rfl c hc).1
    | plus =>
      rintro c ⟨⟩
      decide
    | minus =>
      rintro c ⟨⟩
      decide
  unfold rtxAtoi
  rw [List.append_assoc, dropWhile_spaces spaces hhead]
  cases hsign with
  | none =>
    cases rest with
    | nil => rfl
    | cons c rest =>
      obtain ⟨-, hminus, hplus⟩ := hplain rfl c rfl
      simp only [List.nil_append, hminus, hplus, if_false]
      rfl
  | plus => rfl
  | minus => rfl

/-- Every string is spaces, a sign or none, and a rest. -/
theorem exists_split (str : Text) : ∃ spaces sign neg rest, IsSign sign neg ∧
    (sign = [] → Plain rest) ∧ str = List.replicate spaces ' '.toUInt8 ++ sign ++ rest := by
  induction str with
  | nil => exact ⟨0, [], false, [], .none, fun _ c hc => absurd hc (by simp), rfl⟩
  | cons c str ih =>
    by_cases hspace : c = ' '.toUInt8
    · obtain ⟨spaces, sign, neg, rest, hsign, hplain, rfl⟩ := ih
      exact ⟨spaces + 1, sign, neg, rest, hsign, hplain, by simp [hspace, List.replicate_succ]⟩
    by_cases hminus : c = '-'.toUInt8
    · exact ⟨0, cstr "-", true, str, .minus, fun h => absurd h (by decide), by rw [hminus]; rfl⟩
    by_cases hplus : c = '+'.toUInt8
    · exact ⟨0, cstr "+", false, str, .plus, fun h => absurd h (by decide), by rw [hplus]; rfl⟩
    refine ⟨0, [], false, c :: str, .none, fun _ d hd => ?_, rfl⟩
    obtain rfl : c = d := Option.some.inj hd
    exact ⟨hspace, hminus, hplus⟩

theorem plain_of_passesTest {digits : Text} (h : ∀ c ∈ digits, PassesTest c) : Plain digits := by
  intro c hc
  have hpass : PassesTest c := h c (List.mem_of_mem_head? hc)
  refine ⟨?_, ?_, ?_⟩
  all_goals
    rintro rfl
    exact absurd hpass.1 (by decide)

theorem Scans.mono {kind kind' : UInt8 → Prop} {str digits : Text} {neg : Bool}
    (h : Scans kind str neg digits) (hkind : ∀ c ∈ digits, kind' c) : Scans kind' str neg digits :=
  ⟨h.1, hkind, h.2.2⟩

theorem rtxAtoi_of_scans {str digits : Text} {neg : Bool} (h : Scans PassesTest str neg digits) :
    rtxAtoi str = (1, some (wrap32 ((if neg then -1 else 1) * (digitsValue digits : ℤ)))) := by
  obtain ⟨hne, hpass, spaces, sign, hsign, rfl⟩ := h
  have hloop := rtxAtoiLoop_eq hpass 0 0
  rw [digitsValue_eq, if_neg hne] at hloop
  have hzero : wrap32 ((0 : ℕ) : ℤ) = 0 := rfl
  rw [hzero] at hloop
  rw [rtxAtoi_eq hsign fun _ => plain_of_passesTest hpass]
  simp only [atoiTail, hloop, wrap32, Int.mul_bmod_bmod]

theorem rtxAtoi_of_not_scans {str : Text} (h : ¬ ∃ neg digits, Scans PassesTest str neg digits) :
    (rtxAtoi str).1 = 0 := by
  obtain ⟨spaces, sign, neg, rest, hsign, hplain, rfl⟩ := exists_split str
  rw [rtxAtoi_eq hsign hplain, atoiTail]
  by_cases hpass : ∀ c ∈ rest, PassesTest c
  · by_cases hne : rest = []
    · rw [hne]
      rfl
    · exact absurd ⟨neg, rest, hne, hpass, spaces, sign, hsign, rfl⟩ h
  · rw [rtxAtoiLoop_eq_none hpass]

theorem IsNumeral.scans {str : Text} {v : ℤ} (h : IsNumeral str v) :
    ∃ neg digits, Scans PassesTest str neg digits := by
  obtain ⟨neg, digits, hscans, -⟩ := h
  exact ⟨neg, digits, hscans.mono fun c hc => (hscans.2.1 c hc).passesTest⟩

theorem IsNumeral.not_mem {str : Text} {v : ℤ} (h : IsNumeral str v) : ':'.toUInt8 ∉ str := by
  obtain ⟨neg, digits, ⟨-, hdigits, spaces, sign, hsign, rfl⟩, -⟩ := h
  simp only [List.mem_append, List.mem_replicate, not_or]
  refine ⟨⟨fun hspace => absurd hspace.2 (by decide), ?_⟩, fun hcolon => ?_⟩
  · cases hsign <;> decide
  · exact absurd (hdigits _ hcolon).2 (by decide)

/-- The code accepts the numerals and nothing else, and stores their values, for exactly the strings
that do not have colons among the digits of a numeral. -/
theorem rtx_atoi_decimal_iff (str : Text) : AtoiMeets str ↔ ¬ ColonNumeral str := by
  by_cases hscans : ∃ neg digits, Scans PassesTest str neg digits
  · obtain ⟨neg, digits, hscan⟩ := hscans
    have hrun := rtxAtoi_of_scans hscan
    by_cases hcolon : ':'.toUInt8 ∈ digits
    · refine iff_of_false (fun h => ?_) fun h => h ⟨neg, digits, hscan, hcolon⟩
      obtain ⟨v, hnumeral⟩ := h.1.1 (by rw [hrun])
      obtain ⟨-, -, spaces, sign, -, rfl⟩ := hscan
      exact hnumeral.not_mem (List.mem_append_right _ hcolon)
    · have hdigits : ∀ c ∈ digits, IsDigit c := fun c hc =>
        (hscan.2.1 c hc).isDigit fun heq => hcolon (heq ▸ hc)
      have hnumeral : ∃ v, IsNumeral str v := ⟨_, neg, digits, hscan.mono hdigits, rfl⟩
      refine iff_of_true ⟨iff_of_true (by rw [hrun]) hnumeral, ?_, fun h => absurd hnumeral h⟩ ?_
      · rintro v ⟨neg, digits, hscan, rfl⟩ hlow hhigh
        rw [rtxAtoi_of_scans (hscan.mono fun c hc => (hscan.2.1 c hc).passesTest),
          wrap32_of_range hlow hhigh]
      · rintro ⟨neg', digits', hscan', hcolon'⟩
        obtain ⟨v, hnumeral⟩ := hnumeral
        obtain ⟨-, -, spaces, sign, -, rfl⟩ := hscan'
        exact hnumeral.not_mem (List.mem_append_right _ hcolon')
  · have hrun := rtxAtoi_of_not_scans hscans
    have hnone : ¬ ∃ v, IsNumeral str v := fun h => hscans h.choose_spec.scans
    refine iff_of_true ⟨iff_of_false (by rw [hrun]; decide) hnone, fun v hv => ?_, fun _ => hrun⟩ ?_
    · exact absurd ⟨v, hv⟩ hnone
    · rintro ⟨neg, digits, hscan, -⟩
      exact hscans ⟨neg, digits, hscan⟩

/-- `rtx_atoi("1:", &num)` returns 1 and stores 20. -/
theorem rtx_atoi_accepts_colon : rtxAtoi (cstr "1:") = (1, some 20) ∧ ¬ AtoiMeets (cstr "1:") := by
  have hrun : rtxAtoi (cstr "1:") = (1, some 20) := by decide +kernel
  refine ⟨hrun, fun h => ?_⟩
  obtain ⟨v, hnumeral⟩ := h.1.1 (by rw [hrun])
  exact hnumeral.not_mem (by decide)

example : rtxAtoi (cstr "  -14") = (1, some (-14)) := by decide +kernel

end Rtx.Coldfire
