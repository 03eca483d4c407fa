import Rtx.Coldfire.Strtok
import Rtx.Coldfire.Wallclock

/-!
# The wall clock of the Unix port

`_setWallClock`, which does not look at the length of its argument: it reads behind a NUL that comes
early. `atoi` of the C library takes leading white space, a sign and digits, and gives zero for
anything else, so everything but two digits with too large a number passes for a field (`Lenient`).

`set_wall_clock_iff` says for both ports which strings the code does what it is to do with.
-/

namespace Rtx.Unix

open Coldfire (Body Text TextAt Wallclock IsDigit IsTime SetsClock colon digitValue codeSuccess
  errorNullArg errorIllegalArg cstr timeText twoDigits)

/-! ## `atoi` -/

/-- `isspace`. -/
def isspace (c : UInt8) : Bool := decide (c = 32 ∨ 9 ≤ c ∧ c ≤ 13)

/-- `isdigit`. -/
def isdigit (c : UInt8) : Bool := decide ('0'.toUInt8 ≤ c ∧ c ≤ '9'.toUInt8)

/-- The number of the leading digits. -/
def leadingDigits (str : Text) : ℕ :=
  (str.takeWhile isdigit).foldl (fun n c => n * 10 + digitValue c) 0

/-- `atoi`, of a string whose number fits. -/
def atoi (str : Text) : ℤ :=
  match str.dropWhile isspace with
  | [] => 0
  | c :: str =>
    if c = '-'.toUInt8 then -leadingDigits str
    else if c = '+'.toUInt8 then leadingDigits str
    else leadingDigits (c :: str)

/-- The text of an array of three bytes, the last of them NUL. -/
def fieldText (c d : UInt8) : Text := [c, d].takeWhile (· ≠ 0)

/-! ## The code -/

namespace Wallclock

/-- `_setWallClock` at the system time `now`. `offset` is unsigned. -/
def setWallClock (s : Coldfire.Wallclock) (timeParam : Option Body) (now : ℤ) :
    ℤ × Coldfire.Wallclock :=
  match timeParam with
  | none => (errorNullArg, s)
  | some timeParam =>
    if timeParam 2 ≠ colon ∨ timeParam 5 ≠ colon ∨ timeParam 8 ≠ 0 then (errorIllegalArg, s)
    else
      let hr := atoi (fieldText (timeParam 0) (timeParam 1))
      let min := atoi (fieldText (timeParam 3) (timeParam 4))
      let sec := atoi (fieldText (timeParam 6) (timeParam 7))
      if hr > 23 ∨ min > 59 ∨ sec > 59 then (errorIllegalArg, s)
      else (codeSuccess, { s with offset := (hr * 3600 + min * 60 + sec) % 2 ^ 32, ref := now })

/-- Not two digits with a number above the limit. -/
def Below (limit : ℕ) (c d : UInt8) : Prop :=
  IsDigit c → IsDigit d → 10 * digitValue c + digitValue d ≤ limit

/-- An accepted string that has something else than a digit in a field. -/
def Lenient (b : Body) : Prop :=
  b 2 = colon ∧ b 5 = colon ∧ b 8 = 0 ∧ Below 23 (b 0) (b 1) ∧ Below 59 (b 3) (b 4) ∧
    Below 59 (b 6) (b 7) ∧ ¬ ∀ x ∈ [b 0, b 1, b 3, b 4, b 6, b 7], IsDigit x

end Wallclock

/-! ## The fields -/

theorem isdigit_iff {c : UInt8} : isdigit c = true ↔ IsDigit c := decide_eq_true_iff

theorem not_isdigit {c : UInt8} (h : ¬ IsDigit c) : isdigit c = false := by
  rwa [← Bool.not_eq_true, isdigit_iff]

/-- A digit is no white space, no sign and no NUL. -/
theorem plain_of_isDigit {c : UInt8} (h : IsDigit c) :
    isspace c = false ∧ c ≠ '-'.toUInt8 ∧ c ≠ '+'.toUInt8 ∧ c ≠ 0 := by
  have hrange := h.range
  have hne : ∀ d : UInt8, d.toNat < 48 → c ≠ d := by
    rintro d hd rfl
    omega
  refine ⟨?_, hne _ (by decide), hne _ (by decide), hne _ (by decide)⟩
  have hhigh : ¬ c ≤ 13 := fun hle => by
    have := UInt8.le_iff_toNat_le.1 hle
    have h13 : (13 : UInt8).toNat = 13 := rfl
    omega
  simp [isspace, hne 32 (by decide), hhigh]

theorem leadingDigits_nil : leadingDigits [] = 0 := rfl

theorem leadingDigits_cons {c : UInt8} (h : ¬ IsDigit c) (str : Text) :
    leadingDigits (c :: str) = 0 := by
  simp [leadingDigits, not_isdigit h]

theorem leadingDigits_le {c d : UInt8} (h : ¬ (IsDigit c ∧ IsDigit d)) :
    leadingDigits [c, d] ≤ 9 := by
  by_cases hc : IsDigit c
  · have hd : ¬ IsDigit d := fun hd => h ⟨hc, hd⟩
    have := hc.digitValue_le
    simpa [leadingDigits, isdigit_iff.2 hc, not_isdigit hd] using this
  · rw [leadingDigits_cons hc]
    exact Nat.zero_le 9

theorem leadingDigits_one_le (c : UInt8) : leadingDigits [c] ≤ 9 := by
  by_cases hc : IsDigit c
  · have := hc.digitValue_le
    simpa [leadingDigits, isdigit_iff.2 hc] using this
  · rw [leadingDigits_cons hc]
    exact Nat.zero_le 9

theorem atoi_one_le (c : UInt8) : atoi [c] ≤ 9 := by
  have h := leadingDigits_one_le c
  rw [atoi]
  cases hspace : isspace c with
  | true => simp [hspace]
  | false =>
    simp only [List.dropWhile_cons, hspace, Bool.false_eq_true, if_false, leadingDigits_nil]
    split
    · decide
    · split
      · decide
      · exact_mod_cast h

theorem atoi_fieldText {c d : UInt8} (hc : IsDigit c) (hd : IsDigit d) :
    atoi (fieldText c d) = 10 * digitValue c + digitValue d := by
  obtain ⟨hspace, hminus, hplus, hc₀⟩ := plain_of_isDigit hc
  obtain ⟨-, -, -, hd₀⟩ := plain_of_isDigit hd
  have hfield : fieldText c d = [c, d] := by simp [fieldText, hc₀, hd₀]
  have hleading : leadingDigits [c, d] = 10 * digitValue c + digitValue d := by
    simp [leadingDigits, isdigit_iff.2 hc, isdigit_iff.2 hd]
    ring
  rw [hfield, atoi]
  simp only [List.dropWhile_cons, hspace, Bool.false_eq_true, if_false, hminus, hplus, hleading]
  push_cast
  rfl

theorem atoi_fieldText_le {c d : UInt8} (h : ¬ (IsDigit c ∧ IsDigit d)) :
    atoi (fieldText c d) ≤ 9 := by
  by_cases hc₀ : c = 0
  · rw [show fieldText c d = [] by simp [fieldText, hc₀]]
    decide
  by_cases hd₀ : d = 0
  · rw [show fieldText c d = [c] by simp [fieldText, hc₀, hd₀]]
    exact atoi_one_le c
  rw [show fieldText c d = [c, d] by simp [fieldText, hc₀, hd₀]]
  cases hspace : isspace c with
  | true =>
    rw [show atoi [c, d] = atoi [d] by simp [atoi, hspace]]
    exact atoi_one_le d
  | false =>
    have hpair := leadingDigits_le h
    have hone := leadingDigits_one_le d
    rw [atoi]
    simp only [List.dropWhile_cons, hspace, Bool.false_eq_true, if_false]
    split
    · omega
    · split <;> omega

/-- A field is within its limit just when it is no pair of digits above it. -/
theorem atoi_le_iff (limit : ℕ) (hlimit : 9 ≤ limit) (c d : UInt8) :
    atoi (fieldText c d) ≤ limit ↔ Wallclock.Below limit c d := by
  by_cases h : IsDigit c ∧ IsDigit d
  · rw [atoi_fieldText h.1 h.2]
    constructor
    · intro hle _ _
      exact_mod_cast hle
    · intro hbelow
      exact_mod_cast hbelow h.1 h.2
  · have hle := atoi_fieldText_le h
    refine iff_of_true (by omega) fun hc hd => absurd ⟨hc, hd⟩ h

/-! ## What is accepted -/

namespace Wallclock

variable {b : Body} {text : Text} {hh mm ss : ℕ}

theorem bytes_of_isTime (htext : TextAt b 0 text) (h : IsTime text hh mm ss) :
    text = [b 0, b 1, colon, b 3, b 4, colon, b 6, b 7] ∧ b 2 = colon ∧ b 5 = colon ∧ b 8 = 0 := by
  obtain ⟨-, -, -, rfl⟩ := h
  simp only [timeText, twoDigits, List.cons_append, List.nil_append, TextAt] at htext ⊢
  obtain ⟨h₀, -, h₁, -, h₂, -, h₃, -, h₄, -, h₅, -, h₆, -, h₇, -, h₈⟩ := htext
  simp [h₀, h₁, h₂, h₃, h₄, h₅, h₆, h₇, h₈]

/-- Colons in their places, and no field too large. -/
def Accepts (b : Body) : Prop :=
  b 2 = colon ∧ b 5 = colon ∧ b 8 = 0 ∧ Below 23 (b 0) (b 1) ∧ Below 59 (b 3) (b 4) ∧
    Below 59 (b 6) (b 7)

variable {s : Coldfire.Wallclock} {now : ℤ}

theorem setWallClock_accepts (h : Accepts b) :
    setWallClock s (some b) now = (codeSuccess, { s with
      offset := (atoi (fieldText (b 0) (b 1)) * 3600 + atoi (fieldText (b 3) (b 4)) * 60 +
        atoi (fieldText (b 6) (b 7))) % 2 ^ 32
      ref := now }) := by
  obtain ⟨h₂, h₅, h₈, hhr, hmin, hsec⟩ := h
  rw [← atoi_le_iff 23 (by decide)] at hhr
  rw [← atoi_le_iff 59 (by decide)] at hmin hsec
  rw [setWallClock, if_neg (by simp [h₂, h₅, h₈])]
  exact if_neg (by omega)

theorem setWallClock_refuses (h : ¬ Accepts b) :
    setWallClock s (some b) now = (errorIllegalArg, s) := by
  rw [setWallClock]
  split
  · rfl
  rename_i hcolons
  simp only [not_or, not_not] at hcolons
  obtain ⟨h₂, h₅, h₈⟩ := hcolons
  apply if_pos
  by_contra hlimits
  simp only [not_or, not_lt] at hlimits
  obtain ⟨hhr, hmin, hsec⟩ := hlimits
  exact h ⟨h₂, h₅, h₈, (atoi_le_iff 23 (by decide) _ _).1 hhr,
    (atoi_le_iff 59 (by decide) _ _).1 hmin,
    (atoi_le_iff 59 (by decide) _ _).1 hsec⟩

theorem setWallClock_of_isTime (htext : TextAt b 0 text) (h : IsTime text hh mm ss) :
    setWallClock s (some b) now =
      (codeSuccess, { s with offset := 3600 * hh + 60 * mm + ss, ref := now }) := by
  obtain ⟨hbytes, h₂, h₅, h₈⟩ := bytes_of_isTime htext h
  subst hbytes
  have hdigits := h.digits
  simp only [List.forall_mem_cons] at hdigits
  obtain ⟨h₀, h₁, h₃, h₄, h₆, h₇, -⟩ := hdigits
  obtain ⟨hhr, hmin, hsec⟩ := h.fields
  obtain ⟨hhh, hmm, hss, -⟩ := h
  have haccepts : Accepts b :=
    ⟨h₂, h₅, h₈, fun _ _ => by omega, fun _ _ => by omega, fun _ _ => by omega⟩
  rw [setWallClock_accepts haccepts, atoi_fieldText h₀ h₁, atoi_fieldText h₃ h₄,
    atoi_fieldText h₆ h₇]
  have hoffset : ((10 * (digitValue (b 0) : ℤ) + digitValue (b 1)) * 3600 +
      (10 * (digitValue (b 3) : ℤ) + digitValue (b 4)) * 60 +
        (10 * (digitValue (b 6) : ℤ) + digitValue (b 7))) % 2 ^ 32 = 3600 * hh + 60 * mm + ss := by
    omega
  rw [hoffset]

/-- The code does what it is to do for exactly the strings that are no `Lenient` ones. -/
theorem setsClock_setWallClock_iff (htext : TextAt b 0 text) (s : Coldfire.Wallclock) (now : ℤ) :
    SetsClock text now s (setWallClock s (some b) now) ↔ ¬ Lenient b := by
  have hiff : SetsClock text now s (setWallClock s (some b) now) ↔
      (Accepts b → ∃ hh mm ss, IsTime text hh mm ss) := by
    apply Coldfire.setsClock_iff
    · intro h
      rw [setWallClock_accepts h]
    · intro h
      rw [setWallClock_refuses h]
      exact ⟨(by decide : errorIllegalArg ≠ codeSuccess), rfl⟩
    · intro hh mm ss h
      exact setWallClock_of_isTime htext h
  rw [hiff]
  constructor
  · rintro h ⟨h₂, h₅, h₈, hhr, hmin, hsec, hdigits⟩
    obtain ⟨hh, mm, ss, htime⟩ := h ⟨h₂, h₅, h₈, hhr, hmin, hsec⟩
    rw [(bytes_of_isTime htext htime).1] at htime
    exact hdigits htime.digits
  · rintro hlenient ⟨h₂, h₅, h₈, hhr, hmin, hsec⟩
    have hdigits : ∀ x ∈ [b 0, b 1, b 3, b 4, b 6, b 7], IsDigit x := by
      by_contra hdigits
      exact hlenient ⟨h₂, h₅, h₈, hhr, hmin, hsec, hdigits⟩
    have h := hdigits
    simp only [List.forall_mem_cons] at h
    obtain ⟨h₀, h₁, h₃, h₄, h₆, h₇, -⟩ := h
    have hbytes : TextAt b 0 [b 0, b 1, colon, b 3, b 4, colon, b 6, b 7] := by
      have hcolon : colon ≠ 0 := by decide
      simp [TextAt, h₂, h₅, h₈, hcolon, (plain_of_isDigit h₀).2.2.2, (plain_of_isDigit h₁).2.2.2,
        (plain_of_isDigit h₃).2.2.2, (plain_of_isDigit h₄).2.2.2, (plain_of_isDigit h₆).2.2.2,
        (plain_of_isDigit h₇).2.2.2]
    rw [htext.unique hbytes]
    exact ⟨_, _, _, Coldfire.Wallclock.isTime_of_digits hdigits (hhr h₀ h₁) (hmin h₃ h₄)
      (hsec h₆ h₇)⟩

end Wallclock

/-! ## Both ports -/

/-- Setting the clock accepts the times of the day and nothing else, stores their seconds and the
system time, and leaves the clock alone otherwise: on ColdFire for exactly the texts that are not
accepted with a sign, a space or a colon in a field, and on Unix for exactly the strings that have
no field other than two digits between the colons. -/
theorem set_wall_clock_iff {timeParam : Body} {text : Text} (htext : TextAt timeParam 0 text)
    (s : Wallclock) (now hr min sec : ℤ) :
    (SetsClock text now s (s.setWallClock (some text) now hr min sec) ↔
        ¬ Coldfire.Wallclock.Lenient text) ∧
      (SetsClock text now s (Wallclock.setWallClock s (some timeParam) now) ↔
        ¬ Wallclock.Lenient timeParam) :=
  ⟨Coldfire.Wallclock.setsClock_setWallClock_iff text s now hr min sec,
    Wallclock.setsClock_setWallClock_iff htext s now⟩

theorem set_wall_clock_noon :
    (SetsClock (cstr "12:00:00") 7 ⟨0, 0, true⟩
        ((⟨0, 0, true⟩ : Wallclock).setWallClock (some (cstr "12:00:00")) 7 0 0 0) ↔
        ¬ Coldfire.Wallclock.Lenient (cstr "12:00:00")) ∧
      (SetsClock (cstr "12:00:00") 7 ⟨0, 0, true⟩
        (Wallclock.setWallClock ⟨0, 0, true⟩
          (some (Coldfire.putText (fun _ => 1) (cstr "12:00:00"))) 7) ↔
        ¬ Wallclock.Lenient (Coldfire.putText (fun _ => 1) (cstr "12:00:00"))) :=
  set_wall_clock_iff (Coldfire.textAt_putTextAt (fun _ => 1) 0 (by decide)) ⟨0, 0, true⟩ 7 0 0 0

/-- Both ports accept `-1:00:00`, and set the clock to an hour before midnight of the day before, as
a signed and as an unsigned number of seconds. -/
theorem set_wall_clock_sign :
    let timeParam := Coldfire.putText (fun _ => 0) (cstr "-1:00:00")
    let s : Wallclock := ⟨0, 0, true⟩
    s.setWallClock (some (cstr "-1:00:00")) 7 0 0 0 = (codeSuccess, ⟨-3600, 7, true⟩) ∧
      ¬ SetsClock (cstr "-1:00:00") 7 s (s.setWallClock (some (cstr "-1:00:00")) 7 0 0 0) ∧
      Wallclock.setWallClock s (some timeParam) 7 = (codeSuccess, ⟨4294963696, 7, true⟩) ∧
      ¬ SetsClock (cstr "-1:00:00") 7 s (Wallclock.setWallClock s (some timeParam) 7) := by
  intro timeParam s
  have hcoldfire : s.setWallClock (some (cstr "-1:00:00")) 7 0 0 0 =
      (codeSuccess, ⟨-3600, 7, true⟩) := by decide +kernel
  have hunix : Wallclock.setWallClock s (some timeParam) 7 =
      (codeSuccess, ⟨4294963696, 7, true⟩) := by decide +kernel
  have hnone : ¬ ∃ hh mm ss, IsTime (cstr "-1:00:00") hh mm ss := by
    rintro ⟨hh, mm, ss, h⟩
    have hbytes : cstr "-1:00:00" = [45, 49, colon, 48, 48, colon, 48, 48] := by decide
    rw [hbytes] at h
    exact absurd (h.digits 45 (by simp)).1 (by decide)
  refine ⟨hcoldfire, fun h => ?_, hunix, fun h => ?_⟩
  · exact hnone (h.success_iff.1 (by rw [hcoldfire]))
  · exact hnone (h.success_iff.1 (by rw [hunix]))

end Rtx.Unix
