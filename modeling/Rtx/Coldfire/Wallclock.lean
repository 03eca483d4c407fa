import Rtx.Coldfire.Atoi
import Rtx.Coldfire.Sprintf

/-!
# The wall clock

`_setWallClock` and the wake-up branch of `wallclock.c`. `rtx_atoi` lets signs, spaces and the colon
through, so more than the times of the day are accepted (`Lenient`). What is displayed is the time
of the day that has come since the setting (`wall_clock_display`).
-/

namespace Rtx.Coldfire

def colon : UInt8 := ':'.toUInt8

/-- The variables of the process; `offset` and `ref` are signed. -/
structure Wallclock where
  offset : ℤ
  ref : ℤ
  clockDisplayEn : Bool
  deriving DecidableEq

namespace Wallclock

/-- `timeParam[i]`, up to the NUL. -/
def charAt (timeParam : Text) (i : ℕ) : UInt8 := (timeParam ++ [0]).getD i 0

/-- `_setWallClock` at the system time `now`. What the variables `hr`, `min` and `sec` hold before
they are written is given. -/
def setWallClock (s : Wallclock) (timeParam : Option Text) (now : ℤ) (hr min sec : ℤ) :
    ℤ × Wallclock :=
  match timeParam with
  | none => (errorNullArg, s)
  | some timeParam =>
    if timeParam.length ≠ 8 ∨ charAt timeParam 2 ≠ colon ∨ charAt timeParam 5 ≠ colon ∨
        charAt timeParam 8 ≠ 0 then (errorIllegalArg, s)
    else
      let hrS := [charAt timeParam 0, charAt timeParam 1]
      let minS := [charAt timeParam 3, charAt timeParam 4]
      let secS := [charAt timeParam 6, charAt timeParam 7]
      let ret := (rtxAtoi hrS).1 + (rtxAtoi minS).1 + (rtxAtoi secS).1
      let hr := (rtxAtoi hrS).2.getD hr
      let min := (rtxAtoi minS).2.getD min
      let sec := (rtxAtoi secS).2.getD sec
      if hr > 23 ∨ min > 59 ∨ sec > 59 ∨ ret < 3 then (errorIllegalArg, s)
      else (codeSuccess, { s with offset := hr * 3600 + min * 60 + sec, ref := now })

/-- `(int32_t)((get_system_time()-ref)/100 + offset) % SEC_IN_HR`. -/
def clockTime (s : Wallclock) (now : ℤ) : ℤ :=
  (wrap32 ((wrap32 (now - s.ref)).tdiv 100 + s.offset)).tmod 86400

def saveCursor : Text := cstr "\x1b[s"
def moveCursor : Text := cstr "\x1b[0;72H"
def clockFormat : Text := cstr "%02d:%02d:%02d"
def restoreCursor : Text := cstr "\x1b[u"

/-- What the wake-up branch prints at the system time `now`. -/
def wakeUp (s : Wallclock) (now : ℤ) : Option (List Text) :=
  let clockTime := s.clockTime now
  if s.clockDisplayEn then do
    let hr := clockTime.tdiv 3600
    let min := (clockTime.tmod 3600).tdiv 60
    let sec := clockTime.tmod 60
    let str ← rtxSprintf (saveCursor ++ moveCursor ++ clockFormat ++ restoreCursor)
      [.int hr, .int min, .int sec]
    return [str]
  else some []

end Wallclock

/-! ## Times of the day -/

/-- The two digits of a number below a hundred. -/
def twoDigits (n : ℕ) : Text := [UInt8.ofNat (48 + n / 10), UInt8.ofNat (48 + n % 10)]

/-- `hh:mm:ss`. -/
def timeText (hh mm ss : ℕ) : Text :=
  twoDigits hh ++ [colon] ++ twoDigits mm ++ [colon] ++ twoDigits ss

/-- The text is that time of the day. -/
def IsTime (text : Text) (hh mm ss : ℕ) : Prop :=
  hh < 24 ∧ mm < 60 ∧ ss < 60 ∧ text = timeText hh mm ss

/-- What setting the clock is to do: times of the day are accepted and nothing else, and the clock
is changed only then. -/
structure SetsClock (text : Text) (now : ℤ) (s : Wallclock) (r : ℤ × Wallclock) : Prop where
  success_iff : r.1 = codeSuccess ↔ ∃ hh mm ss, IsTime text hh mm ss
  sets : ∀ hh mm ss, IsTime text hh mm ss →
    r.2 = { s with offset := 3600 * hh + 60 * mm + ss, ref := now }
  unchanged : (¬ ∃ hh mm ss, IsTime text hh mm ss) → r.2 = s

/-- The value of a digit. -/
def digitValue (c : UInt8) : ℕ := c.toNat - 48

theorem twoDigits_spec : ∀ n < 100, ∃ a b, twoDigits n = [a, b] ∧ IsDigit a ∧ IsDigit b ∧
    10 * digitValue a + digitValue b = n := by
  have h : ∀ n < 100, let a := UInt8.ofNat (48 + n / 10)
      let b := UInt8.ofNat (48 + n % 10)
      ('0'.toUInt8 ≤ a ∧ a ≤ '9'.toUInt8) ∧ ('0'.toUInt8 ≤ b ∧ b ≤ '9'.toUInt8) ∧
        10 * digitValue a + digitValue b = n := by decide
  exact fun n hn => ⟨_, _, rfl, h n hn⟩

theorem IsTime.digits {hh mm ss : ℕ} {a b c d e f : UInt8}
    (h : IsTime [a, b, colon, c, d, colon, e, f] hh mm ss) :
    ∀ x ∈ [a, b, c, d, e, f], IsDigit x := by
  obtain ⟨hhh, hmm, hss, htext⟩ := h
  obtain ⟨a', b', hab, ha, hb, -⟩ := twoDigits_spec hh (by omega)
  obtain ⟨c', d', hcd, hc, hd, -⟩ := twoDigits_spec mm (by omega)
  obtain ⟨e', f', hef, he, hf, -⟩ := twoDigits_spec ss (by omega)
  rw [timeText, hab, hcd, hef] at htext
  obtain ⟨rfl, rfl, rfl, rfl, rfl, rfl⟩ :
      a = a' ∧ b = b' ∧ c = c' ∧ d = d' ∧ e = e' ∧ f = f' := by simpa using htext
  simp [ha, hb, hc, hd, he, hf]

theorem IsTime.fields {hh mm ss : ℕ} {a b c d e f : UInt8}
    (h : IsTime [a, b, colon, c, d, colon, e, f] hh mm ss) :
    10 * digitValue a + digitValue b = hh ∧ 10 * digitValue c + digitValue d = mm ∧
      10 * digitValue e + digitValue f = ss := by
  obtain ⟨hhh, hmm, hss, htext⟩ := h
  obtain ⟨a', b', hab, -, -, hh'⟩ := twoDigits_spec hh (by omega)
  obtain ⟨c', d', hcd, -, -, hm'⟩ := twoDigits_spec mm (by omega)
  obtain ⟨e', f', hef, -, -, hs'⟩ := twoDigits_spec ss (by omega)
  rw [timeText, hab, hcd, hef] at htext
  obtain ⟨rfl, rfl, rfl, rfl, rfl, rfl⟩ :
      a = a' ∧ b = b' ∧ c = c' ∧ d = d' ∧ e = e' ∧ f = f' := by simpa using htext
  exact ⟨hh', hm', hs'⟩

theorem IsDigit.range {c : UInt8} (h : IsDigit c) : 48 ≤ c.toNat ∧ c.toNat ≤ 57 :=
  ⟨UInt8.le_iff_toNat_le.1 h.1, UInt8.le_iff_toNat_le.1 h.2⟩

theorem IsDigit.twoDigits {a b : UInt8} (ha : IsDigit a) (hb : IsDigit b) :
    twoDigits (10 * digitValue a + digitValue b) = [a, b] := by
  obtain ⟨ha₁, ha₂⟩ := ha.range
  obtain ⟨hb₁, hb₂⟩ := hb.range
  have htens : 48 + (10 * digitValue a + digitValue b) / 10 = a.toNat := by
    unfold digitValue
    omega
  have hones : 48 + (10 * digitValue a + digitValue b) % 10 = b.toNat := by
    unfold digitValue
    omega
  rw [Coldfire.twoDigits, htens, hones, UInt8.ofNat_toNat, UInt8.ofNat_toNat]

/-- A way of setting the clock that takes the times of the day does what it is to do just when it
accepts nothing else. -/
theorem setsClock_iff {text : Text} {now : ℤ} {s : Wallclock} {r : ℤ × Wallclock} {accepts : Prop}
    (haccepted : accepts → r.1 = codeSuccess)
    (hrefused : ¬ accepts → r.1 ≠ codeSuccess ∧ r.2 = s)
    (hsets : ∀ hh mm ss : ℕ, IsTime text hh mm ss →
      r = (codeSuccess, { s with offset := 3600 * hh + 60 * mm + ss, ref := now })) :
    SetsClock text now s r ↔ (accepts → ∃ hh mm ss, IsTime text hh mm ss) := by
  constructor
  · intro h haccepts
    exact h.success_iff.1 (haccepted haccepts)
  · intro h
    constructor
    · constructor
      · intro hcode
        apply h
        by_contra hnone
        exact (hrefused hnone).1 hcode
      · rintro ⟨hh, mm, ss, ht⟩
        rw [hsets hh mm ss ht]
    · intro hh mm ss ht
      rw [hsets hh mm ss ht]
    · intro hnone
      exact (hrefused fun haccepts => hnone (h haccepts)).2

/-! ## The fields -/

/-- What `rtx_atoi` accepts of two characters, and their value. -/
inductive FieldValue (c d : UInt8) : ℤ → Prop
  | digits (hc : PassesTest c) (hd : PassesTest d) :
      FieldValue c d (10 * digitValue c + digitValue d)
  | unsigned (hc : c = ' '.toUInt8 ∨ c = '+'.toUInt8) (hd : PassesTest d) :
      FieldValue c d (digitValue d)
  | negative (hc : c = '-'.toUInt8) (hd : PassesTest d) : FieldValue c d (-digitValue d)

variable {c d : UInt8} {v : ℤ}

theorem PassesTest.digitValue_le (h : PassesTest c) : digitValue c ≤ 10 := by
  have hcolon : ':'.toUInt8.toNat = 58 := rfl
  have := UInt8.le_iff_toNat_le.1 h.2
  unfold digitValue
  omega

theorem IsDigit.digitValue_le (h : IsDigit c) : digitValue c ≤ 9 := by
  have := h.range
  unfold digitValue
  omega

theorem digitsValue_one (d : UInt8) : digitsValue [d] = digitValue d := by
  simp [digitsValue, digitValue]

theorem digitsValue_two (c d : UInt8) :
    digitsValue [c, d] = 10 * digitValue c + digitValue d := by
  simp [digitsValue, digitValue, Nat.ofDigits]
  ring

theorem FieldValue.rtxAtoi_eq (h : FieldValue c d v) : rtxAtoi [c, d] = (1, some v) := by
  cases h with
  | digits hc hd =>
    have hscans : Scans PassesTest [c, d] false [c, d] :=
      ⟨by simp, by simp [hc, hd], 0, [], .none, rfl⟩
    have := hc.digitValue_le
    have := hd.digitValue_le
    rw [rtxAtoi_of_scans hscans, digitsValue_two, wrap32_of_range]
    · simp
    · simp
      omega
    · simp
      omega
  | unsigned hc hd =>
    have hscans : Scans PassesTest [c, d] false [d] := by
      refine ⟨by simp, by simp [hd], ?_⟩
      rcases hc with rfl | rfl
      · exact ⟨1, [], .none, rfl⟩
      · exact ⟨0, cstr "+", .plus, rfl⟩
    have := hd.digitValue_le
    rw [rtxAtoi_of_scans hscans, digitsValue_one, wrap32_of_range]
    · simp
    · simp only [Bool.false_eq_true, if_false, one_mul]
      omega
    · simp only [Bool.false_eq_true, if_false, one_mul]
      omega
  | negative hc hd =>
    subst hc
    have hscans : Scans PassesTest ['-'.toUInt8, d] true [d] :=
      ⟨by simp, by simp [hd], 0, cstr "-", .minus, rfl⟩
    have := hd.digitValue_le
    rw [rtxAtoi_of_scans hscans, digitsValue_one, wrap32_of_range]
    · simp
    · simp
      omega
    · simp
      omega

/-- Of two characters, `rtx_atoi` accepts nothing else. -/
theorem FieldValue.of_scans {neg : Bool} {digits : Text}
    (h : Scans PassesTest [c, d] neg digits) : ∃ v, FieldValue c d v := by
  obtain ⟨hne, hpass, spaces, sign, hsign, heq⟩ := h
  have hlength := congrArg List.length heq
  have hpos : 0 < digits.length := List.length_pos_iff.2 hne
  simp only [List.length_append, List.length_replicate, List.length_cons,
    List.length_nil] at hlength
  -- At most one character stands before the digits.
  cases hsign with
  | none =>
    rw [List.append_nil] at heq
    rcases spaces with _ | _ | spaces
    · obtain rfl : [c, d] = digits := by simpa using heq
      exact ⟨_, .digits (hpass c (by simp)) (hpass d (by simp))⟩
    · obtain ⟨hc, rfl⟩ : c = ' '.toUInt8 ∧ [d] = digits := by simpa using heq
      exact ⟨_, .unsigned (.inl hc) (hpass d (by simp))⟩
    · simp only [List.length_nil] at hlength
      omega
  | plus =>
    have hone : (cstr "+").length = 1 := rfl
    obtain rfl : spaces = 0 := by omega
    obtain ⟨hc, rfl⟩ : c = '+'.toUInt8 ∧ [d] = digits := by simpa [cstr] using heq
    exact ⟨_, .unsigned (.inr hc) (hpass d (by simp))⟩
  | minus =>
    have hone : (cstr "-").length = 1 := rfl
    obtain rfl : spaces = 0 := by omega
    obtain ⟨hc, rfl⟩ : c = '-'.toUInt8 ∧ [d] = digits := by simpa [cstr] using heq
    exact ⟨_, .negative hc (hpass d (by simp))⟩

theorem rtxAtoi_refuses (h : ¬ ∃ v, FieldValue c d v) : (rtxAtoi [c, d]).1 = 0 := by
  apply rtxAtoi_of_not_scans
  rintro ⟨neg, digits, hscans⟩
  exact h (FieldValue.of_scans hscans)

theorem rtxAtoi_cases (c d : UInt8) :
    (rtxAtoi [c, d]).1 = 0 ∨ ∃ v, FieldValue c d v ∧ rtxAtoi [c, d] = (1, some v) := by
  by_cases h : ∃ v, FieldValue c d v
  · obtain ⟨v, hv⟩ := h
    exact Or.inr ⟨v, hv, hv.rtxAtoi_eq⟩
  · exact Or.inl (rtxAtoi_refuses h)

theorem FieldValue.of_isDigit (hc : IsDigit c) (hd : IsDigit d) :
    FieldValue c d (10 * digitValue c + digitValue d) :=
  .digits hc.passesTest hd.passesTest

theorem FieldValue.eq_of_isDigit (h : FieldValue c d v) (hc : IsDigit c) (hd : IsDigit d) :
    v = 10 * digitValue c + digitValue d := by
  have h₁ := h.rtxAtoi_eq
  rw [(FieldValue.of_isDigit hc hd).rtxAtoi_eq] at h₁
  simpa using h₁.symm

/-! ## What is accepted -/

namespace Wallclock

/-- Two colons in their places, and between them three fields that `rtx_atoi` accepts and whose
values are not too large. -/
def Accepts (text : Text) (hr min sec : ℤ) : Prop :=
  ∃ a b c d e f, text = [a, b, colon, c, d, colon, e, f] ∧
    FieldValue a b hr ∧ FieldValue c d min ∧ FieldValue e f sec ∧ hr ≤ 23 ∧ min ≤ 59 ∧ sec ≤ 59

/-- An accepted text that has something else than a digit in a field. -/
def Lenient (text : Text) : Prop :=
  ∃ a b c d e f, text = [a, b, colon, c, d, colon, e, f] ∧
    (∃ hr ≤ 23, FieldValue a b hr) ∧ (∃ min ≤ 59, FieldValue c d min) ∧
    (∃ sec ≤ 59, FieldValue e f sec) ∧ ¬ ∀ x ∈ [a, b, c, d, e, f], IsDigit x

variable {text : Text} {s : Wallclock} {now hr min sec : ℤ}

theorem fieldValue_twoDigits {n : ℕ} (hn : n < 100) :
    ∃ a b, twoDigits n = [a, b] ∧ FieldValue a b n := by
  obtain ⟨a, b, hab, ha, hb, hvalue⟩ := twoDigits_spec n hn
  refine ⟨a, b, hab, ?_⟩
  have h := FieldValue.of_isDigit ha hb
  rwa [← hvalue, Nat.cast_add, Nat.cast_mul]

theorem accepts_of_isTime {hh mm ss : ℕ} (h : IsTime text hh mm ss) : Accepts text hh mm ss := by
  obtain ⟨hhh, hmm, hss, rfl⟩ := h
  obtain ⟨a, b, hab, hhr⟩ := fieldValue_twoDigits (n := hh) (by omega)
  obtain ⟨c, d, hcd, hmin⟩ := fieldValue_twoDigits (n := mm) (by omega)
  obtain ⟨e, f, hef, hsec⟩ := fieldValue_twoDigits (n := ss) (by omega)
  refine ⟨a, b, c, d, e, f, ?_, hhr, hmin, hsec, by omega, by omega, by omega⟩
  rw [timeText, hab, hcd, hef]
  rfl

theorem isTime_of_digits {a b c d e f : UInt8} (hdigits : ∀ x ∈ [a, b, c, d, e, f], IsDigit x)
    (hhr : 10 * digitValue a + digitValue b ≤ 23) (hmin : 10 * digitValue c + digitValue d ≤ 59)
    (hsec : 10 * digitValue e + digitValue f ≤ 59) :
    IsTime [a, b, colon, c, d, colon, e, f] (10 * digitValue a + digitValue b)
      (10 * digitValue c + digitValue d) (10 * digitValue e + digitValue f) := by
  simp only [List.forall_mem_cons] at hdigits
  obtain ⟨ha, hb, hc, hd, he, hf, -⟩ := hdigits
  refine ⟨by omega, by omega, by omega, ?_⟩
  rw [timeText, ha.twoDigits hb, hc.twoDigits hd, he.twoDigits hf]
  rfl

theorem setWallClock_accepts (h : Accepts text hr min sec) (x y z : ℤ) :
    s.setWallClock (some text) now x y z =
      (codeSuccess, { s with offset := hr * 3600 + min * 60 + sec, ref := now }) := by
  obtain ⟨a, b, c, d, e, f, rfl, hhr, hmin, hsec, hhr', hmin', hsec'⟩ := h
  simp only [setWallClock, charAt, List.length_cons, List.length_nil, List.cons_append,
    List.nil_append, List.getD_cons_succ, List.getD_cons_zero, hhr.rtxAtoi_eq, hmin.rtxAtoi_eq,
    hsec.rtxAtoi_eq, Option.getD_some]
  rw [if_neg (by simp), if_neg (by omega)]

theorem exists_of_length_eight (h : text.length = 8) :
    ∃ a b p c d q e f, text = [a, b, p, c, d, q, e, f] := by
  obtain ⟨a, t₁, rfl⟩ := List.exists_cons_of_length_eq_add_one h
  obtain ⟨b, t₂, rfl⟩ := List.exists_cons_of_length_eq_add_one (Nat.succ.inj h)
  obtain ⟨p, t₃, rfl⟩ := List.exists_cons_of_length_eq_add_one (l := t₂) (n := 5) (by simpa using h)
  obtain ⟨c, t₄, rfl⟩ := List.exists_cons_of_length_eq_add_one (l := t₃) (n := 4) (by simpa using h)
  obtain ⟨d, t₅, rfl⟩ := List.exists_cons_of_length_eq_add_one (l := t₄) (n := 3) (by simpa using h)
  obtain ⟨q, t₆, rfl⟩ := List.exists_cons_of_length_eq_add_one (l := t₅) (n := 2) (by simpa using h)
  obtain ⟨e, t₇, rfl⟩ := List.exists_cons_of_length_eq_add_one (l := t₆) (n := 1) (by simpa using h)
  obtain ⟨f, t₈, rfl⟩ := List.exists_cons_of_length_eq_add_one (l := t₇) (n := 0) (by simpa using h)
  obtain rfl : t₈ = [] := by simpa using h
  exact ⟨a, b, p, c, d, q, e, f, rfl⟩

theorem setWallClock_refuses (h : ¬ ∃ hr min sec, Accepts text hr min sec) (x y z : ℤ) :
    s.setWallClock (some text) now x y z = (errorIllegalArg, s) := by
  rw [setWallClock]
  split
  · rfl
  rename_i hform
  simp only [not_or, not_not] at hform
  obtain ⟨hlength, hp, hq, -⟩ := hform
  obtain ⟨a, b, p, c, d, q, e, f, rfl⟩ := exists_of_length_eight hlength
  simp only [charAt, List.cons_append, List.nil_append, List.getD_cons_succ,
    List.getD_cons_zero] at hp hq ⊢
  subst hp hq
  apply if_pos
  -- A field that is refused leaves the sum of the results too small.
  rcases rtxAtoi_cases a b with hab | ⟨hr, hhr, hab⟩ <;>
    rcases rtxAtoi_cases c d with hcd | ⟨min, hmin, hcd⟩ <;>
    rcases rtxAtoi_cases e f with hef | ⟨sec, hsec, hef⟩ <;>
    simp only [hab, hcd, hef, Option.getD_some]
  all_goals first | omega | skip
  by_contra hlimits
  exact h ⟨hr, min, sec, a, b, c, d, e, f, rfl, hhr, hmin, hsec, by omega, by omega, by omega⟩

/-- The code does what it is to do for exactly the texts that are no `Lenient` ones. -/
theorem setsClock_setWallClock_iff (text : Text) (s : Wallclock) (now hr min sec : ℤ) :
    SetsClock text now s (s.setWallClock (some text) now hr min sec) ↔ ¬ Lenient text := by
  have hiff : SetsClock text now s (s.setWallClock (some text) now hr min sec) ↔
      ((∃ hr min sec, Accepts text hr min sec) → ∃ hh mm ss, IsTime text hh mm ss) := by
    apply setsClock_iff
    · rintro ⟨hr, min, sec, h⟩
      rw [setWallClock_accepts h]
    · intro h
      rw [setWallClock_refuses h]
      exact ⟨(by decide : errorIllegalArg ≠ codeSuccess), rfl⟩
    · intro hh mm ss h
      rw [setWallClock_accepts (accepts_of_isTime h), mul_comm (3600 : ℤ), mul_comm (60 : ℤ)]
  rw [hiff]
  constructor
  · rintro h ⟨a, b, c, d, e, f, rfl, ⟨hr, hhr', hhr⟩, ⟨min, hmin', hmin⟩,
      ⟨sec, hsec', hsec⟩, hdigits⟩
    obtain ⟨hh, mm, ss, htime⟩ :=
      h ⟨hr, min, sec, a, b, c, d, e, f, rfl, hhr, hmin, hsec, hhr', hmin', hsec'⟩
    exact hdigits htime.digits
  · rintro hlenient ⟨hr, min, sec, a, b, c, d, e, f, rfl, hhr, hmin, hsec, hhr', hmin', hsec'⟩
    have hdigits : ∀ x ∈ [a, b, c, d, e, f], IsDigit x := by
      by_contra hdigits
      exact hlenient ⟨a, b, c, d, e, f, rfl, ⟨hr, hhr', hhr⟩, ⟨min, hmin', hmin⟩,
        ⟨sec, hsec', hsec⟩,
        hdigits⟩
    have h := hdigits
    simp only [List.forall_mem_cons] at h
    obtain ⟨ha, hb, hc, hd, he, hf, -⟩ := h
    rw [hhr.eq_of_isDigit ha hb] at hhr'
    rw [hmin.eq_of_isDigit hc hd] at hmin'
    rw [hsec.eq_of_isDigit he hf] at hsec'
    exact ⟨_, _, _, isTime_of_digits hdigits (by omega) (by omega) (by omega)⟩

/-! ## What is displayed -/

/-- The time of the day `e` hundredths of a second after a setting. -/
def timeOfDay (hh mm ss e : ℕ) : ℕ := (3600 * hh + 60 * mm + ss + e / 100) % 86400

/-- The text of a time given in seconds. -/
def secondsText (t : ℕ) : Text := timeText (t / 3600) (t % 3600 / 60) (t % 60)

theorem isTime_secondsText {t : ℕ} (h : t < 86400) :
    IsTime (secondsText t) (t / 3600) (t % 3600 / 60) (t % 60) :=
  ⟨by omega, by omega, by omega, rfl⟩

theorem rtxSprintfLoop_literal {literal : Text} (h : '%'.toUInt8 ∉ literal) (fuel : ℕ)
    (format : Text) (params : List Param) (str : Text) :
    rtxSprintfLoop (literal.length + fuel) (literal ++ format) params str =
      rtxSprintfLoop fuel format params (str ++ literal) := by
  induction literal generalizing str with
  | nil => simp
  | cons c literal ih =>
    obtain ⟨hc, hliteral⟩ := not_or.1 (mt List.mem_cons.2 h)
    have hfuel : (c :: literal).length + fuel = literal.length + fuel + 1 := by
      rw [List.length_cons]
      omega
    rw [hfuel, List.cons_append, rtxSprintfLoop, if_neg (Ne.symm hc), ih hliteral,
      List.append_assoc, List.singleton_append]

theorem sprintfInt_twoDigits {n : ℕ} (hn : n < 100) (str : Text) :
    sprintfInt true 2 n str = some (str ++ twoDigits n) := by
  have hpadded : ∀ n < 100, padded true 2 (n : ℕ) = twoDigits n := by decide +kernel
  rw [← hpadded n hn, sprintfInt_eq_iff (by omega) (by omega) (by decide)]
  exact ⟨by omega, by simp, by omega⟩

theorem rtxSprintf_clockFormat {hr min sec : ℕ} (hhr : hr < 100) (hmin : min < 100)
    (hsec : sec < 100) :
    rtxSprintf (saveCursor ++ moveCursor ++ clockFormat ++ restoreCursor)
        [.int hr, .int min, .int sec] =
      some (saveCursor ++ moveCursor ++ timeText hr min sec ++ restoreCursor) := by
  have hdirective : ∀ {n : ℕ} (_ : n < 100) (fuel : ℕ) (format : Text) (params : List Param)
      (str : Text), rtxSprintfLoop (fuel + 1) (cstr "%02d" ++ format) (.int n :: params) str =
        rtxSprintfLoop fuel format params (str ++ twoDigits n) := by
    intro n hn fuel format params str
    have h :
        rtxSprintfLoop (fuel + 1) (directive true 2 'd' ++ format) (.int n :: params) str = _ :=
      rtxSprintfLoop_directive (by decide) (Or.inl rfl) fuel format params
    rw [sprintfInt_twoDigits hn, Option.bind_some] at h
    exact h
  have hcolon : '%'.toUInt8 ∉ [colon] := by decide
  show rtxSprintfLoop ((saveCursor ++ moveCursor).length + 18) ((saveCursor ++ moveCursor) ++
    (cstr "%02d" ++
      ([colon] ++ (cstr "%02d" ++ ([colon] ++ (cstr "%02d" ++ restoreCursor)))))) _ _ = _
  rw [rtxSprintfLoop_literal (by decide), hdirective hhr]
  show rtxSprintfLoop ([colon].length + 16) _ _ _ = _
  rw [rtxSprintfLoop_literal hcolon, hdirective hmin]
  show rtxSprintfLoop ([colon].length + 14) _ _ _ = _
  rw [rtxSprintfLoop_literal hcolon, hdirective hsec]
  show rtxSprintfLoop (restoreCursor.length + 10) (restoreCursor ++ []) _ _ = _
  rw [rtxSprintfLoop_literal (by decide), rtxSprintfLoop, timeText]
  simp

/-- The clock goes on from the setting, and begins anew at midnight. -/
theorem clockTime_eq {hh mm ss e : ℕ} (h : IsTime text hh mm ss) (he : e < 2 ^ 31) (r : ℤ)
    (displayEn : Bool) :
    (⟨hh * 3600 + mm * 60 + ss, r, displayEn⟩ : Wallclock).clockTime (wrap32 (r + e)) =
      timeOfDay hh mm ss e := by
  obtain ⟨hhh, hmm, hss, -⟩ := h
  have helapsed : wrap32 (wrap32 (r + e) - r) = e := by
    have hsub : wrap32 (wrap32 (r + e) - r) = wrap32 (r + e - r) := by
      simp only [wrap32, Int.bmod_sub_bmod]
    rw [hsub, add_sub_cancel_left]
    exact wrap32_of_range (by omega) (by omega)
  rw [clockTime, timeOfDay]
  simp only [helapsed]
  rw [Int.tdiv_eq_ediv_of_nonneg (by omega), wrap32_of_range (by omega) (by omega),
    Int.tmod_eq_emod_of_nonneg (by omega)]
  omega

theorem wakeUp_eq {t : ℕ} (ht : t < 86400) (hen : s.clockDisplayEn = true)
    (hclock : s.clockTime now = t) :
    s.wakeUp now = some [saveCursor ++ moveCursor ++ secondsText t ++ restoreCursor] := by
  have hhr : ((t : ℤ)).tdiv 3600 = (t / 3600 : ℕ) := Int.ofNat_tdiv t 3600
  have hmin : ((t : ℤ).tmod 3600).tdiv 60 = (t % 3600 / 60 : ℕ) := by
    rw [show ((t : ℤ)).tmod 3600 = (t % 3600 : ℕ) from Int.ofNat_tmod t 3600]
    exact Int.ofNat_tdiv (t % 3600) 60
  have hsec : (t : ℤ).tmod 60 = (t % 60 : ℕ) := Int.ofNat_tmod t 60
  rw [wakeUp]
  simp only [hclock, hen, if_true, hhr, hmin, hsec]
  rw [rtxSprintf_clockFormat (by omega) (by omega) (by omega)]
  rfl

/-- **The display is right, and reads back.** After a setting to `hh:mm:ss` at the system time `r`,
a wake-up `e` later prints the time of the day between the cursor sequences, in eight characters
that set any clock to that time. -/
theorem wall_clock_display {hh mm ss e : ℕ} (hhh : hh < 24) (hmm : mm < 60) (hss : ss < 60)
    (he : e < 2 ^ 31) (r : ℤ) (s : Wallclock) (hen : s.clockDisplayEn = true) (hr min sec : ℤ) :
    ∃ s', s.setWallClock (some (timeText hh mm ss)) r hr min sec = (codeSuccess, s') ∧
      s'.wakeUp (wrap32 (r + e)) = some [saveCursor ++ moveCursor ++
        secondsText (timeOfDay hh mm ss e) ++ restoreCursor] ∧
      (secondsText (timeOfDay hh mm ss e)).length = 8 ∧
      ∀ (s'' : Wallclock) (now hr min sec : ℤ),
        s''.setWallClock (some (secondsText (timeOfDay hh mm ss e))) now hr min sec =
          (codeSuccess, { s'' with offset := timeOfDay hh mm ss e, ref := now }) := by
  have htime : IsTime (timeText hh mm ss) hh mm ss := ⟨hhh, hmm, hss, rfl⟩
  have hday : timeOfDay hh mm ss e < 86400 := Nat.mod_lt _ (by decide)
  refine ⟨_, setWallClock_accepts (accepts_of_isTime htime) hr min sec, ?_, rfl, ?_⟩
  · exact wakeUp_eq hday hen (clockTime_eq htime he r s.clockDisplayEn)
  · intro s'' now hr min sec
    have hoffset : ∀ t : ℕ,
        ((t / 3600 : ℕ) : ℤ) * 3600 + (t % 3600 / 60 : ℕ) * 60 + (t % 60 : ℕ) = t := by
      intro t
      omega
    rw [setWallClock_accepts (accepts_of_isTime (isTime_secondsText hday)), hoffset]

/-- Two and a half seconds after 23:59:59 the clock shows 00:00:01. -/
theorem wall_clock_display_midnight :
    ∃ s' : Wallclock, (⟨0, 0, true⟩ : Wallclock).setWallClock (some (timeText 23 59 59)) 7 0 0 0 =
        (codeSuccess, s') ∧
      s'.wakeUp (wrap32 (7 + (250 : ℕ))) = some [saveCursor ++ moveCursor ++
        secondsText (timeOfDay 23 59 59 250) ++ restoreCursor] ∧
      (secondsText (timeOfDay 23 59 59 250)).length = 8 ∧
      ∀ (s'' : Wallclock) (now hr min sec : ℤ),
        s''.setWallClock (some (secondsText (timeOfDay 23 59 59 250))) now hr min sec =
          (codeSuccess, { s'' with offset := timeOfDay 23 59 59 250, ref := now }) :=
  wall_clock_display (by decide) (by decide) (by decide) (by decide) 7 ⟨0, 0, true⟩ rfl 0 0 0

example : secondsText (timeOfDay 23 59 59 250) = cstr "00:00:01" := by decide +kernel

end Wallclock

end Rtx.Coldfire
