import Mathlib.Data.List.TakeWhile
import Rtx.Coldfire.Sprintf

/-!
# Debug output

`rtx_dbug_uint`, `rtx_dbug_int`, `rtx_dbug_hex` and `rtx_dbug_ptr` of `dbug.c`. `uint32_t` is a
`signed long`, and the remainders of a negative number are negative: they go to characters below
`'0'`, and to indexes before the beginning of the digit map. So a number is printed exactly if its
magnitude has a place in 31 bits (`dbug_exact_iff`).
-/

namespace Rtx.Coldfire

open Digits

def rtxSuccess : ℤ := 0
def rtxError : ℤ := -1

/-! ## The code -/

/-- The memory around an array, by the index. -/
abbrev Cells := ℤ → UInt8

/-- The terminal, and the indexes at which `map` and `buf` have been used. -/
structure Dbug where
  out : Text
  mapIndexes : List ℤ
  bufIndexes : List ℤ

/-- What the functions pass to `rtx_dbug_outs`. -/
inductive CharPtr
  | literal (text : Text)
  /-- `&buf[i]`. -/
  | buf (buf : Cells) (i : ℤ)

namespace Dbug

/-- `abs`. The negation of the smallest number wraps around. -/
def abs (n : ℤ) : ℤ := if n < 0 then wrap32 (-n) else n

/-- Use an element of `buf`. -/
def useBuf (s : Dbug) (i : ℤ) : Dbug := { s with bufIndexes := s.bufIndexes ++ [i] }

def rtxDbugOutChar (s : Dbug) (c : UInt8) : Dbug := { s with out := s.out ++ [c] }

/-- The loop of `rtx_dbug_outs`, from `buf[i]` on. -/
def rtxDbugOutsLoop (buf : Cells) : ℕ → ℤ → Dbug → Option Dbug
  | 0, _, _ => none
  | fuel + 1, i, s =>
    let s := s.useBuf i
    if buf i = 0 then some s else rtxDbugOutsLoop buf fuel (i + 1) (s.rtxDbugOutChar (buf i))

/-- `rtx_dbug_outs`. -/
def rtxDbugOuts (s : Dbug) : Option CharPtr → Option (ℤ × Dbug)
  | none => some (rtxError, s)
  | some (.literal text) => some (rtxSuccess, { s with out := s.out ++ text })
  | some (.buf buf i) => do
    let s ← rtxDbugOutsLoop buf 129 i s
    some (rtxSuccess, s)

/-- The loop over the digits: `char` is what is stored for a remainder, and `index` where `map` is
read for it. A number has at most 32 digits. -/
def digitsLoop (base : ℤ) (char : ℤ → UInt8) (index : ℤ → List ℤ) :
    ℕ → ℤ → ℤ → Cells → Dbug → Option (ℤ × Cells × Dbug)
  | 0, _, _, _, _ => none
  | fuel + 1, num, i, buf, s =>
    if num = 0 then some (i, buf, s)
    else
      let r := num.tmod base
      digitsLoop base char index fuel (num.tdiv base) (i - 1) (Function.update buf i (char r))
        { s.useBuf i with mapIndexes := s.mapIndexes ++ index r }

/-- What `rtx_dbug_uint` and `rtx_dbug_ptr` do with a number other than zero. -/
def printDigits (s : Dbug) (base : ℤ) (char : ℤ → UInt8) (index : ℤ → List ℤ) (buf : Cells)
    (num : ℤ) : Option (ℤ × Dbug) := do
  let (i, buf, s) ← digitsLoop base char index 33 num 126 (Function.update buf 127 0) (s.useBuf 127)
  (s.useBuf (i + 1)).rtxDbugOuts (some (.buf buf (i + 1)))

/-- `(num % 10) + '0'`, as a `char`. -/
def decimalChar (r : ℤ) : UInt8 := UInt8.ofNat (('0'.toNat + r) % 256).toNat

/-- `map[i]`; what stands around the literal is given. -/
def map (around : Cells) (i : ℤ) : UInt8 :=
  if 0 ≤ i ∧ i ≤ 16 then (cstr "0123456789ABCDEF" ++ [0]).getD i.toNat 0 else around i

/-- `rtx_dbug_uint`. What the array `buf` holds at first is given. -/
def rtxDbugUint (s : Dbug) (buf : Cells) (num : ℤ) : Option (ℤ × Dbug) :=
  if num = 0 then s.rtxDbugOuts (some (.literal (cstr "0")))
  else s.printDigits 10 decimalChar (fun _ => []) buf num

/-- `rtx_dbug_int`. -/
def rtxDbugInt (s : Dbug) (buf : Cells) (num : ℤ) : Option (ℤ × Dbug) :=
  (if num < 0 then s.rtxDbugOutChar '-'.toUInt8 else s).rtxDbugUint buf (abs num)

/-- `rtx_dbug_ptr`. -/
def rtxDbugPtr (s : Dbug) (around buf : Cells) (ptr : ℤ) : Option (ℤ × Dbug) := do
  let (_, s) ← s.rtxDbugOuts (some (.literal (cstr "0x")))
  if ptr = 0 then s.rtxDbugOuts (some (.literal (cstr "0\r\n")))
  else s.printDigits 16 (map around) (fun r => [r]) buf ptr

/-- `rtx_dbug_hex`. -/
def rtxDbugHex (s : Dbug) (around buf : Cells) (hex : ℤ) : Option (ℤ × Dbug) :=
  s.rtxDbugPtr around buf hex

end Dbug

/-- A call with a 32-bit word. -/
inductive DbugCall
  | uint (num : BitVec 32)
  | int (num : BitVec 32)
  | hex (num : BitVec 32)
  | ptr (num : BitVec 32)

/-- The hexadecimal numeral of a number. -/
def hexNumeral (n : ℕ) : Text := (Nat.toDigits 16 n).map fun c => c.toUpper.toUInt8

namespace DbugCall

/-- The call, with nothing printed before. The functions read each word as signed. -/
def run (around buf : Cells) : DbugCall → Option (ℤ × Dbug)
  | .uint num => Dbug.rtxDbugUint ⟨[], [], []⟩ buf num.toInt
  | .int num => Dbug.rtxDbugInt ⟨[], [], []⟩ buf num.toInt
  | .hex num => Dbug.rtxDbugHex ⟨[], [], []⟩ around buf num.toInt
  | .ptr num => Dbug.rtxDbugPtr ⟨[], [], []⟩ around buf num.toInt

/-- The magnitude of the number that the word stands for. -/
def magnitude : DbugCall → ℕ
  | .uint num | .hex num | .ptr num => num.toNat
  | .int num => num.toInt.natAbs

/-- What the call is to print. A hexadecimal zero has a line break behind it. -/
def text : DbugCall → Text
  | .uint num => numeral num.toNat
  | .int num => sign num.toInt ++ numeral num.toInt.natAbs
  | .hex num | .ptr num =>
    cstr "0x" ++ hexNumeral num.toNat ++ if num = 0 then cstr "\r\n" else []

end DbugCall

/-- Every index was inside. -/
structure Dbug.InBounds (s : Dbug) : Prop where
  map : ∀ i ∈ s.mapIndexes, 0 ≤ i ∧ i ≤ 15
  buf : ∀ i ∈ s.bufIndexes, 0 ≤ i ∧ i ≤ 127

/-- The call prints what it is to print, and uses `map` and `buf` inside. -/
def DbugCall.Exact (call : DbugCall) (around buf : Cells) : Prop :=
  ∃ s, call.run around buf = some (rtxSuccess, s) ∧ s.out = call.text ∧ s.InBounds

namespace Dbug

variable {s s' t : Dbug} {around buf : Cells} {char : ℤ → UInt8} {index : ℤ → List ℤ}
  {text text' : Text} {indexes indexes' : List ℤ} {i num : ℤ} {b fuel n : ℕ}

/-! ## Steps -/

/-- What is printed and where `map` is read on the way from `s` to `s'`; `buf` is used inside. -/
structure Prints (s s' : Dbug) (text : Text) (indexes : List ℤ) : Prop where
  out : s'.out = s.out ++ text
  map : s'.mapIndexes = s.mapIndexes ++ indexes
  buf : ∀ i ∈ s'.bufIndexes, i ∈ s.bufIndexes ∨ 0 ≤ i ∧ i ≤ 127

theorem Prints.refl (s : Dbug) : Prints s s [] [] where
  out := (List.append_nil _).symm
  map := (List.append_nil _).symm
  buf _ := .inl

theorem Prints.trans (h : Prints s t text indexes) (h' : Prints t s' text' indexes') :
    Prints s s' (text ++ text') (indexes ++ indexes') where
  out := by rw [h'.out, h.out, List.append_assoc]
  map := by rw [h'.map, h.map, List.append_assoc]
  buf i hi := by
    rcases h'.buf i hi with hi | hi
    · exact h.buf i hi
    · exact .inr hi

theorem prints_useBuf (s : Dbug) (hlow : 0 ≤ i) (hhigh : i ≤ 127) :
    Prints s (s.useBuf i) [] [] where
  out := (List.append_nil _).symm
  map := (List.append_nil _).symm
  buf j hj := by
    rcases List.mem_append.1 hj with hj | hj
    · exact .inl hj
    · rw [List.mem_singleton.1 hj]
      exact .inr ⟨hlow, hhigh⟩

theorem prints_outChar (s : Dbug) (c : UInt8) : Prints s (s.rtxDbugOutChar c) [c] [] where
  out := rfl
  map := (List.append_nil _).symm
  buf _ := .inl

/-! ## The loops -/

/-- The bytes, and then a NUL, stand in memory from `i` on. -/
def Holds (buf : Cells) : ℤ → Text → Prop
  | i, [] => buf i = 0
  | i, c :: text => buf i = c ∧ Holds buf (i + 1) text

theorem Holds.update (h : Holds buf i text) {j : ℤ} (hj : j < i) (c : UInt8) :
    Holds (Function.update buf j c) i text := by
  induction text generalizing i with
  | nil => exact (Function.update_of_ne hj.ne' ..).trans h
  | cons c' text ih =>
    exact ⟨(Function.update_of_ne hj.ne' ..).trans h.1, ih h.2 (hj.trans (Int.lt_succ i))⟩

theorem rtxDbugOutsLoop_eq (h : Holds buf i text) (hfuel : text.length < fuel) (hlow : 0 ≤ i)
    (hhigh : i + text.length ≤ 127) :
    ∃ s', rtxDbugOutsLoop buf fuel i s = some s' ∧
      Prints s s' (text.takeWhile (· ≠ 0)) [] := by
  induction fuel generalizing i s text with
  | zero => exact absurd hfuel (Nat.not_lt_zero _)
  | succ fuel ih =>
    have huse : Prints s (s.useBuf i) [] [] := prints_useBuf s hlow (by omega)
    rw [rtxDbugOutsLoop]
    cases text with
    | nil =>
      have hnul : buf i = 0 := h
      rw [if_pos hnul]
      exact ⟨_, rfl, huse⟩
    | cons c text =>
      obtain ⟨hc, hrest⟩ := h
      rw [List.length_cons] at hfuel hhigh
      push_cast at hhigh
      rw [hc]
      by_cases hzero : c = 0
      · rw [if_pos hzero, List.takeWhile_cons_of_neg (by simpa using hzero)]
        exact ⟨_, rfl, huse⟩
      · rw [if_neg hzero, List.takeWhile_cons_of_pos (by simpa using hzero)]
        obtain ⟨s', hrun, hprints⟩ := ih (s := (s.useBuf i).rtxDbugOutChar c) hrest
          (Nat.lt_of_succ_lt_succ hfuel) (by omega) (by omega)
        exact ⟨s', hrun, (huse.trans (prints_outChar _ c)).trans hprints⟩

/-- The loop writes the digits from the lowest to the highest, each in front of the one before. -/
theorem digitsLoop_eq (hb : 1 < b) (hfuel : (signed b num).length < fuel)
    (h : Holds buf (i + 1) text) (hlow : (signed b num).length ≤ i + 1) (hhigh : i ≤ 127) :
    ∃ buf' s', digitsLoop b char index fuel num i buf s =
        some (i - (signed b num).length, buf', s') ∧
      Holds buf' (i - (signed b num).length + 1) (((signed b num).map char).reverse ++ text) ∧
      Prints s s' [] ((signed b num).flatMap index) := by
  induction fuel generalizing num i buf s text with
  | zero => exact absurd hfuel (Nat.not_lt_zero _)
  | succ fuel ih =>
    by_cases hnum : num = 0
    · subst hnum
      rw [digitsLoop, if_pos rfl, signed_zero]
      exact ⟨buf, s, by simp, by simpa using h, .refl s⟩
    · rw [digitsLoop, if_neg hnum]
      rw [signed_of_ne_zero hb hnum, List.length_cons] at hfuel hlow ⊢
      push_cast at hlow ⊢
      have hi : 0 ≤ i := by omega
      -- The digit stands in front of those below it.
      have hcell : Holds (Function.update buf i (char (num.tmod b))) (i - 1 + 1)
          (char (num.tmod b) :: text) := by
        rw [Int.sub_add_cancel]
        exact ⟨Function.update_self .., h.update (Int.lt_succ i) _⟩
      obtain ⟨buf', s', hrun, hholds, hprints⟩ := ih
        (s := { s.useBuf i with mapIndexes := s.mapIndexes ++ index (num.tmod b) })
        (Nat.lt_of_succ_lt_succ hfuel) hcell (by omega) (by omega)
      have hstep : Prints s { s.useBuf i with
          mapIndexes := s.mapIndexes ++ index (num.tmod b) } [] (index (num.tmod b)) :=
        ⟨(prints_useBuf s hi hhigh).out, rfl, (prints_useBuf s hi hhigh).buf⟩
      refine ⟨buf', s', ?_, ?_, hstep.trans hprints⟩
      · rw [hrun, sub_sub, add_comm 1]
      · rw [List.map_cons, List.reverse_cons, List.append_assoc]
        rw [sub_sub, add_comm 1] at hholds
        exact hholds

/-! ## The numbers -/

/-- The characters of the digits, up to a NUL among them. -/
def digitText (b : ℕ) (char : ℤ → UInt8) (num : ℤ) : Text :=
  (((signed b num).map char).reverse).takeWhile (· ≠ 0)

theorem printDigits_eq (s : Dbug) (buf : Cells) (char : ℤ → UInt8) (index : ℤ → List ℤ) (hb : 1 < b)
    (hnum : num.natAbs < 2 ^ 32) :
    ∃ s', s.printDigits b char index buf num = some (rtxSuccess, s') ∧
      Prints s s' (digitText b char num) ((signed b num).flatMap index) := by
  have hlength : (signed b num).length ≤ 32 :=
    (length_signed_le_iff hb).2 (hnum.trans_le (Nat.pow_le_pow_left hb 32))
  have hnul : Holds (Function.update buf 127 0) (126 + 1) [] := Function.update_self ..
  obtain ⟨buf', t, hloop, hholds, hdigits⟩ := digitsLoop_eq (s := s.useBuf 127) hb
    (Nat.lt_succ_of_le hlength) hnul (by omega) (by omega)
  rw [List.append_nil] at hholds
  obtain ⟨s', houts, hprints⟩ := rtxDbugOutsLoop_eq
    (s := t.useBuf (126 - (signed b num).length + 1)) hholds
    (show _ < 129 by rw [List.length_reverse, List.length_map]; omega) (by omega)
    (by rw [List.length_reverse, List.length_map]; omega)
  refine ⟨s', ?_, ?_⟩
  · unfold printDigits
    rw [hloop]
    show (rtxDbugOutsLoop _ _ _ _).bind _ = _
    rw [houts]
    rfl
  · have huse : Prints s (s.useBuf 127) [] [] := prints_useBuf s (by decide) (by decide)
    have haddr : Prints t (t.useBuf (126 - (signed b num).length + 1)) [] [] :=
      prints_useBuf t (by omega) (by omega)
    simpa only [List.nil_append, List.append_nil, digitText] using
      ((huse.trans hdigits).trans haddr).trans hprints

/-- What `rtx_dbug_uint` prints. -/
def decimalText (num : ℤ) : Text := if num = 0 then cstr "0" else digitText 10 decimalChar num

/-- What `rtx_dbug_ptr` prints behind `0x`. -/
def hexText (around : Cells) (num : ℤ) : Text :=
  if num = 0 then cstr "0\r\n" else digitText 16 (map around) num

theorem rtxDbugUint_eq (s : Dbug) (buf : Cells) (hnum : num.natAbs < 2 ^ 32) :
    ∃ s', s.rtxDbugUint buf num = some (rtxSuccess, s') ∧ Prints s s' (decimalText num) [] := by
  unfold rtxDbugUint decimalText
  split
  · exact ⟨_, rfl, rfl, (List.append_nil _).symm, fun _ => .inl⟩
  · obtain ⟨s', hrun, hprints⟩ :=
      s.printDigits_eq buf decimalChar (fun _ => []) (show 1 < 10 by decide) hnum
    have hnone : (signed 10 num).flatMap (fun _ => ([] : List ℤ)) = [] :=
      List.flatMap_eq_nil_iff.2 fun _ _ => rfl
    rw [hnone] at hprints
    exact ⟨s', hrun, hprints⟩

theorem rtxDbugInt_eq (s : Dbug) (buf : Cells) (hnum : (abs num).natAbs < 2 ^ 32) :
    ∃ s', s.rtxDbugInt buf num = some (rtxSuccess, s') ∧
      Prints s s' (sign num ++ decimalText (abs num)) [] := by
  unfold rtxDbugInt sign
  split
  · obtain ⟨s', hrun, hprints⟩ := (s.rtxDbugOutChar '-'.toUInt8).rtxDbugUint_eq buf hnum
    exact ⟨s', hrun, (prints_outChar s _).trans hprints⟩
  · exact s.rtxDbugUint_eq buf hnum

theorem rtxDbugPtr_eq (s : Dbug) (around buf : Cells) (hnum : num.natAbs < 2 ^ 32) :
    ∃ s', s.rtxDbugPtr around buf num = some (rtxSuccess, s') ∧
      Prints s s' (cstr "0x" ++ hexText around num) (signed 16 num) := by
  have hbegin : Prints s { s with out := s.out ++ cstr "0x" } (cstr "0x") [] :=
    ⟨rfl, (List.append_nil _).symm, fun _ => .inl⟩
  unfold rtxDbugPtr hexText
  show ∃ s', (if num = 0 then _ else _) = _ ∧ _
  by_cases hzero : num = 0
  · subst hzero
    refine ⟨_, rfl, ?_⟩
    rw [signed_zero]
    exact hbegin.trans ⟨rfl, (List.append_nil _).symm, fun _ => .inl⟩
  · rw [if_neg hzero, if_neg hzero]
    obtain ⟨s', hrun, hprints⟩ := Dbug.printDigits_eq { s with out := s.out ++ cstr "0x" } buf
      (map around) (fun r => [r]) (show 1 < 16 by decide) hnum
    refine ⟨s', hrun, ?_⟩
    rw [List.flatMap_singleton'] at hprints
    exact hbegin.trans hprints

/-! ## The characters -/

theorem digitText_eq (hchar : ∀ r ∈ signed b num, char r ≠ 0) :
    digitText b char num = ((signed b num).map char).reverse := by
  apply List.takeWhile_eq_self_iff.2
  intro c hc
  obtain ⟨r, hr, rfl⟩ := List.mem_map.1 (List.mem_reverse.1 hc)
  exact decide_eq_true (hchar r hr)

theorem digitText_natCast {f : Char → UInt8} (hb : 1 < b) (hn : n ≠ 0)
    (hchar : ∀ d : ℕ, d < b → char d = f d.digitChar ∧ f d.digitChar ≠ 0) :
    digitText b char n = (Nat.toDigits b n).map f := by
  have hdigit : ∀ d ∈ Nat.digits b n, d < b := fun d => Nat.digits_lt_base hb
  rw [digitText_eq, signed_natCast, toDigits_eq_digits hb hn, List.map_reverse, List.map_map,
    List.map_map]
  · congr 1
    apply List.map_congr_left
    intro d hd
    exact (hchar d (hdigit d hd)).1
  · rw [signed_natCast]
    intro r hr
    obtain ⟨d, hd, rfl⟩ := List.mem_map.1 hr
    obtain ⟨heq, hne⟩ := hchar d (hdigit d hd)
    rw [heq]
    exact hne

theorem decimalText_natCast (n : ℕ) : decimalText n = numeral n := by
  unfold decimalText
  by_cases hn : n = 0
  · subst hn
    rfl
  · rw [if_neg (by exact_mod_cast hn), numeral]
    apply digitText_natCast (by decide) hn
    intro d hd
    refine ⟨toUInt8_digitChar d hd, ?_⟩
    revert d
    decide

theorem map_natCast (around : Cells) : ∀ d : ℕ, d < 16 →
    map around d = d.digitChar.toUpper.toUInt8 ∧ d.digitChar.toUpper.toUInt8 ≠ 0 := by
  intro d hd
  rw [map, if_pos (by omega), Int.toNat_natCast]
  revert d
  decide

theorem hexText_natCast (around : Cells) (n : ℕ) :
    hexText around n = hexNumeral n ++ if n = 0 then cstr "\r\n" else [] := by
  unfold hexText
  by_cases hn : n = 0
  · subst hn
    rfl
  · rw [if_neg (by exact_mod_cast hn), if_neg hn, List.append_nil, hexNumeral]
    exact digitText_natCast (by decide) hn (map_natCast around)

/-- A negative remainder goes to a character before `'0'`. -/
theorem decimalChar_of_nonpos {r : ℤ} (hlow : r.natAbs < 10) (hr : r ≤ 0) :
    decimalChar r ≠ 0 ∧ (r < 0 → decimalChar r < 48) := by
  obtain ⟨d, rfl⟩ : ∃ d : ℕ, r = -d := ⟨r.natAbs, by omega⟩
  rw [Int.natAbs_neg, Int.natAbs_natCast] at hlow
  clear hr
  revert d
  decide

theorem exists_lt_mem_decimalText (hnum : num < 0) : ∃ c ∈ decimalText num, c < 48 := by
  have hchar : ∀ r ∈ signed 10 num, decimalChar r ≠ 0 ∧ (r < 0 → decimalChar r < 48) := by
    intro r hr
    exact decimalChar_of_nonpos (natAbs_lt_of_mem_signed (by decide) hr)
      (nonpos_of_mem_signed hnum.le hr)
  obtain ⟨r, hr, hneg⟩ := exists_neg_mem_signed 10 hnum
  refine ⟨decimalChar r, ?_, (hchar r hr).2 hneg⟩
  rw [decimalText, if_neg hnum.ne, digitText_eq fun r hr => (hchar r hr).1]
  exact List.mem_reverse.2 (List.mem_map.2 ⟨r, hr, rfl⟩)

theorem le_of_mem_numeral {c : UInt8} (hc : c ∈ numeral n) : 48 ≤ c := by
  by_cases hn : n = 0
  · subst hn
    rw [List.mem_singleton.1 hc]
    decide
  · rw [numeral, toDigits_eq_digits (by decide) hn] at hc
    obtain ⟨x, hx, rfl⟩ := List.mem_map.1 hc
    obtain ⟨d, hd, rfl⟩ := List.mem_map.1 (List.mem_reverse.1 hx)
    have hlt : d < 10 := Nat.digits_lt_base (by decide) hd
    clear hc hx hd
    revert d
    decide

theorem decimalText_ne_numeral (hnum : num < 0) : decimalText num ≠ numeral n := by
  intro heq
  obtain ⟨c, hc, hlt⟩ := exists_lt_mem_decimalText hnum
  rw [heq] at hc
  exact UInt8.not_lt.2 (le_of_mem_numeral hc) hlt

end Dbug

/-! ## All words -/

namespace DbugCall

variable {call : DbugCall} {around buf : Cells} {w : BitVec 32}

theorem toInt_of_lt (hw : w.toNat < 2 ^ 31) : w.toInt = w.toNat :=
  BitVec.toInt_eq_toNat_of_lt (by omega)

theorem toInt_neg_of_le (hw : 2 ^ 31 ≤ w.toNat) : w.toInt < 0 :=
  BitVec.toInt_neg_iff.2 (by omega)

theorem natAbs_toInt_le (w : BitVec 32) : w.toInt.natAbs ≤ 2 ^ 31 := by
  have hlow := BitVec.le_toInt w
  have hhigh := BitVec.toInt_lt (x := w)
  norm_num at hlow hhigh ⊢
  omega

/-- The smallest number is its own negation. -/
theorem abs_toInt (w : BitVec 32) : Dbug.abs w.toInt =
    if w.toInt.natAbs < 2 ^ 31 then (w.toInt.natAbs : ℤ) else -2 ^ 31 := by
  have hle := natAbs_toInt_le w
  have hhigh : w.toInt < 2 ^ 31 := BitVec.toInt_lt
  unfold Dbug.abs
  split
  · next hneg =>
    split
    · next hlt =>
      rw [wrap32_of_range (by omega) (by omega)]
      omega
    · next hge =>
      rw [show w.toInt = -2 ^ 31 by omega]
      decide
  · rw [if_pos (by omega)]
    omega

/-- What the call prints. -/
def printed (around : Cells) : DbugCall → Text
  | .uint num => Dbug.decimalText num.toInt
  | .int num => sign num.toInt ++ Dbug.decimalText (Dbug.abs num.toInt)
  | .hex num | .ptr num => cstr "0x" ++ Dbug.hexText around num.toInt

/-- Where it reads the digit map. -/
def indexes : DbugCall → List ℤ
  | .uint _ | .int _ => []
  | .hex num | .ptr num => signed 16 num.toInt

theorem run_eq (call : DbugCall) (around buf : Cells) :
    ∃ s, call.run around buf = some (rtxSuccess, s) ∧
      Dbug.Prints ⟨[], [], []⟩ s (call.printed around) call.indexes := by
  have hword : ∀ w : BitVec 32, w.toInt.natAbs < 2 ^ 32 := fun w =>
    (natAbs_toInt_le w).trans_lt (by decide)
  cases call with
  | uint w => exact Dbug.rtxDbugUint_eq _ buf (hword w)
  | int w =>
    apply Dbug.rtxDbugInt_eq
    have hle := natAbs_toInt_le w
    rw [abs_toInt]
    split <;> omega
  | hex w => exact Dbug.rtxDbugPtr_eq _ around buf (hword w)
  | ptr w => exact Dbug.rtxDbugPtr_eq _ around buf (hword w)

theorem exact_iff (call : DbugCall) (around buf : Cells) : call.Exact around buf ↔
    call.printed around = call.text ∧ ∀ i ∈ call.indexes, 0 ≤ i ∧ i ≤ 15 := by
  obtain ⟨s, hrun, hout, hmap, hbuf⟩ := call.run_eq around buf
  rw [List.nil_append] at hout hmap
  constructor
  · rintro ⟨t, ht, htext, hin⟩
    rw [hrun] at ht
    cases ht
    rw [← hout, ← hmap]
    exact ⟨htext, hin.map⟩
  · rintro ⟨htext, hindexes⟩
    refine ⟨s, hrun, hout.trans htext, ?_, ?_⟩
    · rw [hmap]
      exact hindexes
    · intro i hi
      exact (hbuf i hi).resolve_left List.not_mem_nil

theorem uint_exact_iff (around buf : Cells) (w : BitVec 32) :
    (uint w).Exact around buf ↔ w.toNat < 2 ^ 31 := by
  rw [exact_iff]
  constructor
  · intro h
    by_contra hge
    exact Dbug.decimalText_ne_numeral (toInt_neg_of_le (not_lt.1 hge)) h.1
  · intro hlt
    refine ⟨?_, nofun⟩
    show Dbug.decimalText w.toInt = numeral w.toNat
    rw [toInt_of_lt hlt]
    exact Dbug.decimalText_natCast w.toNat

theorem int_exact_iff (around buf : Cells) (w : BitVec 32) :
    (int w).Exact around buf ↔ w.toInt.natAbs < 2 ^ 31 := by
  have habs := abs_toInt w
  rw [exact_iff]
  constructor
  · intro h
    by_contra hge
    rw [if_neg hge] at habs
    have htext : Dbug.decimalText (Dbug.abs w.toInt) = numeral w.toInt.natAbs :=
      List.append_cancel_left h.1
    exact Dbug.decimalText_ne_numeral (by rw [habs]; decide) htext
  · intro hlt
    rw [if_pos hlt] at habs
    refine ⟨?_, nofun⟩
    show sign w.toInt ++ Dbug.decimalText (Dbug.abs w.toInt) = _
    rw [habs, Dbug.decimalText_natCast]
    rfl

theorem ptr_exact_iff (around buf : Cells) (w : BitVec 32) :
    (ptr w).Exact around buf ↔ w.toNat < 2 ^ 31 := by
  rw [exact_iff]
  constructor
  · intro h
    by_contra hge
    obtain ⟨r, hr, hneg⟩ := exists_neg_mem_signed 16 (toInt_neg_of_le (not_lt.1 hge))
    exact absurd (h.2 r hr).1 (not_le.2 hneg)
  · intro hlt
    have hint := toInt_of_lt hlt
    refine ⟨?_, fun r hr => ?_⟩
    · have hzero : w.toNat = 0 ↔ w = 0 := by
        rw [← BitVec.toNat_inj]
        rfl
      show cstr "0x" ++ Dbug.hexText around w.toInt = _
      rw [hint, Dbug.hexText_natCast, ← List.append_assoc]
      simp only [hzero]
      rfl
    · have hbound : r.natAbs < 16 := natAbs_lt_of_mem_signed (by decide) hr
      have hnonneg : 0 ≤ r := nonneg_of_mem_signed (by omega) hr
      omega

end DbugCall

/-- Every call prints its number exactly if the magnitude has a place in 31 bits. -/
theorem dbug_exact_iff (call : DbugCall) (around buf : Cells) :
    call.Exact around buf ↔ call.magnitude < 2 ^ 31 := by
  cases call with
  | uint w => exact DbugCall.uint_exact_iff around buf w
  | int w => exact DbugCall.int_exact_iff around buf w
  | hex w => exact DbugCall.ptr_exact_iff around buf w
  | ptr w => exact DbugCall.ptr_exact_iff around buf w

/-- The largest word is printed as a slash, a device address is looked up before the digit map, and
the smallest number has no digit in it. -/
theorem dbug_misprints :
    ((DbugCall.uint 0xffffffff#32).run (fun _ => 0) fun _ => 0).map (·.2.out) = some (cstr "/") ∧
      ¬ (DbugCall.uint 0xffffffff#32).Exact (fun _ => 0) (fun _ => 0) ∧
      ((DbugCall.hex 0xf0000000#32).run (fun _ => 0) fun _ => 0).map (·.2.mapIndexes) =
        some [0, 0, 0, 0, 0, 0, 0, -1] ∧
      ¬ (DbugCall.hex 0xf0000000#32).Exact (fun _ => 0) (fun _ => 0) ∧
      ((DbugCall.int 0x80000000#32).run (fun _ => 0) fun _ => 0).map (·.2.out) =
        some (cstr "-./,),(-*,(") ∧
      ¬ (DbugCall.int 0x80000000#32).Exact (fun _ => 0) (fun _ => 0) := by
  refine ⟨by decide +kernel, ?_, by decide +kernel, ?_, by decide +kernel, ?_⟩
  · rw [DbugCall.uint_exact_iff]
    decide
  · intro h
    exact absurd ((DbugCall.ptr_exact_iff _ _ _).1 h) (by decide)
  · rw [DbugCall.int_exact_iff]
    decide

end Rtx.Coldfire
