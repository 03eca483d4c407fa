import Rtx.Coldfire.Tokens
import Rtx.Lib.Fields
import Rtx.Lib.Run

/-!
# Splitting into tokens

`rtx_strtok` with its static variables: the buffer `copy` and the cursor `i`, a byte. A call with a
string begins anew, a call without one goes on behind the last token. The calls give the fields
between the delimiters, one after the other (`rtx_strtok_tokens`), and `rtxStrtok` is what a call
does to the text behind the cursor (`StrtokState.rtxStrtok_refines`).
-/

namespace Rtx.Coldfire

open Transition Fields

/-! ## Texts in memory -/

/-- The text, and then a NUL, stand in memory from `i` on. -/
def TextAt (b : Body) : ℕ → Text → Prop
  | i, [] => b i = 0
  | i, c :: text => b i = c ∧ c ≠ 0 ∧ TextAt b (i + 1) text

/-- The body with the text and its NUL written from `j` on. -/
def putTextAt (b : Body) (j : ℕ) (text : Text) : Body :=
  fun k => if k < j then b k else (text ++ [0]).getD (k - j) (b k)

@[simp] theorem putTextAt_zero (b : Body) (text : Text) : putTextAt b 0 text = putText b text := rfl

@[simp] theorem putTextAt_nil (b : Body) (j : ℕ) :
    putTextAt b j [] = Function.update b j 0 := by
  funext k
  rcases lt_trichotomy k j with hlt | rfl | hgt
  · simp [putTextAt, hlt, hlt.ne]
  · simp [putTextAt]
  · have hk : k - j = (k - j - 1) + 1 := by omega
    rw [putTextAt, if_neg (by omega), hk, Function.update_of_ne hgt.ne']
    rfl

theorem putTextAt_cons (b : Body) (j : ℕ) (c : UInt8) (text : Text) :
    putTextAt (Function.update b j c) (j + 1) text = putTextAt b j (c :: text) := by
  funext k
  rcases lt_trichotomy k j with hlt | rfl | hgt
  · simp [putTextAt, hlt, hlt.ne, Nat.lt_succ_of_lt hlt]
  · simp [putTextAt]
  · have hk : k - j = (k - (j + 1)) + 1 := by omega
    rw [putTextAt, putTextAt, if_neg (by omega), if_neg (by omega), hk,
      Function.update_of_ne hgt.ne']
    rfl

theorem textAt_putTextAt (b : Body) (j : ℕ) {text : Text} (h : 0 ∉ text) :
    TextAt (putTextAt b j text) j text := by
  induction text generalizing b j with
  | nil =>
    rw [putTextAt_nil]
    exact Function.update_self ..
  | cons c text ih =>
    obtain ⟨hc, htext⟩ := not_or.1 (mt List.mem_cons.2 h)
    refine ⟨?_, Ne.symm hc, ?_⟩
    · simp [putTextAt]
    · rw [← putTextAt_cons]
      exact ih _ _ htext

theorem TextAt.unique {b : Body} {i : ℕ} {text text' : Text} (h : TextAt b i text)
    (h' : TextAt b i text') : text = text' := by
  induction text generalizing i text' with
  | nil =>
    cases text' with
    | nil => rfl
    | cons c text' => exact absurd (h'.1.symm.trans h) h'.2.1
  | cons c text ih =>
    cases text' with
    | nil => exact absurd (h.1.symm.trans h') h.2.1
    | cons c' text' =>
      obtain ⟨hc, -, hrest⟩ := h
      obtain ⟨hc', -, hrest'⟩ := h'
      rw [← hc, ← hc', ih hrest hrest']

/-- A store of a byte: the index and the byte. -/
abbrev Store := ℕ × UInt8

/-- The body after the stores. -/
def storeAll (b : Body) (stores : List Store) : Body :=
  stores.foldl (fun b w => Function.update b w.1 w.2) b

/-- The stores that write the text and its NUL from `j` on. -/
def textStores : ℕ → Text → List Store
  | j, [] => [(j, 0)]
  | j, c :: text => (j, c) :: textStores (j + 1) text

@[simp] theorem storeAll_textStores (b : Body) (j : ℕ) (text : Text) :
    storeAll b (textStores j text) = putTextAt b j text := by
  induction text generalizing b j with
  | nil => rw [putTextAt_nil]; rfl
  | cons c text ih =>
    rw [← putTextAt_cons, ← ih]
    rfl

theorem textStores_range {j : ℕ} {text : Text} {w : Store} (hw : w ∈ textStores j text) :
    j ≤ w.1 ∧ w.1 ≤ j + text.length := by
  induction text generalizing j with
  | nil =>
    rw [List.mem_singleton.1 hw]
    simp
  | cons c text ih =>
    rw [List.length_cons]
    rcases List.mem_cons.1 hw with rfl | hw
    · simp
    · have := ih hw
      omega

theorem nul_mem_textStores (j : ℕ) (text : Text) : (j + text.length, 0) ∈ textStores j text := by
  induction text generalizing j with
  | nil => exact List.mem_singleton.2 rfl
  | cons c text ih =>
    have := ih (j + 1)
    rw [List.length_cons, show j + (text.length + 1) = j + 1 + text.length by omega]
    exact List.mem_cons_of_mem _ this

theorem textStores_lt_iff {size : ℕ} {text : Text} :
    (∀ w ∈ textStores 0 text, w.1 < size) ↔ text.length < size := by
  constructor
  · intro h
    simpa using h _ (nul_mem_textStores 0 text)
  · intro h w hw
    have := textStores_range hw
    omega

theorem rtxStrcpyLoop_eq {strSize : ℤ} {i : ℕ} {text : Text} (h : i + text.length ≤ strSize + 1) :
    rtxStrcpyLoop strSize i text = text := by
  induction text generalizing i with
  | nil => rfl
  | cons c text ih =>
    rw [List.length_cons] at h
    rw [rtxStrcpyLoop, if_pos (by omega), ih (by omega)]

theorem rtxStrcpyLoop_truncates (strSize : ℤ) (i : ℕ) (text : Text) :
    rtxStrcpyLoop strSize i text <+: text := by
  induction text generalizing i with
  | nil => exact List.prefix_refl _
  | cons c text ih =>
    rw [rtxStrcpyLoop]
    split
    · exact (List.prefix_cons_inj c).2 (ih (i + 1))
    · exact List.nil_prefix

theorem rtxStrcpyLoop_length (strSize : ℕ) (i : ℕ) (text : Text) :
    (rtxStrcpyLoop strSize i text).length ≤ strSize + 1 - i := by
  induction text generalizing i with
  | nil => exact Nat.zero_le _
  | cons c text ih =>
    rw [rtxStrcpyLoop]
    split
    · have := ih (i + 1)
      rw [List.length_cons]
      omega
    · exact Nat.zero_le _

/-! ## The code -/

/-- The static variables. -/
structure StrtokState where
  copy : Body
  i : UInt8

/-- `while (_findChar(copy[i], delimiters) == 1)`, from the cursor `i` on. With more fuel than a
byte has values it only runs out where the source loops for ever. -/
def skipLoop (copy : Body) (delimiters : Text) : ℕ → UInt8 → Option UInt8
  | 0, _ => none
  | fuel + 1, i =>
    if findChar (copy i.toNat) delimiters = 1 then skipLoop copy delimiters fuel (i + 1) else some i

/-- `while (copy[i] != '\0' && _findChar(copy[i], delimiters) == 0)`, and the NUL behind it. -/
def tokenLoop (copy : Body) (delimiters : Text) : ℕ → UInt8 → UInt8 → Body → Option (Body × UInt8)
  | 0, _, _, _ => none
  | fuel + 1, i, j, ret =>
    if copy i.toNat ≠ 0 ∧ findChar (copy i.toNat) delimiters = 0 then
      tokenLoop copy delimiters fuel (i + 1) (j + 1)
        (Function.update ret j.toNat (copy i.toNat))
    else some (Function.update ret j.toNat 0, i)

/-- The stores of `tokenLoop`, and the cursor behind them. -/
def tokenLoopStores (copy : Body) (delimiters : Text) :
    ℕ → UInt8 → UInt8 → Option (List Store × UInt8)
  | 0, _, _ => none
  | fuel + 1, i, j =>
    if copy i.toNat ≠ 0 ∧ findChar (copy i.toNat) delimiters = 0 then
      (tokenLoopStores copy delimiters fuel (i + 1) (j + 1)).map fun r =>
        ((j.toNat, copy i.toNat) :: r.1, r.2)
    else some ([(j.toNat, 0)], i)

namespace StrtokState

/-- More than the values of a byte. -/
def fuel : ℕ := 257

/-- `rtx_strtok`: what `ret` holds afterwards, and the static variables. -/
def rtxStrtok (S : StrtokState) (str : Option Text) (ret : Body) (delimiters : Text) :
    Option (Body × StrtokState) := do
  let S : StrtokState := match str with
    | some str => ⟨putText S.copy (rtxStrcpy str 100), 0⟩
    | none => S
  let i ← skipLoop S.copy delimiters fuel S.i
  let (ret, i) ← tokenLoop S.copy delimiters fuel i 0 ret
  return (ret, { S with i := i })

/-- The stores of `rtx_strtok` into `ret`, and the static variables. -/
def rtxStrtokStores (S : StrtokState) (str : Option Text) (delimiters : Text) :
    Option (List Store × StrtokState) := do
  let S : StrtokState := match str with
    | some str => ⟨putText S.copy (rtxStrcpy str 100), 0⟩
    | none => S
  let i ← skipLoop S.copy delimiters fuel S.i
  let (stores, i) ← tokenLoopStores S.copy delimiters fuel i 0
  return (stores, { S with i := i })

end StrtokState

/-! ## One call -/

/-- The character is a delimiter. -/
def isDelimiter (delimiters : Text) (c : UInt8) : Bool := decide (c ∈ delimiters)

theorem findChar_eq_one {c : UInt8} {str : Text} : findChar c str = 1 ↔ c ∈ str := by
  unfold findChar
  split <;> simp_all

theorem findChar_eq_zero {c : UInt8} {str : Text} : findChar c str = 0 ↔ c ∉ str := by
  unfold findChar
  split <;> simp_all

section Loops

variable {copy : Body} {delimiters text : Text} {fuel : ℕ} {i j : UInt8}

theorem toNat_succ (h : i.toNat + 1 < 256) : (i + 1).toNat = i.toNat + 1 := by
  rw [UInt8.toNat_add]
  exact Nat.mod_eq_of_lt h

theorem skipLoop_eq (hD : 0 ∉ delimiters) (htext : TextAt copy i.toNat text)
    (hi : i.toNat + text.length < 256) (hfuel : text.length < fuel) :
    ∃ i', skipLoop copy delimiters fuel i = some i' ∧
      TextAt copy i'.toNat (text.dropWhile (isDelimiter delimiters)) ∧
      i'.toNat + (text.dropWhile (isDelimiter delimiters)).length = i.toNat + text.length := by
  induction fuel generalizing i text with
  | zero => omega
  | succ fuel ih =>
    cases text with
    | nil =>
      have hnul : copy i.toNat = 0 := htext
      refine ⟨i, ?_, htext, rfl⟩
      rw [skipLoop, hnul, if_neg (mt findChar_eq_one.1 hD)]
    | cons c text =>
      obtain ⟨hc, hne, hrest⟩ := htext
      rw [List.length_cons] at hi hfuel
      by_cases hmem : c ∈ delimiters
      · rw [← toNat_succ (by omega)] at hrest
        obtain ⟨i', hskip, htext', hlength⟩ := ih hrest
          (by rw [toNat_succ (by omega)]; omega) (by omega)
        refine ⟨i', ?_, ?_, ?_⟩
        · rw [skipLoop, hc, if_pos (findChar_eq_one.2 hmem), hskip]
        · rwa [List.dropWhile_cons_of_pos (by simpa [isDelimiter] using hmem)]
        · rw [List.dropWhile_cons_of_pos (by simpa [isDelimiter] using hmem), hlength,
            toNat_succ (by omega), List.length_cons]
          omega
      · refine ⟨i, ?_, ?_, ?_⟩
        · rw [skipLoop, hc, if_neg (mt findChar_eq_one.1 hmem)]
        · rw [List.dropWhile_cons_of_neg (by simpa [isDelimiter] using hmem)]
          exact ⟨hc, hne, hrest⟩
        · rw [List.dropWhile_cons_of_neg (by simpa [isDelimiter] using hmem)]

theorem tokenLoop_stores (copy : Body) (delimiters : Text) (fuel : ℕ) (i j : UInt8) (ret : Body) :
    tokenLoop copy delimiters fuel i j ret =
      (tokenLoopStores copy delimiters fuel i j).map fun r => (storeAll ret r.1, r.2) := by
  induction fuel generalizing i j ret with
  | zero => rfl
  | succ fuel ih =>
    rw [tokenLoop, tokenLoopStores]
    split
    · rw [ih, Option.map_map]
      rfl
    · rfl

theorem tokenLoopStores_eq (htext : TextAt copy i.toNat text) (hi : i.toNat + text.length < 256)
    (hj : j.toNat + text.length < 256) (hfuel : text.length < fuel) :
    ∃ i', tokenLoopStores copy delimiters fuel i j =
        some (textStores j.toNat (text.takeWhile (!isDelimiter delimiters ·)), i') ∧
      TextAt copy i'.toNat (text.dropWhile (!isDelimiter delimiters ·)) ∧
      i'.toNat + (text.dropWhile (!isDelimiter delimiters ·)).length = i.toNat + text.length := by
  induction fuel generalizing i j text with
  | zero => omega
  | succ fuel ih =>
    cases text with
    | nil =>
      have hnul : copy i.toNat = 0 := htext
      refine ⟨i, ?_, htext, rfl⟩
      rw [tokenLoopStores, hnul, if_neg fun h => h.1 rfl, List.takeWhile_nil, textStores]
    | cons c text =>
      obtain ⟨hc, hne, hrest⟩ := htext
      rw [List.length_cons] at hi hj hfuel
      by_cases hmem : c ∈ delimiters
      · have hstop : ¬ (!isDelimiter delimiters c) = true := by simpa [isDelimiter] using hmem
        refine ⟨i, ?_, ?_, ?_⟩
        · rw [tokenLoopStores, hc, if_neg fun h => findChar_eq_zero.1 h.2 hmem,
            List.takeWhile_cons, if_neg hstop, textStores]
        · rw [List.dropWhile_cons, if_neg hstop]
          exact ⟨hc, hne, hrest⟩
        · rw [List.dropWhile_cons, if_neg hstop]
      · have hgo : (!isDelimiter delimiters c) = true := by simpa [isDelimiter] using hmem
        rw [← toNat_succ (by omega)] at hrest
        obtain ⟨i', htoken, htext', hlength⟩ := ih (j := j + 1) hrest
          (by rw [toNat_succ (by omega)]; omega) (by rw [toNat_succ (by omega)]; omega) (by omega)
        refine ⟨i', ?_, ?_, ?_⟩
        · rw [tokenLoopStores, hc, if_pos ⟨hne, findChar_eq_zero.2 hmem⟩, htoken,
            toNat_succ (by omega), List.takeWhile_cons, if_pos hgo]
          rfl
        · rwa [List.dropWhile_cons, if_pos hgo]
        · rw [List.dropWhile_cons, if_pos hgo, hlength, toNat_succ (by omega), List.length_cons]
          omega

end Loops

namespace StrtokState

variable {S S' : StrtokState} {delimiters text s : Text}

/-- The text behind the cursor, which does not leave its byte. -/
structure Rest (S : StrtokState) (text : Text) : Prop where
  textAt : TextAt S.copy S.i.toNat text
  bound : S.i.toNat + text.length < 256

theorem rtxStrtok_stores (S : StrtokState) (str : Option Text) (ret : Body) (delimiters : Text) :
    S.rtxStrtok str ret delimiters =
      (S.rtxStrtokStores str delimiters).map fun r => (storeAll ret r.1, r.2) := by
  simp only [rtxStrtok, rtxStrtokStores, tokenLoop_stores, Option.bind_eq_bind, Option.map_bind]
  congr 1
  funext i
  simp only [Function.comp_apply, Option.map_bind, Option.bind_map]
  rfl

theorem rtxStrtokStores_none (h : S.Rest text) (hD : 0 ∉ delimiters) :
    ∃ S', S.rtxStrtokStores none delimiters =
        some (textStores 0 (first (isDelimiter delimiters) text), S') ∧
      S'.Rest (rest (isDelimiter delimiters) text) := by
  have hbound := h.bound
  obtain ⟨i, hskip, htext, hlength⟩ : ∃ i, skipLoop S.copy delimiters fuel S.i = some i ∧ _ :=
    skipLoop_eq hD h.textAt hbound (by unfold fuel; omega)
  obtain ⟨i', htoken, htext', hlength'⟩ :
      ∃ i', tokenLoopStores S.copy delimiters fuel i 0 = some (_, i') ∧ _ :=
    tokenLoopStores_eq htext (by omega) (by rw [UInt8.toNat_zero]; omega) (by unfold fuel; omega)
  refine ⟨{ S with i := i' }, ?_, htext', hlength'.trans_lt (hlength.trans_lt hbound)⟩
  simp only [rtxStrtokStores, hskip, htoken, Option.bind_eq_bind, Option.bind_some]
  rfl

theorem rtxStrtok_none (h : S.Rest text) (hD : 0 ∉ delimiters) (ret : Body) :
    ∃ S', S.rtxStrtok none ret delimiters =
        some (putText ret (first (isDelimiter delimiters) text), S') ∧
      S'.Rest (rest (isDelimiter delimiters) text) := by
  obtain ⟨S', hcall, hrest⟩ := rtxStrtokStores_none h hD
  refine ⟨S', ?_, hrest⟩
  rw [rtxStrtok_stores, hcall]
  simp

/-- A call with a string begins with that, whatever came before. -/
theorem rtxStrtokStores_some (S : StrtokState) (hs : 0 ∉ s) (delimiters : Text) :
    ∃ S₀ : StrtokState, S₀.Rest (rtxStrcpy s 100) ∧
      S.rtxStrtokStores (some s) delimiters = S₀.rtxStrtokStores none delimiters := by
  refine ⟨⟨putText S.copy (rtxStrcpy s 100), 0⟩, ⟨?_, ?_⟩, rfl⟩
  · refine textAt_putTextAt S.copy 0 fun h => hs ?_
    exact (rtxStrcpyLoop_truncates 100 0 s).subset h
  · have hlength : (rtxStrcpy s 100).length ≤ 100 + 1 - 0 := rtxStrcpyLoop_length 100 0 s
    rw [UInt8.toNat_zero]
    omega

theorem rtxStrtok_some (S : StrtokState) (hs : 0 ∉ s) (ret : Body) (delimiters : Text) :
    ∃ S₀ : StrtokState, S₀.Rest (rtxStrcpy s 100) ∧
      S.rtxStrtok (some s) ret delimiters = S₀.rtxStrtok none ret delimiters := by
  obtain ⟨S₀, hrest, hcall⟩ := S.rtxStrtokStores_some hs delimiters
  refine ⟨S₀, hrest, ?_⟩
  rw [rtxStrtok_stores, rtxStrtok_stores, hcall]

/-- What a call does to the text behind the cursor is `rtxStrtok`. -/
theorem rtxStrtok_refines {str : Option Text} (h : S.Rest text) (hD : 0 ∉ delimiters)
    (hstr : ∀ s ∈ str, 0 ∉ s) (ret : Body) :
    ∃ S', S.rtxStrtok str ret delimiters =
        some (putText ret (Coldfire.rtxStrtok str text delimiters).1, S') ∧
      S'.Rest (Coldfire.rtxStrtok str text delimiters).2 := by
  have hskip : ∀ text : Text, (text.dropWhile fun ch => findChar ch delimiters = 1) =
      text.dropWhile (isDelimiter delimiters) := by
    intro text
    simp only [findChar_eq_one]
    rfl
  have htoken : (fun ch => decide (findChar ch delimiters = 0)) = (!isDelimiter delimiters ·) := by
    funext ch
    simp [findChar_eq_zero, isDelimiter]
  simp only [Coldfire.rtxStrtok, hskip, htoken]
  cases str with
  | none => exact rtxStrtok_none h hD ret
  | some s =>
    obtain ⟨S₀, h₀, hcall⟩ := S.rtxStrtok_some (hstr s rfl) ret delimiters
    rw [hcall]
    exact rtxStrtok_none h₀ hD ret

/-! ## A sequence of calls -/

/-- A call of `rtx_strtok`. -/
structure StrtokCall where
  str : Option Text
  ret : Body
  delimiters : Text

/-- What the call leaves in `ret`. -/
def call (S : StrtokState) (c : StrtokCall) : Option (Body × StrtokState) :=
  S.rtxStrtok c.str c.ret c.delimiters

/-- The calls without a string give the fields of what is left, and then empty strings. -/
theorem observe_none (h : S.Rest text) (hD : 0 ∉ delimiters) (rets : List Body) :
    observe call S (rets.map fun ret => ⟨none, ret, delimiters⟩) =
      some (rets.mapIdx fun k ret =>
        putText ret ((fields (isDelimiter delimiters) text).getD k [])) := by
  induction rets generalizing S text with
  | nil => rfl
  | cons ret rets ih =>
    obtain ⟨S', hcall, hrest⟩ := rtxStrtok_none h hD ret
    have htail := ih hrest
    simp only [fields_rest, List.getD_eq_getElem?_getD, List.getElem?_tail] at htail
    have hhead : first (isDelimiter delimiters) text =
        (fields (isDelimiter delimiters) text).getD 0 [] := by
      rw [← headD_fields, List.headD_eq_head?_getD, List.getD_eq_getElem?_getD,
        List.head?_eq_getElem?]
    have hnext : S.call ⟨none, ret, delimiters⟩ = some (putText ret _, S') := hcall
    rw [List.map_cons, observe, hnext, Option.bind_some, htail, List.mapIdx_cons, hhead]
    simp only [Option.map_some, List.getD_eq_getElem?_getD]

end StrtokState

/-- A call with a string, and any number of calls without one: whatever calls came before, the
`k`-th of them leaves the `k`-th maximal run of characters that are no delimiters, and the empty
string behind the last of these. -/
theorem rtx_strtok_tokens (S : StrtokState) {s delimiters : Text} (hs : 0 ∉ s)
    (hlength : s.length ≤ 100) (hD : 0 ∉ delimiters) (ret : Body) (rets : List Body) :
    observe StrtokState.call S
        (⟨some s, ret, delimiters⟩ :: rets.map fun ret => ⟨none, ret, delimiters⟩) =
      some ((ret :: rets).mapIdx fun k ret =>
        putText ret ((fields (isDelimiter delimiters) s).getD k [])) := by
  obtain ⟨S₀, hrest, hcall⟩ := S.rtxStrtok_some hs ret delimiters
  have hcopy : rtxStrcpy s 100 = s := by
    have hfits : ((0 : ℕ) : ℤ) + s.length ≤ 100 + 1 := by omega
    exact rtxStrcpyLoop_eq hfits
  rw [hcopy] at hrest
  have hcalls := StrtokState.observe_none hrest hD (ret :: rets)
  rw [List.map_cons, observe] at hcalls
  rw [observe, StrtokState.call, hcall]
  exact hcalls

/-- A command with two arguments, and one call too many. -/
theorem rtx_strtok_tokens_command :
    observe StrtokState.call ⟨fun _ => 0, 0⟩
        (⟨some (cstr " n 2  -1"), fun _ => 0, cstr " "⟩ ::
          [fun _ => 0, fun _ => 1, fun _ => 2].map fun ret => ⟨none, ret, cstr " "⟩) =
      some [putText (fun _ => 0) (cstr "n"), putText (fun _ => 0) (cstr "2"),
        putText (fun _ => 1) (cstr "-1"), putText (fun _ => 2) []] :=
  rtx_strtok_tokens ⟨fun _ => 0, 0⟩ (by decide) (by decide) (by decide) _ _

end Rtx.Coldfire
