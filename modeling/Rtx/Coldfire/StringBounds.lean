import Rtx.Coldfire.Strtok
import Rtx.Coldfire.UartCases

/-!
# Where strings are written

The stores of `rtx_strcpy`, and those of the calls of `rtx_strtok` that `start_cci` makes for a
line.

The test of `rtx_strcpy` lets the index `str_size` pass, and the NUL goes behind it
(`rtx_strcpy_bounds_iff`). `rtx_strtok` does not know the size of its buffer, and the two arguments
of the `n` command go into six bytes each (`token_buffers_iff`).
-/

namespace Rtx.Coldfire

open Fields

/-! ## `rtx_strcpy` -/

/-- The stores of `rtx_strcpy` into `str`, from the index `i` on. The index `j` is `i`
throughout. -/
def rtxStrcpyStores (strSize : ℤ) : ℕ → Text → List Store
  | i, [] => [(i, 0)]
  | i, c :: cpyStr =>
    if strSize > i - 1 then (i, c) :: rtxStrcpyStores strSize (i + 1) cpyStr else [(i, 0)]

theorem rtxStrcpyStores_eq (strSize : ℤ) (i : ℕ) (cpyStr : Text) :
    rtxStrcpyStores strSize i cpyStr = textStores i (rtxStrcpyLoop strSize i cpyStr) := by
  induction cpyStr generalizing i with
  | nil => rfl
  | cons c cpyStr ih =>
    rw [rtxStrcpyStores, rtxStrcpyLoop]
    split
    · rw [ih, textStores]
    · rfl

theorem rtxStrcpyLoop_eq_take (strSize i : ℕ) (text : Text) :
    rtxStrcpyLoop strSize i text = text.take (strSize + 1 - i) := by
  induction text generalizing i with
  | nil => simp [rtxStrcpyLoop]
  | cons c text ih =>
    rw [rtxStrcpyLoop]
    split
    · rw [ih, show strSize + 1 - i = strSize + 1 - (i + 1) + 1 by omega, List.take_succ_cons]
    · rw [show strSize + 1 - i = 0 by omega, List.take_zero]

/-- The stores stay below `size`, and leave the longest beginning of the string that fits there
together with its NUL. -/
structure CopiesWithin (size : ℤ) (cpyStr : Text) (stores : List Store) : Prop where
  bounded : ∀ w ∈ stores, (w.1 : ℤ) < size
  copied : ∀ str, ∃ text, TextAt (storeAll str stores) 0 text ∧ text.length < size ∧
    text <+: cpyStr ∧ ∀ t, t <+: cpyStr → t.length < size → t.length ≤ text.length

/-- `rtx_strcpy` keeps to the size it is given just when the string is shorter. -/
theorem rtx_strcpy_bounds_iff {cpyStr : Text} {strSize : ℤ} (hcpyStr : 0 ∉ cpyStr)
    (hsize : 1 ≤ strSize) :
    CopiesWithin strSize cpyStr (rtxStrcpyStores strSize 0 cpyStr) ↔
      cpyStr.length < strSize := by
  obtain ⟨size, rfl⟩ := Int.eq_ofNat_of_zero_le (by omega : 0 ≤ strSize)
  have hstores := rtxStrcpyStores_eq size 0 cpyStr
  constructor
  · intro h
    -- The NUL is stored at `size`, or behind it.
    have hnul := h.bounded ((rtxStrcpyLoop size 0 cpyStr).length, 0) (by
      rw [hstores]
      simpa using nul_mem_textStores 0 (rtxStrcpyLoop size 0 cpyStr))
    simp only [rtxStrcpyLoop_eq_take, List.length_take] at hnul
    omega
  · intro hfits
    rw [rtxStrcpyLoop_eq (by omega)] at hstores
    constructor
    · intro w hw
      rw [hstores] at hw
      have := textStores_range hw
      omega
    · intro str
      refine ⟨cpyStr, ?_, hfits, List.prefix_refl _, fun t ht _ => ht.length_le⟩
      rw [hstores, storeAll_textStores]
      exact textAt_putTextAt str 0 hcpyStr

theorem rtx_strcpy_bounds_prompt :
    CopiesWithin 1024 (cstr "CCI: ") (rtxStrcpyStores 1024 0 (cstr "CCI: ")) ↔
      (cstr "CCI: ").length < (1024 : ℤ) :=
  rtx_strcpy_bounds_iff (by decide) (by decide)

/-- Into one byte, a string of one character puts its NUL behind that byte. -/
theorem rtx_strcpy_overflows :
    ¬ ∀ (cpyStr : Text) (strSize : ℤ), 0 ∉ cpyStr → 1 ≤ strSize →
      CopiesWithin strSize cpyStr (rtxStrcpyStores strSize 0 cpyStr) := by
  intro h
  have := (h (cstr "a") 1 (by decide) (by decide)).bounded (1, 0) (by decide)
  omega

/-! ## The tokens of a line -/

/-- Where `start_cci` has its tokens. -/
inductive TokenBuffer
  | cmd
  | str
  | priorityStr
  | pidStr
  deriving DecidableEq

def TokenBuffer.size : TokenBuffer → ℕ
  | cmd | str => 1024
  | priorityStr | pidStr => 6

/-- The characters between the words of a line. -/
def blanks : Text := cstr " \t\r\n"

/-- The stores of the calls of `rtx_strtok` that `start_cci` makes for a line, with `cmd` as it was.
Only the commands `n` and `c` have arguments. -/
def lineStores (S : StrtokState) (cmd : Body) (msg : Text) :
    Option (List (TokenBuffer × Store)) := do
  let (cmdStores, S) ← S.rtxStrtokStores (some msg) blanks
  let cmd := textOf (storeAll cmd cmdStores)
  let cmdStores := cmdStores.map (TokenBuffer.cmd, ·)
  if rtxStrcmp cmd (cstr "n") = 0 then
    let (priorityStores, S) ← S.rtxStrtokStores none blanks
    let (pidStores, _) ← S.rtxStrtokStores none blanks
    return cmdStores ++ priorityStores.map (TokenBuffer.priorityStr, ·) ++
      pidStores.map (TokenBuffer.pidStr, ·)
  else if rtxStrcmp cmd (cstr "c") = 0 then
    let (strStores, _) ← S.rtxStrtokStores none blanks
    return cmdStores ++ strStores.map (TokenBuffer.str, ·)
  else return cmdStores

/-- Every store is within its buffer. -/
def WithinBuffers (stores : List (TokenBuffer × Store)) : Prop := ∀ w ∈ stores, w.2.1 < w.1.size

/-- The `k`-th word of a line. -/
def word (msg : Text) (k : ℕ) : Text := (fields (isDelimiter blanks) msg).getD k []

theorem first_eq_word (msg : Text) : first (isDelimiter blanks) msg = word msg 0 := by
  rw [← headD_fields, word, List.headD_eq_head?_getD, List.getD_eq_getElem?_getD,
    List.head?_eq_getElem?]

@[simp] theorem word_rest (msg : Text) (k : ℕ) :
    word (rest (isDelimiter blanks) msg) k = word msg (k + 1) := by
  rw [word, word, fields_rest, List.getD_eq_getElem?_getD, List.getD_eq_getElem?_getD,
    List.getElem?_tail]

theorem word_sublist (msg : Text) (k : ℕ) : (word msg k).Sublist msg := by
  induction k generalizing msg with
  | zero =>
    rw [← first_eq_word]
    exact (List.takeWhile_sublist _).trans (List.dropWhile_sublist _)
  | succ k ih =>
    rw [← word_rest]
    exact (ih _).trans ((List.dropWhile_sublist _).trans (List.dropWhile_sublist _))

section Line

variable {S : StrtokState} {cmd : Body} {msg text : Text}

theorem StrtokState.Rest.next (h : S.Rest text) :
    ∃ S', S.rtxStrtokStores none blanks = some (textStores 0 (word text 0), S') ∧
      S'.Rest (rest (isDelimiter blanks) text) := by
  rw [← first_eq_word]
  exact StrtokState.rtxStrtokStores_none h (by decide)

theorem textOf_putText (b : Body) (hmsg : 0 ∉ text) (hlength : text.length < 1024) :
    textOf (putText b text) = text := by
  apply textOf_eq _ hlength
  constructor
  · intro i hi
    have hput : putText b text i = text[i] := by simp [putText, List.getElem?_append, hi]
    refine ⟨hput, fun h => hmsg ?_⟩
    rw [← h]
    exact List.getElem_mem hi
  · simp [putText]

/-- The words are stored one after the other, as far as the command has arguments. -/
theorem lineStores_eq (S : StrtokState) (cmd : Body) (hmsg : 0 ∉ msg) (hlength : msg.length ≤ 97) :
    lineStores S cmd msg = some ((textStores 0 (word msg 0)).map (TokenBuffer.cmd, ·) ++
      if word msg 0 = cstr "n" then
        (textStores 0 (word msg 1)).map (TokenBuffer.priorityStr, ·) ++
          (textStores 0 (word msg 2)).map (TokenBuffer.pidStr, ·)
      else if word msg 0 = cstr "c" then (textStores 0 (word msg 1)).map (TokenBuffer.str, ·)
      else []) := by
  obtain ⟨S₀, h₀, hcall₀⟩ := S.rtxStrtokStores_some hmsg blanks
  have hcopy : rtxStrcpy msg 100 = msg := by
    have hfits : ((0 : ℕ) : ℤ) + msg.length ≤ 100 + 1 := by omega
    exact rtxStrcpyLoop_eq hfits
  rw [hcopy] at h₀
  obtain ⟨S₁, hcall₁, h₁⟩ := h₀.next
  obtain ⟨S₂, hcall₂, h₂⟩ := h₁.next
  obtain ⟨S₃, hcall₃, -⟩ := h₂.next
  rw [word_rest] at hcall₂
  rw [word_rest, word_rest] at hcall₃
  have hword := word_sublist msg 0
  have hcmd : textOf (storeAll cmd (textStores 0 (word msg 0))) = word msg 0 := by
    rw [storeAll_textStores, putTextAt_zero]
    exact textOf_putText cmd (fun h => hmsg (hword.subset h))
      (hword.length_le.trans_lt (by omega))
  simp only [lineStores, hcall₀, hcall₁, hcall₂, hcall₃, hcmd, rtxStrcmp_eq_zero_iff,
    Option.bind_eq_bind, Option.bind_some, Option.pure_def, zero_add]
  by_cases hn : word msg 0 = cstr "n"
  · simp [hn]
  · by_cases hc : word msg 0 = cstr "c"
    · simp [hc, show cstr "c" ≠ cstr "n" by decide]
    · simp [hn, hc]

theorem withinBuffers_append {ws ws' : List (TokenBuffer × Store)} :
    WithinBuffers (ws ++ ws') ↔ WithinBuffers ws ∧ WithinBuffers ws' := by
  simp [WithinBuffers, or_imp, forall_and]

theorem withinBuffers_token (buf : TokenBuffer) (token : Text) :
    WithinBuffers ((textStores 0 token).map (buf, ·)) ↔ token.length < buf.size := by
  rw [← textStores_lt_iff]
  exact List.forall_mem_map

theorem word_lt (hlength : msg.length ≤ 97) (k : ℕ) : (word msg k).length < 1024 :=
  (word_sublist msg k).length_le.trans_lt (by omega)

/-- For every line of at most 97 characters, the tokens stay within their buffers just when the
command is not `n`, or both of its arguments have at most five characters. -/
theorem token_buffers_iff (S : StrtokState) (cmd : Body) (hmsg : 0 ∉ msg)
    (hlength : msg.length ≤ 97) :
    ∃ stores, lineStores S cmd msg = some stores ∧
      (WithinBuffers stores ↔
        word msg 0 ≠ cstr "n" ∨ (word msg 1).length ≤ 5 ∧ (word msg 2).length ≤ 5) := by
  refine ⟨_, lineStores_eq S cmd hmsg hlength, ?_⟩
  have hcmd : WithinBuffers ((textStores 0 (word msg 0)).map (TokenBuffer.cmd, ·)) :=
    (withinBuffers_token .cmd _).2 (word_lt hlength 0)
  rw [withinBuffers_append, and_iff_right hcmd]
  by_cases hn : word msg 0 = cstr "n"
  · rw [if_pos hn, withinBuffers_append, withinBuffers_token, withinBuffers_token,
      or_iff_right (not_not_intro hn)]
    exact and_congr Nat.lt_succ_iff Nat.lt_succ_iff
  · rw [if_neg hn, iff_true_right (Or.inl hn)]
    split
    · rw [withinBuffers_token]
      exact word_lt hlength 1
    · simp [WithinBuffers]

end Line

theorem token_buffers_priority :
    ∃ stores, lineStores ⟨fun _ => 0, 0⟩ (fun _ => 0) (cstr "n 2 -1") = some stores ∧
      (WithinBuffers stores ↔ word (cstr "n 2 -1") 0 ≠ cstr "n" ∨
        (word (cstr "n 2 -1") 1).length ≤ 5 ∧ (word (cstr "n 2 -1") 2).length ≤ 5) :=
  token_buffers_iff ⟨fun _ => 0, 0⟩ (fun _ => 0) (by decide) (by decide)

/-- The first argument of `n 123456 1` has its NUL behind `priorityStr`. -/
theorem token_buffers_overflow :
    ¬ ∀ (S : StrtokState) (cmd : Body) (msg : Text), 0 ∉ msg → msg.length ≤ 97 →
      ∀ stores, lineStores S cmd msg = some stores → WithinBuffers stores := by
  intro h
  have hstores := lineStores_eq ⟨fun _ => 0, 0⟩ (fun _ => 0)
    (show 0 ∉ cstr "n 123456 1" by decide) (by decide)
  have hin := h _ _ _ (by decide) (by decide) _ hstores (.priorityStr, 6, 0) (by decide +kernel)
  exact absurd hin (by decide)

end Rtx.Coldfire
