import Rtx.Coldfire.ConsoleMask
import Rtx.Coldfire.Utils
import Rtx.Lib.Circular
import Rtx.Lib.Records

/-!
# The trace buffers

A trace buffer is a circular buffer of sixteen entries (`Logged`). The search for its head ends at
the oldest entry, so a dump has the retained entries in order, followed by entries with the sentinel
for a time stamp. `CCI_printTraceBuffers` prints a row for each, left and right, as long as
`rtx_sprintf` can print the four fields: it divides by zero from ten digits on
(`trace_history_iff`).
-/

namespace Rtx.Coldfire

open Transition Circular
open Kernel (putTrace sizeofIpcTrace)

variable {n : ℕ}

/-! ## Buffers -/

/-- The entry `log_msg_event` writes. -/
def Letter.trace (letter : Letter) (clock : ℤ) : IpcTrace :=
  { destPid := letter.destPid
    sendPid := letter.sendPid
    msgType := letter.msgType
    timeStamp := clock }

/-- The buffer after `history` was logged. -/
structure Logged (tbuf : TraceCircleBuf) (history : List IpcTrace) : Prop where
  tail : tbuf.tail = (history.length % ipcMessageTraceHistorySize : ℕ)
  slots : Rep ipcMessageTraceHistorySize (·.timeStamp = maxUint32) (fun i : ℕ => tbuf.buf i) history

@[simp] theorem circleIndex_natCast (i : ℕ) :
    circleIndex i = (i % ipcMessageTraceHistorySize : ℕ) := by
  rw [circleIndex, Int.ofNat_tmod]

variable {tbuf : TraceCircleBuf} {history : List IpcTrace}

theorem Logged.log (h : Logged tbuf history) (letter : Letter) (clock : ℤ) :
    Logged (logMsgEvent tbuf letter clock) (history ++ [letter.trace clock]) := by
  constructor
  · change circleIndex (tbuf.tail + 1) = _
    rw [h.tail]
    have hcast : ((history.length % ipcMessageTraceHistorySize : ℕ) : ℤ) + 1 =
        (history.length % ipcMessageTraceHistorySize + 1 : ℕ) := by push_cast; rfl
    rw [hcast, circleIndex_natCast, Nat.mod_add_mod, List.length_append, List.length_singleton]
  · have hbuf : (fun i : ℕ => (logMsgEvent tbuf letter clock).buf i) =
        Function.update (fun i : ℕ => tbuf.buf i) (history.length % ipcMessageTraceHistorySize)
          (letter.trace clock) := by
      funext i
      by_cases hi : i = history.length % ipcMessageTraceHistorySize
      · subst hi
        simp [logMsgEvent, Letter.trace, h.tail]
      · have hne : (i : ℤ) ≠ tbuf.tail := by
          rw [h.tail]
          exact_mod_cast hi
        simp [logMsgEvent, hi, hne]
    rw [hbuf]
    exact h.slots.write _

/-- The search for the head comes from an unused slot to the end of the buffer, and so to slot 0. -/
theorem findTraceBufHeadLoop_unused (h : Logged tbuf history) (hne : history ≠ [])
    (hstamps : ∀ t ∈ history, t.timeStamp ≠ maxUint32) {fuel j : ℕ} (hj : history.length ≤ j)
    (hcap : j ≤ ipcMessageTraceHistorySize) (hfuel : ipcMessageTraceHistorySize < j + fuel) :
    findTraceBufHeadLoop tbuf fuel (circleIndex j) = some 0 := by
  have hpos : 0 < history.length := List.length_pos_iff.2 hne
  induction fuel generalizing j with
  | zero => omega
  | succ fuel ih =>
    rcases Nat.lt_or_eq_of_le hcap with hlt | rfl
    · have hunused : (tbuf.buf j).timeStamp = maxUint32 := h.slots.unused j hj hlt
      have hprev : circleIndex (tbuf.tail - 1) = (history.length - 1 : ℕ) := by
        have htail : tbuf.tail - 1 = (history.length - 1 : ℕ) := by
          rw [h.tail, Nat.mod_eq_of_lt (by omega)]
          omega
        rw [htail, circleIndex_natCast, Nat.mod_eq_of_lt (by omega)]
      have hjne : (j : ℤ) ≠ (history.length - 1 : ℕ) := by omega
      rw [circleIndex_natCast, Nat.mod_eq_of_lt hlt, findTraceBufHeadLoop, hprev,
        if_pos ⟨hunused, hjne⟩]
      have hnext : findTraceBufHeadLoop tbuf fuel (circleIndex (j + 1 : ℕ)) = some 0 :=
        ih (by omega) hlt (by omega)
      rw [Nat.cast_succ] at hnext
      exact hnext
    · have hused : (tbuf.buf 0).timeStamp ≠ maxUint32 := by
        have hslot := h.slots.slot 0 hpos (by omega)
        rw [Nat.zero_mod] at hslot
        have hbuf : tbuf.buf 0 = history[0] := hslot
        rw [hbuf]
        exact hstamps _ (List.getElem_mem _)
      rw [circleIndex_natCast, Nat.mod_self, Nat.cast_zero, findTraceBufHeadLoop,
        if_neg fun hand => hused hand.1]

theorem findTraceBufHead_eq (h : Logged tbuf history) (hne : history ≠ [])
    (hstamps : ∀ t ∈ history, t.timeStamp ≠ maxUint32) :
    findTraceBufHead tbuf = some (oldest ipcMessageTraceHistorySize history : ℤ) := by
  unfold findTraceBufHead oldest
  split
  · rename_i hlt
    rw [h.tail, Nat.mod_eq_of_lt hlt]
    exact findTraceBufHeadLoop_unused h hne hstamps le_rfl hlt.le (by omega)
  · rename_i hfull
    have hlen : 0 < (retained ipcMessageTraceHistorySize history).length := by
      rw [length_retained]
      have : ipcMessageTraceHistorySize = 16 := rfl
      omega
    have hread := h.slots.read hlen
    rw [oldest, if_neg hfull, Nat.add_zero, Nat.mod_mod] at hread
    have hused : (tbuf.buf (history.length % ipcMessageTraceHistorySize : ℕ)).timeStamp ≠
        maxUint32 := by
      rw [hread]
      exact hstamps _ (mem_of_mem_retained (List.getElem_mem _))
    rw [h.tail, circleIndex_natCast, Nat.mod_mod, findTraceBufHeadLoop,
      if_neg fun hand => hused hand.1]

/-! ## Dumps -/

/-- Read the four words of a trace entry. -/
def getTrace (data : Body) (off : ℕ) : IpcTrace :=
  { destPid := getInt data off
    sendPid := getInt data (off + 4)
    msgType := getInt data (off + 8)
    timeStamp := getInt data (off + 12) }

/-- The entry as four 32-bit words. -/
def IpcTrace.words (t : IpcTrace) : IpcTrace :=
  { destPid := wrap32 t.destPid
    sendPid := wrap32 t.sendPid
    msgType := wrap32 t.msgType
    timeStamp := wrap32 t.timeStamp }

@[simp] theorem getTrace_putTrace (data : Body) (off : ℕ) (t : IpcTrace) :
    getTrace (putTrace data off t) off = t.words := by
  unfold getTrace putTrace IpcTrace.words
  rw [IpcTrace.mk.injEq]
  refine ⟨?_, ?_, ?_, ?_⟩
  · rw [getInt_putInt_of_ne _ _ (by omega), getInt_putInt_of_ne _ _ (by omega),
      getInt_putInt_of_ne _ _ (by omega), getInt_putInt]
  · rw [getInt_putInt_of_ne _ _ (by omega), getInt_putInt_of_ne _ _ (by omega), getInt_putInt]
  · rw [getInt_putInt_of_ne _ _ (by omega), getInt_putInt]
  · rw [getInt_putInt]

theorem getTrace_putTrace_of_ne (data : Body) {off off' : ℕ} (t : IpcTrace)
    (h : off + 16 ≤ off' ∨ off' + 16 ≤ off) :
    getTrace (putTrace data off t) off' = getTrace data off' := by
  have hword : ∀ k, k ≤ 12 → getInt (putTrace data off t) (off' + k) = getInt data (off' + k) := by
    intro k hk
    unfold putTrace
    rw [getInt_putInt_of_ne _ _ (by omega), getInt_putInt_of_ne _ _ (by omega),
      getInt_putInt_of_ne _ _ (by omega), getInt_putInt_of_ne _ _ (by omega)]
  have hfirst : getInt (putTrace data off t) off' = getInt data off' := hword 0 (by omega)
  unfold getTrace
  rw [hfirst, hword 4 (by omega), hword 8 (by omega), hword 12 (by omega)]

/-- `tbuf.buf[circle_index(head+i)]`. -/
def TraceCircleBuf.entry (tbuf : TraceCircleBuf) (head : ℤ) (i : ℕ) : IpcTrace :=
  tbuf.buf (circleIndex (head + i))

/-- The first `k` turns of the loop of `k_get_trace_buffers`. -/
def dumpTraces (data : Body) (send recv : ℕ → IpcTrace) (k : ℕ) : Body :=
  (List.range k).foldl (fun (data : Body) i =>
    putTrace (putTrace data (i * sizeofIpcTrace) (send i))
      (ipcMessageTraceHistorySize * sizeofIpcTrace + i * sizeofIpcTrace) (recv i)) data

theorem traceCodec : Records.Codec sizeofIpcTrace IpcTrace.words getTrace putTrace where
  get_put := getTrace_putTrace
  get_put_of_ne data _ _ t h := getTrace_putTrace_of_ne data t h

theorem getTrace_dumpTraces (data : Body) (send recv : ℕ → IpcTrace) {k : ℕ} (hk : k ≤ 16) :
    ∀ i, i < k → getTrace (dumpTraces data send recv k) (i * 16) = (send i).words ∧
      getTrace (dumpTraces data send recv k) (256 + i * 16) = (recv i).words := by
  intro i hi
  exact traceCodec.dump data send recv hk hi

/-- The dump from `off` on has the retained entries of `history` in order, and then entries with
the sentinel. -/
structure Dumped (data : Body) (off : ℕ) (history : List IpcTrace) : Prop where
  entry : ∀ i (hi : i < (retained ipcMessageTraceHistorySize history).length),
    getTrace data (off + i * sizeofIpcTrace) =
      (retained ipcMessageTraceHistorySize history)[i].words
  rest : ∀ i, (retained ipcMessageTraceHistorySize history).length ≤ i →
    i < ipcMessageTraceHistorySize →
      (getTrace data (off + i * sizeofIpcTrace)).timeStamp = maxUint32

theorem Logged.dumped {data : Body} {off : ℕ} (h : Logged tbuf history)
    (hdata : ∀ i, i < ipcMessageTraceHistorySize → getTrace data (off + i * sizeofIpcTrace) =
      (tbuf.entry (oldest ipcMessageTraceHistorySize history) i).words) :
    Dumped data off history := by
  have hslot : ∀ i, i < ipcMessageTraceHistorySize → getTrace data (off + i * sizeofIpcTrace) =
      (tbuf.buf ((oldest ipcMessageTraceHistorySize history + i) %
        ipcMessageTraceHistorySize : ℕ)).words := by
    intro i hi
    rw [hdata i hi, TraceCircleBuf.entry, ← Nat.cast_add, circleIndex_natCast]
  constructor
  · intro i hi
    rw [hslot i (by rw [length_retained] at hi; omega)]
    exact congrArg IpcTrace.words (h.slots.read hi)
  · intro i hi hcap
    rw [hslot i hcap]
    have hblank : (tbuf.buf _).timeStamp = maxUint32 := h.slots.rest hi hcap
    change wrap32 _ = _
    rw [hblank]
    rfl

namespace Kernel

variable {s : Kernel n} {env : EnvPtr} {body : Body}

theorem kGetTraceBuffers_eq {sendHead recvHead : ℤ} (hmsg : (s.ipc.env env).msg = some body)
    (hsend : findTraceBufHead s.ipc.sendTraceBuf = some sendHead)
    (hrecv : findTraceBufHead s.ipc.recvTraceBuf = some recvHead) :
    s.kGetTraceBuffers (some env) = some (codeSuccess, s.filled env { (s.ipc.env env).toLetter with
      msg := some (dumpTraces body (s.ipc.sendTraceBuf.entry sendHead)
        (s.ipc.recvTraceBuf.entry recvHead) 16) }) := by
  simp only [kGetTraceBuffers, hmsg, hsend, hrecv, Option.bind_eq_bind, Option.bind_some]
  rfl

theorem kGetTraceBuffers_dumps {sends recvs : List IpcTrace}
    (hmsg : (s.ipc.env env).msg = some body) (hsend : Logged s.ipc.sendTraceBuf sends)
    (hrecv : Logged s.ipc.recvTraceBuf recvs) (hsends : sends ≠ []) (hrecvs : recvs ≠ [])
    (hstamps : ∀ t ∈ sends ++ recvs, t.timeStamp ≠ maxUint32) :
    ∃ s' data, s.kGetTraceBuffers (some env) = some (codeSuccess, s') ∧
      (s'.ipc.env env).msg = some data ∧ Dumped data 0 sends ∧
      Dumped data (ipcMessageTraceHistorySize * sizeofIpcTrace) recvs := by
  have hsendHead := findTraceBufHead_eq hsend hsends fun t ht =>
    hstamps t (List.mem_append_left _ ht)
  have hrecvHead := findTraceBufHead_eq hrecv hrecvs fun t ht =>
    hstamps t (List.mem_append_right _ ht)
  have hdump := getTrace_dumpTraces body
    (s.ipc.sendTraceBuf.entry (oldest ipcMessageTraceHistorySize sends))
    (s.ipc.recvTraceBuf.entry (oldest ipcMessageTraceHistorySize recvs)) le_rfl
  refine ⟨_, _, kGetTraceBuffers_eq hmsg hsendHead hrecvHead, ?_, hsend.dumped fun i hi => ?_,
    hrecv.dumped fun i hi => (hdump i hi).2⟩
  · simp [filled, Ipc.setLetter]
  · rw [Nat.zero_add]
    exact (hdump i hi).1

end Kernel

/-! ## Rows -/

/-- What `CCI_printTraceBuffers` prints first. -/
def traceHeading : Text := cstr <|
  "MESSAGE TRACE BUFFERS\r\n\r\n" ++
  " Send Trace                   || Receive Trace\r\n" ++
  " Dest |Sender|Message|  Time  || Dest |Sender|Message|  Time\r\n" ++
  " PID  |PID   |Type   |        || PID  |PID   |Type   |\r\n" ++
  "--------------------------------------------------------------\r\n"

def sendFormat : Text := cstr "   %2u |   %2u |   %3d | %6u ||"
def recvFormat : Text := cstr "   %2u |   %2u |   %3d | %6u\r\n"
def sendBlank : Text := cstr "      |      |       |       ||"
def recvBlank : Text := cstr "      |      |       |       \r\n"

/-- The four fields of an entry, by `rtx_sprintf`. -/
def traceText (format : Text) (t : IpcTrace) : Option Text :=
  rtxSprintf format [.int t.destPid, .int t.sendPid, .int t.msgType, .int t.timeStamp]

/-- The loop of `CCI_printTraceBuffers` from `i` on: the texts it hands to `print_ack`. -/
def printTraceLoop (data : Body) : ℕ → ℕ → Option (List Text)
  | 0, _ => some []
  | fuel + 1, i => do
    let send := getTrace data (i * sizeofIpcTrace)
    let recv := getTrace data (ipcMessageTraceHistorySize * sizeofIpcTrace + i * sizeofIpcTrace)
    if send.timeStamp ≠ maxUint32 then
      let left ← traceText sendFormat send
      let right ← (if recv.timeStamp ≠ maxUint32 then traceText recvFormat recv else some recvBlank)
      let rows ← printTraceLoop data fuel (i + 1)
      return left :: right :: rows
    else if recv.timeStamp ≠ maxUint32 then
      let right ← traceText recvFormat recv
      let rows ← printTraceLoop data fuel (i + 1)
      return sendBlank :: right :: rows
    else return []

/-- `CCI_printTraceBuffers`: what it returns, and the texts it prints. -/
def cciPrintTraceBuffers (data : Option Body) : Option (ℤ × List Text) :=
  match data with
  | none => some (errorNullArg, [])
  | some data => do
    let rows ← printTraceLoop data ipcMessageTraceHistorySize 0
    return (codeSuccess, traceHeading :: rows ++ [cstr "\r\n"])

/-- The row of an entry on the left and one on the right, blank where there is none. -/
def traceRow (send recv : Option IpcTrace) : Option (List Text) := do
  let left ← send.elim (some sendBlank) (traceText sendFormat)
  let right ← recv.elim (some recvBlank) (traceText recvFormat)
  return [left, right]

/-- The texts of one row for each retained entry. -/
def RowsOf (texts : List Text) (sends recvs : List IpcTrace) : Prop :=
  ∃ rows : List (List Text), rows.length = max sends.length recvs.length ∧
    (∀ i (hi : i < rows.length), traceRow sends[i]? recvs[i]? = some rows[i]) ∧
    texts = traceHeading :: rows.flatten ++ [cstr "\r\n"]

/-- The dump at `off` has the entries `l`, and then entries with the sentinel. -/
def Shows (data : Body) (off : ℕ) (l : List IpcTrace) : Prop :=
  ∀ i, i < ipcMessageTraceHistorySize →
    (∀ hi : i < l.length, getTrace data (off + i * sizeofIpcTrace) = l[i] ∧
      l[i].timeStamp ≠ maxUint32) ∧
    (l.length ≤ i → (getTrace data (off + i * sizeofIpcTrace)).timeStamp = maxUint32)

/-- The retained entries, as the words in the dump. -/
def retainedWords (history : List IpcTrace) : List IpcTrace :=
  (retained ipcMessageTraceHistorySize history).map IpcTrace.words

@[simp] theorem length_retainedWords (history : List IpcTrace) :
    (retainedWords history).length = min history.length ipcMessageTraceHistorySize := by
  rw [retainedWords, List.length_map, length_retained]

theorem Dumped.shows {data : Body} {off : ℕ} (h : Dumped data off history)
    (hstamps : ∀ t ∈ history, wrap32 t.timeStamp ≠ maxUint32) :
    Shows data off (retainedWords history) := by
  intro i hcap
  constructor
  · intro hi
    have hi' : i < (retained ipcMessageTraceHistorySize history).length := by
      rw [length_retained]
      rw [length_retainedWords] at hi
      exact hi
    have hget : (retainedWords history)[i] =
        (retained ipcMessageTraceHistorySize history)[i].words := by
      simp [retainedWords]
    rw [hget]
    exact ⟨h.entry i hi', hstamps _ (mem_of_mem_retained (List.getElem_mem _))⟩
  · intro hi
    refine h.rest i ?_ hcap
    rw [length_retained]
    rw [length_retainedWords] at hi
    exact hi

section Rows

variable {data : Body} {sends recvs : List IpcTrace} {i fuel : ℕ} {texts : List Text}

/-- One turn of the loop prints one row, as long as there is an entry on one side. -/
theorem printTraceLoop_row (hsend : Shows data 0 sends)
    (hrecv : Shows data (ipcMessageTraceHistorySize * sizeofIpcTrace) recvs)
    (hcap : i < ipcMessageTraceHistorySize) (hi : i < max sends.length recvs.length) :
    printTraceLoop data (fuel + 1) i = (traceRow sends[i]? recvs[i]?).bind fun row =>
      (printTraceLoop data fuel (i + 1)).map (row ++ ·) := by
  obtain ⟨hsome, hnone⟩ := hsend i hcap
  obtain ⟨hsome', hnone'⟩ := hrecv i hcap
  rw [Nat.zero_add] at hsome hnone
  conv_lhs => rw [printTraceLoop]
  unfold traceRow
  by_cases hs : i < sends.length
  · obtain ⟨hget, hstamp⟩ := hsome hs
    rw [hget, if_pos hstamp, List.getElem?_eq_getElem hs]
    have hright : (if (getTrace data (ipcMessageTraceHistorySize * sizeofIpcTrace +
        i * sizeofIpcTrace)).timeStamp ≠ maxUint32 then traceText recvFormat
          (getTrace data (ipcMessageTraceHistorySize * sizeofIpcTrace + i * sizeofIpcTrace))
        else some recvBlank) = recvs[i]?.elim (some recvBlank) (traceText recvFormat) := by
      by_cases hr : i < recvs.length
      · obtain ⟨hget', hstamp'⟩ := hsome' hr
        rw [hget', if_pos hstamp', List.getElem?_eq_getElem hr]
        rfl
      · rw [if_neg (not_not.2 (hnone' (by omega))), List.getElem?_eq_none (by omega)]
        rfl
    rw [hright]
    simp [Option.bind_assoc, Option.map_eq_bind]
  · have hr : i < recvs.length := (lt_max_iff.1 hi).resolve_left hs
    obtain ⟨hget', hstamp'⟩ := hsome' hr
    rw [if_neg (not_not.2 (hnone (by omega))), hget', if_pos hstamp',
      List.getElem?_eq_none (by omega), List.getElem?_eq_getElem hr]
    simp [Option.bind_assoc, Option.map_eq_bind]

theorem printTraceLoop_stop (hsend : Shows data 0 sends)
    (hrecv : Shows data (ipcMessageTraceHistorySize * sizeofIpcTrace) recvs)
    (hcap : i < ipcMessageTraceHistorySize) (hi : max sends.length recvs.length ≤ i) :
    printTraceLoop data (fuel + 1) i = some [] := by
  have hleft := (hsend i hcap).2 (le_trans (le_max_left ..) hi)
  have hright := (hrecv i hcap).2 (le_trans (le_max_right ..) hi)
  rw [Nat.zero_add] at hleft
  simp [printTraceLoop, hleft, hright]

theorem printTraceLoop_eq_some_iff (hsend : Shows data 0 sends)
    (hrecv : Shows data (ipcMessageTraceHistorySize * sizeofIpcTrace) recvs)
    (hlen : max sends.length recvs.length ≤ ipcMessageTraceHistorySize)
    (hfuel : i + fuel = ipcMessageTraceHistorySize) :
    printTraceLoop data fuel i = some texts ↔
      ∃ rows : List (List Text), rows.length = max sends.length recvs.length - i ∧
        (∀ j (hj : j < rows.length), traceRow sends[i + j]? recvs[i + j]? = some rows[j]) ∧
        texts = rows.flatten := by
  induction fuel generalizing i texts with
  | zero =>
    have hzero : max sends.length recvs.length - i = 0 := by omega
    rw [hzero]
    constructor
    · intro htexts
      cases htexts
      exact ⟨[], rfl, nofun, rfl⟩
    · rintro ⟨rows, hrows, -, rfl⟩
      obtain rfl := List.length_eq_zero_iff.1 hrows
      rfl
  | succ fuel ih =>
    rcases le_or_gt (max sends.length recvs.length) i with hstop | hrow
    · have hzero : max sends.length recvs.length - i = 0 := by omega
      rw [printTraceLoop_stop hsend hrecv (by omega) hstop, hzero]
      constructor
      · intro htexts
        cases htexts
        exact ⟨[], rfl, nofun, rfl⟩
      · rintro ⟨rows, hrows, -, rfl⟩
        obtain rfl := List.length_eq_zero_iff.1 hrows
        rfl
    · rw [printTraceLoop_row hsend hrecv (by omega) hrow]
      constructor
      · intro htexts
        obtain ⟨row, hrow', htexts⟩ := Option.bind_eq_some_iff.1 htexts
        obtain ⟨rest, hrest, rfl⟩ := Option.map_eq_some_iff.1 htexts
        obtain ⟨rows, hlength, hrows, rfl⟩ := (ih (by omega)).1 hrest
        refine ⟨row :: rows, by rw [List.length_cons, hlength]; omega, fun j hj => ?_, rfl⟩
        cases j with
        | zero => exact hrow'
        | succ j =>
          have hnext := hrows j (by simpa using hj)
          rw [Nat.add_right_comm, Nat.add_assoc] at hnext
          exact hnext
      · rintro ⟨rows, hlength, hrows, rfl⟩
        cases rows with
        | nil => simp at hlength; omega
        | cons row rows =>
          have hfirst : traceRow sends[i]? recvs[i]? = some row := hrows 0 (by simp)
          rw [hfirst, Option.bind_some, (ih (by omega)).2 ⟨rows, ?_, fun j hj => ?_, rfl⟩]
          · rfl
          · rw [List.length_cons] at hlength
            omega
          · have hnext := hrows (j + 1) (by simpa using hj)
            rw [← Nat.add_assoc, Nat.add_right_comm] at hnext
            exact hnext

/-- `CCI_printTraceBuffers` prints the rows, if it goes through. -/
theorem cciPrintTraceBuffers_eq_some_iff (hsend : Shows data 0 sends)
    (hrecv : Shows data (ipcMessageTraceHistorySize * sizeofIpcTrace) recvs)
    (hlen : max sends.length recvs.length ≤ ipcMessageTraceHistorySize) :
    cciPrintTraceBuffers (some data) = some (codeSuccess, texts) ↔ RowsOf texts sends recvs := by
  unfold cciPrintTraceBuffers RowsOf
  constructor
  · intro hprint
    obtain ⟨flat, hflat, hprint⟩ := Option.bind_eq_some_iff.1 hprint
    cases hprint
    obtain ⟨rows, hlength, hrows, rfl⟩ :=
      (printTraceLoop_eq_some_iff hsend hrecv hlen (by rw [Nat.zero_add])).1 hflat
    refine ⟨rows, by rw [hlength, Nat.sub_zero], fun i hi => ?_, rfl⟩
    have hrow := hrows i hi
    rwa [Nat.zero_add] at hrow
  · rintro ⟨rows, hlength, hrows, rfl⟩
    have hflat : printTraceLoop data ipcMessageTraceHistorySize 0 = some rows.flatten := by
      refine (printTraceLoop_eq_some_iff hsend hrecv hlen (by rw [Nat.zero_add])).2
        ⟨rows, by rw [hlength, Nat.sub_zero], fun i hi => ?_, rfl⟩
      rw [Nat.zero_add]
      exact hrows i hi
    simp only
    rw [hflat]
    rfl

end Rows

/-! ## Fields that can be printed -/

/-- All four fields can be printed. -/
def IpcTrace.Printable (t : IpcTrace) : Prop :=
  Coldfire.Printable t.destPid ∧ Coldfire.Printable t.sendPid ∧ Coldfire.Printable t.msgType ∧
    Coldfire.Printable t.timeStamp

instance (t : IpcTrace) : Decidable t.Printable := by
  unfold IpcTrace.Printable
  infer_instance

theorem sprintfInt_bind_isSome {spaces : ℕ} {value : ℤ} {str : Text} {f : Text → Option Text}
    {P : Prop} (hvalue : wrap32 value = value) (hstr : str ≠ [])
    (hf : ∀ str, (f str).isSome = true ↔ P) :
    ((sprintfInt false spaces value str).bind f).isSome = true ↔ Coldfire.Printable value ∧ P := by
  have hrange := wrap32_range value
  rw [hvalue] at hrange
  rw [← sprintfInt_isSome_iff hrange.1 hrange.2 hstr]
  cases sprintfInt false spaces value str with
  | none => simp
  | some str' => simp [hf]

theorem traceText_isSome_iff {t : IpcTrace} (ht : t.words = t) {format : Text}
    (hformat : format = sendFormat ∨ format = recvFormat) :
    (traceText format t).isSome = true ↔ t.Printable := by
  have hdest : wrap32 t.destPid = t.destPid := congrArg IpcTrace.destPid ht
  have hsender : wrap32 t.sendPid = t.sendPid := congrArg IpcTrace.sendPid ht
  have htype : wrap32 t.msgType = t.msgType := congrArg IpcTrace.msgType ht
  have hstamp : wrap32 t.timeStamp = t.timeStamp := congrArg IpcTrace.timeStamp ht
  have hfields : ∀ last : Text → Text, (((sprintfInt false 2 t.destPid (cstr "   ")).bind fun str =>
      (sprintfInt false 2 t.sendPid (str ++ cstr " " ++ cstr "|" ++ cstr " " ++ cstr " " ++
        cstr " ")).bind fun str =>
      (sprintfInt false 3 t.msgType (str ++ cstr " " ++ cstr "|" ++ cstr " " ++ cstr " " ++
        cstr " ")).bind fun str =>
      (sprintfInt false 6 t.timeStamp (str ++ cstr " " ++ cstr "|" ++ cstr " ")).bind fun str =>
        some (last str)).isSome = true ↔ t.Printable) := by
    intro last
    refine sprintfInt_bind_isSome hdest (by decide) fun str => ?_
    refine sprintfInt_bind_isSome hsender (by simp [cstr]) fun str => ?_
    refine sprintfInt_bind_isSome htype (by simp [cstr]) fun str => ?_
    refine (sprintfInt_bind_isSome hstamp (by simp [cstr]) fun str => ?_).trans
      (and_iff_left trivial)
    simp
  rcases hformat with rfl | rfl
  · exact hfields fun str => str ++ cstr " " ++ cstr "|" ++ cstr "|"
  · exact hfields fun str => str ++ cstr "\r" ++ cstr "\n"

theorem traceRow_isSome_iff {send recv : Option IpcTrace}
    (hsend : ∀ t ∈ send, t.words = t) (hrecv : ∀ t ∈ recv, t.words = t) :
    (traceRow send recv).isSome = true ↔
      (∀ t ∈ send, t.Printable) ∧ ∀ t ∈ recv, t.Printable := by
  have hleft : (send.elim (some sendBlank) (traceText sendFormat)).isSome = true ↔
      ∀ t ∈ send, t.Printable := by
    cases send with
    | none => simp
    | some t => simpa using traceText_isSome_iff (hsend t rfl) (.inl rfl)
  have hright : (recv.elim (some recvBlank) (traceText recvFormat)).isSome = true ↔
      ∀ t ∈ recv, t.Printable := by
    cases recv with
    | none => simp
    | some t => simpa using traceText_isSome_iff (hrecv t rfl) (.inr rfl)
  rw [← hleft, ← hright]
  unfold traceRow
  cases send.elim (some sendBlank) (traceText sendFormat) with
  | none => simp
  | some left => cases recv.elim (some recvBlank) (traceText recvFormat) <;> simp

theorem exists_rowsOf_iff {sends recvs : List IpcTrace}
    (hsends : ∀ t ∈ sends, t.words = t) (hrecvs : ∀ t ∈ recvs, t.words = t) :
    (∃ texts, RowsOf texts sends recvs) ↔ ∀ t ∈ sends ++ recvs, t.Printable := by
  have hrow : ∀ i : ℕ, (traceRow sends[i]? recvs[i]?).isSome = true ↔
      (∀ t ∈ sends[i]?, t.Printable) ∧ ∀ t ∈ recvs[i]?, t.Printable := by
    intro i
    refine traceRow_isSome_iff (fun t ht => hsends t ?_) fun t ht => hrecvs t ?_
    · exact List.mem_of_getElem? ht
    · exact List.mem_of_getElem? ht
  constructor
  · rintro ⟨texts, rows, hlength, hrows, -⟩ t ht
    have hsome : ∀ i, i < max sends.length recvs.length →
        (traceRow sends[i]? recvs[i]?).isSome = true := by
      intro i hi
      rw [hrows i (by omega)]
      rfl
    rcases List.mem_append.1 ht with hmem | hmem
    · obtain ⟨i, hi, rfl⟩ := List.getElem_of_mem hmem
      exact ((hrow i).1 (hsome i (lt_max_of_lt_left hi))).1 _ (List.getElem?_eq_getElem hi)
    · obtain ⟨i, hi, rfl⟩ := List.getElem_of_mem hmem
      exact ((hrow i).1 (hsome i (lt_max_of_lt_right hi))).2 _ (List.getElem?_eq_getElem hi)
  · intro hall
    refine ⟨_, (List.range (max sends.length recvs.length)).map fun i =>
      (traceRow sends[i]? recvs[i]?).getD [], by simp, fun i hi => ?_, rfl⟩
    have hsome : (traceRow sends[i]? recvs[i]?).isSome = true := by
      refine (hrow i).2 ⟨fun t ht => hall t ?_, fun t ht => hall t ?_⟩
      · exact List.mem_append_left _ (List.mem_of_getElem? ht)
      · exact List.mem_append_right _ (List.mem_of_getElem? ht)
    obtain ⟨row, heq⟩ := Option.isSome_iff_exists.1 hsome
    simp [heq]

/-! ## Histories -/

/-- `log_msg_event`, for letters at given times. -/
def logMsgEvents (tbuf : TraceCircleBuf) (events : List (Letter × ℤ)) : TraceCircleBuf :=
  events.foldl (fun tbuf event => logMsgEvent tbuf event.1 event.2) tbuf

/-- The entries of a history. -/
def tracesOf (events : List (Letter × ℤ)) : List IpcTrace :=
  events.map fun event => event.1.trace event.2

theorem Logged.logEvents (h : Logged tbuf history) (events : List (Letter × ℤ)) :
    Logged (logMsgEvents tbuf events) (history ++ tracesOf events) := by
  induction events generalizing tbuf history with
  | nil => simpa [tracesOf, logMsgEvents] using h
  | cons event events ih =>
    have hrest := ih (h.log event.1 event.2)
    rw [List.append_assoc] at hrest
    exact hrest

namespace Ipc

variable {I I' : Ipc n} {queue : QueuePtr n} {env : EnvPtr}

/-- The traces and the log are as they were. -/
structure SameTraces (I I' : Ipc n) : Prop where
  send : I'.sendTraceBuf = I.sendTraceBuf
  recv : I'.recvTraceBuf = I.recvTraceBuf
  log : I'.log = I.log

theorem SameTraces.enqueue (h : I.enqueue queue env = some I') : SameTraces I I' := by
  obtain ⟨r, -, rfl⟩ := Option.map_eq_some_iff.1 h
  exact ⟨rfl, rfl, rfl⟩

theorem SameTraces.take (h : I.take queue env = some I') : SameTraces I I' := by
  obtain ⟨-, h⟩ := Option.ite_none_right_eq_some.1 h
  cases h
  exact ⟨rfl, rfl, rfl⟩

theorem SameTraces.insert {nullRead : Option ℤ} (h : I.timeoutQueueInsert nullRead env = some I') :
    SameTraces I I' := by
  obtain ⟨mem, head, rfl⟩ := timeoutQueueInsert_eq h
  exact ⟨rfl, rfl, rfl⟩

theorem SameTraces.check {found : Option EnvPtr} (h : I.checkTimeoutQueue = some (found, I')) :
    SameTraces I I' := by
  obtain ⟨mem, head, rfl⟩ := checkTimeoutQueue_eq h
  exact ⟨rfl, rfl, rfl⟩

theorem SameTraces.initEnvs (l : List EnvPtr) (h : l.foldlM (initEnv queue) I = some I') :
    SameTraces I I' := by
  induction l generalizing I with
  | nil =>
    cases h
    exact ⟨rfl, rfl, rfl⟩
  | cons env l ih =>
    obtain ⟨J, hJ, h⟩ := Option.bind_eq_some_iff.1 h
    have hfirst : SameTraces _ J := SameTraces.enqueue hJ
    have hrest := ih h
    exact ⟨hrest.send.trans hfirst.send, hrest.recv.trans hfirst.recv, hrest.log.trans hfirst.log⟩

theorem initIpc_logged {memory : EnvPtr → MsgEnv EnvPtr} {traces : ℤ → IpcTrace}
    (h : initIpc memory traces = some I) :
    Logged I.sendTraceBuf [] ∧ Logged I.recvTraceBuf [] := by
  unfold initIpc at h
  obtain ⟨J, hJ, h⟩ := Option.bind_eq_some_iff.1 h
  have hfree := SameTraces.initEnvs _ hJ
  have hsys := SameTraces.initEnvs _ h
  have hempty : Logged ⟨0, fun i =>
      if 0 ≤ i ∧ i < ipcMessageTraceHistorySize then { traces i with timeStamp := maxUint32 }
      else traces i⟩ [] := by
    refine ⟨rfl, .empty fun k hk => ?_⟩
    simp [hk]
  rw [hsys.send, hsys.recv, hfree.send, hfree.recv]
  exact ⟨hempty, hempty⟩

end Ipc

/-! ## Runs -/

/-- The letter of a send. -/
def Event.sent? : Event n → Option Letter
  | .sent _ _ _ letter => some letter
  | _ => none

/-- The letter of a receive. -/
def Event.received? : Event n → Option Letter
  | .received _ _ letter => some letter
  | _ => none

/-- The buffers are those of a history of the letters in the log. -/
structure Ipc.Historied (I₀ I : Ipc n) (sends recvs : List (Letter × ℤ)) : Prop where
  send : I.sendTraceBuf = logMsgEvents I₀.sendTraceBuf sends
  recv : I.recvTraceBuf = logMsgEvents I₀.recvTraceBuf recvs
  sent : sends.map Prod.fst = (I.log.filterMap Event.sent?).reverse
  received : recvs.map Prod.fst = (I.log.filterMap Event.received?).reverse

namespace Ipc

variable {I₀ I I' : Ipc n} {sends recvs : List (Letter × ℤ)} {m : IpcMove n}

theorem Historied.same (h : Historied I₀ I sends recvs) (hsame : SameTraces I I') :
    Historied I₀ I' sends recvs := by
  constructor
  · rw [hsame.send]; exact h.send
  · rw [hsame.recv]; exact h.recv
  · rw [hsame.log]; exact h.sent
  · rw [hsame.log]; exact h.received

theorem Historied.emit {ev : Event n} (h : Historied I₀ I sends recvs) (hsent : ev.sent? = none)
    (hreceived : ev.received? = none) : Historied I₀ (I.emit ev) sends recvs := by
  refine ⟨h.send, h.recv, ?_, ?_⟩
  · change _ = ((ev :: I.log).filterMap _).reverse
    rw [List.filterMap_cons_none hsent]
    exact h.sent
  · change _ = ((ev :: I.log).filterMap _).reverse
    rw [List.filterMap_cons_none hreceived]
    exact h.received

/-- Every move but a send and a receive leaves the history alone, and those two add to it. -/
theorem Historied.move (h : Historied I₀ I sends recvs) (hmove : I.move m = some I') :
    ∃ sends' recvs', Historied I₀ I' sends' recvs' := by
  cases m with
  | setLetter env letter =>
    cases hmove
    exact ⟨sends, recvs, h.same ⟨rfl, rfl, rfl⟩⟩
  | write env content =>
    cases hmove
    exact ⟨sends, recvs, h.same ⟨rfl, rfl, rfl⟩⟩
  | tick =>
    cases hmove
    exact ⟨sends, recvs, h.same ⟨rfl, rfl, rfl⟩⟩
  | copy env text =>
    cases hmove
    exact ⟨sends, recvs, h.emit rfl rfl⟩
  | send cur dest env sendPid destPid =>
    obtain ⟨-, hmove⟩ := Option.ite_none_left_eq_some.1 hmove
    obtain ⟨J, henq, rfl⟩ := Option.map_eq_some_iff.1 hmove
    have hfilled : Historied I₀ (I.setLetter env (I.stamped env sendPid destPid)) sends recvs :=
      h.same ⟨rfl, rfl, rfl⟩
    have hJ := hfilled.same (.enqueue henq)
    refine ⟨sends ++ [(I.stamped env sendPid destPid, J.clock)], recvs, ?_, hJ.recv, ?_, ?_⟩
    · change logMsgEvent J.sendTraceBuf _ _ = _
      rw [hJ.send, logMsgEvents, logMsgEvents, List.foldl_append]
      rfl
    · simp [hJ.sent, Ipc.emit, addOwned, Event.sent?]
    · exact hJ.received
  | receive p env =>
    obtain ⟨J, htake, rfl⟩ := Option.map_eq_some_iff.1 hmove
    have hJ := h.same (.take htake)
    refine ⟨sends, recvs ++ [((J.env env).toLetter, J.clock)], hJ.send, ?_, hJ.sent, ?_⟩
    · change logMsgEvent J.recvTraceBuf _ _ = _
      rw [hJ.recv, logMsgEvents, logMsgEvents, List.foldl_append]
      rfl
    · simp [hJ.received, Ipc.emit, Event.received?]
  | request p queue env =>
    obtain ⟨J, htake, rfl⟩ := Option.map_eq_some_iff.1 hmove
    have howned : Historied I₀ (I.addOwned p 1) sends recvs := h.same ⟨rfl, rfl, rfl⟩
    exact ⟨sends, recvs, (howned.same (.take htake)).emit rfl rfl⟩
  | release p queue env =>
    obtain ⟨J, henq, rfl⟩ := Option.map_eq_some_iff.1 hmove
    refine ⟨sends, recvs, Historied.emit ?_ rfl rfl⟩
    exact (h.same (.enqueue henq)).same ⟨rfl, rfl, rfl⟩
  | insert p nullRead env =>
    obtain ⟨delay, -, hmove⟩ := Option.bind_eq_some_iff.1 hmove
    obtain ⟨J, hinsert, hmove⟩ := Option.bind_eq_some_iff.1 hmove
    cases hmove
    exact ⟨sends, recvs, (h.same (.insert hinsert)).emit rfl rfl⟩
  | expire p env =>
    obtain ⟨⟨found, J⟩, hcheck, hmove⟩ := Option.bind_eq_some_iff.1 hmove
    obtain ⟨-, hmove⟩ := Option.ite_none_right_eq_some.1 hmove
    cases hmove
    exact ⟨sends, recvs, (h.same (.check hcheck)).emit rfl rfl⟩

end Ipc

/-- The trace buffers of every reachable state have a history: the letters of the log, in order. -/
theorem exists_historied {table : Fin n → PcbInit} {s : Kernel n}
    (hs : Reach Kernel.step (Kernel.Booted table) (fun _ _ => True) s) :
    ∃ memory traces I₀ sends recvs, Ipc.initIpc memory traces = some I₀ ∧
      Ipc.Historied I₀ s.ipc sends recvs := by
  suffices h : s.Tabled table ∧ ∃ memory traces I₀ sends recvs,
      Ipc.initIpc memory traces = some I₀ ∧ Ipc.Historied I₀ s.ipc sends recvs from h.2
  refine hs.invariant (I := fun s => s.Tabled table ∧ ∃ memory traces I₀ sends recvs,
    Ipc.initIpc memory traces = some I₀ ∧ Ipc.Historied I₀ s.ipc sends recvs) ?_ ?_
  · intro s hboot
    obtain ⟨ram, sched₀, hipc, -, -, -⟩ := Kernel.Booted.parts hboot
    have hlog : s.ipc.log = [] := (Ipc.initIpc_filled hipc).log
    refine ⟨Kernel.Booted.tabled hboot, _, _, s.ipc, [], [], hipc, rfl, rfl, ?_, ?_⟩
    · rw [hlog]; rfl
    · rw [hlog]; rfl
  · rintro s l s' - ⟨htabled, memory, traces, I₀, sends, recvs, hinit, h⟩ - hstep
    refine ⟨htabled.step hstep, memory, traces, I₀, ?_⟩
    suffices hkept : ∃ sends recvs, Ipc.Historied I₀ s'.ipc sends recvs by
      obtain ⟨sends, recvs, h⟩ := hkept
      exact ⟨sends, recvs, hinit, h⟩
    refine (Kernel.step_acts htabled.interrupted hstep).1.invariant
      (I := fun t => ∃ sends recvs, Ipc.Historied I₀ t.ipc sends recvs) ?_ ?_
    · intro t ht
      exact ht ▸ ⟨sends, recvs, h⟩
    · rintro t a t' - ⟨sends, recvs, h⟩ - hact
      cases a with
      | ipc m => exact h.move (Kernel.act_ipc hact).1
      | sched m =>
        obtain ⟨S, -, rfl⟩ := Option.map_eq_some_iff.1 hact
        exact ⟨sends, recvs, h⟩
      | uart uart =>
        cases hact
        exact ⟨sends, recvs, h⟩

/-! ## Exactness -/

/-- `k_get_trace_buffers` dumps the retained entries of both histories in order, and
`CCI_printTraceBuffers` prints a row for each. -/
def TraceExact (s : Kernel n) (env : EnvPtr) (sends recvs : List IpcTrace) : Prop :=
  ∃ s' data texts, s.kGetTraceBuffers (some env) = some (codeSuccess, s') ∧
    (s'.ipc.env env).msg = some data ∧ Dumped data 0 sends ∧
    Dumped data (ipcMessageTraceHistorySize * sizeofIpcTrace) recvs ∧
    cciPrintTraceBuffers (some data) = some (codeSuccess, texts) ∧
    RowsOf texts (retainedWords sends) (retainedWords recvs)

theorem traceExact_iff {s : Kernel n} {env : EnvPtr} {body : Body} {sends recvs : List IpcTrace}
    (hmsg : (s.ipc.env env).msg = some body) (hsend : Logged s.ipc.sendTraceBuf sends)
    (hrecv : Logged s.ipc.recvTraceBuf recvs) (hsends : sends ≠ []) (hrecvs : recvs ≠ [])
    (hstamps : ∀ t ∈ sends ++ recvs, wrap32 t.timeStamp ≠ maxUint32) :
    TraceExact s env sends recvs ↔ ∀ t ∈ retainedWords sends ++ retainedWords recvs,
      t.Printable := by
  have hsent : ∀ t ∈ sends ++ recvs, t.timeStamp ≠ maxUint32 := by
    intro t ht heq
    exact hstamps t ht (by rw [heq]; rfl)
  have hwords : ∀ {l : List IpcTrace}, ∀ t ∈ retainedWords l, t.words = t := by
    intro l t ht
    obtain ⟨t, -, rfl⟩ := List.mem_map.1 ht
    simp [IpcTrace.words]
  rw [← exists_rowsOf_iff hwords hwords]
  constructor
  · rintro ⟨s', data, texts, -, -, -, -, -, hrows⟩
    exact ⟨texts, hrows⟩
  · rintro ⟨texts, hrows⟩
    obtain ⟨s', data, hret, hdata, hleft, hright⟩ :=
      Kernel.kGetTraceBuffers_dumps hmsg hsend hrecv hsends hrecvs hsent
    refine ⟨s', data, texts, hret, hdata, hleft, hright, ?_, hrows⟩
    refine (cciPrintTraceBuffers_eq_some_iff (hleft.shows fun t ht => ?_)
      (hright.shows fun t ht => ?_) ?_).2 hrows
    · exact hstamps t (List.mem_append_left _ ht)
    · exact hstamps t (List.mem_append_right _ ht)
    · rw [length_retainedWords, length_retainedWords]
      omega

/-- The history of both trace buffers is shown exactly, if and only if every field of a retained
entry can be printed. -/
theorem trace_history_iff {s : Kernel n} {I₀ : Ipc n} {memory : EnvPtr → MsgEnv EnvPtr}
    {traces : ℤ → IpcTrace} {sends recvs : List (Letter × ℤ)} {env : EnvPtr}
    (hinit : Ipc.initIpc memory traces = some I₀)
    (hsend : s.ipc.sendTraceBuf = logMsgEvents I₀.sendTraceBuf sends)
    (hrecv : s.ipc.recvTraceBuf = logMsgEvents I₀.recvTraceBuf recvs)
    (hmsg : (s.ipc.env env).msg.isSome = true) (hsends : 1 ≤ sends.length)
    (hrecvs : 1 ≤ recvs.length) (hstamps : ∀ e ∈ sends ++ recvs, wrap32 e.2 ≠ maxUint32) :
    TraceExact s env (tracesOf sends) (tracesOf recvs) ↔
      ∀ t ∈ retainedWords (tracesOf sends) ++ retainedWords (tracesOf recvs), t.Printable := by
  obtain ⟨body, hbody⟩ := Option.isSome_iff_exists.1 hmsg
  obtain ⟨hsend₀, hrecv₀⟩ := Ipc.initIpc_logged hinit
  have hsendLogged : Logged s.ipc.sendTraceBuf (tracesOf sends) := hsend ▸ hsend₀.logEvents sends
  have hrecvLogged : Logged s.ipc.recvTraceBuf (tracesOf recvs) := hrecv ▸ hrecv₀.logEvents recvs
  have hne : ∀ {events : List (Letter × ℤ)}, 1 ≤ events.length → tracesOf events ≠ [] := by
    intro events hlength hnil
    rw [List.map_eq_nil_iff.1 hnil] at hlength
    contradiction
  refine traceExact_iff hbody (hsend ▸ hsend₀.logEvents sends) (hrecv ▸ hrecv₀.logEvents recvs)
    (hne hsends) (hne hrecvs) ?_
  intro t ht
  rw [tracesOf, tracesOf, ← List.map_append] at ht
  obtain ⟨e, he, rfl⟩ := List.mem_map.1 ht
  exact hstamps e he

/-- Two sends and a receive. -/
theorem trace_history_itable :
    ∃ s₀ sends recvs, Kernel.kInit Kernel.Ram.zero itable = some s₀ ∧
      tracesOf sends = [⟨2, 1, 7, 1⟩, ⟨4, 2, -3, 9⟩] ∧ tracesOf recvs = [⟨2, 1, 7, 5⟩] ∧
      TraceExact { s₀ with ipc := { s₀.ipc with
        sendTraceBuf := logMsgEvents s₀.ipc.sendTraceBuf sends
        recvTraceBuf := logMsgEvents s₀.ipc.recvTraceBuf recvs } } (.envPool 0)
        (tracesOf sends) (tracesOf recvs) := by
  have hrun : ((Kernel.kInit Kernel.Ram.zero itable).any fun s =>
      (s.ipc.env (.envPool 0)).msg.isSome) = true := by
    decide +kernel
  obtain ⟨s₀, hinit, hmsg⟩ := (Option.any_eq_true ..).1 hrun
  have hboot : Kernel.Booted itable s₀ := ⟨_, hinit⟩
  obtain ⟨ram, -, hipc, -⟩ := hboot.parts
  refine ⟨s₀, [(⟨2, 1, 7, none⟩, 1), (⟨4, 2, -3, none⟩, 9)], [(⟨2, 1, 7, none⟩, 5)], hinit,
    rfl, rfl,
    ?_⟩
  refine (trace_history_iff hipc ?_ ?_ ?_ ?_ ?_ ?_).2 ?_
  · rfl
  · rfl
  · exact hmsg
  · decide
  · decide
  · decide
  · decide

/-- The CCI sends itself a message whose type has ten digits. -/
def tenDigits : List Label := [
  .call .requestMsgEnv,
  .write (.envPool 0) ⟨⟨0, 0, 1000000000, some fun _ => 0⟩, none⟩,
  .call (.sendMessage cciPid (some (.envPool 0))),
  .call .receiveMessage]

/-- A single entry is in the first slot. -/
theorem Logged.stamp_eq {events : List (Letter × ℤ)} {time : ℤ} (h : Logged tbuf (tracesOf events))
    (hlength : events.length = 1) (hstamp : (tbuf.buf 0).timeStamp = time) :
    ∀ e ∈ events, e.2 = time := by
  obtain ⟨e, rfl⟩ := List.length_eq_one_iff.1 hlength
  have hslot : tbuf.buf 0 = e.1.trace e.2 := h.slots.slot 0 Nat.one_pos (by
    change 1 ≤ 0 + 16
    decide)
  intro e' he'
  rw [List.mem_singleton.1 he', ← hstamp, hslot]
  rfl

/-- Its trace is not printed. -/
theorem trace_history_fails :
    ∃ s memory traces I₀ sends recvs, Reach Kernel.step (Kernel.Booted itable) Owning s ∧
      Ipc.initIpc memory traces = some I₀ ∧ Ipc.Historied I₀ s.ipc sends recvs ∧
      1 ≤ sends.length ∧ 1 ≤ recvs.length ∧
      (∀ e ∈ sends ++ recvs, wrap32 e.2 ≠ maxUint32) ∧
      (s.ipc.env (.envPool 0)).msg.isSome = true ∧
      ¬ TraceExact s (.envPool 0) (tracesOf sends) (tracesOf recvs) := by
  have hrun : ((Kernel.kInit Kernel.Ram.zero itable).bind fun s =>
      exec (guarded Kernel.step Owning) s tenDigits).any (fun s =>
        (s.ipc.env (.envPool 0)).msg.isSome && decide (
        (s.ipc.sendTraceBuf.buf 0).timeStamp = 1 ∧ (s.ipc.recvTraceBuf.buf 0).timeStamp = 1 ∧
        (s.ipc.log.filterMap Event.sent?).length = 1 ∧
        (s.ipc.log.filterMap Event.received?).length = 1) &&
        (s.kGetTraceBuffers (some (.envPool 0))).any fun r =>
          (cciPrintTraceBuffers (r.2.ipc.env (.envPool 0)).msg).isNone) = true := by
    decide +kernel
  obtain ⟨s, hs, hfacts⟩ := (Option.any_eq_true ..).1 hrun
  obtain ⟨hfacts, hfault⟩ := Bool.and_eq_true_iff.1 hfacts
  obtain ⟨hmsg, hfacts⟩ := Bool.and_eq_true_iff.1 hfacts
  obtain ⟨hsendStamp, hrecvStamp, hsent, hreceived⟩ := of_decide_eq_true hfacts
  obtain ⟨s₀, hinit, hexec⟩ := Option.bind_eq_some_iff.1 hs
  have hreach : Reach Kernel.step (Kernel.Booted itable) Owning s :=
    (Reach.init ⟨_, hinit⟩).guarded hexec
  obtain ⟨memory, traces, I₀, sends, recvs, hipc, hhistory⟩ :=
    exists_historied (hreach.mono fun _ _ _ => trivial)
  obtain ⟨hsend₀, hrecv₀⟩ := Ipc.initIpc_logged hipc
  have hsends : sends.length = 1 := by
    rw [← List.length_map Prod.fst, hhistory.sent, List.length_reverse, hsent]
  have hrecvs : recvs.length = 1 := by
    rw [← List.length_map Prod.fst, hhistory.received, List.length_reverse, hreceived]
  refine ⟨s, memory, traces, I₀, sends, recvs, hreach, hipc, hhistory, by omega, by omega,
    fun e he => ?_, hmsg, ?_⟩
  · have hstamp : e.2 = 1 := by
      rcases List.mem_append.1 he with he | he
      · refine (hsend₀.logEvents sends).stamp_eq hsends ?_ e he
        rw [← hhistory.send, hsendStamp]
      · refine (hrecv₀.logEvents recvs).stamp_eq hrecvs ?_ e he
        rw [← hhistory.recv, hrecvStamp]
    rw [hstamp]
    decide
  · rintro ⟨s', data, texts, hret, hdata, -, -, hprint, -⟩
    rw [hret, Option.any_some, hdata, hprint] at hfault
    simp at hfault

end Rtx.Coldfire
