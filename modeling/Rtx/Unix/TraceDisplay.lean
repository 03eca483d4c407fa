import Rtx.Coldfire.Structs
import Rtx.Lib.Circular
import Rtx.Lib.Records

/-!
# The trace display of the Unix port

The trace buffers of `k_ipc.c`, and `CCI_printTraceBuffers`. The search for the head always ends, as
the tail is unsigned. The dump has the retained events in order, and then slots that were never
written. The display takes the destination of a received message from the dump of the sent ones, so
that it is right only where the two agree (`trace_display_iff`).
-/

namespace Rtx.Unix

open Circular
open Coldfire (Body codeSuccess errorNullArg)

def ipcMessageTraceHistorySize : ℕ := 16

/-- `MAX_UINT32`, the sentinel. -/
def maxUint32 : UInt32 := 0xffffffff

/-! ## The code -/

/-- The fields of an envelope that are logged. -/
structure MsgHeader where
  destPid : UInt32
  sendPid : UInt32
  msgType : Int32

/-- `ipc_trace_t`. -/
structure IpcTrace where
  destPid : UInt32
  sendPid : UInt32
  msgType : UInt32
  timeStamp : UInt32
  deriving DecidableEq

/-- `trace_circle_buf_t`. -/
structure TraceCircleBuf where
  tail : UInt32
  buf : ℕ → IpcTrace

/-- `circle_index`, of an unsigned number. -/
def circleIndex (i : UInt32) : UInt32 := i % 16

/-- A slot of a static buffer, after `k_ipc_init`. -/
def unusedTrace : IpcTrace := { destPid := 0, sendPid := 0, msgType := 0, timeStamp := maxUint32 }

/-- What `k_ipc_init` makes of a static buffer. -/
def kIpcInit : TraceCircleBuf := { tail := 0, buf := fun _ => unusedTrace }

/-- The entry of a message that is logged at the system time `clock`. -/
def MsgHeader.trace (msgEnv : MsgHeader) (clock : UInt64) : IpcTrace :=
  { destPid := msgEnv.destPid
    sendPid := msgEnv.sendPid
    msgType := msgEnv.msgType.toUInt32
    timeStamp := clock.toUInt32 }

/-- `_log_msg_event`. -/
def logMsgEvent (tbuf : TraceCircleBuf) (msgEnv : MsgHeader) (clock : UInt64) : TraceCircleBuf :=
  { buf := Function.update tbuf.buf tbuf.tail.toNat (msgEnv.trace clock)
    tail := circleIndex (tbuf.tail + 1) }

/-- `_log_msg_event`, for messages at given times. -/
def logMsgEvents (tbuf : TraceCircleBuf) (events : List (MsgHeader × UInt64)) : TraceCircleBuf :=
  events.foldl (fun tbuf event => logMsgEvent tbuf event.1 event.2) tbuf

/-- The loop of `_find_trace_buf_head`. -/
def findTraceBufHeadLoop (tbuf : TraceCircleBuf) : ℕ → ℕ → Option ℕ
  | 0, _ => none
  | fuel + 1, head =>
    if (tbuf.buf head).timeStamp = maxUint32 ∧ head ≠ (circleIndex (tbuf.tail - 1)).toNat then
      findTraceBufHeadLoop tbuf fuel ((head + 1) % ipcMessageTraceHistorySize)
    else some head

/-- `_find_trace_buf_head`. -/
def findTraceBufHead (tbuf : TraceCircleBuf) : Option ℕ :=
  findTraceBufHeadLoop tbuf (ipcMessageTraceHistorySize + 1) (circleIndex tbuf.tail).toNat

/-- `*((uint32_t *) (msg + off))`, on a little-endian machine. -/
def getWord (b : Body) (off : ℕ) : UInt32 :=
  UInt32.ofNat ((b off).toNat + (b (off + 1)).toNat * 2 ^ 8 + (b (off + 2)).toNat * 2 ^ 16 +
    (b (off + 3)).toNat * 2 ^ 24)

/-- `*((uint32_t *) (msg + off)) = x`. -/
def putWord (b : Body) (off : ℕ) (x : UInt32) : Body := fun i =>
  if off ≤ i ∧ i < off + 4 then UInt8.ofNat (x.toNat / 256 ^ (i - off)) else b i

def sizeofIpcTrace : ℕ := 16

/-- Read an entry. -/
def getTrace (data : Body) (off : ℕ) : IpcTrace :=
  { destPid := getWord data off
    sendPid := getWord data (off + 4)
    msgType := getWord data (off + 8)
    timeStamp := getWord data (off + 12) }

/-- Write the fields of an entry, one after the other. -/
def putTrace (data : Body) (off : ℕ) (trace : IpcTrace) : Body :=
  putWord (putWord (putWord (putWord data off trace.destPid) (off + 4) trace.sendPid) (off + 8)
    trace.msgType) (off + 12) trace.timeStamp

/-- `k_get_trace_buffers`: what it returns, and the body of the envelope afterwards. -/
def kGetTraceBuffers (sendTraceBuf recvTraceBuf : TraceCircleBuf) (msg : Body) :
    Option (ℤ × Body) := do
  let sendHead ← findTraceBufHead sendTraceBuf
  let recvHead ← findTraceBufHead recvTraceBuf
  return (codeSuccess, Records.dump putTrace sizeofIpcTrace ipcMessageTraceHistorySize msg
    (fun i => sendTraceBuf.buf ((sendHead + i) % ipcMessageTraceHistorySize))
    (fun i => recvTraceBuf.buf ((recvHead + i) % ipcMessageTraceHistorySize))
    ipcMessageTraceHistorySize)

/-- A call of `RTX_printf`: the format, and the numbers behind it. -/
structure Printf where
  format : String
  args : List UInt32
  deriving DecidableEq

def traceHeading : String :=
  "MESSAGE TRACE BUFFERS\n\n" ++
  " Send Trace                   || Receive Trace\n" ++
  " Dest |Sender|Message|  Time  || Dest |Sender|Message|  Time\n" ++
  " PID  |PID   |Type   |        || PID  |PID   |Type   |\n" ++
  "--------------------------------------------------------------\n"

def sendFormat : String := "   %2u |   %2u |   %3d | %6u ||"
def recvFormat : String := "   %2u |   %2u |   %3d | %6u\n"
def sendBlank : String := "      |      |       |       ||"
def recvBlank : String := "      |      |       |       \n"

/-- The loop of `CCI_printTraceBuffers` from `i` on. -/
def printTraceLoop (data : Body) : ℕ → ℕ → List Printf
  | 0, _ => []
  | fuel + 1, i =>
    let send := getTrace data (i * sizeofIpcTrace)
    let recv := getTrace data (ipcMessageTraceHistorySize * sizeofIpcTrace + i * sizeofIpcTrace)
    if send.timeStamp ≠ maxUint32 ∨ recv.timeStamp ≠ maxUint32 then
      let left : Printf := if send.timeStamp ≠ maxUint32 then
          ⟨sendFormat, [send.destPid, send.sendPid, send.msgType, send.timeStamp]⟩
        else ⟨sendBlank, []⟩
      -- The destination is that of the sent message.
      let right : Printf := if recv.timeStamp ≠ maxUint32 then
          ⟨recvFormat, [send.destPid, recv.sendPid, recv.msgType, recv.timeStamp]⟩
        else ⟨recvBlank, []⟩
      left :: right :: printTraceLoop data fuel (i + 1)
    else []

/-- `CCI_printTraceBuffers`: what it returns, and what it prints. -/
def cciPrintTraceBuffers (data : Option Body) : ℤ × List Printf :=
  match data with
  | none => (errorNullArg, [])
  | some data => (codeSuccess,
      ⟨traceHeading, []⟩ :: printTraceLoop data ipcMessageTraceHistorySize 0 ++ [⟨"\n", []⟩])

/-! ## Buffers -/

/-- The buffer after `history` was logged. -/
structure Logged (tbuf : TraceCircleBuf) (history : List IpcTrace) : Prop where
  tail : tbuf.tail.toNat = history.length % ipcMessageTraceHistorySize
  slots : Rep ipcMessageTraceHistorySize (· = unusedTrace) tbuf.buf history

variable {tbuf : TraceCircleBuf} {history : List IpcTrace}

theorem toNat_circleIndex (i : UInt32) : (circleIndex i).toNat = i.toNat % 16 := rfl

theorem logged_kIpcInit : Logged kIpcInit [] :=
  ⟨rfl, Rep.empty fun _ _ => rfl⟩

theorem Logged.log (h : Logged tbuf history) (msgEnv : MsgHeader) (clock : UInt64) :
    Logged (logMsgEvent tbuf msgEnv clock) (history ++ [msgEnv.trace clock]) := by
  have htail : tbuf.tail.toNat = history.length % 16 := h.tail
  constructor
  · show (circleIndex (tbuf.tail + 1)).toNat = _
    rw [toNat_circleIndex, UInt32.toNat_add, UInt32.toNat_one, List.length_append,
      List.length_singleton, ipcMessageTraceHistorySize]
    omega
  · show Rep _ _ (Function.update tbuf.buf tbuf.tail.toNat _) _
    rw [h.tail]
    exact h.slots.write _

/-- The entries of a history. -/
def tracesOf (events : List (MsgHeader × UInt64)) : List IpcTrace :=
  events.map fun event => event.1.trace event.2

theorem Logged.logEvents (h : Logged tbuf history) (events : List (MsgHeader × UInt64)) :
    Logged (logMsgEvents tbuf events) (history ++ tracesOf events) := by
  induction events generalizing tbuf history with
  | nil => simpa [tracesOf, logMsgEvents] using h
  | cons event events ih =>
    have hrest := ih (h.log event.1 event.2)
    rw [List.append_assoc] at hrest
    exact hrest

theorem Logged.prev (h : Logged tbuf history) :
    (circleIndex (tbuf.tail - 1)).toNat = (history.length + 15) % 16 := by
  have htail : tbuf.tail.toNat = history.length % 16 := h.tail
  rw [toNat_circleIndex, UInt32.toNat_sub, UInt32.toNat_one]
  omega

/-- A slot that was never written, with a tail elsewhere: the search goes on. -/
theorem findTraceBufHeadLoop_skip {fuel j : ℕ} (hj : tbuf.buf j = unusedTrace)
    (hprev : j ≠ (circleIndex (tbuf.tail - 1)).toNat) :
    findTraceBufHeadLoop tbuf (fuel + 1) j =
      findTraceBufHeadLoop tbuf fuel ((j + 1) % ipcMessageTraceHistorySize) := by
  rw [findTraceBufHeadLoop, hj]
  exact if_pos ⟨rfl, hprev⟩

theorem Logged.loop_nil (h : Logged tbuf []) {fuel j : ℕ} (hj : j ≤ 15) (hfuel : 15 < j + fuel) :
    findTraceBufHeadLoop tbuf fuel j = some 15 := by
  have hprev : (circleIndex (tbuf.tail - 1)).toNat = 15 := h.prev
  induction fuel generalizing j with
  | zero => omega
  | succ fuel ih =>
    rcases Nat.lt_or_eq_of_le hj with hlt | rfl
    · have hunused : tbuf.buf j = unusedTrace := h.slots.unused j (Nat.zero_le _) (by
        rw [ipcMessageTraceHistorySize]
        omega)
      rw [findTraceBufHeadLoop_skip hunused (by omega),
        Nat.mod_eq_of_lt (by rw [ipcMessageTraceHistorySize]; omega)]
      exact ih (by omega) (by omega)
    · rw [findTraceBufHeadLoop, hprev]
      exact if_neg fun hand => hand.2 rfl

/-- From an unused slot it comes to the end of the buffer, and so to slot 0. -/
theorem Logged.loop_unused (h : Logged tbuf history) (hne : history ≠ [])
    (hstamps : ∀ t ∈ history, t.timeStamp ≠ maxUint32) {fuel j : ℕ} (hj : history.length ≤ j)
    (hcap : j ≤ 16) (hfuel : 16 < j + fuel) :
    findTraceBufHeadLoop tbuf fuel (j % ipcMessageTraceHistorySize) = some 0 := by
  have hpos : 0 < history.length := List.length_pos_iff.2 hne
  have hprev := h.prev
  induction fuel generalizing j with
  | zero => omega
  | succ fuel ih =>
    rcases Nat.lt_or_eq_of_le hcap with hlt | rfl
    · have hunused : tbuf.buf j = unusedTrace := h.slots.unused j hj hlt
      have hmod : j % ipcMessageTraceHistorySize = j := Nat.mod_eq_of_lt hlt
      rw [hmod, findTraceBufHeadLoop_skip hunused (by omega)]
      exact ih (by omega) hlt (by omega)
    · have hslot := h.slots.slot 0 hpos (by rw [ipcMessageTraceHistorySize]; omega)
      rw [Nat.zero_mod] at hslot
      rw [show 16 % ipcMessageTraceHistorySize = 0 from rfl, findTraceBufHeadLoop, hslot]
      exact if_neg fun hand => hstamps _ (List.getElem_mem _) hand.1

/-- The `i`-th oldest retained entry, or a slot that was never written. -/
def entryOf (history : List IpcTrace) (i : ℕ) : IpcTrace :=
  ((retained ipcMessageTraceHistorySize history)[i]?).getD unusedTrace

theorem Logged.entry_oldest (h : Logged tbuf history) {i : ℕ} (hi : i < 16) :
    tbuf.buf ((oldest ipcMessageTraceHistorySize history + i) % ipcMessageTraceHistorySize) =
      entryOf history i := by
  unfold entryOf
  by_cases hlen : i < (retained ipcMessageTraceHistorySize history).length
  · rw [h.slots.read hlen, List.getElem?_eq_getElem hlen, Option.getD_some]
  · rw [List.getElem?_eq_none (by omega), Option.getD_none]
    exact h.slots.rest (by omega) hi

/-- The search ends, and from its end on the entries are in order. -/
theorem Logged.findTraceBufHead_spec (h : Logged tbuf history)
    (hstamps : ∀ t ∈ history, t.timeStamp ≠ maxUint32) :
    ∃ head, findTraceBufHead tbuf = some head ∧
      ∀ i < 16, tbuf.buf ((head + i) % ipcMessageTraceHistorySize) = entryOf history i := by
  have htail : (circleIndex tbuf.tail).toNat = history.length % ipcMessageTraceHistorySize := by
    rw [toNat_circleIndex, h.tail]
    exact Nat.mod_mod _ _
  rw [findTraceBufHead, htail]
  rcases eq_or_ne history [] with rfl | hne
  · refine ⟨15, h.loop_nil (Nat.zero_le _) (by decide), fun i _ => ?_⟩
    exact h.slots.unused _ (Nat.zero_le _) (Nat.mod_lt _ (by decide))
  rcases Nat.lt_or_ge history.length 16 with hlt | hfull
  · have holdest : oldest ipcMessageTraceHistorySize history = 0 := if_pos hlt
    refine ⟨0, h.loop_unused hne hstamps le_rfl hlt.le (by
      rw [ipcMessageTraceHistorySize]
      omega), fun i hi => ?_⟩
    rw [← h.entry_oldest hi, holdest]
  · have holdest : oldest ipcMessageTraceHistorySize history =
        history.length % ipcMessageTraceHistorySize := if_neg (not_lt.2 hfull)
    have hentry := h.entry_oldest (i := 0) (by decide)
    rw [holdest, Nat.add_zero, Nat.mod_mod] at hentry
    refine ⟨history.length % ipcMessageTraceHistorySize, ?_, fun i hi => ?_⟩
    · have hlen : 0 < (retained ipcMessageTraceHistorySize history).length := by
        rw [length_retained, ipcMessageTraceHistorySize]
        omega
      rw [findTraceBufHeadLoop, hentry, entryOf, List.getElem?_eq_getElem hlen, Option.getD_some]
      exact if_neg fun hand => hstamps _ (mem_of_mem_retained (List.getElem_mem _)) hand.1
    · rw [← h.entry_oldest hi, holdest]

/-! ## The dump -/

@[simp] theorem getWord_putWord (b : Body) (off : ℕ) (x : UInt32) :
    getWord (putWord b off x) off = x := by
  have hlt : x.toNat < 2 ^ 32 := x.toNat_lt
  have hbyte : ∀ k < 4, (putWord b off x (off + k)).toNat = x.toNat / 256 ^ k % 256 := by
    intro k hk
    rw [putWord, if_pos (by omega), Nat.add_sub_cancel_left, UInt8.toNat_ofNat']
  have h₀ := hbyte 0 (by decide)
  have h₁ := hbyte 1 (by decide)
  have h₂ := hbyte 2 (by decide)
  have h₃ := hbyte 3 (by decide)
  rw [Nat.add_zero] at h₀
  rw [getWord, h₀, h₁, h₂, h₃, ← UInt32.toNat_inj, UInt32.toNat_ofNat']
  omega

theorem getWord_putWord_of_ne (b : Body) {off off' : ℕ} (x : UInt32)
    (h : off + 4 ≤ off' ∨ off' + 4 ≤ off) : getWord (putWord b off x) off' = getWord b off' := by
  have hput : ∀ i, off' ≤ i → i < off' + 4 → putWord b off x i = b i := by
    intro i h₁ h₂
    exact if_neg (by omega)
  rw [getWord, hput off' (by omega) (by omega), hput (off' + 1) (by omega) (by omega),
    hput (off' + 2) (by omega) (by omega), hput (off' + 3) (by omega) (by omega), getWord]

theorem traceCodec : Records.Codec sizeofIpcTrace id getTrace putTrace where
  get_put b off t := by
    unfold getTrace putTrace
    rw [getWord_putWord_of_ne _ _ (by omega), getWord_putWord_of_ne _ _ (by omega),
      getWord_putWord_of_ne _ _ (by omega), getWord_putWord,
      getWord_putWord_of_ne _ _ (by omega), getWord_putWord_of_ne _ _ (by omega), getWord_putWord,
      getWord_putWord_of_ne _ _ (by omega), getWord_putWord, getWord_putWord]
    rfl
  get_put_of_ne b off off' t h := by
    have hword : ∀ k ≤ 12, getWord (putTrace b off t) (off' + k) = getWord b (off' + k) := by
      intro k hk
      rw [sizeofIpcTrace] at h
      unfold putTrace
      rw [getWord_putWord_of_ne _ _ (by omega), getWord_putWord_of_ne _ _ (by omega),
        getWord_putWord_of_ne _ _ (by omega), getWord_putWord_of_ne _ _ (by omega)]
    have hfirst : getWord (putTrace b off t) off' = getWord b off' := hword 0 (by omega)
    unfold getTrace
    rw [hfirst, hword 4 (by omega), hword 8 (by omega), hword 12 (by omega)]

/-- The dump has the retained entries of both histories. -/
structure Dumped (data : Body) (sends recvs : List IpcTrace) : Prop where
  send : ∀ i < 16, getTrace data (i * sizeofIpcTrace) = entryOf sends i
  recv : ∀ i < 16, getTrace data (ipcMessageTraceHistorySize * sizeofIpcTrace +
    i * sizeofIpcTrace) = entryOf recvs i

theorem kGetTraceBuffers_dumps {sendTraceBuf recvTraceBuf : TraceCircleBuf}
    {sends recvs : List IpcTrace} (hsend : Logged sendTraceBuf sends)
    (hrecv : Logged recvTraceBuf recvs) (hsends : ∀ t ∈ sends, t.timeStamp ≠ maxUint32)
    (hrecvs : ∀ t ∈ recvs, t.timeStamp ≠ maxUint32) (msg : Body) :
    ∃ data, kGetTraceBuffers sendTraceBuf recvTraceBuf msg = some (codeSuccess, data) ∧
      Dumped data sends recvs := by
  obtain ⟨sendHead, hsendHead, hsendEntry⟩ := hsend.findTraceBufHead_spec hsends
  obtain ⟨recvHead, hrecvHead, hrecvEntry⟩ := hrecv.findTraceBufHead_spec hrecvs
  refine ⟨_, by rw [kGetTraceBuffers, hsendHead, hrecvHead]; rfl, fun i hi => ?_, fun i hi => ?_⟩
  · exact (traceCodec.dump msg _ _ (le_refl ipcMessageTraceHistorySize) hi).1.trans
      (hsendEntry i hi)
  · exact (traceCodec.dump msg _ _ (le_refl ipcMessageTraceHistorySize) hi).2.trans
      (hrecvEntry i hi)

/-! ## The rows -/

/-- The left side of a row. -/
def sendSide : Option IpcTrace → Printf
  | some t => ⟨sendFormat, [t.destPid, t.sendPid, t.msgType, t.timeStamp]⟩
  | none => ⟨sendBlank, []⟩

/-- The right side of a row. -/
def recvSide : Option IpcTrace → Printf
  | some t => ⟨recvFormat, [t.destPid, t.sendPid, t.msgType, t.timeStamp]⟩
  | none => ⟨recvBlank, []⟩

/-- `count` rows, by what is on either side. -/
def rowsOf (count : ℕ) (send recv : ℕ → Option IpcTrace) : List Printf :=
  (List.range count).flatMap fun i => [sendSide (send i), recvSide (recv i)]

theorem rowsOf_succ (count : ℕ) (send recv : ℕ → Option IpcTrace) :
    rowsOf (count + 1) send recv = sendSide (send 0) :: recvSide (recv 0) ::
      rowsOf count (fun i => send (i + 1)) fun i => recv (i + 1) := by
  simp [rowsOf, List.range_succ_eq_map, List.flatMap_map]

/-- Two tables have the same rows only if they have the same sides. -/
theorem rowsOf_inj {count : ℕ} {send recv send' recv' : ℕ → Option IpcTrace} :
    rowsOf count send recv = rowsOf count send' recv' ↔ ∀ i < count,
      sendSide (send i) = sendSide (send' i) ∧ recvSide (recv i) = recvSide (recv' i) := by
  induction count generalizing send recv send' recv' with
  | zero => simp [rowsOf]
  | succ count ih =>
    rw [rowsOf_succ, rowsOf_succ, List.cons.injEq, List.cons.injEq, ih, Nat.forall_lt_succ_left,
      and_assoc]

/-- How many rows there are. -/
def rowCount (sends recvs : List IpcTrace) : ℕ := max sends.length recvs.length

/-- What should be printed of the retained events. -/
def traceRows (sends recvs : List IpcTrace) : List Printf :=
  rowsOf (rowCount sends recvs) (sends[·]?) (recvs[·]?)

/-- A received event, as it is printed next to the `i`-th sent one. -/
def misprint (sends : List IpcTrace) (i : ℕ) (t : IpcTrace) : IpcTrace :=
  { t with destPid := (entryOf sends i).destPid }

variable {sends recvs : List IpcTrace} {data : Body}

theorem entryOf_used (hstamps : ∀ t ∈ history, t.timeStamp ≠ maxUint32) (i : ℕ) :
    (entryOf history i).timeStamp ≠ maxUint32 ↔
      i < (retained ipcMessageTraceHistorySize history).length := by
  unfold entryOf
  constructor
  · intro hused
    by_contra hlen
    rw [List.getElem?_eq_none (not_lt.1 hlen)] at hused
    exact hused rfl
  · intro hlen
    rw [List.getElem?_eq_getElem hlen]
    exact hstamps _ (mem_of_mem_retained (List.getElem_mem _))

theorem entryOf_eq {i : ℕ} {t : IpcTrace}
    (ht : (retained ipcMessageTraceHistorySize history)[i]? = some t) : entryOf history i = t := by
  rw [entryOf, ht, Option.getD_some]

theorem sendSide_eq (hsends : ∀ t ∈ sends, t.timeStamp ≠ maxUint32) (i : ℕ) :
    (if (entryOf sends i).timeStamp ≠ maxUint32 then
      (⟨sendFormat, [(entryOf sends i).destPid, (entryOf sends i).sendPid,
        (entryOf sends i).msgType,
        (entryOf sends i).timeStamp]⟩ : Printf)
      else ⟨sendBlank, []⟩) = sendSide (retained ipcMessageTraceHistorySize sends)[i]? := by
  by_cases hlen : i < (retained ipcMessageTraceHistorySize sends).length
  · rw [if_pos ((entryOf_used hsends i).2 hlen), entryOf_eq (List.getElem?_eq_getElem hlen),
      List.getElem?_eq_getElem hlen]
    rfl
  · rw [if_neg fun hused => hlen ((entryOf_used hsends i).1 hused),
      List.getElem?_eq_none (not_lt.1 hlen)]
    rfl

theorem recvSide_eq (hrecvs : ∀ t ∈ recvs, t.timeStamp ≠ maxUint32) (i : ℕ) :
    (if (entryOf recvs i).timeStamp ≠ maxUint32 then
      (⟨recvFormat, [(entryOf sends i).destPid, (entryOf recvs i).sendPid,
        (entryOf recvs i).msgType,
        (entryOf recvs i).timeStamp]⟩ : Printf)
      else ⟨recvBlank, []⟩) =
      recvSide ((retained ipcMessageTraceHistorySize recvs)[i]?.map (misprint sends i)) := by
  by_cases hlen : i < (retained ipcMessageTraceHistorySize recvs).length
  · rw [if_pos ((entryOf_used hrecvs i).2 hlen), entryOf_eq (List.getElem?_eq_getElem hlen),
      List.getElem?_eq_getElem hlen]
    rfl
  · rw [if_neg fun hused => hlen ((entryOf_used hrecvs i).1 hused),
      List.getElem?_eq_none (not_lt.1 hlen)]
    rfl

/-- The loop prints the rows that are left, up to the longer of both columns. -/
theorem Dumped.printTraceLoop_eq (h : Dumped data sends recvs)
    (hsends : ∀ t ∈ sends, t.timeStamp ≠ maxUint32)
    (hrecvs : ∀ t ∈ recvs, t.timeStamp ≠ maxUint32) {fuel i : ℕ} (hfuel : i + fuel = 16) :
    printTraceLoop data fuel i =
      rowsOf (rowCount (retained ipcMessageTraceHistorySize sends)
          (retained ipcMessageTraceHistorySize recvs) - i)
        (fun k => (retained ipcMessageTraceHistorySize sends)[i + k]?)
        fun k => (retained ipcMessageTraceHistorySize recvs)[i + k]?.map
          (misprint sends (i + k)) := by
  have hcount : rowCount (retained ipcMessageTraceHistorySize sends)
      (retained ipcMessageTraceHistorySize recvs) ≤ 16 := by
    rw [rowCount, length_retained, length_retained, ipcMessageTraceHistorySize]
    omega
  induction fuel generalizing i with
  | zero =>
    rw [Nat.sub_eq_zero_of_le (by omega)]
    rfl
  | succ fuel ih =>
    unfold printTraceLoop
    simp only [h.send i (by omega), h.recv i (by omega), sendSide_eq hsends i, recvSide_eq hrecvs i]
    simp only [entryOf_used hsends i, entryOf_used hrecvs i]
    split
    · rename_i hlen
      have hlt : i < rowCount (retained ipcMessageTraceHistorySize sends)
          (retained ipcMessageTraceHistorySize recvs) := lt_max_iff.2 hlen
      rw [ih (by omega), ← Nat.sub_sub, ← Nat.succ_pred_eq_of_pos (Nat.sub_pos_of_lt hlt),
        rowsOf_succ]
      simp only [Nat.add_zero, Nat.add_assoc, Nat.add_comm 1]
      rfl
    · rename_i hlen
      rw [← lt_max_iff, ← rowCount, not_lt] at hlen
      rw [Nat.sub_eq_zero_of_le hlen]
      rfl

/-- A misprinted event is right only with the destination of the sent one. -/
theorem recvSide_misprint_iff (sends : List IpcTrace) (i : ℕ) (recv : Option IpcTrace) :
    recvSide (recv.map (misprint sends i)) = recvSide recv ↔
      ∀ t, recv = some t → t.destPid = (entryOf sends i).destPid := by
  cases recv with
  | none => simp
  | some t => simp [recvSide, misprint, eq_comm]

/-- What the display prints on an envelope that `k_get_trace_buffers` filled is right exactly when
each received event has the destination of the sent event in its row. -/
theorem trace_display_iff (sends recvs : List (MsgHeader × UInt64)) (msg : Body)
    (hsends : ∀ t ∈ tracesOf sends, t.timeStamp ≠ maxUint32)
    (hrecvs : ∀ t ∈ tracesOf recvs, t.timeStamp ≠ maxUint32) :
    ∃ data, kGetTraceBuffers (logMsgEvents kIpcInit sends) (logMsgEvents kIpcInit recvs) msg =
        some (codeSuccess, data) ∧
      (cciPrintTraceBuffers (some data) = (codeSuccess, ⟨traceHeading, []⟩ ::
          traceRows (retained ipcMessageTraceHistorySize (tracesOf sends))
            (retained ipcMessageTraceHistorySize (tracesOf recvs)) ++ [⟨"\n", []⟩]) ↔
        ∀ i t, (retained ipcMessageTraceHistorySize (tracesOf recvs))[i]? = some t →
          t.destPid = (entryOf (tracesOf sends) i).destPid) := by
  obtain ⟨data, hdata, hdump⟩ := kGetTraceBuffers_dumps (logged_kIpcInit.logEvents sends)
    (logged_kIpcInit.logEvents recvs) hsends hrecvs msg
  refine ⟨data, hdata, ?_⟩
  have hloop := hdump.printTraceLoop_eq hsends hrecvs (Nat.zero_add ipcMessageTraceHistorySize)
  simp only [Nat.zero_add, Nat.sub_zero, List.nil_append] at hloop
  rw [cciPrintTraceBuffers, hloop]
  simp only [Prod.mk.injEq, true_and, List.cons_append, List.cons.injEq,
    List.append_cancel_right_eq]
  rw [traceRows, rowsOf_inj]
  constructor
  · intro hrows i t ht
    have hlen := (List.getElem?_eq_some_iff.1 ht).1
    exact (recvSide_misprint_iff _ i _).1 (hrows i (lt_max_of_lt_right hlen)).2 t ht
  · intro hdest i _
    exact ⟨rfl, (recvSide_misprint_iff _ i _).2 (hdest i)⟩

/-- Messages to the processes 2 and 4 were sent, and the latter has been received. -/
theorem trace_display_misprints :
    ((kGetTraceBuffers (logMsgEvents kIpcInit [(⟨2, 1, 7⟩, 1), (⟨4, 1, 7⟩, 1)])
        (logMsgEvents kIpcInit [(⟨4, 1, 7⟩, 2)]) fun _ => 0).map fun r =>
        cciPrintTraceBuffers (some r.2)) = some (codeSuccess, [⟨traceHeading, []⟩,
      ⟨sendFormat, [2, 1, 7, 1]⟩, ⟨recvFormat, [2, 1, 7, 2]⟩,
      ⟨sendFormat, [4, 1, 7, 1]⟩, ⟨recvBlank, []⟩, ⟨"\n", []⟩]) ∧
    [⟨traceHeading, []⟩, ⟨sendFormat, [2, 1, 7, 1]⟩, ⟨recvFormat, [2, 1, 7, 2]⟩,
      ⟨sendFormat, [4, 1, 7, 1]⟩, ⟨recvBlank, []⟩, ⟨"\n", []⟩] ≠
    ⟨traceHeading, []⟩ :: traceRows
      (retained ipcMessageTraceHistorySize (tracesOf [(⟨2, 1, 7⟩, 1), (⟨4, 1, 7⟩, 1)]))
      (retained ipcMessageTraceHistorySize (tracesOf [(⟨4, 1, 7⟩, 2)])) ++ [⟨"\n", []⟩] := by
  decide +kernel

/-- With a single message the display is right. -/
theorem trace_display_single :
    ∃ data, kGetTraceBuffers (logMsgEvents kIpcInit [(⟨4, 1, 7⟩, 1)])
        (logMsgEvents kIpcInit [(⟨4, 1, 7⟩, 2)]) (fun _ => 0) = some (codeSuccess, data) ∧
      (cciPrintTraceBuffers (some data) = (codeSuccess, ⟨traceHeading, []⟩ ::
          traceRows (retained ipcMessageTraceHistorySize (tracesOf [(⟨4, 1, 7⟩, 1)]))
            (retained ipcMessageTraceHistorySize (tracesOf [(⟨4, 1, 7⟩, 2)])) ++ [⟨"\n", []⟩]) ↔
        ∀ i t, (retained ipcMessageTraceHistorySize (tracesOf [(⟨4, 1, 7⟩, 2)]))[i]? = some t →
          t.destPid = (entryOf (tracesOf [(⟨4, 1, 7⟩, 1)]) i).destPid) :=
  trace_display_iff [(⟨4, 1, 7⟩, 1)] [(⟨4, 1, 7⟩, 2)] (fun _ => 0) (by decide) (by decide)

end Rtx.Unix
