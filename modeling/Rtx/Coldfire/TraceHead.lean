import Rtx.Coldfire.TraceHistory

/-!
# The search for the head of a trace buffer

`find_trace_buf_head` goes round the circle until it comes to a slot with a time stamp or to the
slot before the tail. With the tail at slot 0 that slot has the index -1, as C's remainder
truncates, and no position is ever equal to it: the search goes on for ever if no slot has a time
stamp then, as in the buffers after boot. In all other states it ends (`trace_search_ends_iff`).
-/

namespace Rtx.Coldfire

open Circular

variable {n : ℕ} {tbuf : TraceCircleBuf} {history : List IpcTrace} {fuel : ℕ}

/-! ## The loop -/

/-- The guard of the loop. -/
def Searching (tbuf : TraceCircleBuf) (head : ℤ) : Prop :=
  (tbuf.buf head).timeStamp = maxUint32 ∧ head ≠ circleIndex (tbuf.tail - 1)

/-- The loop ends, after some number of turns. -/
def SearchEnds (tbuf : TraceCircleBuf) : Prop :=
  ∃ fuel head, findTraceBufHeadLoop tbuf fuel (circleIndex tbuf.tail) = some head

theorem findTraceBufHeadLoop_isSome {start m k : ℕ}
    (hstop : ¬ Searching tbuf (circleIndex (start + m : ℕ))) (hk : k ≤ m) (hfuel : m < k + fuel) :
    (findTraceBufHeadLoop tbuf fuel (circleIndex (start + k : ℕ))).isSome = true := by
  induction fuel generalizing k with
  | zero => omega
  | succ fuel ih =>
    rw [findTraceBufHeadLoop]
    split
    · rename_i hguard
      have hne : k ≠ m := by
        rintro rfl
        exact hstop hguard
      have hnext : circleIndex (circleIndex (start + k : ℕ) + 1) =
          circleIndex (start + (k + 1) : ℕ) := by
        rw [circleIndex_natCast, ← Nat.cast_succ, circleIndex_natCast, circleIndex_natCast,
          Nat.succ_eq_add_one, Nat.mod_add_mod, Nat.add_assoc]
      rw [hnext]
      exact ih (by omega) (by omega)
    · rfl

theorem findTraceBufHeadLoop_eq_none
    (hguard : ∀ i : ℕ, i < ipcMessageTraceHistorySize → Searching tbuf i) (fuel k : ℕ) :
    findTraceBufHeadLoop tbuf fuel (circleIndex k) = none := by
  induction fuel generalizing k with
  | zero => rfl
  | succ fuel ih =>
    have hlt : k % ipcMessageTraceHistorySize < ipcMessageTraceHistorySize :=
      Nat.mod_lt k (by decide)
    rw [circleIndex_natCast, findTraceBufHeadLoop]
    refine (if_pos (hguard _ hlt)).trans ?_
    rw [← Nat.cast_succ]
    exact ih _

/-! ## Histories without time stamps -/

/-- The tail is back at slot 0, or still there, and no entry has a time stamp. -/
def Unstamped (history : List IpcTrace) : Prop :=
  ipcMessageTraceHistorySize ∣ history.length ∧
    ∀ t ∈ retained ipcMessageTraceHistorySize history, t.timeStamp = maxUint32

instance (history : List IpcTrace) : Decidable (Unstamped history) := by
  unfold Unstamped
  infer_instance

theorem Logged.searching (h : Logged tbuf history) (hun : Unstamped history) {i : ℕ}
    (hi : i < ipcMessageTraceHistorySize) : Searching tbuf i := by
  have htail : tbuf.tail = 0 := by
    rw [h.tail, Nat.mod_eq_zero_of_dvd hun.1]
    rfl
  constructor
  · rcases Nat.lt_or_ge i (retained ipcMessageTraceHistorySize history).length with hlt | hge
    · have hread := h.slots.read hlt
      rw [oldest_of_dvd hun.1, Nat.zero_add, Nat.mod_eq_of_lt hi] at hread
      rw [hread]
      exact hun.2 _ (List.getElem_mem hlt)
    · have hrest := h.slots.rest hge hi
      rw [oldest_of_dvd hun.1, Nat.zero_add, Nat.mod_eq_of_lt hi] at hrest
      exact hrest
  · have hprev : circleIndex (tbuf.tail - 1) = -1 := by
      rw [htail]
      rfl
    rw [hprev]
    omega

/-- The slot where the search ends is an entry with a time stamp if the tail is at slot 0, and the
slot before the tail if it is not. -/
theorem Logged.exists_stop (h : Logged tbuf history) (hun : ¬ Unstamped history) :
    ∃ start m : ℕ, tbuf.tail = start ∧ m < ipcMessageTraceHistorySize ∧
      ¬ Searching tbuf (circleIndex (start + m : ℕ)) := by
  have hsize : ipcMessageTraceHistorySize = 16 := rfl
  by_cases hdvd : ipcMessageTraceHistorySize ∣ history.length
  · have hstamp : ∃ t ∈ retained ipcMessageTraceHistorySize history, t.timeStamp ≠ maxUint32 := by
      by_contra hnone
      exact hun ⟨hdvd, fun t ht => not_not.1 fun hne => hnone ⟨t, ht, hne⟩⟩
    obtain ⟨t, ht, hne⟩ := hstamp
    obtain ⟨i, hi, rfl⟩ := List.getElem_of_mem ht
    have hcap : i < ipcMessageTraceHistorySize := by
      rw [length_retained] at hi
      omega
    refine ⟨0, i, ?_, hcap, fun hguard => hne ?_⟩
    · rw [h.tail, Nat.mod_eq_zero_of_dvd hdvd]
    · have hread := h.slots.read hi
      rw [oldest_of_dvd hdvd, Nat.zero_add] at hread
      rw [← hread]
      have hslot := hguard.1
      rw [circleIndex_natCast, Nat.zero_add] at hslot
      exact hslot
  · refine ⟨_, 15, h.tail, by decide, fun hguard => hguard.2 ?_⟩
    have hpos : 0 < history.length % ipcMessageTraceHistorySize := Nat.emod_pos_of_not_dvd hdvd
    have hprev : tbuf.tail - 1 = (history.length % ipcMessageTraceHistorySize - 1 : ℕ) := by
      rw [h.tail]
      omega
    have hround : (history.length % ipcMessageTraceHistorySize + 15) % ipcMessageTraceHistorySize =
        (history.length % ipcMessageTraceHistorySize - 1) % ipcMessageTraceHistorySize := by
      rw [hsize] at hpos ⊢
      omega
    rw [hprev, circleIndex_natCast, circleIndex_natCast, hround]

theorem Logged.findTraceBufHead_isSome (h : Logged tbuf history) (hun : ¬ Unstamped history) :
    (findTraceBufHead tbuf).isSome = true := by
  obtain ⟨start, m, htail, hm, hstop⟩ := h.exists_stop hun
  rw [findTraceBufHead, htail]
  exact findTraceBufHeadLoop_isSome (k := 0) hstop (Nat.zero_le m) (by omega)

theorem Logged.loop_eq_none (h : Logged tbuf history) (hun : Unstamped history) (fuel : ℕ) :
    findTraceBufHeadLoop tbuf fuel (circleIndex tbuf.tail) = none := by
  rw [h.tail]
  exact findTraceBufHeadLoop_eq_none (fun i hi => h.searching hun hi) fuel _

theorem Logged.searchEnds_iff (h : Logged tbuf history) :
    SearchEnds tbuf ↔ ¬ Unstamped history := by
  constructor
  · rintro ⟨fuel, head, hloop⟩ hun
    rw [h.loop_eq_none hun fuel] at hloop
    contradiction
  · intro hun
    obtain ⟨head, hhead⟩ := Option.isSome_iff_exists.1 (h.findTraceBufHead_isSome hun)
    exact ⟨_, head, hhead⟩

/-! ## `k_get_trace_buffers` -/

/-- Both searches end, and `k_get_trace_buffers` returns whatever it is given. -/
def TraceSearchEnds (s : Kernel n) : Prop :=
  SearchEnds s.ipc.sendTraceBuf ∧ SearchEnds s.ipc.recvTraceBuf ∧
    ∀ msgEnv, (s.kGetTraceBuffers msgEnv).isSome = true

/-- From `init_ipc` on and after any letters were logged, at any times, the searches end unless the
number of the letters is a multiple of sixteen and none of the last sixteen of them has a time
stamp. -/
theorem trace_search_ends_iff {s : Kernel n} {I₀ : Ipc n} {memory : EnvPtr → MsgEnv EnvPtr}
    {traces : ℤ → IpcTrace} {sends recvs : List (Letter × ℤ)}
    (hinit : Ipc.initIpc memory traces = some I₀)
    (hsend : s.ipc.sendTraceBuf = logMsgEvents I₀.sendTraceBuf sends)
    (hrecv : s.ipc.recvTraceBuf = logMsgEvents I₀.recvTraceBuf recvs) :
    TraceSearchEnds s ↔ ¬ Unstamped (tracesOf sends) ∧ ¬ Unstamped (tracesOf recvs) := by
  obtain ⟨hsend₀, hrecv₀⟩ := Ipc.initIpc_logged hinit
  have hsends : Logged s.ipc.sendTraceBuf (tracesOf sends) := hsend ▸ hsend₀.logEvents sends
  have hrecvs : Logged s.ipc.recvTraceBuf (tracesOf recvs) := hrecv ▸ hrecv₀.logEvents recvs
  rw [← hsends.searchEnds_iff, ← hrecvs.searchEnds_iff]
  refine ⟨fun h => ⟨h.1, h.2.1⟩, fun h => ⟨h.1, h.2, fun msgEnv => ?_⟩⟩
  obtain ⟨sendHead, hsendHead⟩ := Option.isSome_iff_exists.1
    (hsends.findTraceBufHead_isSome (hsends.searchEnds_iff.1 h.1))
  obtain ⟨recvHead, hrecvHead⟩ := Option.isSome_iff_exists.1
    (hrecvs.findTraceBufHead_isSome (hrecvs.searchEnds_iff.1 h.2))
  cases msgEnv with
  | none => rfl
  | some env =>
    cases hmsg : (s.ipc.env env).msg with
    | none => simp [Kernel.kGetTraceBuffers, hmsg]
    | some body => rw [Kernel.kGetTraceBuffers_eq hmsg hsendHead hrecvHead, Option.isSome_some]

/-- Two sends and a receive. -/
theorem trace_search_ends_itable :
    ∃ s₀ sends recvs, Kernel.kInit Kernel.Ram.zero itable = some s₀ ∧
      tracesOf sends = [⟨2, 1, 7, 1⟩, ⟨4, 2, -3, 9⟩] ∧ tracesOf recvs = [⟨2, 1, 7, 5⟩] ∧
      TraceSearchEnds { s₀ with ipc := { s₀.ipc with
        sendTraceBuf := logMsgEvents s₀.ipc.sendTraceBuf sends
        recvTraceBuf := logMsgEvents s₀.ipc.recvTraceBuf recvs } } := by
  have hrun : (Kernel.kInit Kernel.Ram.zero itable).isSome = true := by decide +kernel
  obtain ⟨s₀, hinit⟩ := Option.isSome_iff_exists.1 hrun
  obtain ⟨ram, -, hipc, -⟩ := Kernel.Booted.parts ⟨_, hinit⟩
  have hends : ∀ sends recvs, TraceSearchEnds { s₀ with ipc := { s₀.ipc with
        sendTraceBuf := logMsgEvents s₀.ipc.sendTraceBuf sends
        recvTraceBuf := logMsgEvents s₀.ipc.recvTraceBuf recvs } } ↔
      ¬ Unstamped (tracesOf sends) ∧ ¬ Unstamped (tracesOf recvs) :=
    fun sends recvs => trace_search_ends_iff hipc rfl rfl
  exact ⟨s₀, [(⟨2, 1, 7, none⟩, 1), (⟨4, 2, -3, none⟩, 9)], [(⟨2, 1, 7, none⟩, 5)], hinit, rfl, rfl,
    (hends _ _).2 (by decide)⟩

/-- Before the first message neither search ends. -/
theorem trace_search_at_boot :
    ∃ s₀, Kernel.kInit Kernel.Ram.zero itable = some s₀ ∧
      (∀ fuel, findTraceBufHeadLoop s₀.ipc.sendTraceBuf fuel
        (circleIndex s₀.ipc.sendTraceBuf.tail) = none) ∧
      s₀.kGetTraceBuffers (some (.envPool 0)) = none ∧ ¬ TraceSearchEnds s₀ := by
  have hrun : ((Kernel.kInit Kernel.Ram.zero itable).any fun s =>
      (s.kGetTraceBuffers (some (.envPool 0))).isNone) = true := by
    decide +kernel
  obtain ⟨s₀, hinit, hcall⟩ := (Option.any_eq_true ..).1 hrun
  obtain ⟨ram, -, hipc, -⟩ := Kernel.Booted.parts ⟨_, hinit⟩
  have hsend := (Ipc.initIpc_logged hipc).1
  have hun : Unstamped [] := by decide
  exact ⟨s₀, hinit, hsend.loop_eq_none hun, Option.isNone_iff_eq_none.1 hcall,
    fun h => hsend.searchEnds_iff.1 h.1 hun⟩

end Rtx.Coldfire
