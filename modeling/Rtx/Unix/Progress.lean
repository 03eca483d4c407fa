import Rtx.Unix.Faults

/-!
# When a step of the Unix port faults

In a reachable state no assertion of the kernel fails, and no queue is followed through null: a step
goes through exactly if it fits (`step_isSome_iff`). What has to fit is the envelope a primitive
writes to, and what the turns of the i-processes need; the rest of the kernel gets by with what it
checks.
-/

namespace Rtx.Unix

open Transition Linked
open Coldfire (Body Letter PcbInit ProcessState Context Sched AbsSched nextOf codeSuccess)

variable {n : ℕ}

/-! ## Trace buffers -/

/-- The search goes round, and stops at the slot before the tail at the latest. -/
theorem findTraceBufHeadLoop_isSome {tbuf : TraceCircleBuf} {fuel k head : ℕ}
    (hhead : (head + k) % 16 = (circleIndex (tbuf.tail - 1)).toNat) (hlt : head < 16)
    (hfuel : k < fuel) : (findTraceBufHeadLoop tbuf fuel head).isSome := by
  induction fuel generalizing head k with
  | zero => omega
  | succ fuel ih =>
    unfold findTraceBufHeadLoop
    split
    · rename_i hgo
      cases k with
      | zero => exact absurd (by rw [← hhead]; omega) hgo.2
      | succ k =>
        refine ih (k := k) ?_ (Nat.mod_lt _ (by decide)) (by omega)
        rw [← hhead, ipcMessageTraceHistorySize]
        omega
    · rfl

theorem findTraceBufHead_isSome (tbuf : TraceCircleBuf) : (findTraceBufHead tbuf).isSome := by
  have htail : (circleIndex tbuf.tail).toNat < 16 := Nat.mod_lt _ (by decide)
  have hprev : (circleIndex (tbuf.tail - 1)).toNat < 16 := Nat.mod_lt _ (by decide)
  refine findTraceBufHeadLoop_isSome
    (k := ((circleIndex (tbuf.tail - 1)).toNat + 16 - (circleIndex tbuf.tail).toNat) % 16)
      ?_ htail ?_
  · omega
  · rw [ipcMessageTraceHistorySize]
    omega

theorem Tabled.exists_iProcess {initTable : Fin n → PcbInit} (h : Tabled initTable) {k : ℕ}
    (hk : k < 3) :
    ∃ i : Fin n, Unix.pcbOf n k = some i ∧ (i : ℕ) < 3 := by
  obtain ⟨z, hz⟩ := h.null
  have hz' : ((z : ℕ) : ℤ) = 3 := hz
  have hn : k < n := by
    have hlt := z.isLt
    omega
  exact ⟨⟨k, hn⟩, dif_pos ⟨by omega, by omega⟩, hk⟩

namespace Kernel

variable {initTable : Fin n → PcbInit} {s t : Kernel n} {l : RtxLabel} {p cur : Fin n}
  {env : EnvPtr} {L : Spot n → List EnvPtr} {A : AbsSched n} {context : Context} {c : Api}

/-! ## What has to fit -/

/-- The envelope is there, and has a body. -/
def HasBody (s : Kernel n) (msgEnv : Option EnvPtr) : Prop :=
  ∃ env ∈ msgEnv, (s.ipc.letter env).msg.isSome

/-- What a primitive writes to is there, and large enough. -/
def CallFits (s : Kernel n) : Api → Prop
  | .requestProcessStatus msgEnv => s.HasBody msgEnv ∧ 4 * (1 + 3 * n) ≤ msgEnvMsgSize
  | .requestDelay _ _ msgEnv | .getTraceBuffers msgEnv => s.HasBody msgEnv
  | .sendMessage .. | .receiveMessage | .requestMsgEnv | .releaseMsgEnv _ | .releaseProcessor
    | .changePriority .. | .sendConsoleChars _ | .getConsoleChars _ | .clockGetSystemTime => True

/-- The requests for delays can all be inserted, a tick later. -/
def RequestsFit (s : Kernel n) : Prop :=
  ∃ i ∈ pcbOf n timeoutIProcessPid, ∃ pending requests,
    Chain (nextOf s.ipc.mem) s.ipc.timeoutQueue pending ∧
      Chain (nextOf s.ipc.mem) (s.ipc.queues (.recvMsgs i)).head requests ∧
      s.ticked.ipc.Accepts pending requests

/-- The line fits into the first envelope that waits for one. -/
def LineFits (s : Kernel n) (length : ℤ) : Prop :=
  ∀ i ∈ pcbOf n kbIProcessPid, ∀ env ∈ (s.ipc.queues (.recvMsgs i)).head,
    (s.ipc.letter env).msg.isSome ∧ length < msgEnvMsgSize

/-- The text that is the next to be shown ends inside its body. -/
def TextFits (s : Kernel n) : Prop :=
  ∀ i ∈ pcbOf n crtIProcessPid,
    ∀ env ∈ (s.ipc.queues .displayQueue).head.or (s.ipc.queues (.recvMsgs i)).head,
      ∃ msg ∈ (s.ipc.letter env).msg, Fitting msg

/-- The step can be made where the running process is, and what it relies on is there. -/
def Fits (s : Kernel n) (context : Context) : RtxLabel → Prop
  | .call c => context = .user ∧ s.CallFits c
  | .resume => context ≠ .user
  | .sigalrm => context = .user ∧ s.RequestsFit
  | .sigusr1 length _ => context = .user ∧ s.LineFits length
  | .sigusr2 _ second => context = .user ∧ (second = .free → s.TextFits)
  | .write .. => context = .user

/-! ## Primitives -/

theorem Stable.keeps_held (h : s.Stable initTable) (henv : s.ipc.HeldBy cur env) :
    ∃ L, s.ipc.Keeps L ∧ env ∈ L (.held cur) := by
  obtain ⟨L, hkeeps⟩ := h.keeps
  exact ⟨L, hkeeps, hkeeps.mem_held henv⟩

theorem Stable.send (h : s.Stable initTable) (hcur : s.sched.currentProcess = some cur)
    (henv : s.ipc.HeldBy cur env) (letter : Letter) (destPid : ℤ) :
    (({ s with ipc := s.ipc.setLetter env letter } : Kernel n).kSendMessage destPid
      (some env)).isSome := by
  obtain ⟨L, hkeeps⟩ := h.keeps
  obtain ⟨A, hA, -⟩ := h.models
  exact kSendMessage_isSome hcur hkeeps henv hA.wakeReceiver_isSome letter destPid

theorem Stable.enqueueOn_isSome (h : s.Stable initTable) (hcur : s.sched.currentProcess = some cur)
    (pq : Coldfire.PqPtr) : (enqueueOn s.sched pq cur).isSome := by
  obtain ⟨A, hA, -⟩ := h.models
  have href := hA.refines.refines
  obtain ⟨code, S', henq, -⟩ := hA.refines.enqueue_running hA.sound
    ⟨href.current.symm.trans hcur, href.interrupted.symm.trans h.rested.interrupted⟩ pq
  rw [henq]
  rfl

theorem Stable.kReceiveMessage_isSome (h : s.Stable initTable) : s.kReceiveMessage.isSome := by
  obtain ⟨cur, hcur⟩ := Option.isSome_iff_exists.1 h.rested.current
  obtain ⟨L, hkeeps⟩ := h.keeps
  have hi : (s.sched.pTable cur).isIProcess = false := h.rested.not_iProcess hcur
  have hempty := Ipc.isEmpty_eq hkeeps.holds (.recvMsgs cur)
  unfold Kernel.kReceiveMessage
  simp only [hcur, hempty, hi, Option.bind_eq_bind, Option.bind_some]
  by_cases hmail : L (.queue (.recvMsgs cur)) = []
  · simp [hmail]
  · rw [if_neg hmail] at hempty ⊢
    obtain ⟨env, J, hdeq, -⟩ := Ipc.exists_take hempty
    simp [hdeq]

theorem Stable.kRequestMsgEnv_isSome (h : s.Stable initTable) : s.kRequestMsgEnv.isSome := by
  obtain ⟨cur, hcur⟩ := Option.isSome_iff_exists.1 h.rested.current
  obtain ⟨L, hkeeps⟩ := h.keeps
  have hi : (s.sched.pTable cur).isIProcess = false := h.rested.not_iProcess hcur
  have hempty := Ipc.isEmpty_eq hkeeps.holds .freeEnvQ
  unfold Kernel.kRequestMsgEnv
  simp only [hcur, hempty, hi, Option.bind_eq_bind, Option.bind_some]
  by_cases hfree : L (.queue .freeEnvQ) = []
  · obtain ⟨r, henq⟩ :=
      Option.isSome_iff_exists.1 (h.enqueueOn_isSome hcur .blockedRequestEnvPq)
    simp [hfree, waitForEnv, henq]
  · rw [if_neg hfree] at hempty ⊢
    obtain ⟨env, J, hdeq, -⟩ := Ipc.exists_take hempty
    simp [hdeq]

theorem Stable.kReleaseMsgEnv_isSome (h : s.Stable initTable)
    (hcur : s.sched.currentProcess = some cur) (henv : s.ipc.HeldBy cur env) :
    (s.kReleaseMsgEnv (some env)).isSome := by
  obtain ⟨L, hkeeps, hmem⟩ := h.keeps_held henv
  obtain ⟨A, hA, -⟩ := h.models
  obtain ⟨J, henq, -⟩ := Ipc.enqueue_spec hkeeps.holds (hkeeps.not_queued hmem) .freeEnvQ
  have hwake : (wakeRequester s.sched).isSome := by
    apply (hA.possible (m := .wakeRequester) trivial).2
    show (A.move .wakeRequester).isSome
    rw [AbsSched.move]
    cases A.first .blockedRequestEnvPq <;> rfl
  obtain ⟨sched, hsched⟩ := Option.isSome_iff_exists.1 hwake
  simp [Kernel.kReleaseMsgEnv, hcur, henq, hsched]

theorem Stable.kReleaseProcessor_isSome (h : s.Stable initTable) : s.kReleaseProcessor.isSome := by
  obtain ⟨cur, hcur⟩ := Option.isSome_iff_exists.1 h.rested.current
  have henq := h.enqueueOn_isSome hcur .readyPq
  have hyield : (yield s.sched cur).isSome := by
    rw [enqueueOn, Option.isSome_map] at henq
    rw [yield, Option.isSome_map, enqueueOn, Option.isSome_map]
    exact henq
  obtain ⟨sched, hsched⟩ := Option.isSome_iff_exists.1 hyield
  simp [Kernel.kReleaseProcessor, hcur, hsched]

theorem Stable.kChangePriority_isSome {newPriority tid : ℤ} (h : s.Stable initTable)
    (hsafe : s.TailSafe (.call (.changePriority newPriority tid))) :
    (s.kChangePriority newPriority tid).isSome := by
  obtain ⟨A, hA, -⟩ := h.models
  obtain ⟨code, S', hchange, -⟩ := hA.refines.changePriority hA.sound.toPlaced
    (hA.refines.safe hA.sound.toPlaced (hsafe newPriority tid rfl))
  simp [Kernel.kChangePriority, hchange]

/-- A primitive goes through if what it writes to is there. -/
theorem Stable.primitive_isSome_iff (h : s.Stable initTable)
    (hcur : s.sched.currentProcess = some cur) (hl : s.Sane (.call c)) :
    (s.primitive c).isSome ↔ s.CallFits c := by
  have hheld : ∀ {env}, c.msgEnv? = some env → s.ipc.HeldBy cur env := fun hc =>
    hl.1 cur hcur _ hc
  have hbody : ∀ {msgEnv : Option EnvPtr} {f : EnvPtr → Body → Option (ℤ × Kernel n)},
      (∀ env body, msgEnv = some env → (f env body).isSome) →
      ((msgEnv.bind fun env => (s.ipc.letter env).msg.bind (f env)).isSome ↔ s.HasBody msgEnv) := by
    intro msgEnv f hf
    cases msgEnv with
    | none => simp [HasBody]
    | some env =>
      cases hmsg : (s.ipc.letter env).msg with
      | none => simp [HasBody, hmsg]
      | some body => simp [HasBody, hmsg, hf env body rfl]
  cases c with
  | sendMessage destPid msgEnv =>
    refine iff_of_true ?_ trivial
    rw [Kernel.primitive, Option.isSome_map]
    cases msgEnv with
    | none => rfl
    | some env =>
      have hsend := h.send hcur (hheld rfl) (s.ipc.letter env) destPid
      rwa [Ipc.setLetter_letter] at hsend
  | receiveMessage =>
    refine iff_of_true ?_ trivial
    rw [Kernel.primitive, Option.isSome_map]
    exact h.kReceiveMessage_isSome
  | requestMsgEnv =>
    refine iff_of_true ?_ trivial
    rw [Kernel.primitive, Option.isSome_map]
    exact h.kRequestMsgEnv_isSome
  | releaseMsgEnv msgEnv =>
    refine iff_of_true ?_ trivial
    rw [Kernel.primitive, Option.isSome_map]
    cases msgEnv with
    | none => rfl
    | some env => exact h.kReleaseMsgEnv_isSome hcur (hheld rfl)
  | releaseProcessor =>
    refine iff_of_true ?_ trivial
    rw [Kernel.primitive, Option.isSome_map]
    exact h.kReleaseProcessor_isSome
  | requestProcessStatus msgEnv =>
    rw [Kernel.primitive, Option.isSome_map]
    by_cases hsize : 4 * (1 + 3 * n) ≤ msgEnvMsgSize
    · rw [CallFits, and_iff_left hsize]
      exact hbody fun env body _ => by rw [if_pos hsize]; rfl
    · refine iff_of_false ?_ fun hfits => hsize hfits.2
      cases msgEnv with
      | none => simp [Kernel.kRequestProcessStatus]
      | some env =>
        cases (s.ipc.letter env).msg <;> simp [Kernel.kRequestProcessStatus, hsize]
  | changePriority newPriority tid =>
    refine iff_of_true ?_ trivial
    rw [Kernel.primitive, Option.isSome_map]
    exact h.kChangePriority_isSome hl.2.2
  | requestDelay timeDelay wakeupCode msgEnv =>
    rw [Kernel.primitive, Option.isSome_map]
    exact hbody fun env body henv => h.send hcur (hheld henv) _ _
  | sendConsoleChars msgEnv | getConsoleChars msgEnv =>
    refine iff_of_true ?_ trivial
    rw [Kernel.primitive, Option.isSome_map]
    cases msgEnv with
    | none => rfl
    | some env => exact h.send hcur (hheld rfl) _ _
  | getTraceBuffers msgEnv =>
    rw [Kernel.primitive, Option.isSome_map]
    refine hbody fun env body _ => ?_
    obtain ⟨sendHead, hsendHead⟩ :=
      Option.isSome_iff_exists.1 (findTraceBufHead_isSome s.ipc.sendTraceBuf)
    obtain ⟨recvHead, hrecvHead⟩ :=
      Option.isSome_iff_exists.1 (findTraceBufHead_isSome s.ipc.recvTraceBuf)
    simp [Unix.kGetTraceBuffers, hsendHead, hrecvHead]
  | clockGetSystemTime => exact iff_of_true rfl trivial

theorem Stable.leave_isSome {o : Outcome n ApiValue} (h : s.Stable initTable) (hl : s.Sane l)
    (hrun : s.running = some (cur, context)) (hcode : s.code context l = some o) :
    (leave cur o).isSome := by
  cases o with
  | ret value t => rfl
  | switch nextStatus resumeAt t =>
    obtain ⟨A, hA, hmannered⟩ := h.models
    obtain ⟨B, p, ⟨⟨S, hswitch, -⟩, -⟩, -⟩ :=
      hA.switch h.rested h.tabled hmannered hl.2.1 hrun hcode
    simp [leave, hswitch]

/-! ## Signals -/

/-- A signal can be handled if the turn of its i-process goes through. -/
theorem Stable.handleSignal_isSome_iff {pid : ℤ} {turn : Kernel n → Option (Kernel n)} {P : Prop}
    {i : Fin n} (h : s.Stable initTable) (hcur : s.sched.currentProcess = some cur)
    (hl : l.isSignal = true) (hpcb : pcbOf n pid = some i) (hi : (i : ℕ) < 3)
    (hgoes : ∀ t, Turning s l i cur t → t.ipc = s.ipc → ((turn t).isSome ↔ P))
    (hturn : ∀ t t', Turning s l i cur t → t.ipc = s.ipc → turn t = some t' →
      Turning s l i cur t') :
    (s.handleSignal pid turn).isSome ↔ P := by
  have hiProcess : (s.sched.pTable i).isIProcess = true :=
    (h.rested.iProcess_iff i).2 ((h.tabled.isIProcess i).2 hi)
  obtain ⟨t, henter⟩ : ∃ t, s.enter i = some t := by
    simp [Kernel.enter, h.rested.flag, hiProcess, kIProcessEnter, hcur]
  obtain ⟨hturning, hipc⟩ := h.rested.turning hcur hl henter
  rw [← hgoes t hturning hipc]
  simp only [Kernel.handleSignal, hpcb, henter, Option.bind_eq_bind, Option.bind_some]
  cases hdone : turn t with
  | none => rfl
  | some t' =>
    have hturning' := hturn t t' hturning hipc hdone
    have hexit := kIProcessExit_eq (hturning'.within cur hturning'.interrupted).1
    simp [Kernel.exit, hturning'.flag, hexit]

/-- The timeout i-process gets through if the requests fit. -/
theorem Stable.requestsFit_iff {i : Fin n} (hkeeps : s.ipc.Keeps L)
    (hi : pcbOf n timeoutIProcessPid = some i) :
    s.RequestsFit ↔ s.ticked.ipc.Accepts (L .timeoutQueue) (L (.queue (.recvMsgs i))) := by
  obtain ⟨due, hpending⟩ := hkeeps.pending
  have hmail := (hkeeps.holds.rep (.recvMsgs i)).chain
  constructor
  · rintro ⟨j, hj, pending, requests, hc, hc', haccepts⟩
    obtain rfl : i = j := Option.some.inj (hi.symm.trans hj)
    rwa [hc.unique hpending.chain, hc'.unique hmail] at haccepts
  · exact fun haccepts => ⟨i, hi, _, _, hpending.chain, hmail, haccepts⟩

/-- A step goes through if it fits. -/
theorem Stable.step_isSome_iff (h : s.Stable initTable) (hl : s.Sane l)
    (hrun : s.running = some (cur, context)) : (s.step l).isSome ↔ s.Fits context l := by
  have hcur := (running_eq_some hrun).1
  obtain ⟨L, hkeeps⟩ := h.keeps
  have hcode : ((s.code context l).bind (leave cur)).isSome ↔ (s.code context l).isSome := by
    cases hc : s.code context l with
    | none => rfl
    | some o => simpa using h.leave_isSome hl hrun hc
  have hsignal : ∀ {P : Prop} {between : Option (Kernel n)}, (between.isSome ↔ P) →
      ((if context = .user then between else none).isSome ↔ context = .user ∧ P) := by
    intro P between hP
    by_cases hcontext : context = .user <;> simp [hcontext, hP]
  unfold Kernel.step
  rw [hrun]
  cases l with
  | call c =>
    refine hcode.trans ?_
    by_cases hcontext : context = .user
    · simp [Kernel.code, Fits, hcontext, h.primitive_isSome_iff hcur hl]
    · simp [Kernel.code, Fits, hcontext]
  | resume =>
    refine hcode.trans ?_
    cases context with
    | user => exact iff_of_false (by simp [Kernel.code, resumed]) (by simp [Fits])
    | receiveMessage =>
      refine iff_of_true ?_ (by simp [Fits])
      rw [Kernel.code, resumed, Option.isSome_map]
      exact h.kReceiveMessage_isSome
    | requestMsgEnv =>
      refine iff_of_true ?_ (by simp [Fits])
      rw [Kernel.code, resumed, Option.isSome_map]
      exact h.kRequestMsgEnv_isSome
    | releaseProcessor => exact iff_of_true rfl (by simp [Fits])
  | sigalrm =>
    obtain ⟨i, hi, hlt⟩ := h.tabled.exists_iProcess (k := 2) (by decide)
    refine hsignal (h.handleSignal_isSome_iff hcur rfl hi hlt (fun t ht hipc => ?_)
      fun t t' ht _ => ht.startTimeoutIProcess hi rfl)
    have hticked : t.ticked.ipc = s.ticked.ipc := by
      unfold ticked
      rw [hipc]
    rw [ht.startTimeoutIProcess_isSome_iff h hl hi (hipc ▸ hkeeps),
      Stable.requestsFit_iff hkeeps hi,
      hticked]
  | sigusr1 length data =>
    obtain ⟨i, hi, hlt⟩ := h.tabled.exists_iProcess (k := 0) (by decide)
    refine hsignal (h.handleSignal_isSome_iff (l := .sigusr1 length data) hcur rfl hi hlt
      (fun t ht hipc => ?_)
      fun t t' ht _ => ht.startKbIProcess)
    rw [ht.startKbIProcess_isSome_iff h hl, hipc]
    refine ⟨fun hfits j hj => ?_, fun hfits => hfits i hi⟩
    obtain rfl : i = j := Option.some.inj (hi.symm.trans hj)
    exact hfits
  | sigusr2 first second =>
    obtain ⟨i, hi, hlt⟩ := h.tabled.exists_iProcess (k := 1) (by decide)
    refine hsignal (h.handleSignal_isSome_iff hcur rfl hi hlt (fun t ht hipc => ?_)
      fun t t' ht => ht.startCrtIProcess hi rfl)
    rw [ht.startCrtIProcess_isSome_iff h hl hi rfl, hipc]
    refine imp_congr_right fun _ => ⟨fun hfits j hj => ?_, fun hfits => hfits i hi⟩
    obtain rfl : i = j := Option.some.inj (hi.symm.trans hj)
    exact hfits
  | write env content =>
    by_cases hcontext : context = .user <;> simp [hcontext, Fits, between]

end Kernel

/-- With a table that is `Tabled`, in every state that is reached by processes that only give away
and write what they have, where the null process only releases the processor and no change of
priority takes the last of several processes out of its level: the next step of such a process, or
the next signal, goes through exactly if it fits. A signal comes between two steps here; what a
signal does in the window of `atomic(ON)` is in `Rtx.Unix.AtomicRuns`. -/
theorem faults_iff {initTable : Fin n → PcbInit} {s : Kernel n} {l : RtxLabel}
    (htab : Tabled initTable) (hs : Reach Kernel.step (Kernel.Booted initTable) Kernel.Sane s)
    (hl : s.Sane l) :
    ∃ cur context, s.running = some (cur, context) ∧ ((s.step l).isSome ↔ s.Fits context l) := by
  have hstable := Kernel.stable_reach htab hs
  obtain ⟨cur, hcur⟩ := Option.isSome_iff_exists.1 hstable.rested.current
  have hrun : s.running = some (cur, (s.sched.pTable cur).context) := by
    rw [Kernel.running, hcur]
    rfl
  exact ⟨cur, _, hrun, hstable.step_isSome_iff hl hrun⟩

/-- Process A asks for three delays, each longer than the ones before. -/
def crowded : List RtxLabel := [
  .call .requestMsgEnv,
  .call .requestMsgEnv,
  .call .requestMsgEnv,
  .call (.requestDelay 3 7 (some 0)),
  .call (.requestDelay 5 7 (some 1)),
  .call (.requestDelay 7 7 (some 2))]

theorem faults_iff_procCfg :
    ∃ s, ((Kernel.kInit Kernel.Ram.zero procCfg).bind fun s =>
        exec (guarded Kernel.step fun s l => s.Careful l ∧ s.Plain l) s crowded) = some s ∧
      s.step .sigalrm = none ∧ ¬ s.RequestsFit := by
  have hrun : ((Kernel.kInit Kernel.Ram.zero procCfg).bind fun s =>
      exec (guarded Kernel.step fun s l => s.Careful l ∧ s.Plain l) s crowded).any (fun s =>
        decide (s.running.map (·.2) = some .user ∧ s.Careful .sigalrm ∧ s.Plain .sigalrm) &&
          (s.step .sigalrm).isNone) = true := by
    decide +kernel
  obtain ⟨s, hs, hfacts⟩ := (Option.any_eq_true ..).1 hrun
  obtain ⟨hfacts, hnone⟩ := Bool.and_eq_true_iff.1 hfacts
  obtain ⟨huser, hcareful, hplain⟩ := of_decide_eq_true hfacts
  have hstep : s.step .sigalrm = none := Option.isNone_iff_eq_none.1 hnone
  obtain ⟨s₀, hinit, hexec⟩ := Option.bind_eq_some_iff.1 hs
  have hreach := (Reach.init (show Kernel.Booted procCfg s₀ from ⟨_, hinit⟩)).guarded hexec
  obtain ⟨cur, context, hrunning, hiff⟩ := faults_iff procCfg_tabled
    (hreach.mono fun s l hl => ⟨hl.1, hl.2.1, hl.2.tailSafe⟩) ⟨hcareful, hplain.1, hplain.tailSafe⟩
  refine ⟨s, hs, hstep, fun hfits => ?_⟩
  rw [hrunning] at huser
  have hsome := hiff.2 ⟨Option.some.inj huser, hfits⟩
  rw [hstep] at hsome
  contradiction

end Rtx.Unix
