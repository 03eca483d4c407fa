import Rtx.Coldfire.Dispatch
import Rtx.Unix.SchedRuns

/-!
# Dispatch order in the Unix port

Wherever kernel code calls `k_process_switch`, there is a ready process to run, as long as the null
process only releases the processor. The one that is chosen has the smallest priority number of all
that are ready; and where no priority was changed, of those it became ready first
(`switch_order`).
-/

namespace Rtx.Unix

open Transition
open Coldfire (ProcInfo ProcessState PqPtr PcbInit Context Sched AbsSched)
open Coldfire.Sched (bootSched)

variable {n : ℕ}

/-- In the scheduler `S`, `p` is ready, and no ready process has a smaller priority number. -/
structure Foremost (S : Sched n) (p : Fin n) : Prop where
  ready : (S.pTable p).state = .ready
  isIProcess : (S.pTable p).isIProcess = false
  priority : ∀ q, (S.pTable q).isIProcess = false → (S.pTable q).state = .ready →
    (S.pTable p).priority ≤ (S.pTable q).priority

variable {S : Sched n} {A B : AbsSched n} {p q cur : Fin n} {m : SchedMove n}

/-- The first process of the first level that has one has the smallest priority number. -/
theorem first_foremost (hA : A.Placed) (hr : A.InRange) (hfirst : A.first .readyPq = some p)
    (hinfo : ∀ q, (A.info q).state = (S.pTable q).state ∧
      (A.info q).priority = (S.pTable q).priority ∧
      (A.info q).isIProcess = (S.pTable q).isIProcess) : Foremost S p := by
  obtain ⟨i, l, -, hl, hbefore⟩ := AbsSched.first_eq_some hfirst
  have hmem : p ∈ A.queue .readyPq i := by rw [hl]; exact List.mem_cons_self
  obtain ⟨hpi, hstate, hprio, -⟩ := ProcInfo.place_ready.1 (hA.mem_queue.1 hmem)
  refine ⟨(hinfo p).1 ▸ hstate, (hinfo p).2.2 ▸ hpi, fun q hqi hq => ?_⟩
  rw [← (hinfo p).2.1, ← (hinfo q).2.1, hprio]
  by_contra hlt
  obtain ⟨h₀, h₁⟩ := hr q
  have hmem' : q ∈ A.queue .readyPq (A.info q).priority.toNat :=
    hA.mem_queue.2 (ProcInfo.place_ready.2
      ⟨(hinfo q).2.2.trans hqi, (hinfo q).1.trans hq, by omega, by omega⟩)
  rw [hbefore _ (by omega)] at hmem'
  exact List.not_mem_nil hmem'

/-! ## Switches -/

namespace Kernel

variable {initTable : Fin n → PcbInit} {s t : Kernel n} {l : RtxLabel}
  {state : ProcessState} {resumeAt context : Context}

/-- Kernel code of `cur` that ends in `k_process_switch`. -/
inductive Switches (s : Kernel n) (l : RtxLabel) (cur : Fin n) :
    ProcessState → Context → Kernel n → Prop
  | blockReceive (h : (SchedMove.blockReceive cur).Permits s l) :
    Switches s l cur .blockedOnReceive .receiveMessage s
  | blockRequest {sched : Sched n} (h : (SchedMove.blockRequest cur).Permits s l)
      (hwait : waitForEnv s.sched cur = some sched) :
    Switches s l cur .blockedOnEnvRequest .requestMsgEnv { s with sched := sched }
  | yield {sched : Sched n} (hyield : Unix.yield s.sched cur = some sched) :
    Switches s l cur .ready .releaseProcessor { s with sched := sched }

theorem switches_receive (hcur : s.sched.currentProcess = some cur)
    (hblocks : (SchedMove.blockReceive cur).Permits s l)
    (h : s.kReceiveMessage.map (·.map ApiValue.env) = some (.switch state resumeAt t)) :
    s.Switches l cur state resumeAt t := by
  obtain ⟨o, ho, hswitch⟩ := Option.map_eq_some_iff.1 h
  obtain ⟨cur', hcur', hcases⟩ := kReceiveMessage_cases ho
  obtain rfl : cur = cur' := Option.some.inj (hcur.symm.trans hcur')
  rcases hcases with ⟨-, -, rfl⟩ | ⟨-, -, rfl⟩ | ⟨env, ipc, -, rfl⟩
  · contradiction
  · cases hswitch
    exact .blockReceive hblocks
  · contradiction

theorem switches_request (hcur : s.sched.currentProcess = some cur)
    (hblocks : (SchedMove.blockRequest cur).Permits s l)
    (h : s.kRequestMsgEnv.map (·.map ApiValue.env) = some (.switch state resumeAt t)) :
    s.Switches l cur state resumeAt t := by
  obtain ⟨o, ho, hswitch⟩ := Option.map_eq_some_iff.1 h
  obtain ⟨cur', hcur', hcases⟩ := kRequestMsgEnv_cases ho
  obtain rfl : cur = cur' := Option.some.inj (hcur.symm.trans hcur')
  rcases hcases with ⟨-, -, rfl⟩ | ⟨sched, -, -, hwait, rfl⟩ | ⟨env, ipc, -, rfl⟩
  · contradiction
  · cases hswitch
    exact .blockRequest hblocks hwait
  · contradiction

/-- Only three primitives switch. -/
theorem switches_of_code (hrun : s.running = some (cur, context))
    (hcode : s.code context l = some (.switch state resumeAt t)) :
    s.Switches l cur state resumeAt t := by
  have hcur := (running_eq_some hrun).1
  cases l with
  | call c =>
    obtain ⟨rfl, hprim⟩ := Option.ite_none_right_eq_some.1 hcode
    cases c with
    | receiveMessage => exact switches_receive hcur (.inl ⟨hrun, rfl⟩) hprim
    | requestMsgEnv => exact switches_request hcur (.inl ⟨hrun, rfl⟩) hprim
    | releaseProcessor =>
      obtain ⟨o, hyield, hswitch⟩ := Option.map_eq_some_iff.1 hprim
      obtain ⟨cur', hcur', hrest⟩ := Option.bind_eq_some_iff.1 hyield
      obtain rfl : cur = cur' := Option.some.inj (hcur.symm.trans hcur')
      obtain ⟨sched, hsched, hdone⟩ := Option.bind_eq_some_iff.1 hrest
      cases hdone
      cases hswitch
      exact .yield hsched
    | clockGetSystemTime => cases hprim
    | sendMessage | releaseMsgEnv | requestProcessStatus | changePriority | requestDelay
      | sendConsoleChars | getConsoleChars | getTraceBuffers =>
      obtain ⟨r, -, hr⟩ := Option.map_eq_some_iff.1 hprim
      cases hr
  | resume =>
    cases context with
    | user => contradiction
    | receiveMessage => exact switches_receive hcur (.inr ⟨hrun, rfl⟩) hcode
    | requestMsgEnv => exact switches_request hcur (.inr ⟨hrun, rfl⟩) hcode
    | releaseProcessor => cases hcode
  | sigalrm | sigusr1 | sigusr2 | write => contradiction

theorem Models.parked (h : s.Models A) (hs : s.Rested initTable)
    (hcur : s.sched.currentProcess = some cur) (hswitches : s.Switches l cur state resumeAt t) :
    ∃ B, Coldfire.Sched.Parked t.sched cur state resumeAt B ∧ (A.Ordered → B.Ordered) ∧
      B.info = (A.park cur state resumeAt).info := by
  have href := h.refines.refines
  have hcur' : A.current = some cur ∧ A.interrupted = none :=
    ⟨href.current.symm.trans hcur, href.interrupted.symm.trans hs.interrupted⟩
  cases hswitches with
  | blockReceive =>
    exact ⟨_, Coldfire.Sched.blockReceive_parked href h.sound hcur', fun ho =>
      ho.leave fun i hi => absurd (ProcInfo.place_ready.1 hi).2.1 nofun, rfl⟩
  | blockRequest _ hwait =>
    obtain ⟨⟨code, sched⟩, henq, rfl⟩ := Option.map_eq_some_iff.1 hwait
    exact ⟨_, Coldfire.Sched.blockRequest_parked href h.sound hcur' (enqueueOn_enqueue henq),
      fun ho => ho.leave fun i hi => absurd (ProcInfo.place_ready.1 hi).2.1 nofun, rfl⟩
  | yield hyield =>
    obtain ⟨⟨code, sched⟩, henq, rfl⟩ := Option.map_eq_some_iff.1 hyield
    exact ⟨_, Coldfire.Sched.yield_parked href h.sound hcur' (enqueueOn_enqueue henq),
      fun ho => ho.ready _ _, rfl⟩

/-- `k_process_switch` of `S` runs `p`, the first ready process of the abstract scheduler `B`. -/
structure Chooses (S : Sched n) (cur : Fin n) (state : ProcessState) (resumeAt : Context)
    (B : AbsSched n) (p : Fin n) : Prop where
  switch : ∃ S', S.kProcessSwitch state resumeAt = some S' ∧ S'.currentProcess = some p
  placed : B.Placed
  inRange : B.InRange
  first : B.first .readyPq = some p
  info : ∀ q, (B.info q).state = ((S.setState cur state).pTable q).state ∧
    (B.info q).priority = ((S.setState cur state).pTable q).priority ∧
    (B.info q).isIProcess = ((S.setState cur state).pTable q).isIProcess
  readyLog : B.readyLog = S.readyLog

/-- Where `k_process_switch` is called, there is a process to run. -/
theorem Models.switch (h : s.Models A) (hs : s.Rested initTable) (htab : Tabled initTable)
    (hA : ∀ p, Mannered (A.info p)) (hnull : NullReleases s l)
    (hrun : s.running = some (cur, context))
    (hcode : s.code context l = some (.switch state resumeAt t)) :
    ∃ B p, Chooses t.sched cur state resumeAt B p ∧ (A.Ordered → B.Ordered) := by
  have hswitches := switches_of_code hrun hcode
  have hcur := (running_eq_some hrun).1
  obtain ⟨B, hparked, hordered, hinfo⟩ := h.parked hs hcur hswitches
  have hB : ∀ p, (p = cur → (B.info p).state = state) ∧
      (p ≠ cur → (B.info p).state = (A.info p).state) ∧
      (B.info p).priority = (A.info p).priority ∧
      (B.info p).isIProcess = (A.info p).isIProcess := by
    intro p
    rw [hinfo, AbsSched.park]
    by_cases hp : p = cur
    · subst hp
      simp
    · simp [AbsSched.info_place_of_ne A _ hp, hp]
  have hrange : B.InRange := fun p => by
    rw [(hB p).2.2.1]
    exact (hA p).priority
  -- The null process is ready, unless it is the one that stops, and then it yields.
  obtain ⟨z, hz⟩ := htab.null
  have hids := congrFun hs.ids z
  have hzinfo : (s.sched.pTable z).toProcInfo = A.info z := congrFun h.refines.refines.info z
  have hzpid : (A.info z).pid = processNullPid := by
    rw [← hzinfo, show (s.sched.pTable z).pid = (initTable z).pid from congrArg Prod.fst hids,
      htab.pid, hz]
  have hzi : (A.info z).isIProcess = false := by
    rw [← hzinfo, show (s.sched.pTable z).isIProcess = (initTable z).isIProcess from
      congrArg Prod.snd hids]
    refine Bool.eq_false_iff.2 fun hi => ?_
    have hlt := (htab.isIProcess z).1 hi
    have hz' : ((z : ℕ) : ℤ) = 3 := hz
    omega
  have hzstate : (B.info z).state = .ready := by
    by_cases hzc : z = cur
    · rw [(hB z).1 hzc]
      obtain ⟨hrec, hreq⟩ := h.null_not_waiting hA hnull hzi hzpid
      subst hzc
      cases hswitches with
      | blockReceive hp => exact absurd hp hrec
      | blockRequest hp => exact absurd hp hreq
      | yield => rfl
    · rw [(hB z).2.1 hzc]
      refine ((hA z).null hzi hzpid).1.resolve_right fun hx => hzc ?_
      have hr := (h.sound.executing z).1 hx
      rw [AbsSched.running, ← h.refines.refines.current, ← h.refines.refines.interrupted,
        hs.interrupted, hcur] at hr
      exact (Option.some.inj hr).symm
  obtain ⟨p, hp⟩ := AbsSched.exists_first hparked.placed hrange ((hB z).2.2.2.trans hzi) hzstate
  obtain ⟨S, hswitch, href⟩ := hparked.first hp
  refine ⟨B, p, ⟨⟨S, hswitch, href.current⟩, hparked.placed, hrange, hp, fun q => ?_,
    hparked.readyLog.symm⟩, hordered⟩
  have hview : ((t.sched.setState cur state).pTable q).toProcInfo =
      Function.update t.sched.view cur { t.sched.view cur with state := state } q :=
    congrFun (Sched.view_setState ..) q
  rw [hparked.info, hview]
  by_cases hq : q = cur
  · subst hq
    simp
  · simp [hq]

/-! ## Runs without changes -/

theorem ordered_move (h : A.Ordered) (hA : A.Sound) (hpermits : m.Permits s l)
    (hl : l.isChange = false) (hm : absMove A m = some B) : B.Ordered := by
  rcases absMove_cases hm with ⟨m', hm', hmove⟩ | ⟨newPriority, tid, rfl, -⟩
  · refine h.move hA (fun hchange => ?_) hmove
    cases m <;> cases hm' <;> exact hchange
  · have hcall : l = .call (.changePriority newPriority tid) := hpermits
    rw [hcall] at hl
    contradiction

theorem ordered_reach (htab : Tabled initTable)
    (hs : Reach Kernel.step (Booted initTable) Plain s) :
    s.Rested initTable ∧ ∃ A, s.Models A ∧ (∀ p, Mannered (A.info p)) ∧ A.Ordered := by
  refine models_reach (I := fun A => (∀ p, Mannered (A.info p)) ∧ A.Ordered) htab hs
    (fun _ _ => Plain.tailSafe) (fun A hA => ⟨mannered_boot htab hA,
      (Coldfire.Sched.ordered_bootSched initTable).dispatch hA⟩)
    fun s l A B hl _ hmodels ⟨hA, hordered⟩ hreach => ⟨hmodels.mannered hA hl.1 hreach, ?_⟩
  refine (hreach.invariant (I := fun B => B.Sound ∧ B.Ordered)
    (fun B hB => hB ▸ ⟨hmodels.sound, hordered⟩) ?_).2
  exact fun B m B' _ ⟨hsound, ho⟩ hm hmove =>
    ⟨absMove_sound hsound hmove, ordered_move ho hsound hm hl.2 hmove⟩

end Kernel

/-- With a table that is `Tabled`, in every run in which the null process only releases the
processor and no change of priority takes the last of several processes out of its level: every
`k_process_switch` runs a ready process with the smallest priority number of all that are ready. If
no priority was changed, of those it became ready first. -/
theorem switch_order {initTable : Fin n → PcbInit} {s t : Kernel n} {l : RtxLabel} {cur : Fin n}
    {context resumeAt : Context} {state : ProcessState} (htab : Tabled initTable)
    (hl : NullReleases s l) (hrun : s.running = some (cur, context))
    (hcode : s.code context l = some (.switch state resumeAt t)) :
    (Reach Kernel.step (Kernel.Booted initTable) (fun s l => NullReleases s l ∧ s.TailSafe l) s →
      ∃ p S, t.sched.kProcessSwitch state resumeAt = some S ∧ S.currentProcess = some p ∧
        Foremost (t.sched.setState cur state) p) ∧
    (Reach Kernel.step (Kernel.Booted initTable) Kernel.Plain s →
      ∃ p S, t.sched.kProcessSwitch state resumeAt = some S ∧ S.currentProcess = some p ∧
        (t.sched.setState cur state).Best p) := by
  constructor
  · intro hs
    obtain ⟨hrested, A, hmodels, hA⟩ := Kernel.mannered_reach htab hs
    obtain ⟨B, p, ⟨⟨S, hswitch, hp⟩, hplaced, hrange, hfirst, hinfo, -⟩, -⟩ :=
      hmodels.switch hrested htab hA hl hrun hcode
    exact ⟨p, S, hswitch, hp, first_foremost hplaced hrange hfirst hinfo⟩
  · intro hs
    obtain ⟨hrested, A, hmodels, hA, hordered⟩ := Kernel.ordered_reach htab hs
    obtain ⟨B, p, ⟨⟨S, hswitch, hp⟩, hplaced, hrange, hfirst, hinfo, hlog⟩, ho⟩ :=
      hmodels.switch hrested htab hA hl hrun hcode
    exact ⟨p, S, hswitch, hp,
      (AbsSched.first_best hplaced (ho hordered) hrange hfirst).transfer hinfo hlog⟩

/-- When process B gives up the processor, process A runs. -/
theorem switch_order_procCfg :
    ∃ s t, ((Kernel.kInit Kernel.Ram.zero procCfg).bind fun s =>
        exec (guarded Kernel.step Kernel.Plain) s handedOver) = some s ∧
      s.code .user (.call .releaseProcessor) = some (.switch .ready .releaseProcessor t) ∧
      (∃ p S, t.sched.kProcessSwitch .ready .releaseProcessor = some S ∧
        S.currentProcess = some p ∧ Foremost (t.sched.setState 7 .ready) p) ∧
      ∃ p S, t.sched.kProcessSwitch .ready .releaseProcessor = some S ∧
        S.currentProcess = some p ∧ (t.sched.setState 7 .ready).Best p := by
  have hrun : ((Kernel.kInit Kernel.Ram.zero procCfg).bind fun s =>
      exec (guarded Kernel.step Kernel.Plain) s handedOver).any (fun s => decide (
        s.running = some (7, .user) ∧ (Unix.yield s.sched 7).isSome = true)) = true := by
    decide +kernel
  obtain ⟨s, hs, hfacts⟩ := (Option.any_eq_true ..).1 hrun
  obtain ⟨hrunning, hyield⟩ := of_decide_eq_true hfacts
  obtain ⟨sched, hyield⟩ := Option.isSome_iff_exists.1 hyield
  obtain ⟨s₀, hinit, hexec⟩ := Option.bind_eq_some_iff.1 hs
  have hcode : s.code .user (.call .releaseProcessor) =
      some (.switch .ready .releaseProcessor { s with sched := sched }) := by
    simp [Kernel.code, Kernel.primitive, Kernel.kReleaseProcessor,
      (Kernel.running_eq_some hrunning).1, hyield, Outcome.map]
  have hreach := (Reach.init (show Kernel.Booted procCfg s₀ from ⟨_, hinit⟩)).guarded hexec
  have hnull : NullReleases s (.call .releaseProcessor) := by
    rintro p - - c hc
    cases hc
    rfl
  obtain ⟨hforemost, hbest⟩ := switch_order procCfg_tabled hnull hrunning hcode
  exact ⟨s, _, hs, hcode, hforemost (hreach.mono fun s l hl => ⟨hl.1, hl.tailSafe⟩),
    hbest hreach⟩

end Rtx.Unix
