import Rtx.Unix.SchedBoot

/-!
# Steps of the Unix port, seen by the scheduler

Whatever the processes do with envelopes, a step does to the scheduler only what `SchedMove.Permits`
allows: the running process blocks or yields in the primitive it is in, and somebody may be woken
up. A turn of an i-process wakes at most one process up (`WakesOne`), and leaves nothing else
behind.
-/

namespace Rtx.Unix

open Transition
open Coldfire (Body PcbInit ProcInfo Context Sched AbsSched codeSuccess)
open Coldfire.Sched (SamePointers)

variable {n : ℕ} {α : Type}

/-! ## Permitted moves -/

/-- A permitted move of the scheduler `S`. A change of priority comes first. -/
def SchedMove.Permitted (b : Kernel n) (l : RtxLabel) (S : Sched n) (m : SchedMove n) : Prop :=
  m.Permits b l ∧ ∀ newPriority tid, m = .changePriority newPriority tid → S = b.sched

/-- At most one receiver is woken up. -/
def WakesOne (S S' : Sched n) : Prop := S' = S ∨ ∃ q, wakeReceiver S q = some S'

variable {S S' : Sched n} {b : Kernel n} {l : RtxLabel}

theorem WakesOne.reach (h : WakesOne S S') :
    Reach schedMove (· = S) (SchedMove.Permitted b l) S' := by
  rcases h with rfl | ⟨q, hwake⟩
  · exact .init rfl
  · exact .one (l := SchedMove.wakeReceiver q) ⟨trivial, nofun⟩ hwake

theorem WakesOne.pointers (h : WakesOne S S') : SamePointers S S' := by
  rcases h with rfl | ⟨q, hwake⟩
  · exact ⟨rfl, rfl⟩
  · exact Coldfire.Sched.wakeReceiver_pointers (wakeReceiver_cold hwake)

namespace Kernel

variable {initTable : Fin n → PcbInit} {s s' t t' : Kernel n} {p i cur : Fin n} {env : EnvPtr}
  {A : AbsSched n}

/-! ## Turns -/

theorem kSendMessage_wakes {destPid code : ℤ} {msgEnv : Option EnvPtr}
    (h : t.kSendMessage destPid msgEnv = some (code, t')) :
    WakesOne t.sched t'.sched ∧ t'.flag = t.flag := by
  cases msgEnv with
  | none =>
    cases h
    exact ⟨.inl rfl, rfl⟩
  | some env =>
    rcases kSendMessage_cases h with ⟨-, -, rfl⟩ | ⟨cur, q, ipc, sched, -, -, -, -, hwake, rfl⟩
    · exact ⟨.inl rfl, rfl⟩
    · exact ⟨.inr ⟨q, hwake⟩, rfl⟩

theorem Replies.wakes (h : Replies t env t') : WakesOne t.sched t'.sched ∧ t'.flag = t.flag := by
  obtain ⟨letter, code, -, hsend⟩ := h
  have hwakes := kSendMessage_wakes hsend
  exact hwakes

theorem drainRequests_sched {fuel : ℕ} {found : Option EnvPtr}
    (hcur : t.sched.currentProcess = some i) (hi : (t.sched.ids i).2 = true)
    (h : t.drainRequests fuel found = some t') : t'.sched = t.sched ∧ t'.flag = t.flag := by
  induction fuel generalizing found t with
  | zero => contradiction
  | succ fuel ih =>
    cases found with
    | none => cases h; exact ⟨rfl, rfl⟩
    | some env =>
      obtain ⟨t₁, hinsert, hrest⟩ := Option.bind_eq_some_iff.1 h
      obtain ⟨⟨found, t₂⟩, hreceive, hagain⟩ := Option.bind_eq_some_iff.1 hrest
      obtain ⟨ipc, -, rfl⟩ := insertTimeout_eq hcur hinsert
      rcases receiveNow_cases (t := { t with ipc := ipc }) hcur hi hreceive with
        ⟨-, -, rfl⟩ | ⟨env', ipc', -, -, rfl⟩
      · exact ih (t := { t with ipc := ipc }) hcur hi hagain
      · exact ih (t := { t with ipc := ipc' }) hcur hi hagain

theorem startTimeoutIProcess_wakes (hcur : t.sched.currentProcess = some i)
    (hi : (t.sched.ids i).2 = true) (h : t.startTimeoutIProcess = some t') :
    WakesOne t.sched t'.sched ∧ t'.flag = t.flag := by
  obtain ⟨found, t₁, t₂, hreceive, hdrain, hexpire⟩ := startTimeoutIProcess_eq hcur hi h
  obtain ⟨hsched₁, hflag₁⟩ : t₁.sched = t.sched ∧ t₁.flag = t.flag := by
    rcases hreceive with ⟨-, -, rfl⟩ | ⟨env, ipc, -, -, rfl⟩
    · exact ⟨rfl, rfl⟩
    · exact ⟨rfl, rfl⟩
  obtain ⟨hsched₂, hflag₂⟩ := drainRequests_sched (i := i) (by rw [hsched₁]; exact hcur)
    (by rw [hsched₁]; exact hi) hdrain
  rw [hsched₁] at hsched₂
  rw [hflag₁] at hflag₂
  rcases expireTimeout_cases (i := i) (by rw [hsched₂]; exact hcur) hexpire with
    ⟨-, rfl⟩ | ⟨env, ipc, -, hreply⟩
  · exact ⟨.inl hsched₂, hflag₂⟩
  · have hwakes := hreply.wakes
    rw [show ({ t₂ with ipc := ipc } : Kernel n).sched = t.sched from hsched₂,
      show ({ t₂ with ipc := ipc } : Kernel n).flag = t.flag from hflag₂] at hwakes
    exact hwakes

theorem startKbIProcess_wakes {length : ℤ} {data : Body} (hcur : t.sched.currentProcess = some i)
    (hi : (t.sched.ids i).2 = true) (h : t.startKbIProcess length data = some t') :
    WakesOne t.sched t'.sched ∧ t'.flag = t.flag := by
  rcases startKbIProcess_cases hcur hi h with rfl | ⟨env, ipc, -, hreply⟩
  · exact ⟨.inl rfl, rfl⟩
  · exact hreply.wakes

theorem startCrtIProcess_wakes {first second : CrtFlag} (hcur : t.sched.currentProcess = some i)
    (hi : (t.sched.ids i).2 = true) (h : t.startCrtIProcess first second = some t') :
    WakesOne t.sched t'.sched ∧ t'.flag = t.flag := by
  obtain ⟨t₁, hack, hrest⟩ := Option.bind_eq_some_iff.1 h
  obtain ⟨t₂, hstore, hshow⟩ := Option.bind_eq_some_iff.1 hrest
  obtain ⟨hwakes, hflag⟩ : WakesOne t.sched t₁.sched ∧ t₁.flag = t.flag := by
    rcases crtAck_cases hcur hack with ⟨rfl, -⟩ | ⟨-, -, env, ipc, -, hreply⟩
    · exact ⟨.inl rfl, rfl⟩
    · exact hreply.wakes
  have hcur₁ : t₁.sched.currentProcess = some i := hwakes.pointers.1.trans hcur
  have hi₁ : (t₁.sched.ids i).2 = true := by
    rcases hwakes with hsame | ⟨q, hwake⟩
    · rw [hsame]
      exact hi
    · rw [wakeReceiver_ids hwake]
      exact hi
  obtain ⟨hsched₂, hflag₂⟩ : t₂.sched = t₁.sched ∧ t₂.flag = t₁.flag := by
    rcases crtStore_cases hcur₁ hi₁ hstore with ⟨-, rfl⟩ | ⟨env, I, J, -, -, rfl⟩
    · exact ⟨rfl, rfl⟩
    · exact ⟨rfl, rfl⟩
  obtain ⟨hsched₃, hflag₃⟩ : t'.sched = t₂.sched ∧ t'.flag = t₂.flag := by
    rcases crtShow_cases (by rw [hsched₂]; exact hcur₁) hshow with
      ⟨rfl, -⟩ | ⟨-, env, I, crtBuf, -, rfl⟩
    · exact ⟨rfl, rfl⟩
    · exact ⟨rfl, rfl⟩
  rw [hsched₃, hsched₂]
  exact ⟨hwakes, hflag₃.trans (hflag₂.trans hflag)⟩

/-! ## Steps -/

/-- What a step leaves of the scheduler and of the flag. -/
structure Schedules (s : Kernel n) (l : RtxLabel) (s' : Kernel n) : Prop where
  reach : Reach schedMove (· = s.sched) (SchedMove.Permitted s l) s'.sched
  flag : s'.flag = s.flag

/-- A signal that is handled. The interrupted process goes on as if nothing had happened, so it
should have been executing. -/
theorem Rested.handleSignal_wakes {pid : ℤ} {turn : Kernel n → Option (Kernel n)}
    (h : s.Rested initTable) (hcur : s.sched.currentProcess = some cur)
    (hx : (s.sched.pTable cur).state = .executing)
    (hturn : ∀ i t t', t.sched.currentProcess = some i → (t.sched.ids i).2 = true →
      turn t = some t' → WakesOne t.sched t'.sched ∧ t'.flag = t.flag)
    (hstep : s.handleSignal pid turn = some s') :
    WakesOne s.sched s'.sched ∧ s'.flag = s.flag := by
  obtain ⟨i, -, hrest⟩ := Option.bind_eq_some_iff.1 hstep
  obtain ⟨t, henter, hrest'⟩ := Option.bind_eq_some_iff.1 hrest
  obtain ⟨t', hrun, hexit⟩ := Option.bind_eq_some_iff.1 hrest'
  simp only [Kernel.enter, h.flag, if_false, Bool.false_eq_true,
    Option.ite_none_right_eq_some] at henter
  obtain ⟨hi, henter⟩ := henter
  obtain ⟨S₁, hS₁, rfl⟩ := Option.map_eq_some_iff.1 henter
  have hids : (s.sched.ids i).2 = true := hi
  have hne : cur ≠ i := by
    rintro rfl
    rw [h.not_iProcess hcur] at hids
    contradiction
  obtain ⟨S₁', henter', hin, hleft⟩ := enter_leave hcur h.interrupted hne
    (h.regular.alwaysReady i hids)
  obtain rfl : S₁' = S₁ := Option.some.inj (henter'.symm.trans hS₁)
  rw [setState_executing hx] at hleft
  have hids₁ : (S₁'.ids i).2 = true := by
    rw [← ids_left i cur, hleft]
    exact hids
  obtain ⟨hwakes, hflag⟩ := hturn i { s with sched := S₁', flag := true } t' hin.current hids₁ hrun
  rw [Kernel.exit, if_pos hflag] at hexit
  obtain ⟨S₂, hS₂, rfl⟩ := Option.map_eq_some_iff.1 hexit
  refine ⟨?_, h.flag.symm⟩
  rcases hwakes with hsame | ⟨q, hwake⟩
  · rw [hsame, show ({ s with sched := S₁', flag := true } : Kernel n).sched = S₁' from rfl,
      kIProcessExit_eq hin, hleft] at hS₂
    cases hS₂
    exact .inl rfl
  · have hwake' : wakeReceiver S₁' q = some t'.sched := hwake
    rw [kIProcessExit_eq (hin.wake hwake')] at hS₂
    cases hS₂
    refine .inr ⟨q, ?_⟩
    rw [← hleft, wake_leave hin, hwake']
    rfl

/-- A primitive that returns to its caller. -/
theorem schedules_ret {value : α} (hcur : Runs s.sched cur)
    (hleave : leave cur (.ret value t) = some s') (hflag : t.flag = s.flag)
    (hsame : SamePointers s.sched t.sched)
    (hreach : Reach schedMove (· = s.sched) (SchedMove.Permitted s l) t.sched) :
    s.Schedules l s' := by
  cases hleave
  refine ⟨hreach.step (l := SchedMove.toUser cur) ⟨trivial, nofun⟩ ?_, hflag⟩
  show (if Runs t.sched cur then _ else _) = _
  rw [if_pos ⟨hsame.1.trans hcur.1, hsame.2.trans hcur.2⟩]

theorem schedules_send {destPid : ℤ} {msgEnv : Option EnvPtr} {r : ℤ × Kernel n} {ipc : Ipc n}
    (hcur : Runs s.sched cur)
    (hsend : ({ s with ipc := ipc } : Kernel n).kSendMessage destPid msgEnv = some r)
    (hleave : leave cur (returning r) = some s') : s.Schedules l s' := by
  obtain ⟨code, t⟩ := r
  obtain ⟨hwakes, hflag⟩ := kSendMessage_wakes hsend
  have hwakes' : WakesOne s.sched t.sched := hwakes
  exact schedules_ret hcur hleave hflag hwakes'.pointers hwakes'.reach

theorem schedules_console {msgType pid : ℤ} {msgEnv : Option EnvPtr} {r : ℤ × Kernel n}
    (hcur : Runs s.sched cur) (hsend : s.kConsole msgType pid msgEnv = some r)
    (hleave : leave cur (returning r) = some s') : s.Schedules l s' := by
  cases msgEnv with
  | none =>
    cases hsend
    exact schedules_ret hcur hleave rfl ⟨rfl, rfl⟩ (.init rfl)
  | some env =>
    have hsend' : ({ s with ipc := s.ipc.setLetter env { s.ipc.letter env with
        msgType := msgType } } : Kernel n).kSendMessage pid (some env) = some r := hsend
    exact schedules_send hcur hsend' hleave

theorem Rested.schedules_receive (h : s.Rested initTable) (hcur : Runs s.sched cur)
    (hblocks : (SchedMove.blockReceive cur).Permits s l)
    (hstep : (s.kReceiveMessage.map (·.map ApiValue.env)).bind (leave cur) = some s') :
    s.Schedules l s' := by
  obtain ⟨o', ho', hleave⟩ := Option.bind_eq_some_iff.1 hstep
  obtain ⟨o, ho, rfl⟩ := Option.map_eq_some_iff.1 ho'
  obtain ⟨cur', hcur', hcases⟩ := kReceiveMessage_cases ho
  obtain rfl : cur = cur' := Option.some.inj (hcur.1.symm.trans hcur')
  rcases hcases with ⟨-, hi, -⟩ | ⟨-, -, rfl⟩ | ⟨env, ipc, -, rfl⟩
  · rw [h.not_iProcess hcur.1] at hi
    contradiction
  · obtain ⟨sched, hswitch, hdone⟩ := Option.bind_eq_some_iff.1 hleave
    cases hdone
    refine ⟨.one (l := SchedMove.blockReceive cur) ⟨hblocks, nofun⟩ ?_, rfl⟩
    show (if Runs s.sched cur then _ else _) = _
    rw [if_pos hcur]
    exact hswitch
  · exact schedules_ret hcur hleave rfl ⟨rfl, rfl⟩ (.init rfl)

theorem Rested.schedules_request (h : s.Rested initTable) (hcur : Runs s.sched cur)
    (hblocks : (SchedMove.blockRequest cur).Permits s l)
    (hstep : (s.kRequestMsgEnv.map (·.map ApiValue.env)).bind (leave cur) = some s') :
    s.Schedules l s' := by
  obtain ⟨o', ho', hleave⟩ := Option.bind_eq_some_iff.1 hstep
  obtain ⟨o, ho, rfl⟩ := Option.map_eq_some_iff.1 ho'
  obtain ⟨cur', hcur', hcases⟩ := kRequestMsgEnv_cases ho
  obtain rfl : cur = cur' := Option.some.inj (hcur.1.symm.trans hcur')
  rcases hcases with ⟨-, hi, -⟩ | ⟨sched, -, -, hwait, rfl⟩ | ⟨env, ipc, -, rfl⟩
  · rw [h.not_iProcess hcur.1] at hi
    contradiction
  · obtain ⟨sched', hswitch, hdone⟩ := Option.bind_eq_some_iff.1 hleave
    cases hdone
    refine ⟨.one (l := SchedMove.blockRequest cur) ⟨hblocks, nofun⟩ ?_, rfl⟩
    show (if Runs s.sched cur then _ else _) = _
    rw [if_pos hcur, hwait]
    exact hswitch
  · exact schedules_ret hcur hleave rfl ⟨rfl, rfl⟩ (.init rfl)

theorem Rested.schedules_primitive {c : Api} (h : s.Rested initTable) (hcur : Runs s.sched cur)
    (hrun : s.running = some (cur, .user))
    (hstep : (s.primitive c).bind (leave cur) = some s') : s.Schedules (.call c) s' := by
  obtain ⟨o, ho, hleave⟩ := Option.bind_eq_some_iff.1 hstep
  cases c with
  | sendMessage destPid msgEnv =>
    obtain ⟨r, hsend, rfl⟩ := Option.map_eq_some_iff.1 ho
    exact schedules_send hcur hsend hleave
  | receiveMessage => exact h.schedules_receive hcur (.inl ⟨hrun, rfl⟩) hstep
  | requestMsgEnv => exact h.schedules_request hcur (.inl ⟨hrun, rfl⟩) hstep
  | releaseMsgEnv msgEnv =>
    obtain ⟨⟨code, t⟩, hrelease, rfl⟩ := Option.map_eq_some_iff.1 ho
    cases msgEnv with
    | none =>
      cases hrelease
      exact schedules_ret hcur hleave rfl ⟨rfl, rfl⟩ (.init rfl)
    | some env =>
      obtain ⟨cur', -, hrest⟩ := Option.bind_eq_some_iff.1 hrelease
      obtain ⟨ipc, -, hrest'⟩ := Option.bind_eq_some_iff.1 hrest
      obtain ⟨sched, hwake, hdone⟩ := Option.bind_eq_some_iff.1 hrest'
      cases hdone
      exact schedules_ret hcur hleave rfl
        (Coldfire.Sched.wakeRequester_pointers (wakeRequester_cold hwake))
        (.one (l := SchedMove.wakeRequester) ⟨trivial, nofun⟩ hwake)
  | releaseProcessor =>
    obtain ⟨o', hyield, rfl⟩ := Option.map_eq_some_iff.1 ho
    obtain ⟨cur', hcur', hrest⟩ := Option.bind_eq_some_iff.1 hyield
    obtain rfl : cur = cur' := Option.some.inj (hcur.1.symm.trans hcur')
    obtain ⟨sched, hsched, hdone⟩ := Option.bind_eq_some_iff.1 hrest
    cases hdone
    obtain ⟨sched', hswitch, hdone⟩ := Option.bind_eq_some_iff.1 hleave
    cases hdone
    refine ⟨.one (l := SchedMove.yield cur) ⟨⟨hrun, rfl⟩, nofun⟩ ?_, rfl⟩
    show (if Runs s.sched cur then _ else _) = _
    rw [if_pos hcur, hsched]
    exact hswitch
  | requestProcessStatus msgEnv =>
    obtain ⟨⟨code, t⟩, hstatus, rfl⟩ := Option.map_eq_some_iff.1 ho
    obtain ⟨env, -, hrest⟩ := Option.bind_eq_some_iff.1 hstatus
    obtain ⟨body, -, hfits⟩ := Option.bind_eq_some_iff.1 hrest
    split at hfits
    · cases hfits
      exact schedules_ret hcur hleave rfl ⟨rfl, rfl⟩ (.init rfl)
    · contradiction
  | changePriority newPriority targetProcessId =>
    obtain ⟨⟨code, t⟩, hchange, rfl⟩ := Option.map_eq_some_iff.1 ho
    obtain ⟨⟨code', sched⟩, hsched, hdone⟩ := Option.map_eq_some_iff.1 hchange
    cases hdone
    have hmove : Unix.schedMove s.sched (.changePriority newPriority targetProcessId) =
        some sched := by
      show (Unix.kChangePriority s.sched newPriority targetProcessId).map (·.2) = _
      rw [hsched]
      rfl
    exact schedules_ret hcur hleave rfl (kChangePriority_pointers hsched)
      (.one (l := SchedMove.changePriority newPriority targetProcessId)
        ⟨rfl, fun _ _ _ => rfl⟩ hmove)
  | requestDelay timeDelay wakeupCode msgEnv =>
    obtain ⟨r, hdelay, rfl⟩ := Option.map_eq_some_iff.1 ho
    obtain ⟨env, -, hrest⟩ := Option.bind_eq_some_iff.1 hdelay
    obtain ⟨body, -, hsend⟩ := Option.bind_eq_some_iff.1 hrest
    exact schedules_send hcur hsend hleave
  | sendConsoleChars msgEnv | getConsoleChars msgEnv =>
    obtain ⟨r, hsend, rfl⟩ := Option.map_eq_some_iff.1 ho
    exact schedules_console hcur hsend hleave
  | getTraceBuffers msgEnv =>
    obtain ⟨⟨code, t⟩, htrace, rfl⟩ := Option.map_eq_some_iff.1 ho
    obtain ⟨env, -, hrest⟩ := Option.bind_eq_some_iff.1 htrace
    obtain ⟨body, -, hrest'⟩ := Option.bind_eq_some_iff.1 hrest
    obtain ⟨⟨code', body'⟩, -, hdone⟩ := Option.bind_eq_some_iff.1 hrest'
    cases hdone
    exact schedules_ret hcur hleave rfl ⟨rfl, rfl⟩ (.init rfl)
  | clockGetSystemTime =>
    cases ho
    exact schedules_ret hcur hleave rfl ⟨rfl, rfl⟩ (.init rfl)

/-- Every step is a run of permitted moves. -/
theorem Rested.schedules (h : s.Rested initTable)
    (hx : ∀ p, s.sched.currentProcess = some p → (s.sched.pTable p).state = .executing)
    (hstep : s.step l = some s') : s.Schedules l s' := by
  unfold Kernel.step at hstep
  split at hstep
  · contradiction
  rename_i cur context hrun
  obtain ⟨cur', hcur, heq⟩ := Option.map_eq_some_iff.1 hrun
  obtain ⟨rfl, hcontext⟩ := Prod.mk.inj heq
  have hruns : Runs s.sched cur' := ⟨hcur, h.interrupted⟩
  cases l with
  | call c =>
    obtain ⟨o, ho, hleave⟩ := Option.bind_eq_some_iff.1 hstep
    obtain ⟨rfl, hprim⟩ := Option.ite_none_right_eq_some.1 ho
    exact h.schedules_primitive hruns hrun (Option.bind_eq_some_iff.2 ⟨o, hprim, hleave⟩)
  | resume =>
    cases context with
    | user => contradiction
    | receiveMessage => exact h.schedules_receive hruns (.inr ⟨hrun, rfl⟩) hstep
    | requestMsgEnv => exact h.schedules_request hruns (.inr ⟨hrun, rfl⟩) hstep
    | releaseProcessor =>
      have hleave : leave cur' (.ret (ApiValue.int codeSuccess) s) = some s' := hstep
      exact schedules_ret hruns hleave rfl ⟨rfl, rfl⟩ (.init rfl)
  | sigalrm =>
    obtain ⟨-, hsignal⟩ := Option.ite_none_right_eq_some.1 hstep
    obtain ⟨hwakes, hflag⟩ := h.handleSignal_wakes hcur (hx cur' hcur)
      (fun i t t' hcur hi => startTimeoutIProcess_wakes hcur hi) hsignal
    exact ⟨hwakes.reach, hflag⟩
  | sigusr1 length data =>
    obtain ⟨-, hsignal⟩ := Option.ite_none_right_eq_some.1 hstep
    obtain ⟨hwakes, hflag⟩ := h.handleSignal_wakes hcur (hx cur' hcur)
      (fun i t t' hcur hi => startKbIProcess_wakes hcur hi) hsignal
    exact ⟨hwakes.reach, hflag⟩
  | sigusr2 first second =>
    obtain ⟨-, hsignal⟩ := Option.ite_none_right_eq_some.1 hstep
    obtain ⟨hwakes, hflag⟩ := h.handleSignal_wakes hcur (hx cur' hcur)
      (fun i t t' hcur hi => startCrtIProcess_wakes hcur hi) hsignal
    exact ⟨hwakes.reach, hflag⟩
  | write env content =>
    obtain ⟨-, hwrite⟩ := Option.ite_none_right_eq_some.1 hstep
    cases hwrite
    exact ⟨.init rfl, rfl⟩

/-- The kernel is at rest again, whatever the processes do with envelopes. -/
theorem Schedules.rested (h : s.Schedules l s') (hs : s.Rested initTable) :
    s'.Rested initTable := by
  suffices hinv : s'.sched.interruptedProcess = none ∧ s'.sched.currentProcess.isSome ∧
      s'.sched.Regular ∧ s'.sched.ids = s.sched.ids by
    obtain ⟨hint, hcur, hregular, hids⟩ := hinv
    exact ⟨h.flag.trans hs.flag, hint, hcur, hregular, hids.trans hs.ids⟩
  refine h.reach.invariant (I := fun S => S.interruptedProcess = none ∧ S.currentProcess.isSome ∧
    S.Regular ∧ S.ids = s.sched.ids) ?_ ?_
  · rintro S rfl
    exact ⟨hs.interrupted, hs.current, hs.regular, rfl⟩
  rintro S m S' - ⟨hint, hcur, hregular, hids⟩ - hm
  obtain ⟨hint', hcur'⟩ := schedMove_pointers hint hcur hm
  obtain ⟨hregular', hframe⟩ := regular_move hregular hm
  exact ⟨hint', hcur', hregular', hframe.ids.trans hids⟩

end Kernel

end Rtx.Unix
