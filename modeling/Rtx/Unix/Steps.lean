import Rtx.Unix.Turns

/-!
# Steps of the Unix port as runs of acts

Every step of the machine is a run of acts (`Rested.step`), if the running process only passes and
only writes to envelopes that it has (`Careful`). Between two steps no i-process runs, no link leads
to one, and the pids are those of the table (`Rested`).
-/

namespace Rtx.Unix

open Transition
open Coldfire (Body Letter MsgEnv PcbInit Context Sched codeSuccess)

variable {n : ℕ} {α : Type}

/-- The envelope a primitive is called with. -/
def Api.msgEnv? : Api → Option EnvPtr
  | .sendMessage _ msgEnv | .releaseMsgEnv msgEnv | .requestProcessStatus msgEnv
  | .requestDelay _ _ msgEnv | .sendConsoleChars msgEnv | .getConsoleChars msgEnv
  | .getTraceBuffers msgEnv => msgEnv
  | .receiveMessage | .requestMsgEnv | .releaseProcessor | .changePriority .. |
    .clockGetSystemTime => none

/-- The envelope the running process works on. -/
def RtxLabel.msgEnv? : RtxLabel → Option EnvPtr
  | .call c => c.msgEnv?
  | .write msgEnv _ => some msgEnv
  | _ => none

namespace Kernel

/-- The running process works on nothing but what it has. -/
def Careful (s : Kernel n) (l : RtxLabel) : Prop :=
  ∀ p ∈ s.sched.currentProcess, ∀ env ∈ l.msgEnv?, s.ipc.HeldBy p env

instance (s : Kernel n) (l : RtxLabel) : Decidable (s.Careful l) := by
  unfold Careful
  infer_instance

/-- No i-process runs, no link leads to one, and the pids are those of the table. -/
structure Rested (initTable : Fin n → PcbInit) (s : Kernel n) : Prop where
  flag : s.flag = false
  interrupted : s.sched.interruptedProcess = none
  current : s.sched.currentProcess.isSome
  regular : s.sched.Regular
  ids : s.sched.ids = fun p => ((initTable p).pid, (initTable p).isIProcess)

variable {initTable : Fin n → PcbInit} {b s s' t t' : Kernel n} {l : RtxLabel} {p q r cur : Fin n}
  {env : EnvPtr} {m : MailMove n} {a : Act n}

/-! ## Acts keep the kernel at rest -/

theorem Rested.schedMove {m : SchedMove n} {sched : Sched n} (h : s.Rested initTable)
    (hm : Unix.schedMove s.sched m = some sched) (ipc : Ipc n) :
    Rested initTable { s with sched := sched, ipc := ipc } := by
  obtain ⟨hregular, hframe⟩ := regular_move h.regular hm
  obtain ⟨hint, hcur⟩ := schedMove_pointers h.interrupted h.current hm
  exact ⟨h.flag, hint, hcur, hregular, hframe.ids.trans h.ids⟩

theorem Rested.not_iProcess (h : s.Rested initTable) (hcur : s.sched.currentProcess = some cur) :
    (s.sched.ids cur).2 = false := by
  apply h.regular.running
  rw [Sched.running, h.interrupted, hcur]
  rfl

theorem Rested.act (h : t.Rested initTable) (hok : a.Ok b l t) (hact : t.act a = some t') :
    t'.Rested initTable := by
  cases a with
  | mail m =>
    obtain ⟨ipc, -, hrest⟩ := Option.bind_eq_some_iff.1 hact
    obtain ⟨sched, hfollow, hdone⟩ := Option.bind_eq_some_iff.1 hrest
    cases hdone
    cases hm : m.brings t.sched with
    | none =>
      rw [hm] at hfollow
      cases hfollow
      exact ⟨h.flag, h.interrupted, h.current, h.regular, h.ids⟩
    | some w =>
      rw [hm] at hfollow
      exact h.schedMove hfollow ipc
  | sched m =>
    obtain ⟨sched, hm, rfl⟩ := Option.map_eq_some_iff.1 hact
    exact h.schedMove hm t.ipc
  | restore p =>
    cases hact
    have hf : Coldfire.Sched.Frame (fun _ => False) t.sched (t.sched.setState p .executing) :=
      .setState (h.not_iProcess hok) nofun
    exact ⟨h.flag, h.interrupted, h.current, h.regular.of_frame hf h.regular.running,
      hf.ids.trans h.ids⟩
  | crt crtBuf =>
    cases hact
    exact ⟨h.flag, h.interrupted, h.current, h.regular, h.ids⟩

/-! ## Primitives -/

theorem Rested.working (h : s.Rested initTable) (hcur : s.sched.currentProcess = some cur) :
    Working s l cur s :=
  ⟨hcur, fun _ hp => absurd (h.interrupted.symm.trans hp) nofun,
    .init (seen_of_none h.interrupted)⟩

theorem Working.ret (h : Working b l cur t) (hint : t.sched.interruptedProcess = none)
    (hcontext : t.sched.contexts cur = .user ∨ t.sched.contexts cur = .releaseProcessor)
    {value : α} (hleave : leave cur (.ret value t) = some s') :
    Reach Kernel.act (· = b) (Act.Ok b l) s' := by
  cases hleave
  have hdone := h.done
  rw [seen_of_none hint] at hdone
  refine hdone.step (l := Act.sched (.toUser cur)) hcontext ?_
  show (if Runs t.sched cur then _ else _ : Option (Sched n)).map _ = _
  rw [if_pos ⟨h.current, hint⟩]
  rfl

theorem running_eq_some {context : Context} (h : s.running = some (cur, context)) :
    s.sched.currentProcess = some cur ∧ s.sched.contexts cur = context := by
  obtain ⟨cur', hcur, heq⟩ := Option.map_eq_some_iff.1 h
  obtain ⟨rfl, hcontext⟩ := Prod.mk.inj heq
  exact ⟨hcur, hcontext⟩

/-- An envelope is fetched for the running process, which goes on. -/
theorem Rested.fetch {ipc : Ipc n} (h : s.Rested initTable)
    (hcur : s.sched.currentProcess = some cur)
    (hm : m = .receive cur env ∧ s.sched.contexts cur ≠ .requestMsgEnv ∨ m = .request cur env)
    (hmove : s.ipc.move m = some ipc) {value : α}
    (hleave : leave cur (.ret value { s with ipc := ipc }) = some s') :
    Reach Kernel.act (· = s) (Act.Ok s l) s' := by
  cases hleave
  have hbrings : m.brings s.sched = some (.toUser cur) := by
    rcases hm with ⟨rfl, -⟩ | rfl
    · show (if (s.sched.ids cur).2 then none else some (SchedMove.toUser cur)) = _
      rw [h.not_iProcess hcur]
      rfl
    · show (if (s.sched.ids cur).2 then none else some (SchedMove.toUser cur)) = _
      rw [h.not_iProcess hcur]
      rfl
  have hok : m.Ok s l s := by
    rcases hm with ⟨rfl, hcontext⟩ | rfl
    · exact .inl ⟨hcur, hcontext⟩
    · exact hcur
  refine .one (l := Act.mail m) hok ?_
  refine act_mail_of hmove ?_
  rw [hbrings]
  show (if Runs s.sched cur then _ else _ : Option (Sched n)) = _
  rw [if_pos ⟨hcur, h.interrupted⟩]

theorem Rested.kReceiveMessage (h : s.Rested initTable) (hcur : s.sched.currentProcess = some cur)
    (hblocks : (SchedMove.blockReceive cur).Permits s l)
    (hstep : (s.kReceiveMessage.map (·.map ApiValue.env)).bind (leave cur) = some s') :
    Reach Kernel.act (· = s) (Act.Ok s l) s' := by
  obtain ⟨o', ho', hleave⟩ := Option.bind_eq_some_iff.1 hstep
  obtain ⟨o, ho, rfl⟩ := Option.map_eq_some_iff.1 ho'
  obtain ⟨cur', hcur', hcases⟩ := kReceiveMessage_cases ho
  obtain rfl : cur = cur' := Option.some.inj (hcur.symm.trans hcur')
  rcases hcases with ⟨-, hi, -⟩ | ⟨hempty, -, rfl⟩ | ⟨env, ipc, hmove, rfl⟩
  · rw [h.not_iProcess hcur] at hi
    contradiction
  · obtain ⟨sched, hswitch, hdone⟩ := Option.bind_eq_some_iff.1 hleave
    cases hdone
    refine .one (l := Act.sched (.blockReceive cur)) ⟨rfl, hempty, hblocks⟩ ?_
    show (if Runs s.sched cur then _ else _ : Option (Sched n)).map _ = _
    rw [if_pos ⟨hcur, h.interrupted⟩, hswitch]
    rfl
  · refine h.fetch hcur (.inl ⟨rfl, ?_⟩) hmove hleave
    rcases hblocks with ⟨hrun, -⟩ | ⟨hrun, -⟩
    · rw [(running_eq_some hrun).2]
      nofun
    · rw [(running_eq_some hrun).2]
      nofun

theorem Rested.kRequestMsgEnv (h : s.Rested initTable) (hcur : s.sched.currentProcess = some cur)
    (hblocks : (SchedMove.blockRequest cur).Permits s l)
    (hstep : (s.kRequestMsgEnv.map (·.map ApiValue.env)).bind (leave cur) = some s') :
    Reach Kernel.act (· = s) (Act.Ok s l) s' := by
  obtain ⟨o', ho', hleave⟩ := Option.bind_eq_some_iff.1 hstep
  obtain ⟨o, ho, rfl⟩ := Option.map_eq_some_iff.1 ho'
  obtain ⟨cur', hcur', hcases⟩ := kRequestMsgEnv_cases ho
  obtain rfl : cur = cur' := Option.some.inj (hcur.symm.trans hcur')
  rcases hcases with ⟨-, hi, -⟩ | ⟨sched, hempty, -, hwait, rfl⟩ | ⟨env, ipc, hmove, rfl⟩
  · rw [h.not_iProcess hcur] at hi
    contradiction
  · obtain ⟨sched', hswitch, hdone⟩ := Option.bind_eq_some_iff.1 hleave
    cases hdone
    refine .one (l := Act.sched (.blockRequest cur)) ⟨rfl, hempty, hblocks⟩ ?_
    show (if Runs s.sched cur then _ else _ : Option (Sched n)).map _ = _
    have hswitch' :
        sched.kProcessSwitch .blockedOnEnvRequest .requestMsgEnv = some sched' := hswitch
    rw [if_pos ⟨hcur, h.interrupted⟩, hwait, Option.bind_some, hswitch']
    rfl
  · exact h.fetch hcur (.inr rfl) hmove hleave

/-- The running process is in its own code. -/
def InUser (s : Kernel n) (cur : Fin n) : Prop :=
  s.sched.currentProcess = some cur ∧ s.sched.contexts cur = .user

theorem InUser.running (h : s.InUser cur) : s.running = some (cur, .user) := by
  rw [Kernel.running, h.1, ← h.2]
  rfl

/-- A primitive only changed the envelopes, and returns. -/
theorem Rested.ret {ipc : Ipc n} (h : s.Rested initTable) (hcur : s.InUser cur)
    (hworking : Working s l cur { s with ipc := ipc }) {value : α}
    (hleave : leave cur (.ret value { s with ipc := ipc }) = some s') :
    Reach Kernel.act (· = s) (Act.Ok s l) s' :=
  hworking.ret h.interrupted (.inl hcur.2) hleave

/-- A primitive may have filled in its envelope, and sends it. -/
theorem Rested.kSendMessage {destPid code : ℤ} (h : s.Rested initTable) (hcur : s.InUser cur)
    {ipc : Ipc n} (hworking : Working s l cur { s with ipc := ipc }) (henv : ipc.HeldBy cur env)
    (hsend : ({ s with ipc := ipc } : Kernel n).kSendMessage destPid (some env) = some (code, t))
    (hleave : leave cur (returning (code, t)) = some s') :
    Reach Kernel.act (· = s) (Act.Ok s l) s' := by
  have hdest : (s.sched.ids cur).2 = true → destPid = (ipc.letter env).sendPid := by
    rw [h.not_iProcess hcur.1]
    nofun
  obtain ⟨h', hint, -, -, hcontexts⟩ := hworking.kSendMessage henv hdest hsend
  refine h'.ret (hint.trans h.interrupted) (.inl ?_) hleave
  rw [hcontexts]
  exact hcur.2

/-- The running process fills in an envelope it has. -/
theorem Rested.fills (h : s.Rested initTable) (hcur : s.InUser cur) (henv : s.ipc.HeldBy cur env)
    (letter : Letter) : Working s l cur { s with ipc := s.ipc.setLetter env letter } := by
  refine (h.working hcur.1).fill henv fun hi => ?_
  rw [h.not_iProcess hcur.1] at hi
  contradiction

theorem Rested.acted (h : s.Rested initTable) (hcur : s.InUser cur) (hok : a.Ok s l s)
    (hact : s.act a = some t) (hpointers : Coldfire.Sched.SamePointers s.sched t.sched)
    (hcontexts : t.sched.contexts = s.sched.contexts) {value : α}
    (hleave : leave cur (.ret value t) = some s') :
    Reach Kernel.act (· = s) (Act.Ok s l) s' := by
  have hint : t.sched.interruptedProcess = none := hpointers.2.trans h.interrupted
  refine Working.ret ⟨hpointers.1.trans hcur.1, fun p hp => ?_, ?_⟩ hint (.inl ?_) hleave
  · rw [hint] at hp
    contradiction
  · rw [seen_of_none hint]
    exact .one hok hact
  · rw [hcontexts]
    exact hcur.2

section Primitives

variable {msgEnv : Option EnvPtr} {code : ℤ}

/-- A primitive that fills in its envelope, or not, and sends it. -/
theorem Rested.sends {destPid : ℤ} (h : s.Rested initTable) (hcur : s.InUser cur)
    (hheld : ∀ env ∈ msgEnv, s.ipc.HeldBy cur env)
    (hsend : s.kSendMessage destPid msgEnv = some (code, t))
    (hleave : leave cur (returning (code, t)) = some s') :
    Reach Kernel.act (· = s) (Act.Ok s l) s' := by
  cases msgEnv with
  | none =>
    cases hsend
    exact h.ret hcur (h.working hcur.1) hleave
  | some env => exact h.kSendMessage hcur (h.working hcur.1) (hheld env rfl) hsend hleave

theorem Rested.kReleaseMsgEnv (h : s.Rested initTable) (hcur : s.InUser cur)
    (hheld : ∀ env ∈ msgEnv, s.ipc.HeldBy cur env)
    (hrelease : s.kReleaseMsgEnv msgEnv = some (code, t))
    (hleave : leave cur (returning (code, t)) = some s') :
    Reach Kernel.act (· = s) (Act.Ok s l) s' := by
  cases msgEnv with
  | none =>
    cases hrelease
    exact h.ret hcur (h.working hcur.1) hleave
  | some env =>
    obtain ⟨cur', hcur', hrest⟩ := Option.bind_eq_some_iff.1 hrelease
    obtain rfl : cur = cur' := Option.some.inj (hcur.1.symm.trans hcur')
    obtain ⟨J, henq, hrest'⟩ := Option.bind_eq_some_iff.1 hrest
    obtain ⟨sched, hwake, hdone⟩ := Option.bind_eq_some_iff.1 hrest'
    cases hdone
    have hcold := wakeRequester_cold hwake
    have hmove : s.ipc.move (.release cur env) = some (J.emit (.released cur env)) :=
      Option.map_eq_some_iff.2 ⟨J, henq, rfl⟩
    have hact : s.act (.mail (.release cur env)) =
        some { s with sched := sched, ipc := J.emit (.released cur env) } :=
      act_mail_of hmove hwake
    exact h.acted (a := .mail (.release cur env)) hcur ⟨hcur.1, hheld env rfl⟩ hact
      (Coldfire.Sched.wakeRequester_pointers hcold) (Coldfire.Sched.wakeRequester_contexts hcold)
      hleave

theorem Rested.kReleaseProcessor {o : Outcome n ℤ} (h : s.Rested initTable) (hcur : s.InUser cur)
    (hyield : s.kReleaseProcessor = some o)
    (hleave : leave cur (o.map ApiValue.int) = some s') :
    Reach Kernel.act (· = s) (Act.Ok s (.call .releaseProcessor)) s' := by
  obtain ⟨cur', hcur', hrest⟩ := Option.bind_eq_some_iff.1 hyield
  obtain rfl : cur = cur' := Option.some.inj (hcur.1.symm.trans hcur')
  obtain ⟨sched, hsched, hdone⟩ := Option.bind_eq_some_iff.1 hrest
  cases hdone
  obtain ⟨sched', hswitch, hdone⟩ := Option.bind_eq_some_iff.1 hleave
  cases hdone
  refine .one (l := Act.sched (.yield cur)) ⟨rfl, hcur.running, rfl⟩ ?_
  show (if Runs s.sched cur then _ else _ : Option (Sched n)).map _ = _
  have hswitch' : sched.kProcessSwitch .ready .releaseProcessor = some sched' := hswitch
  rw [if_pos ⟨hcur.1, h.interrupted⟩, hsched, Option.bind_some, hswitch']
  rfl

theorem Rested.kRequestProcessStatus (h : s.Rested initTable) (hcur : s.InUser cur)
    (hheld : ∀ env ∈ msgEnv, s.ipc.HeldBy cur env)
    (hstatus : s.kRequestProcessStatus msgEnv = some (code, t))
    (hleave : leave cur (returning (code, t)) = some s') :
    Reach Kernel.act (· = s) (Act.Ok s l) s' := by
  obtain ⟨env, rfl, hrest⟩ := Option.bind_eq_some_iff.1 hstatus
  obtain ⟨body, -, hfits⟩ := Option.bind_eq_some_iff.1 hrest
  split at hfits
  · cases hfits
    exact h.ret hcur (h.fills hcur (hheld env rfl) _) hleave
  · contradiction

theorem Rested.kChangePriority {newPriority tid : ℤ} (h : s.Rested initTable) (hcur : s.InUser cur)
    (hchange : s.kChangePriority newPriority tid = some (code, t))
    (hleave : leave cur (returning (code, t)) = some s') :
    Reach Kernel.act (· = s) (Act.Ok s (.call (.changePriority newPriority tid))) s' := by
  obtain ⟨⟨code', sched⟩, hsched, hdone⟩ := Option.map_eq_some_iff.1 hchange
  cases hdone
  have hact :
      s.act (.sched (.changePriority newPriority tid)) = some { s with sched := sched } := by
    show ((Unix.kChangePriority s.sched newPriority tid).map (·.2)).map _ = _
    rw [hsched]
    rfl
  exact h.acted (a := .sched (.changePriority newPriority tid)) hcur ⟨rfl, rfl⟩ hact
    (kChangePriority_pointers hsched) (kChangePriority_contexts hsched) hleave

theorem Rested.kRequestDelay {timeDelay wakeupCode : ℤ} (h : s.Rested initTable)
    (hcur : s.InUser cur) (hheld : ∀ env ∈ msgEnv, s.ipc.HeldBy cur env)
    (hdelay : s.kRequestDelay timeDelay wakeupCode msgEnv = some (code, t))
    (hleave : leave cur (returning (code, t)) = some s') :
    Reach Kernel.act (· = s) (Act.Ok s l) s' := by
  obtain ⟨env, rfl, hrest⟩ := Option.bind_eq_some_iff.1 hdelay
  obtain ⟨body, -, hsend⟩ := Option.bind_eq_some_iff.1 hrest
  exact h.kSendMessage hcur (h.fills hcur (hheld env rfl) _) (hheld env rfl) hsend hleave

theorem Rested.kSendConsoleChars (h : s.Rested initTable) (hcur : s.InUser cur)
    (hheld : ∀ env ∈ msgEnv, s.ipc.HeldBy cur env)
    (hsend : s.kSendConsoleChars msgEnv = some (code, t))
    (hleave : leave cur (returning (code, t)) = some s') :
    Reach Kernel.act (· = s) (Act.Ok s l) s' := by
  cases msgEnv with
  | none =>
    cases hsend
    exact h.ret hcur (h.working hcur.1) hleave
  | some env =>
    exact h.kSendMessage hcur (h.fills hcur (hheld env rfl) _) (hheld env rfl) hsend hleave

theorem Rested.kGetConsoleChars (h : s.Rested initTable) (hcur : s.InUser cur)
    (hheld : ∀ env ∈ msgEnv, s.ipc.HeldBy cur env)
    (hsend : s.kGetConsoleChars msgEnv = some (code, t))
    (hleave : leave cur (returning (code, t)) = some s') :
    Reach Kernel.act (· = s) (Act.Ok s l) s' := by
  cases msgEnv with
  | none =>
    cases hsend
    exact h.ret hcur (h.working hcur.1) hleave
  | some env =>
    exact h.kSendMessage hcur (h.fills hcur (hheld env rfl) _) (hheld env rfl) hsend hleave

theorem Rested.kGetTraceBuffers (h : s.Rested initTable) (hcur : s.InUser cur)
    (hheld : ∀ env ∈ msgEnv, s.ipc.HeldBy cur env)
    (htrace : s.kGetTraceBuffers msgEnv = some (code, t))
    (hleave : leave cur (returning (code, t)) = some s') :
    Reach Kernel.act (· = s) (Act.Ok s l) s' := by
  obtain ⟨env, rfl, hrest⟩ := Option.bind_eq_some_iff.1 htrace
  obtain ⟨body, -, hrest'⟩ := Option.bind_eq_some_iff.1 hrest
  obtain ⟨⟨code', body'⟩, -, hdone⟩ := Option.bind_eq_some_iff.1 hrest'
  cases hdone
  exact h.ret hcur (h.fills hcur (hheld env rfl) _) hleave

end Primitives

theorem Rested.primitive (h : s.Rested initTable) (hcur : s.InUser cur) {c : Api}
    (hcareful : s.Careful (.call c)) (hstep : (s.primitive c).bind (leave cur) = some s') :
    Reach Kernel.act (· = s) (Act.Ok s (.call c)) s' := by
  have hheld : ∀ env ∈ c.msgEnv?, s.ipc.HeldBy cur env := hcareful cur hcur.1
  obtain ⟨o, ho, hleave⟩ := Option.bind_eq_some_iff.1 hstep
  cases c with
  | sendMessage destPid msgEnv =>
    obtain ⟨⟨code, t⟩, hsend, rfl⟩ := Option.map_eq_some_iff.1 ho
    exact h.sends hcur hheld hsend hleave
  | receiveMessage => exact h.kReceiveMessage hcur.1 (.inl ⟨hcur.running, rfl⟩) hstep
  | requestMsgEnv => exact h.kRequestMsgEnv hcur.1 (.inl ⟨hcur.running, rfl⟩) hstep
  | releaseMsgEnv msgEnv =>
    obtain ⟨⟨code, t⟩, hrelease, rfl⟩ := Option.map_eq_some_iff.1 ho
    exact h.kReleaseMsgEnv hcur hheld hrelease hleave
  | releaseProcessor =>
    obtain ⟨o', hyield, rfl⟩ := Option.map_eq_some_iff.1 ho
    exact h.kReleaseProcessor hcur hyield hleave
  | requestProcessStatus msgEnv =>
    obtain ⟨⟨code, t⟩, hstatus, rfl⟩ := Option.map_eq_some_iff.1 ho
    exact h.kRequestProcessStatus hcur hheld hstatus hleave
  | changePriority newPriority targetProcessId =>
    obtain ⟨⟨code, t⟩, hchange, rfl⟩ := Option.map_eq_some_iff.1 ho
    exact h.kChangePriority hcur hchange hleave
  | requestDelay timeDelay wakeupCode msgEnv =>
    obtain ⟨⟨code, t⟩, hdelay, rfl⟩ := Option.map_eq_some_iff.1 ho
    exact h.kRequestDelay hcur hheld hdelay hleave
  | sendConsoleChars msgEnv =>
    obtain ⟨⟨code, t⟩, hsend, rfl⟩ := Option.map_eq_some_iff.1 ho
    exact h.kSendConsoleChars hcur hheld hsend hleave
  | getConsoleChars msgEnv =>
    obtain ⟨⟨code, t⟩, hsend, rfl⟩ := Option.map_eq_some_iff.1 ho
    exact h.kGetConsoleChars hcur hheld hsend hleave
  | getTraceBuffers msgEnv =>
    obtain ⟨⟨code, t⟩, htrace, rfl⟩ := Option.map_eq_some_iff.1 ho
    exact h.kGetTraceBuffers hcur hheld htrace hleave
  | clockGetSystemTime =>
    cases ho
    exact h.ret hcur (h.working hcur.1) hleave

/-- A process that was switched back in goes on. -/
theorem Rested.resumed {context : Context} (h : s.Rested initTable)
    (hrun : s.running = some (cur, context))
    (hstep : (s.resumed context).bind (leave cur) = some s') :
    Reach Kernel.act (· = s) (Act.Ok s .resume) s' := by
  obtain ⟨cur', hcur, heq⟩ := Option.map_eq_some_iff.1 hrun
  obtain ⟨rfl, hcontext⟩ := Prod.mk.inj heq
  cases context with
  | user => contradiction
  | receiveMessage => exact h.kReceiveMessage hcur (.inr ⟨hrun, rfl⟩) hstep
  | requestMsgEnv => exact h.kRequestMsgEnv hcur (.inr ⟨hrun, rfl⟩) hstep
  | releaseProcessor =>
    have hleave : leave cur' (.ret (ApiValue.int codeSuccess) s) = some s' := hstep
    exact (h.working hcur).ret h.interrupted (.inr hcontext) hleave

/-! ## Signals -/

theorem between_of_step (h : s.step l = some s') (hl : l.isSignal = true) :
    s.between l = some s' ∧ ∃ cur, s.sched.currentProcess = some cur := by
  unfold Kernel.step at h
  split at h
  · contradiction
  rename_i cur context hrun
  obtain ⟨cur', hcur, -⟩ := Option.map_eq_some_iff.1 hrun
  refine ⟨?_, cur', hcur⟩
  cases l with
  | call | resume | write => contradiction
  | sigalrm | sigusr1 | sigusr2 => exact (Option.ite_none_right_eq_some.1 h).2

theorem Rested.turning {i : Fin n} (h : s.Rested initTable)
    (hcur : s.sched.currentProcess = some cur) (hl : l.isSignal = true)
    (henter : s.enter i = some t) : Turning s l i cur t ∧ t.ipc = s.ipc := by
  simp only [Kernel.enter, h.flag, if_false, Bool.false_eq_true,
    Option.ite_none_right_eq_some] at henter
  obtain ⟨hi, henter⟩ := henter
  obtain ⟨sched, hsched, rfl⟩ := Option.map_eq_some_iff.1 henter
  refine ⟨?_, rfl⟩
  have hids : (s.sched.ids i).2 = true := hi
  have hne : cur ≠ i := by
    rintro rfl
    rw [h.not_iProcess hcur] at hids
    contradiction
  obtain ⟨S₁, henter', hin, hleft⟩ := enter_leave hcur h.interrupted hne
    (h.regular.alwaysReady i hids)
  obtain rfl : S₁ = sched := Option.some.inj (henter'.symm.trans hsched)
  have hids₁ : S₁.ids = s.sched.ids := by
    rw [← ids_left i cur, hleft, ids_setState]
  refine ⟨⟨hin.current, fun p hp => ?_, ?_⟩, hin.interrupted, rfl, by rw [hids₁]; exact hids, hl⟩
  · obtain rfl : cur = p := Option.some.inj (hin.interrupted.symm.trans hp)
    exact ⟨hin, by rw [hids₁]; exact hids⟩
  · rw [seen_of_some hin.current hin.interrupted, hleft]
    have hflag : ({ s with sched := s.sched.setState cur .executing, flag := false } : Kernel n) =
        { s with sched := s.sched.setState cur .executing } := by
      rw [← h.flag]
    rw [hflag]
    exact .one (l := Act.restore cur) hcur rfl

theorem Rested.enter {pid : ℤ} {turn : Kernel n → Option (Kernel n)} (h : s.Rested initTable)
    (hcur : s.sched.currentProcess = some cur) (hl : l.isSignal = true)
    (hstep : s.handleSignal pid turn = some s') :
    ∃ i t t', pcbOf n pid = some i ∧ Turning s l i cur t ∧ t.ipc = s.ipc ∧ turn t = some t' ∧
      t'.exit = some s' := by
  obtain ⟨i, hpcb, hrest⟩ := Option.bind_eq_some_iff.1 hstep
  obtain ⟨t, henter, hrest'⟩ := Option.bind_eq_some_iff.1 hrest
  obtain ⟨t', hrun, hexit⟩ := Option.bind_eq_some_iff.1 hrest'
  obtain ⟨hturning, hipc⟩ := h.turning hcur hl henter
  exact ⟨i, t, t', hpcb, hturning, hipc, hrun, hexit⟩

theorem Turning.exit {i : Fin n} (h : Turning b l i p t) (hexit : t.exit = some s') :
    Reach Kernel.act (· = b) (Act.Ok b l) s' ∧ s'.ipc = t.ipc := by
  rw [Kernel.exit, if_pos h.flag] at hexit
  obtain ⟨sched, hsched, rfl⟩ := Option.map_eq_some_iff.1 hexit
  rw [kIProcessExit_eq (h.within p h.interrupted).1] at hsched
  cases hsched
  have hdone := h.done
  rw [seen_of_some h.current h.interrupted] at hdone
  exact ⟨hdone, rfl⟩

theorem Rested.handleSignal {pid : ℤ} {turn : Kernel n → Option (Kernel n)}
    (h : s.Rested initTable) (hcur : s.sched.currentProcess = some cur)
    (hl : l.isSignal = true) (hturn : ∀ i, pcbOf n pid = some i → ∀ t t', Turning s l i cur t →
      t.ipc = s.ipc → turn t = some t' → Turning s l i cur t')
    (hstep : s.handleSignal pid turn = some s') : Reach Kernel.act (· = s) (Act.Ok s l) s' := by
  obtain ⟨i, t, t', hpcb, hstart, hipc, hrun, hexit⟩ := h.enter hcur hl hstep
  exact ((hturn i hpcb t t' hstart hipc hrun).exit hexit).1

/-! ## Steps -/

/-- **Every step is a run of acts**, after which the kernel is at rest again. -/
theorem Rested.step (h : s.Rested initTable) (hcareful : s.Careful l)
    (hstep : s.step l = some s') :
    Reach Kernel.act (· = s) (Act.Ok s l) s' ∧ s'.Rested initTable := by
  suffices hreach : Reach Kernel.act (· = s) (Act.Ok s l) s' by
    refine ⟨hreach, hreach.invariant (fun t ht => ht ▸ h) fun t a t' _ ht hok hact => ?_⟩
    exact ht.act hok hact
  unfold Kernel.step at hstep
  split at hstep
  · contradiction
  rename_i cur context hrun
  obtain ⟨cur', hcur, heq⟩ := Option.map_eq_some_iff.1 hrun
  obtain ⟨rfl, hcontext⟩ := Prod.mk.inj heq
  cases l with
  | call c =>
    obtain ⟨o, ho, hleave⟩ := Option.bind_eq_some_iff.1 hstep
    obtain ⟨rfl, hprim⟩ := Option.ite_none_right_eq_some.1 ho
    exact h.primitive ⟨hcur, hcontext⟩ hcareful (Option.bind_eq_some_iff.2 ⟨o, hprim, hleave⟩)
  | resume => exact h.resumed hrun hstep
  | sigalrm =>
    obtain ⟨-, hsignal⟩ := Option.ite_none_right_eq_some.1 hstep
    exact h.handleSignal hcur rfl (fun i hi t t' ht _ => ht.startTimeoutIProcess hi rfl) hsignal
  | sigusr1 length data =>
    obtain ⟨-, hsignal⟩ := Option.ite_none_right_eq_some.1 hstep
    exact h.handleSignal hcur rfl (fun i _ t t' ht _ => ht.startKbIProcess) hsignal
  | sigusr2 first second =>
    obtain ⟨-, hsignal⟩ := Option.ite_none_right_eq_some.1 hstep
    exact h.handleSignal hcur rfl (fun i hi t t' ht => ht.startCrtIProcess hi rfl) hsignal
  | write env content =>
    obtain ⟨-, hwrite⟩ := Option.ite_none_right_eq_some.1 hstep
    cases hwrite
    exact .one (l := Act.mail (.write cur' env content)) ⟨hcur, hcareful cur' hcur env rfl⟩ rfl

end Kernel

end Rtx.Unix
