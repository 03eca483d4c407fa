import Rtx.Unix.Abc

/-!
# Envelopes of process C

The envelope that process C prints goes to the CRT and back, to the timer and back, and is then
known under three names. What each place may contain (`Fits`) tells that: an envelope that C has
sent comes back with the type C waits for, and nothing else does. So the first `release_msg_env`
behind a delay is proper, and the second is not: C respects the ownership of envelopes exactly in
those runs where it does not come to the second one (`process_c_respects_iff`).
-/

namespace Rtx.Unix

open Places Transition
open Coldfire (cstr putText wrap32)

namespace Abc

variable {α : Type} {s s' : Abc α} {l : AbcLabel α} {e x : α} {a b place : Place}
  {pid destPid : ℤ}

/-! ## What is where -/

/-- An envelope with an i-process goes back neither to A nor to B, and to C only where C waits. -/
def Returns (m : Envelope) (waiting : Prop) : Prop :=
  m.sendPid ≠ processAPid ∧ m.sendPid ≠ processBPid ∧ (m.sendPid = processCPid → waiting)

/-- What an envelope looks like, with C at `c`. -/
def Fits (c : CPc α) (e : α) (m : Envelope) : Place → Prop
  | .freeEnvQ => True
  | .recvMsgs pid =>
    (pid = processBPid → m.msgType = countReport) ∧
    (pid = processCPid → m.msgType = countReport ∨ (m.msgType = displayAck ∧ c = .awaitAck e) ∨
      (m.msgType = wakeup10 ∧ c = .awaitWakeup e e)) ∧
    (pid = crtIProcessPid → Returns m (c = .awaitAck e)) ∧
    (pid = timeoutIProcessPid → Returns m (c = .awaitWakeup e e ∧ m.msgType = wakeup10))
  | .held pid =>
    (pid = processBPid → m.msgType = countReport) ∧
    (pid = crtIProcessPid → Returns m (c = .awaitAck e)) ∧
    (pid = timeoutIProcessPid → Returns m (c = .awaitWakeup e e ∧ m.msgType = wakeup10))

/-- If C waits for `x`, it still does. -/
def StillAwaits (c c' : CPc α) (x : α) : Prop :=
  (c = .awaitAck x → c' = .awaitAck x) ∧ (c = .awaitWakeup x x → c' = .awaitWakeup x x)

/-- The envelope that process A has in hand. -/
def handA : APc α → List α
  | .releaseStart e | .fill e | .send e => [e]
  | _ => []

/-- The envelope that process C has in hand, beside `messageQueue`. -/
def handC : CPc α → List α
  | .check e | .print e | .delay e _ | .releaseRecMsg _ _ e | .releaseRecMsg2 none e
  | .releaseDeqMsg e => [e]
  | _ => []

/-- The names of process C are names of one envelope. -/
def Same (messageQueue : List α) : CPc α → Prop
  | .delay deqMsg recMsg | .awaitWakeup deqMsg recMsg => recMsg = deqMsg
  | .releaseRecMsg recMsg recMsg2 deqMsg =>
    (recMsg = none ∧ recMsg2 = none) ∨ (recMsg = some deqMsg ∧ recMsg2 = some deqMsg)
  | .releaseRecMsg2 (some recMsg2) deqMsg => recMsg2 = deqMsg ∧ deqMsg ∉ messageQueue
  | _ => True

structure HoldsA (s : Abc α) : Prop where
  hand : ∀ e ∈ handA s.a, e ∈ s.places (.held processAPid)
  count : ∀ e, s.a = .send e → (s.env e).msgType = countReport

def HoldsB (s : Abc α) : Prop := ∀ e, s.b = .send e → e ∈ s.places (.held processBPid)

structure HoldsC (s : Abc α) : Prop where
  held : (s.places (.held processCPid)).Perm (handC s.c ++ s.messageQueue)
  same : Same s.messageQueue s.c

/-- The CRT i-process may lose an envelope, but it has none twice. -/
structure HoldsCrt (s : Abc α) : Prop where
  nodup : (s.prevMsg.toList ++ s.displayQueue).Nodup
  held : ∀ e ∈ s.prevMsg.toList ++ s.displayQueue, e ∈ s.places (.held crtIProcessPid)

structure HoldsTimeout (s : Abc α) : Prop where
  nodup : s.timeoutQueue.Nodup
  held : ∀ e ∈ s.timeoutQueue, e ∈ s.places (.held timeoutIProcessPid)

def ProperC (s : Abc α) : Prop :=
  ∀ r ∈ s.releases, r.pid = processCPid → r.held = true ∧ r.free = false

/-- The invariant. -/
structure Owned (s : Abc α) : Prop where
  partition : Partition s.places
  fits : ∀ place, ∀ e ∈ s.places place, Fits s.c e (s.env e) place
  a : s.HoldsA
  b : s.HoldsB
  c : s.HoldsC
  crt : s.HoldsCrt
  timeout : s.HoldsTimeout
  proper : s.ProperC

/-! ## Handing over -/

theorem Fits.still {c c' : CPc α} {m : Envelope} (h : Fits c e m place)
    (hstill : StillAwaits c c' e) : Fits c' e m place := by
  cases place with
  | freeEnvQ => trivial
  | recvMsgs pid =>
    obtain ⟨hb, hc, hcrt, htimeout⟩ := h
    refine ⟨hb, fun hpid => ?_, fun hpid => ?_, fun hpid => ?_⟩
    · exact (hc hpid).imp_right (Or.imp (And.imp_right hstill.1) (And.imp_right hstill.2))
    · exact ⟨(hcrt hpid).1, (hcrt hpid).2.1, fun hsend => hstill.1 ((hcrt hpid).2.2 hsend)⟩
    · obtain ⟨hna, hnb, hreturn⟩ := htimeout hpid
      exact ⟨hna, hnb, fun hsend => (hreturn hsend).imp_left hstill.2⟩
  | held pid =>
    obtain ⟨hb, hcrt, htimeout⟩ := h
    refine ⟨hb, fun hpid => ?_, fun hpid => ?_⟩
    · exact ⟨(hcrt hpid).1, (hcrt hpid).2.1, fun hsend => hstill.1 ((hcrt hpid).2.2 hsend)⟩
    · obtain ⟨hna, hnb, hreturn⟩ := htimeout hpid
      exact ⟨hna, hnb, fun hsend => (hreturn hsend).imp_left hstill.2⟩

theorem StillAwaits.refl (c : CPc α) (x : α) : StillAwaits c c x := ⟨id, id⟩

/-- The envelope `e` goes from `a` to `b`; the fields of the others stay. -/
structure Handover (s s' : Abc α) (e : α) (a b : Place) : Prop where
  move : Move s.places s'.places e a b
  env : ∀ x, x ≠ e → s'.env x = s.env x

theorem Owned.fits_handover (h : s.Owned) (ho : Handover s s' e a b)
    (hfits : Fits s'.c e (s'.env e) b) (hstill : ∀ x, x ≠ e → StillAwaits s.c s'.c x) :
    ∀ place, ∀ x ∈ s'.places place, Fits s'.c x (s'.env x) place := by
  intro place x hx
  rcases (h.partition.mem_move ho.move).1 hx with ⟨rfl, rfl⟩ | ⟨hne, hx⟩
  · exact hfits
  · rw [ho.env x hne]
    exact (h.fits place x hx).still (hstill x hne)

theorem Owned.keepA (h : s.Owned) (ho : Handover s s' e a b) (ha : a ≠ .held processAPid)
    (hsame : s'.a = s.a) : s'.HoldsA where
  hand x hx := by
    rw [hsame] at hx
    exact h.partition.mem_of_move ho.move ha.symm (h.a.hand x hx)
  count x hx := by
    rw [hsame] at hx
    have hheld : x ∈ s.places (.held processAPid) := h.a.hand x (by rw [hx]; exact .head _)
    rw [ho.env x]
    · exact h.a.count x hx
    · rintro rfl
      exact ha (h.partition.unique ho.move.mem_src hheld)

theorem Owned.keepB (h : s.Owned) (ho : Handover s s' e a b) (ha : a ≠ .held processBPid)
    (hsame : s'.b = s.b) : s'.HoldsB := by
  intro x hx
  rw [hsame] at hx
  exact h.partition.mem_of_move ho.move ha.symm (h.b x hx)

theorem Owned.keepC (h : s.Owned) (ho : Handover s s' e a b) (ha : a ≠ .held processCPid)
    (hb : b ≠ .held processCPid) (hc : s'.c = s.c) (hqueue : s'.messageQueue = s.messageQueue) :
    s'.HoldsC where
  held := by
    rw [ho.move.other _ ha.symm hb.symm, hc, hqueue]
    exact h.c.held
  same := by
    rw [hc, hqueue]
    exact h.c.same

theorem Owned.keepCrt (h : s.Owned) (ho : Handover s s' e a b) (ha : a ≠ .held crtIProcessPid)
    (hprev : s'.prevMsg = s.prevMsg) (hdisplay : s'.displayQueue = s.displayQueue) :
    s'.HoldsCrt where
  nodup := by
    rw [hprev, hdisplay]
    exact h.crt.nodup
  held x hx := by
    rw [hprev, hdisplay] at hx
    exact h.partition.mem_of_move ho.move ha.symm (h.crt.held x hx)

theorem Owned.keepTimeout (h : s.Owned) (ho : Handover s s' e a b)
    (ha : a ≠ .held timeoutIProcessPid) (hqueue : s'.timeoutQueue = s.timeoutQueue) :
    s'.HoldsTimeout where
  nodup := by
    rw [hqueue]
    exact h.timeout.nodup
  held x hx := by
    rw [hqueue] at hx
    exact h.partition.mem_of_move ho.move ha.symm (h.timeout.held x hx)

theorem ProperC.append (h : s.ProperC) {r : Release α} (hr : r.held = true ∧ r.free = false)
    (hreleases : s'.releases = s.releases ++ [r]) : s'.ProperC := by
  intro r' hr' hpid
  rw [hreleases] at hr'
  rcases List.mem_append.1 hr' with hold | hnew
  · exact h r' hold hpid
  · rw [List.mem_singleton.1 hnew]
    exact hr

/-- C and the i-processes take no part in it. -/
theorem Owned.handover (h : s.Owned) (ho : Handover s s' e a b)
    (ha : a ≠ .held processCPid ∧ a ≠ .held crtIProcessPid ∧ a ≠ .held timeoutIProcessPid)
    (hb : b ≠ .held processCPid) (hc : s'.c = s.c ∧ s'.messageQueue = s.messageQueue)
    (hqueues : s'.prevMsg = s.prevMsg ∧ s'.displayQueue = s.displayQueue ∧
      s'.timeoutQueue = s.timeoutQueue) (hfits : Fits s.c e (s'.env e) b) (hholdsA : s'.HoldsA)
    (hholdsB : s'.HoldsB) (hproper : s'.ProperC) : s'.Owned where
  partition := h.partition.move ho.move
  fits := by
    apply h.fits_handover ho
    · rw [hc.1]
      exact hfits
    · intro x _
      rw [hc.1]
      exact .refl _ x
  a := hholdsA
  b := hholdsB
  c := h.keepC ho ha.1 hb hc.1 hc.2
  crt := h.keepCrt ho ha.2.1 hqueues.1 hqueues.2.1
  timeout := h.keepTimeout ho ha.2.2 hqueues.2.2
  proper := hproper

/-! ## The steps of C -/

theorem Owned.goto (h : s.Owned) {c : CPc α} {messageQueue : List α}
    (hheld : (handC c ++ messageQueue).Perm (handC s.c ++ s.messageQueue))
    (hsame : Same messageQueue c) (hstill : ∀ x, StillAwaits s.c c x) :
    Owned { s with c := c, messageQueue := messageQueue } where
  partition := h.partition
  fits place e he := (h.fits place e he).still (hstill e)
  a := ⟨h.a.hand, h.a.count⟩
  b := h.b
  c := ⟨h.c.held.trans hheld.symm, hsame⟩
  crt := ⟨h.crt.nodup, h.crt.held⟩
  timeout := ⟨h.timeout.nodup, h.timeout.held⟩
  proper := h.proper

/-- C receives, and knows the message by another name or puts it off. -/
theorem Owned.receiveC (h : s.Owned) {places : Place → List α} {c : CPc α} {messageQueue : List α}
    (hm : Move s.places places e (.recvMsgs processCPid) (.held processCPid))
    (hheld : (handC c ++ messageQueue).Perm (e :: (handC s.c ++ s.messageQueue)))
    (hsame : Same messageQueue c) (hstill : ∀ x, x ≠ e → StillAwaits s.c c x) :
    Owned { s with places := places, c := c, messageQueue := messageQueue } := by
  have ho : Handover s { s with places := places, c := c, messageQueue := messageQueue } e
      (.recvMsgs processCPid) (.held processCPid) := ⟨hm, fun _ _ => rfl⟩
  refine ⟨h.partition.move hm, h.fits_handover ho ?_ hstill, h.keepA ho (by decide) rfl,
    h.keepB ho (by decide) rfl, ⟨?_, hsame⟩, h.keepCrt ho (by decide) rfl rfl,
    h.keepTimeout ho (by decide) rfl, h.proper⟩
  · simp [Fits, processBPid, processCPid, crtIProcessPid, timeoutIProcessPid]
  · exact hm.dst.trans ((h.c.held.cons e).trans hheld.symm)

/-- C receives a message it does not wait for, and puts it off. -/
theorem Owned.putOff (h : s.Owned) {places : Place → List α}
    (hm : Move s.places places e (.recvMsgs processCPid) (.held processCPid))
    (hsame : Same (s.messageQueue ++ [e]) s.c) :
    Owned { s with places := places, messageQueue := s.messageQueue ++ [e] } := by
  apply h.receiveC hm _ hsame
  · exact fun x _ => .refl _ x
  · rw [← List.append_assoc]
    exact List.perm_append_singleton _ _

theorem Owned.releaseC (h : s.Owned) {places : Place → List α} {c : CPc α}
    (hm : Move s.places places e (.held processCPid) .freeEnvQ)
    (hhand : handC s.c = [e]) (hhand' : handC c = []) (hsame : Same s.messageQueue c)
    (hstill : ∀ x, StillAwaits s.c c x) :
    Owned { s with
      places := places
      releases := s.releases ++ [⟨processCPid, e, true, false⟩]
      c := c } := by
  have ho : Handover s { s with
      places := places
      releases := s.releases ++ [⟨processCPid, e, true, false⟩]
      c := c } e (.held processCPid) .freeEnvQ := ⟨hm, fun _ _ => rfl⟩
  have hheld := hm.src.symm.trans h.c.held
  rw [hhand] at hheld
  refine ⟨h.partition.move hm, h.fits_handover ho trivial fun x _ => hstill x,
    h.keepA ho (by decide) rfl, h.keepB ho (by decide) rfl, ⟨?_, hsame⟩,
    h.keepCrt ho (by decide) rfl rfl, h.keepTimeout ho (by decide) rfl,
    h.proper.append ⟨rfl, rfl⟩ rfl⟩
  show (places (.held processCPid)).Perm (handC c ++ s.messageQueue)
  rw [hhand']
  exact hheld.cons_inv

theorem Owned.hand (h : s.Owned) (hhand : handC s.c = [e]) :
    e ∈ s.places (.held processCPid) ∧ e ∉ s.messageQueue := by
  have hheld := h.c.held
  rw [hhand] at hheld
  exact ⟨hheld.mem_iff.2 List.mem_cons_self,
    (List.nodup_cons.1 (hheld.nodup_iff.1 (h.partition.nodup _))).1⟩

theorem StillAwaits.of_ne {c : CPc α} (hack : ∀ d, c ≠ .awaitAck d)
    (hwakeup : ∀ d r, c ≠ .awaitWakeup d r) (c' : CPc α) (x : α) : StillAwaits c c' x :=
  ⟨fun hc => absurd hc (hack x), fun hc => absurd hc (hwakeup x x)⟩

/-- What comes to C while it waits for the acknowledgement. -/
theorem Owned.answer_ack (h : s.Owned) {d : α} (hc : s.c = .awaitAck d)
    (he : e ∈ s.places (.recvMsgs processCPid)) :
    (s.env e).msgType = countReport ∨ (s.env e).msgType = displayAck ∧ e = d := by
  rcases (h.fits _ e he).2.1 rfl with hcount | ⟨hack, hwait⟩ | ⟨-, hwait⟩
  · exact .inl hcount
  · rw [hc] at hwait
    cases hwait
    exact .inr ⟨hack, rfl⟩
  · rw [hc] at hwait
    cases hwait

/-- What comes to C during the delay. -/
theorem Owned.answer_wakeup (h : s.Owned) {d r : α} (hc : s.c = .awaitWakeup d r)
    (he : e ∈ s.places (.recvMsgs processCPid)) :
    (s.env e).msgType = countReport ∨ (s.env e).msgType = wakeup10 ∧ e = d := by
  rcases (h.fits _ e he).2.1 rfl with hcount | ⟨-, hwait⟩ | ⟨hwakeup, hwait⟩
  · exact .inl hcount
  · rw [hc] at hwait
    cases hwait
  · rw [hc] at hwait
    cases hwait
    exact .inr ⟨hwakeup, rfl⟩

/-- What an i-process sends goes to none of A and B, and to C if that waits for it. -/
theorem fits_iProcess {c : CPc α} {m : Envelope}
    (hsend : m.sendPid = crtIProcessPid ∨ m.sendPid = timeoutIProcessPid)
    (hb : destPid ≠ processBPid) (hc : destPid = processCPid →
      (m.msgType = displayAck ∧ c = .awaitAck e) ∨ (m.msgType = wakeup10 ∧ c = .awaitWakeup e e)) :
    Fits c e m (.recvMsgs destPid) := by
  have hreturn : ∀ waiting, Returns m waiting := by
    intro waiting
    rcases hsend with hsend | hsend <;>
      simp [Returns, hsend, processAPid, processBPid, processCPid, crtIProcessPid,
        timeoutIProcessPid]
  exact ⟨fun hpid => absurd hpid hb, fun hpid => .inr (hc hpid), fun _ => hreturn _,
    fun _ => hreturn _⟩

/-! ## The primitives -/

theorem kReceiveMessage_eq {t : Abc α} (h : s.kReceiveMessage pid = (some e, t)) :
    ∃ places, t = { s with places := places } ∧
      Move s.places places e (.recvMsgs pid) (.held pid) := by
  unfold kReceiveMessage at h
  split at h
  · cases h
  · next msgEnv recvMsgs hrecv =>
    cases h
    refine ⟨_, rfl, move_shift (by simp) ?_ (List.Perm.refl _)⟩
    rw [hrecv]

theorem kReceiveMessage_none {t : Abc α} (h : s.kReceiveMessage pid = (none, t)) : t = s := by
  unfold kReceiveMessage at h
  split at h
  · cases h
    rfl
  · cases h

theorem kRequestMsgEnv_eq {t : Abc α} (h : s.kRequestMsgEnv pid = (some e, t)) :
    ∃ places, t = { s with places := places } ∧ Move s.places places e .freeEnvQ (.held pid) := by
  unfold kRequestMsgEnv at h
  split at h
  · cases h
  · next msgEnv freeEnvQ hfree =>
    cases h
    refine ⟨_, rfl, move_shift (by simp) ?_ (List.Perm.refl _)⟩
    rw [hfree]

theorem kRequestMsgEnv_none {t : Abc α} (h : s.kRequestMsgEnv pid = (none, t)) : t = s := by
  unfold kRequestMsgEnv at h
  split at h
  · cases h
    rfl
  · cases h

variable [DecidableEq α]

theorem setEnv_env_of_ne (fields : Envelope) (hx : x ≠ e) : (s.setEnv e fields).env x = s.env x :=
  Function.update_of_ne hx _ _

@[simp] theorem setEnv_env_self (fields : Envelope) : (s.setEnv e fields).env e = fields :=
  Function.update_self ..

@[simp] theorem setEnv_setEnv (fields fields' : Envelope) :
    (s.setEnv e fields).setEnv e fields' = s.setEnv e fields' := by
  simp [setEnv]

/-- What a process sends, it held. -/
theorem kSendMessage_eq (he : e ∈ s.places (.held pid))
    (hdest : 0 ≤ destPid ∧ destPid < totalNumProcesses) :
    ∃ places, (s.kSendMessage pid destPid e).2 =
        { s.setEnv e { s.env e with sendPid := pid, destPid := destPid } with places := places } ∧
      Move s.places places e (.held pid) (.recvMsgs destPid) := by
  unfold kSendMessage
  rw [if_neg (by omega)]
  exact ⟨_, rfl, move_shift (by simp) (List.perm_cons_erase he) (List.perm_append_singleton _ _)⟩

theorem kSendMessage_illegal (hdest : ¬ (0 ≤ destPid ∧ destPid < totalNumProcesses)) :
    (s.kSendMessage pid destPid e).2 = s := by
  unfold kSendMessage
  rw [if_pos (by omega)]

theorem kSendMessage_setEnv (fields : Envelope) (he : e ∈ s.places (.held pid))
    (hdest : 0 ≤ destPid ∧ destPid < totalNumProcesses) :
    ∃ places, ((s.setEnv e fields).kSendMessage pid destPid e).2 =
        { s.setEnv e { fields with sendPid := pid, destPid := destPid } with places := places } ∧
      Move s.places places e (.held pid) (.recvMsgs destPid) := by
  obtain ⟨places, heq, hm⟩ := kSendMessage_eq (s := s.setEnv e fields) he hdest
  rw [setEnv_setEnv, setEnv_env_self] at heq
  exact ⟨places, heq, hm⟩

theorem kSendConsoleChars_eq (fields : Envelope) (he : e ∈ s.places (.held pid)) :
    ∃ places, ((s.setEnv e fields).kSendConsoleChars pid e).2 =
        { s.setEnv e { fields with
            msgType := consoleOutput
            sendPid := pid
            destPid := crtIProcessPid } with places := places } ∧
      Move s.places places e (.held pid) (.recvMsgs crtIProcessPid) := by
  rw [kSendConsoleChars, setEnv_setEnv, setEnv_env_self]
  exact kSendMessage_setEnv _ he (by decide)

theorem kRequestDelay_eq (timeDelay wakeupCode : ℤ) (he : e ∈ s.places (.held pid)) :
    ∃ places, (s.kRequestDelay pid timeDelay wakeupCode e).2 =
        { s.setEnv e { s.env e with
            msgType := wakeupCode
            msg := putInt (s.env e).msg timeDelay
            sendPid := pid
            destPid := timeoutIProcessPid } with places := places } ∧
      Move s.places places e (.held pid) (.recvMsgs timeoutIProcessPid) :=
  kSendMessage_setEnv _ he (by decide)

theorem kReleaseMsgEnv_eq (hp : Partition s.places) (he : e ∈ s.places (.held pid)) :
    ∃ places, (s.kReleaseMsgEnv pid (some e)).2 =
        { s with places := places, releases := s.releases ++ [⟨pid, e, true, false⟩] } ∧
      Move s.places places e (.held pid) .freeEnvQ := by
  have hfree : e ∉ s.places .freeEnvQ := hp.not_mem he (by simp)
  simp only [kReleaseMsgEnv, he, hfree, decide_true, decide_false]
  exact ⟨_, rfl, move_shift (by simp) (List.perm_cons_erase he) (List.perm_append_singleton _ _)⟩

/-- The holder of an envelope writes to it. -/
theorem Owned.fits_write (h : s.Owned) {fields : Envelope} (he : e ∈ s.places a)
    (hfits : Fits s.c e fields a) :
    ∀ place, ∀ x ∈ s.places place, Fits s.c x ((s.setEnv e fields).env x) place := by
  intro place x hx
  by_cases hxe : x = e
  · subst hxe
    rw [h.partition.unique hx he, setEnv_env_self]
    exact hfits
  · rw [setEnv_env_of_ne fields hxe]
    exact h.fits place x hx

/-! ## Processes A and B -/

theorem Owned.processA_start (h : s.Owned) (ha : s.a = .start)
    (hstep : s.processA = some s') : s'.Owned := by
  unfold Abc.processA at hstep
  simp only [ha] at hstep
  split at hstep
  · next startMsg t hrecv =>
    obtain ⟨places, rfl, hm⟩ := kReceiveMessage_eq hrecv
    cases hstep
    have ho : Handover s
        { s with places := places, a := .releaseStart startMsg } startMsg
        (.recvMsgs processAPid) (.held processAPid) := ⟨hm, fun _ _ => rfl⟩
    refine h.handover ho (by decide) (by decide) ⟨rfl, rfl⟩ ⟨rfl, rfl, rfl⟩ ?_ ⟨?_, nofun⟩
      (h.keepB ho (by decide) rfl) h.proper
    · simp [Fits, processAPid, processBPid, crtIProcessPid, timeoutIProcessPid]
    · intro x hx
      rw [List.mem_singleton.1 hx]
      exact hm.mem_dst
  · contradiction

theorem Owned.processA_releaseStart {startMsg : α} (h : s.Owned) (ha : s.a = .releaseStart startMsg)
    (hstep : s.processA = some s') : s'.Owned := by
  have hhand := h.a.hand
  unfold Abc.processA at hstep
  simp only [ha, Option.some.injEq] at hstep
  rw [ha] at hhand
  obtain ⟨places, heq, hm⟩ := kReleaseMsgEnv_eq h.partition (hhand startMsg List.mem_cons_self)
  rw [heq] at hstep
  subst hstep
  have ho : Handover s { s with
      places := places
      releases := s.releases ++ [⟨processAPid, startMsg, true, false⟩]
      a := .request
      counter := 0 } startMsg (.held processAPid) .freeEnvQ := ⟨hm, fun _ _ => rfl⟩
  exact h.handover ho (by decide) (by decide) ⟨rfl, rfl⟩ ⟨rfl, rfl, rfl⟩ trivial ⟨nofun, nofun⟩
    (h.keepB ho (by decide) rfl) (h.proper.append ⟨rfl, rfl⟩ rfl)

theorem Owned.processA_request (h : s.Owned) (ha : s.a = .request)
    (hstep : s.processA = some s') : s'.Owned := by
  unfold Abc.processA at hstep
  simp only [ha] at hstep
  split at hstep
  · next countMsg t hrequest =>
    obtain ⟨places, rfl, hm⟩ := kRequestMsgEnv_eq hrequest
    cases hstep
    have ho : Handover s { s with places := places, a := .fill countMsg } countMsg .freeEnvQ
        (.held processAPid) := ⟨hm, fun _ _ => rfl⟩
    refine h.handover ho (by decide) (by decide) ⟨rfl, rfl⟩ ⟨rfl, rfl, rfl⟩ ?_ ⟨?_, nofun⟩
      (h.keepB ho (by decide) rfl) h.proper
    · simp [Fits, processAPid, processBPid, crtIProcessPid, timeoutIProcessPid]
    · intro x hx
      rw [List.mem_singleton.1 hx]
      exact hm.mem_dst
  · contradiction

theorem Owned.processA_fill {countMsg : α} (h : s.Owned) (ha : s.a = .fill countMsg)
    (hstep : s.processA = some s') : s'.Owned := by
  have hhand := h.a.hand
  unfold Abc.processA at hstep
  simp only [ha, Option.some.injEq] at hstep
  subst hstep
  rw [ha] at hhand
  have hheld := hhand countMsg List.mem_cons_self
  refine ⟨h.partition, h.fits_write hheld ?_, ⟨hhand, fun x hx => ?_⟩, h.b,
    ⟨h.c.held, h.c.same⟩, ⟨h.crt.nodup, h.crt.held⟩, ⟨h.timeout.nodup, h.timeout.held⟩, h.proper⟩
  · simp [Fits, processAPid, processBPid, crtIProcessPid, timeoutIProcessPid]
  · cases hx
    exact congrArg Envelope.msgType (setEnv_env_self _)

theorem Owned.processA_send {countMsg : α} (h : s.Owned) (ha : s.a = .send countMsg)
    (hstep : s.processA = some s') : s'.Owned := by
  have hhand := h.a.hand
  unfold Abc.processA at hstep
  simp only [ha, Option.some.injEq] at hstep
  rw [ha] at hhand
  obtain ⟨places, heq, hm⟩ := kSendMessage_eq (hhand countMsg List.mem_cons_self)
    (show 0 ≤ processBPid ∧ processBPid < totalNumProcesses by decide)
  rw [heq] at hstep
  subst hstep
  have ho : Handover s { s.setEnv countMsg { s.env countMsg with
        sendPid := processAPid
        destPid := processBPid } with places := places, a := .yield }
      countMsg (.held processAPid) (.recvMsgs processBPid) :=
    ⟨hm, fun x hx => setEnv_env_of_ne _ hx⟩
  refine h.handover ho (by decide) (by decide) ⟨rfl, rfl⟩ ⟨rfl, rfl, rfl⟩ ?_ ⟨nofun, nofun⟩
    (h.keepB ho (by decide) rfl) h.proper
  have htype : (s.env countMsg).msgType = countReport := h.a.count countMsg ha
  show Fits s.c countMsg ((s.setEnv countMsg _).env countMsg) _
  rw [setEnv_env_self]
  simp [Fits, htype, processBPid, processCPid, crtIProcessPid, timeoutIProcessPid]

theorem Owned.processA_yield (h : s.Owned) (ha : s.a = .yield)
    (hstep : s.processA = some s') : s'.Owned := by
  unfold Abc.processA at hstep
  simp only [ha, Option.some.injEq] at hstep
  subst hstep
  exact ⟨h.partition, h.fits, ⟨nofun, nofun⟩, h.b, ⟨h.c.held, h.c.same⟩,
    ⟨h.crt.nodup, h.crt.held⟩, ⟨h.timeout.nodup, h.timeout.held⟩, h.proper⟩

theorem Owned.processA (h : s.Owned) (hstep : s.processA = some s') : s'.Owned := by
  cases ha : s.a with
  | start => exact h.processA_start ha hstep
  | releaseStart startMsg => exact h.processA_releaseStart ha hstep
  | request => exact h.processA_request ha hstep
  | fill countMsg => exact h.processA_fill ha hstep
  | send countMsg => exact h.processA_send ha hstep
  | yield => exact h.processA_yield ha hstep

theorem Owned.processB (h : s.Owned) (hstep : s.processB = some s') : s'.Owned := by
  unfold Abc.processB at hstep
  cases hb : s.b with
  | receive =>
    simp only [hb] at hstep
    split at hstep
    · next receivedMsg t hrecv =>
      obtain ⟨places, rfl, hm⟩ := kReceiveMessage_eq hrecv
      cases hstep
      have ho : Handover s { s with places := places, b := .send receivedMsg } receivedMsg
          (.recvMsgs processBPid) (.held processBPid) := ⟨hm, fun _ _ => rfl⟩
      refine h.handover ho (by decide) (by decide) ⟨rfl, rfl⟩ ⟨rfl, rfl, rfl⟩ ?_
        (h.keepA ho (by decide) rfl) ?_ h.proper
      · have htype : (s.env receivedMsg).msgType = countReport :=
          (h.fits _ receivedMsg hm.mem_src).1 rfl
        simp [Fits, htype, processBPid, crtIProcessPid, timeoutIProcessPid]
      · intro x hx
        cases hx
        exact hm.mem_dst
    · contradiction
  | send receivedMsg =>
    simp only [hb, Option.some.injEq] at hstep
    have hheld := h.b receivedMsg hb
    obtain ⟨places, heq, hm⟩ := kSendMessage_eq hheld
      (show 0 ≤ processCPid ∧ processCPid < totalNumProcesses by decide)
    rw [heq] at hstep
    subst hstep
    have ho : Handover s { s.setEnv receivedMsg { s.env receivedMsg with
          sendPid := processBPid
          destPid := processCPid } with places := places, b := .receive }
        receivedMsg (.held processBPid) (.recvMsgs processCPid) :=
      ⟨hm, fun x hx => setEnv_env_of_ne _ hx⟩
    refine h.handover ho (by decide) (by decide) ⟨rfl, rfl⟩ ⟨rfl, rfl, rfl⟩ ?_
      (h.keepA ho (by decide) rfl) nofun h.proper
    have htype : (s.env receivedMsg).msgType = countReport := (h.fits _ receivedMsg hheld).1 rfl
    show Fits s.c receivedMsg ((s.setEnv receivedMsg _).env receivedMsg) _
    rw [setEnv_env_self]
    simp [Fits, htype, processBPid, processCPid, crtIProcessPid, timeoutIProcessPid]

/-! ## Process C -/

theorem Owned.sendC (h : s.Owned) {fields : Envelope} {places : Place → List α} {c : CPc α}
    (hm : Move s.places places e (.held processCPid) (.recvMsgs destPid))
    (hhand : handC s.c = [e]) (hhand' : handC c = []) (hsame : Same s.messageQueue c)
    (hfits : Fits c e fields (.recvMsgs destPid)) (hstill : ∀ x, x ≠ e → StillAwaits s.c c x) :
    Owned { s.setEnv e fields with places := places, c := c } := by
  have ho : Handover s { s.setEnv e fields with places := places, c := c } e (.held processCPid)
      (.recvMsgs destPid) := ⟨hm, fun x hx => setEnv_env_of_ne fields hx⟩
  have hheld := hm.src.symm.trans h.c.held
  rw [hhand] at hheld
  refine ⟨h.partition.move hm, h.fits_handover ho ?_ hstill, h.keepA ho (by decide) rfl,
    h.keepB ho (by decide) rfl, ⟨?_, hsame⟩, h.keepCrt ho (by decide) rfl rfl,
    h.keepTimeout ho (by decide) rfl, h.proper⟩
  · show Fits c e ((s.setEnv e fields).env e) _
    rw [setEnv_env_self]
    exact hfits
  · show (places (.held processCPid)).Perm (handC c ++ s.messageQueue)
    rw [hhand']
    exact hheld.cons_inv

theorem Owned.processC_test (h : s.Owned) (hc : s.c = .test)
    (hstep : s.processC = some s') : s'.Owned := by
  unfold Abc.processC at hstep
  simp only [hc, Option.some.injEq] at hstep
  subst hstep
  apply h.goto
  · rw [hc]
    split <;> exact .refl _
  · split <;> trivial
  · exact fun x => .of_ne (by simp [hc]) (by simp [hc]) _ x

theorem Owned.processC_receive (h : s.Owned) (hc : s.c = .receive)
    (hstep : s.processC = some s') : s'.Owned := by
  unfold Abc.processC at hstep
  simp only [hc] at hstep
  split at hstep
  · next receivedMsg t hrecv =>
    obtain ⟨places, rfl, hm⟩ := kReceiveMessage_eq hrecv
    cases hstep
    apply h.receiveC hm
    · rw [hc]
      exact List.perm_append_singleton _ _
    · trivial
    · exact fun x _ => .of_ne (by simp [hc]) (by simp [hc]) _ x
  · contradiction

theorem Owned.processC_dequeue (h : s.Owned) (hc : s.c = .dequeue)
    (hstep : s.processC = some s') : s'.Owned := by
  unfold Abc.processC at hstep
  simp only [hc] at hstep
  split at hstep
  · next deqMsg messageQueue hqueue =>
    cases hstep
    apply h.goto
    · rw [hc, hqueue]
      exact .refl _
    · trivial
    · exact fun x => .of_ne (by simp [hc]) (by simp [hc]) _ x
  · contradiction

theorem Owned.processC_check {deqMsg : α} (h : s.Owned) (hc : s.c = .check deqMsg)
    (hstep : s.processC = some s') : s'.Owned := by
  unfold Abc.processC at hstep
  simp only [hc] at hstep
  split at hstep
  · cases hstep
    apply h.goto
    · rw [hc]
      exact .refl _
    · trivial
    · exact fun x => .of_ne (by simp [hc]) (by simp [hc]) _ x
  · cases hstep
    apply h.goto
    · rw [hc]
      exact .refl _
    · exact .inl ⟨rfl, rfl⟩
    · exact fun x => .of_ne (by simp [hc]) (by simp [hc]) _ x

theorem Owned.processC_print {deqMsg : α} (h : s.Owned) (hc : s.c = .print deqMsg)
    (hstep : s.processC = some s') : s'.Owned := by
  unfold Abc.processC at hstep
  simp only [hc, Option.some.injEq] at hstep
  have hhand : handC s.c = [deqMsg] := by rw [hc]; rfl
  obtain ⟨places, heq, hm⟩ := kSendConsoleChars_eq { s.env deqMsg with
    msg := putText (s.env deqMsg).msg (cstr "\nProcess C\n") } (h.hand hhand).1
  rw [heq] at hstep
  subst hstep
  apply h.sendC hm hhand rfl
  · trivial
  · simp [Fits, Returns, processAPid, processBPid, processCPid, crtIProcessPid,
      timeoutIProcessPid]
  · exact fun x _ => .of_ne (by simp [hc]) (by simp [hc]) _ x

theorem Owned.processC_awaitAck {deqMsg : α} (h : s.Owned) (hc : s.c = .awaitAck deqMsg)
    (hstep : s.processC = some s') : s'.Owned := by
  unfold Abc.processC at hstep
  simp only [hc] at hstep
  split at hstep
  · next recMsg t hrecv =>
    obtain ⟨places, rfl, hm⟩ := kReceiveMessage_eq hrecv
    rcases h.answer_ack hc hm.mem_src with hcount | ⟨hack, rfl⟩
    · have htype : (s.env recMsg).msgType ≠ displayAck := by
        rw [hcount]
        decide
      rw [if_neg htype, if_pos hcount] at hstep
      cases hstep
      exact h.putOff hm (by simp [hc, Same])
    · rw [if_pos hack] at hstep
      cases hstep
      apply h.receiveC hm
      · rw [hc]
        exact .refl _
      · rfl
      · intro x hx
        rw [hc]
        refine ⟨fun hwait => ?_, nofun⟩
        cases hwait
        exact absurd rfl hx
  · contradiction

theorem Owned.processC_delay {deqMsg recMsg : α} (h : s.Owned) (hc : s.c = .delay deqMsg recMsg)
    (hstep : s.processC = some s') : s'.Owned := by
  unfold Abc.processC at hstep
  have hsame := h.c.same
  simp only [hc, Option.some.injEq] at hstep
  have hhand : handC s.c = [deqMsg] := by rw [hc]; rfl
  rw [hc] at hsame
  obtain rfl : recMsg = deqMsg := hsame
  obtain ⟨places, heq, hm⟩ := kRequestDelay_eq 100 wakeup10 (h.hand hhand).1
  rw [heq] at hstep
  subst hstep
  apply h.sendC hm hhand rfl
  · rfl
  · simp [Fits, Returns, processAPid, processBPid, processCPid, crtIProcessPid,
      timeoutIProcessPid]
  · exact fun x _ => .of_ne (by simp [hc]) (by simp [hc]) _ x

theorem Owned.processC_awaitWakeup {deqMsg recMsg : α} (h : s.Owned)
    (hc : s.c = .awaitWakeup deqMsg recMsg) (hstep : s.processC = some s') : s'.Owned := by
  unfold Abc.processC at hstep
  have hsame := h.c.same
  simp only [hc] at hstep
  rw [hc] at hsame
  obtain rfl : recMsg = deqMsg := hsame
  split at hstep
  · next recMsg2 t hrecv =>
    obtain ⟨places, rfl, hm⟩ := kReceiveMessage_eq hrecv
    rcases h.answer_wakeup hc hm.mem_src with hcount | ⟨hwakeup, rfl⟩
    · have htype : (s.env recMsg2).msgType ≠ wakeup10 := by
        rw [hcount]
        decide
      rw [if_neg htype] at hstep
      cases hstep
      exact h.putOff hm (by simp [hc, Same])
    · rw [if_pos hwakeup] at hstep
      cases hstep
      apply h.receiveC hm
      · rw [hc]
        exact .refl _
      · exact .inr ⟨rfl, rfl⟩
      · intro x hx
        rw [hc]
        refine ⟨nofun, fun hwait => ?_⟩
        cases hwait
        exact absurd rfl hx
  · contradiction

/-- C releases what came first, unless that was put off. -/
theorem Owned.processC_releaseRecMsg {recMsg recMsg2 : Option α} {deqMsg : α} (h : s.Owned)
    (hc : s.c = .releaseRecMsg recMsg recMsg2 deqMsg) (hstep : s.processC = some s') :
    s'.Owned := by
  unfold Abc.processC at hstep
  have hsame := h.c.same
  simp only [hc, Option.some.injEq] at hstep
  have hhand : handC s.c = [deqMsg] := by rw [hc]; rfl
  rw [hc] at hsame
  rcases hsame with ⟨rfl, rfl⟩ | ⟨rfl, rfl⟩
  · subst hstep
    apply h.goto
    · rw [hc]
      exact .refl _
    · trivial
    · exact fun x => .of_ne (by simp [hc]) (by simp [hc]) _ x
  · obtain ⟨places, heq, hm⟩ := kReleaseMsgEnv_eq h.partition (h.hand hhand).1
    rw [heq] at hstep
    subst hstep
    apply h.releaseC hm hhand rfl
    · exact ⟨rfl, (h.hand hhand).2⟩
    · exact fun x => .of_ne (by simp [hc]) (by simp [hc]) _ x

theorem Owned.processC_releaseRecMsg2 {recMsg2 : Option α} {deqMsg : α} (h : s.Owned)
    (hok : s.NotDelayed .processC) (hc : s.c = .releaseRecMsg2 recMsg2 deqMsg)
    (hstep : s.processC = some s') : s'.Owned := by
  unfold Abc.processC at hstep
  simp only [hc, Option.some.injEq] at hstep
  cases recMsg2 with
  | some recMsg2 => exact absurd hc (hok recMsg2 deqMsg rfl)
  | none =>
    subst hstep
    apply h.goto
    · rw [hc]
      exact .refl _
    · trivial
    · exact fun x => .of_ne (by simp [hc]) (by simp [hc]) _ x

theorem Owned.processC_releaseDeqMsg {deqMsg : α} (h : s.Owned) (hc : s.c = .releaseDeqMsg deqMsg)
    (hstep : s.processC = some s') : s'.Owned := by
  unfold Abc.processC at hstep
  simp only [hc, Option.some.injEq] at hstep
  have hhand : handC s.c = [deqMsg] := by rw [hc]; rfl
  obtain ⟨places, heq, hm⟩ := kReleaseMsgEnv_eq h.partition (h.hand hhand).1
  rw [heq] at hstep
  subst hstep
  apply h.releaseC hm hhand rfl
  · trivial
  · exact fun x => .of_ne (by simp [hc]) (by simp [hc]) _ x

theorem Owned.processC_yield (h : s.Owned) (hc : s.c = .yield)
    (hstep : s.processC = some s') : s'.Owned := by
  unfold Abc.processC at hstep
  simp only [hc, Option.some.injEq] at hstep
  subst hstep
  apply h.goto
  · rw [hc]
    exact .refl _
  · trivial
  · exact fun x => .of_ne (by simp [hc]) (by simp [hc]) _ x

/-- C keeps to what it has, if it releases nothing twice. -/
theorem Owned.processC (h : s.Owned) (hok : s.NotDelayed .processC)
    (hstep : s.processC = some s') : s'.Owned := by
  cases hc : s.c with
  | test => exact h.processC_test hc hstep
  | receive => exact h.processC_receive hc hstep
  | dequeue => exact h.processC_dequeue hc hstep
  | check deqMsg => exact h.processC_check hc hstep
  | print deqMsg => exact h.processC_print hc hstep
  | awaitAck deqMsg => exact h.processC_awaitAck hc hstep
  | delay deqMsg recMsg => exact h.processC_delay hc hstep
  | awaitWakeup deqMsg recMsg => exact h.processC_awaitWakeup hc hstep
  | releaseRecMsg recMsg recMsg2 deqMsg => exact h.processC_releaseRecMsg hc hstep
  | releaseRecMsg2 recMsg2 deqMsg => exact h.processC_releaseRecMsg2 hok hc hstep
  | releaseDeqMsg deqMsg => exact h.processC_releaseDeqMsg hc hstep
  | yield => exact h.processC_yield hc hstep
  | aborted => simp [Abc.processC, hc] at hstep

/-! ## The i-processes -/

omit [DecidableEq α] in
/-- Of what the CRT i-process has, it may drop something. -/
theorem Owned.dropCrt (h : s.Owned) {crt : CrtPc} {flag : CrtFlag} {prevMsg : Option α}
    {displayQueue : List α}
    (hsub : (prevMsg.toList ++ displayQueue).Sublist (s.prevMsg.toList ++ s.displayQueue)) :
    Owned { s with
      displayQueue := displayQueue
      flag := flag
      prevMsg := prevMsg
      crt := crt } :=
  ⟨h.partition, h.fits, ⟨h.a.hand, h.a.count⟩, h.b, ⟨h.c.held, h.c.same⟩,
    ⟨h.crt.nodup.sublist hsub, fun x hx => h.crt.held x (hsub.subset hx)⟩,
    ⟨h.timeout.nodup, h.timeout.held⟩, h.proper⟩

omit [DecidableEq α] in
theorem Owned.crtSignal (h : s.Owned) (hstep : s.crtSignal = some s') : s'.Owned := by
  unfold Abc.crtSignal at hstep
  split at hstep
  · cases hstep
    exact h.dropCrt (List.nil_sublist _)
  · cases hstep
    exact h.dropCrt (List.Sublist.refl _)
  · contradiction

/-- The acknowledgement of what has been printed. -/
theorem Owned.ackCrt (h : s.Owned) {crt : CrtPc} (hprev : s.prevMsg = some e) :
    Owned { ((s.setEnv e { s.env e with msgType := displayAck }).kSendMessage crtIProcessPid
      (s.env e).sendPid e).2 with prevMsg := none, crt := crt } := by
  have hnodup := h.crt.nodup
  have hheld := h.crt.held
  rw [hprev, Option.toList_some, List.singleton_append] at hnodup hheld
  have he : e ∈ s.places (.held crtIProcessPid) := hheld e List.mem_cons_self
  obtain ⟨-, hreturn, -⟩ := h.fits _ e he
  obtain ⟨hna, hnb, hc⟩ := hreturn rfl
  have hqueue := (List.nodup_cons.1 hnodup).2
  by_cases hdest : 0 ≤ (s.env e).sendPid ∧ (s.env e).sendPid < totalNumProcesses
  · obtain ⟨places, heq, hm⟩ := kSendMessage_setEnv { s.env e with msgType := displayAck } he hdest
    rw [heq]
    have ho : Handover s { s.setEnv e { s.env e with
          msgType := displayAck
          sendPid := crtIProcessPid
          destPid := (s.env e).sendPid } with places := places, prevMsg := none, crt := crt } e
        (.held crtIProcessPid) (.recvMsgs (s.env e).sendPid) :=
      ⟨hm, fun x hx => setEnv_env_of_ne _ hx⟩
    refine ⟨h.partition.move hm, h.fits_handover ho ?_ fun x _ => .refl _ x,
      h.keepA ho (by decide) rfl, h.keepB ho (by decide) rfl,
      h.keepC ho (by decide) (by simp) rfl rfl, ⟨hqueue, fun x hx => ?_⟩,
      h.keepTimeout ho (by decide) rfl, h.proper⟩
    · show Fits s.c e ((s.setEnv e _).env e) _
      rw [setEnv_env_self]
      exact fits_iProcess (.inl rfl) hnb fun hpid => .inl ⟨rfl, hc hpid⟩
    · refine (h.partition.mem_move hm).2 (.inr ⟨?_, hheld x (List.mem_cons_of_mem e hx)⟩)
      rintro rfl
      exact (List.nodup_cons.1 hnodup).1 hx
  · rw [kSendMessage_illegal hdest]
    refine ⟨h.partition, h.fits_write he ⟨fun hpid => absurd hpid (by decide),
        fun _ => ⟨hna, hnb, hc⟩, fun hpid => absurd hpid (by decide)⟩,
      ⟨h.a.hand, fun x hx => ?_⟩, h.b, ⟨h.c.held, h.c.same⟩,
      ⟨hqueue, fun x hx => hheld x (List.mem_cons_of_mem e hx)⟩,
      ⟨h.timeout.nodup, h.timeout.held⟩, h.proper⟩
    have hx' : x ∈ s.places (.held processAPid) := h.a.hand x (by
      rw [show s.a = .send x from hx]
      exact List.mem_cons_self)
    show ((s.setEnv e _).env x).msgType = countReport
    rw [setEnv_env_of_ne]
    · exact h.a.count x hx
    · rintro rfl
      exact absurd (h.partition.unique he hx') (by decide)

omit [DecidableEq α] in
theorem Owned.receiveCrt (h : s.Owned) {places : Place → List α} {crt : CrtPc}
    (hm : Move s.places places e (.recvMsgs crtIProcessPid) (.held crtIProcessPid)) :
    Owned { s with places := places, displayQueue := s.displayQueue ++ [e], crt := crt } := by
  have ho : Handover s { s with
      places := places
      displayQueue := s.displayQueue ++ [e]
      crt := crt } e (.recvMsgs crtIProcessPid) (.held crtIProcessPid) := ⟨hm, fun _ _ => rfl⟩
  have hnew : e ∉ s.prevMsg.toList ++ s.displayQueue := fun hold =>
    absurd (h.partition.unique hm.mem_src (h.crt.held e hold)) (by decide)
  obtain ⟨-, -, hreturn, -⟩ := h.fits _ e hm.mem_src
  refine ⟨h.partition.move hm, h.fits_handover ho ?_ fun x _ => .refl _ x,
    h.keepA ho (by decide) rfl, h.keepB ho (by decide) rfl,
    h.keepC ho (by decide) (by decide) rfl rfl, ⟨?_, ?_⟩, h.keepTimeout ho (by decide) rfl,
    h.proper⟩
  · exact ⟨fun hpid => absurd hpid (by decide), fun _ => hreturn rfl,
      fun hpid => absurd hpid (by decide)⟩
  · show (s.prevMsg.toList ++ (s.displayQueue ++ [e])).Nodup
    rw [← List.append_assoc]
    exact (List.perm_append_singleton _ _).nodup_iff.2 (List.nodup_cons.2 ⟨hnew, h.crt.nodup⟩)
  · intro x hx
    have hx' : x ∈ s.prevMsg.toList ++ (s.displayQueue ++ [e]) := hx
    rw [← List.append_assoc] at hx'
    rcases List.mem_append.1 hx' with hold | hx'
    · exact h.partition.mem_of_move hm (by decide) (h.crt.held x hold)
    · rw [List.mem_singleton.1 hx']
      exact hm.mem_dst

theorem Owned.crtIProcess (h : s.Owned) (hstep : s.crtIProcess = some s') : s'.Owned := by
  unfold Abc.crtIProcess at hstep
  split at hstep
  · split at hstep
    · next prevMsg hprev hflag =>
      cases hstep
      exact h.ackCrt hprev
    · cases hstep
      exact h.dropCrt (List.Sublist.refl _)
  · cases hrecv : s.kReceiveMessage crtIProcessPid with
    | mk message t =>
      rw [hrecv] at hstep
      cases hstep
      cases message with
      | none =>
        rw [kReceiveMessage_none hrecv, Option.toList_none, List.append_nil]
        exact h.dropCrt (List.Sublist.refl _)
      | some message =>
        obtain ⟨places, rfl, hm⟩ := kReceiveMessage_eq hrecv
        exact h.receiveCrt hm
  · split at hstep
    · next message displayQueue hflag hqueue =>
      cases hstep
      apply h.dropCrt
      rw [hqueue]
      exact List.sublist_append_right _ _
    · cases hstep
      exact h.dropCrt (List.Sublist.refl _)
  · contradiction

omit [DecidableEq α] in
theorem Owned.crtHelper (h : s.Owned) (hstep : s.crtHelper = some s') : s'.Owned := by
  unfold Abc.crtHelper at hstep
  split at hstep
  · cases hstep
    exact h.dropCrt (List.Sublist.refl _)
  · contradiction

theorem Owned.timeoutInsert (h : s.Owned) {now : ℤ} (hstep : s.timeoutInsert now = some s') :
    s'.Owned := by
  unfold Abc.timeoutInsert at hstep
  split at hstep
  · next msgEnv t hrecv =>
    obtain ⟨places, rfl, hm⟩ := kReceiveMessage_eq hrecv
    cases hstep
    have ho : Handover s { s.setEnv msgEnv { s.env msgEnv with
          msg := putInt (s.env msgEnv).msg (wrap32 (now + getInt (s.env msgEnv).msg)) } with
        places := places
        timeoutQueue := s.timeoutQueue ++ [msgEnv] } msgEnv (.recvMsgs timeoutIProcessPid)
        (.held timeoutIProcessPid) := ⟨hm, fun x hx => setEnv_env_of_ne _ hx⟩
    have hnew : msgEnv ∉ s.timeoutQueue := fun hold =>
      absurd (h.partition.unique hm.mem_src (h.timeout.held msgEnv hold)) (by decide)
    obtain ⟨-, -, -, hreturn⟩ := h.fits _ msgEnv hm.mem_src
    refine ⟨h.partition.move hm, h.fits_handover ho ?_ fun x _ => .refl _ x,
      h.keepA ho (by decide) rfl, h.keepB ho (by decide) rfl,
      h.keepC ho (by decide) (by decide) rfl rfl, h.keepCrt ho (by decide) rfl rfl, ⟨?_, ?_⟩,
      h.proper⟩
    · show Fits s.c msgEnv ((s.setEnv msgEnv _).env msgEnv) _
      rw [setEnv_env_self]
      exact ⟨fun hpid => absurd hpid (by decide), fun hpid => absurd hpid (by decide),
        fun _ => hreturn rfl⟩
    · exact (List.perm_append_singleton _ _).nodup_iff.2
        (List.nodup_cons.2 ⟨hnew, h.timeout.nodup⟩)
    · intro x hx
      rcases List.mem_append.1 hx with hold | hx
      · exact h.partition.mem_of_move hm (by decide) (h.timeout.held x hold)
      · rw [List.mem_singleton.1 hx]
        exact hm.mem_dst
  · contradiction

theorem Owned.timeoutExpire (h : s.Owned) (hstep : s.timeoutExpire e = some s') : s'.Owned := by
  obtain ⟨he, hstep⟩ := Option.ite_none_right_eq_some.1 hstep
  cases hstep
  have hheld := h.timeout.held e he
  obtain ⟨-, -, hreturn⟩ := h.fits _ e hheld
  obtain ⟨hna, hnb, hc⟩ := hreturn rfl
  by_cases hdest : 0 ≤ (s.env e).sendPid ∧ (s.env e).sendPid < totalNumProcesses
  · obtain ⟨places, heq, hm⟩ := kSendMessage_eq hheld hdest
    rw [heq]
    have ho : Handover s { s.setEnv e { s.env e with
          sendPid := timeoutIProcessPid
          destPid := (s.env e).sendPid } with
        places := places
        timeoutQueue := s.timeoutQueue.erase e } e (.held timeoutIProcessPid)
        (.recvMsgs (s.env e).sendPid) := ⟨hm, fun x hx => setEnv_env_of_ne _ hx⟩
    refine ⟨h.partition.move hm, h.fits_handover ho ?_ fun x _ => .refl _ x,
      h.keepA ho (by decide) rfl, h.keepB ho (by decide) rfl,
      h.keepC ho (by decide) (by simp) rfl rfl, h.keepCrt ho (by decide) rfl rfl,
      ⟨h.timeout.nodup.erase e, fun x hx => ?_⟩, h.proper⟩
    · show Fits s.c e ((s.setEnv e _).env e) _
      rw [setEnv_env_self]
      exact fits_iProcess (.inr rfl) hnb fun hpid => .inr ⟨(hc hpid).2, (hc hpid).1⟩
    · obtain ⟨hne, hx⟩ := h.timeout.nodup.mem_erase_iff.1 hx
      exact (h.partition.mem_move hm).2 (.inr ⟨hne, h.timeout.held x hx⟩)
  · rw [kSendMessage_illegal hdest]
    exact ⟨h.partition, h.fits, ⟨h.a.hand, h.a.count⟩, h.b, ⟨h.c.held, h.c.same⟩,
      ⟨h.crt.nodup, h.crt.held⟩, ⟨h.timeout.nodup.erase e,
        fun x hx => h.timeout.held x (List.mem_of_mem_erase hx)⟩, h.proper⟩

/-! ## The other processes -/

/-- A place that none of the five processes holds. -/
def Foreign : Place → Prop
  | .held pid => Other pid
  | _ => True

theorem Foreign.ne (ha : Foreign a) : a ≠ .held processAPid ∧ a ≠ .held processBPid ∧
    a ≠ .held processCPid ∧ a ≠ .held crtIProcessPid ∧ a ≠ .held timeoutIProcessPid := by
  cases a with
  | held pid => simpa [Foreign, Other] using ha
  | _ => simp

omit [DecidableEq α] in
theorem fits_other (hpid : Other pid) (c : CPc α) (e : α) (m : Envelope) :
    Fits c e m (.held pid) :=
  ⟨fun hb => absurd hb hpid.2.1, fun hcrt => absurd hcrt hpid.2.2.2.1,
    fun htimeout => absurd htimeout hpid.2.2.2.2⟩

omit [DecidableEq α] in
theorem Owned.other (h : s.Owned) {env : α → Envelope} {places : Place → List α}
    {releases : List (Release α)} (hm : Move s.places places e a b) (ha : Foreign a)
    (hb : b ≠ .held processCPid) (henv : ∀ x, x ≠ e → env x = s.env x)
    (hfits : Fits s.c e (env e) b) (hproper : ProperC { s with releases := releases }) :
    Owned { s with env := env, places := places, releases := releases } := by
  have ho : Handover s { s with env := env, places := places, releases := releases } e a b :=
    ⟨hm, henv⟩
  obtain ⟨hna, hnb, hnc, hncrt, hntimeout⟩ := ha.ne
  exact h.handover ho ⟨hnc, hncrt, hntimeout⟩ hb ⟨rfl, rfl⟩ ⟨rfl, rfl, rfl⟩ hfits
    (h.keepA ho hna rfl) (h.keepB ho hnb rfl) hproper

omit [DecidableEq α] in
theorem Owned.request (h : s.Owned) (hpid : Other pid) : Owned (s.kRequestMsgEnv pid).2 := by
  cases hrequest : s.kRequestMsgEnv pid with
  | mk found t =>
    cases found with
    | none =>
      rw [kRequestMsgEnv_none hrequest]
      exact h
    | some e =>
      obtain ⟨places, rfl, hm⟩ := kRequestMsgEnv_eq hrequest
      refine h.other hm trivial ?_ (fun _ _ => rfl) (fits_other hpid _ _ _) h.proper
      exact fun heq => hpid.2.2.1 (Place.held.inj heq)

omit [DecidableEq α] in
theorem Owned.receive (h : s.Owned) (hpid : Other pid) : Owned (s.kReceiveMessage pid).2 := by
  cases hrecv : s.kReceiveMessage pid with
  | mk found t =>
    cases found with
    | none =>
      rw [kReceiveMessage_none hrecv]
      exact h
    | some e =>
      obtain ⟨places, rfl, hm⟩ := kReceiveMessage_eq hrecv
      refine h.other hm trivial ?_ (fun _ _ => rfl) (fits_other hpid _ _ _) h.proper
      exact fun heq => hpid.2.2.1 (Place.held.inj heq)

theorem Owned.release (h : s.Owned) (hpid : Other pid) (he : e ∈ s.places (.held pid)) :
    Owned (s.kReleaseMsgEnv pid (some e)).2 := by
  obtain ⟨places, heq, hm⟩ := kReleaseMsgEnv_eq h.partition he
  rw [heq]
  exact h.other hm hpid (by simp) (fun _ _ => rfl) trivial (h.proper.append ⟨rfl, rfl⟩ rfl)

theorem Owned.send (h : s.Owned) (hpid : Other pid) (he : e ∈ s.places (.held pid))
    (hb : destPid ≠ processBPid) (hc : destPid ≠ processCPid) :
    Owned (s.kSendMessage pid destPid e).2 := by
  by_cases hdest : 0 ≤ destPid ∧ destPid < totalNumProcesses
  · obtain ⟨places, heq, hm⟩ := kSendMessage_eq he hdest
    rw [heq]
    refine h.other hm hpid (by simp) (fun x hx => setEnv_env_of_ne _ hx) ?_ h.proper
    show Fits s.c e ((s.setEnv e _).env e) _
    rw [setEnv_env_self]
    have hreturn : ∀ waiting, Returns
        { s.env e with sendPid := pid, destPid := destPid } waiting := fun waiting =>
      ⟨hpid.1, hpid.2.1, fun hsend => absurd hsend hpid.2.2.1⟩
    exact ⟨fun heq => absurd heq hb, fun heq => absurd heq hc, fun _ => hreturn _,
      fun _ => hreturn _⟩
  · rw [kSendMessage_illegal hdest]
    exact h

theorem Owned.write (h : s.Owned) (hpid : Other pid) (he : e ∈ s.places (.held pid))
    (fields : Envelope) : Owned (s.setEnv e fields) := by
  refine ⟨h.partition, h.fits_write he (fits_other hpid _ _ _), ⟨h.a.hand, fun x hx => ?_⟩, h.b,
    ⟨h.c.held, h.c.same⟩, ⟨h.crt.nodup, h.crt.held⟩, ⟨h.timeout.nodup, h.timeout.held⟩, h.proper⟩
  have hx' : x ∈ s.places (.held processAPid) := h.a.hand x (by
    rw [show s.a = .send x from hx]
    exact List.mem_cons_self)
  rw [setEnv_env_of_ne]
  · exact h.a.count x hx
  · rintro rfl
    exact hpid.1 (Place.held.inj (h.partition.unique he hx'))

/-! ## Runs -/

omit [DecidableEq α] in
theorem Started.owned (h : s.Started) : s.Owned := by
  have hempty : ∀ place, ∀ e ∈ s.places place, place = .freeEnvQ := by
    intro place e he
    by_contra hplace
    rw [h.empty place hplace] at he
    contradiction
  refine ⟨⟨fun e => ⟨_, h.free e⟩, fun hx hy => (hempty _ _ hx).trans (hempty _ _ hy).symm, ?_⟩,
    ?_, ⟨?_, ?_⟩, ?_, ⟨?_, ?_⟩, ⟨?_, ?_⟩, ⟨?_, ?_⟩, ?_⟩
  · intro place
    by_cases hplace : place = .freeEnvQ
    · rw [hplace]
      exact h.nodup
    · rw [h.empty place hplace]
      exact List.nodup_nil
  · intro place e he
    rw [hempty place e he]
    trivial
  · simp [h.a, handA]
  · simp [h.a]
  · simp [HoldsB, h.b]
  · rw [h.empty _ (by simp), h.c, h.messageQueue]
    exact .refl _
  · simp [h.c, Same]
  · simp [h.prevMsg, h.displayQueue]
  · simp [h.prevMsg, h.displayQueue]
  · simp [h.timeoutQueue]
  · simp [h.timeoutQueue]
  · simp [ProperC, h.releases]

theorem Owned.step (h : s.Owned) (hok : s.NotDelayed l) (hstep : s.step l = some s') :
    s'.Owned := by
  cases l with
  | processA => exact h.processA hstep
  | processB => exact h.processB hstep
  | processC => exact h.processC hok hstep
  | crtSignal => exact h.crtSignal hstep
  | crtIProcess => exact h.crtIProcess hstep
  | crtHelper => exact h.crtHelper hstep
  | timeoutInsert now => exact h.timeoutInsert hstep
  | timeoutExpire msgEnv => exact h.timeoutExpire hstep
  | request pid =>
    obtain ⟨hpid, hstep⟩ := Option.ite_none_right_eq_some.1 hstep
    cases hstep
    exact h.request hpid
  | receive pid =>
    obtain ⟨hpid, hstep⟩ := Option.ite_none_right_eq_some.1 hstep
    cases hstep
    exact h.receive hpid
  | release pid msgEnv =>
    obtain ⟨⟨hpid, he⟩, hstep⟩ := Option.ite_none_right_eq_some.1 hstep
    cases hstep
    exact h.release hpid he
  | send pid destPid msgEnv =>
    obtain ⟨⟨hpid, he, hb, hc⟩, hstep⟩ := Option.ite_none_right_eq_some.1 hstep
    cases hstep
    exact h.send hpid he hb hc
  | write pid msgEnv msgType msg =>
    obtain ⟨⟨hpid, he⟩, hstep⟩ := Option.ite_none_right_eq_some.1 hstep
    cases hstep
    exact h.write hpid he _

omit [DecidableEq α] in
theorem Owned.respects (h : s.Owned) : s.Respects where
  proper := h.proper
  released e he hyield := by
    have hheld := h.c.held
    rw [hyield] at hheld
    exact hheld.mem_iff.1 he

/-- The envelope that `rec_msg_2` points to has been released under the name `rec_msg`. -/
theorem Owned.releases_twice (h : s.Owned) (hok : ¬ s.NotDelayed l)
    (hstep : s.step l = some s') : ¬ s'.Respects := by
  intro hrespects
  unfold NotDelayed at hok
  push Not at hok
  obtain ⟨recMsg2, deqMsg, rfl, hc⟩ := hok
  have hsame := h.c.same
  have hheld := h.c.held
  rw [hc] at hsame hheld
  obtain ⟨rfl, hqueue⟩ := hsame
  have hnot : recMsg2 ∉ s.places (.held processCPid) := fun he => hqueue (hheld.mem_iff.1 he)
  have hstep : s.processC = some s' := hstep
  simp only [Abc.processC, hc, Option.some.injEq] at hstep
  subst hstep
  have hheld := (hrespects.proper _ (List.mem_append_right _ List.mem_cons_self) rfl).1
  exact hnot (of_decide_eq_true hheld)

/-- In a run of the three processes, process C respects the ownership of envelopes exactly as long
as it does not release an envelope it has delayed by its second name. -/
theorem process_c_respects_iff (hs : s.Started) (ls : List (AbcLabel α)) :
    Always step Respects s ls ↔ Along step NotDelayed s ls := by
  apply always_iff_along_of_step (I := Owned)
  · intro s l s' h hok hstep
    exact h.step hok hstep
  · intro s h
    exact h.respects
  · intro s l s' h hok hstep
    exact h.releases_twice hok hstep
  · exact hs.owned

/-- Two envelopes, before the first step. -/
def booted : Abc Bool where
  env _ := ⟨0, 0, 0, fun _ => 0⟩
  places := Function.update (fun _ => []) .freeEnvQ [false, true]
  a := .start
  counter := 0
  b := .receive
  c := .test
  messageQueue := []
  crt := .start
  flag := .free
  prevMsg := none
  displayQueue := []
  timeoutQueue := []
  releases := []

theorem started_booted : booted.Started where
  nodup := by decide
  free := by decide
  empty place hplace := by simp [booted, hplace]
  a := rfl
  b := rfl
  c := rfl
  messageQueue := rfl
  prevMsg := rfl
  displayQueue := rfl
  timeoutQueue := rfl
  releases := rfl

/-- The CCI starts process A, and the first count is printed, delayed and released twice. -/
def firstTurn : List (AbcLabel Bool) :=
  List.flatten
    [ [.request 4, .send 4 processAPid false],
      List.replicate 5 .processA,
      List.replicate 2 .processB,
      List.replicate 5 .processC,
      [.crtSignal, .crtIProcess, .crtIProcess, .crtIProcess, .crtHelper, .crtSignal, .crtIProcess],
      [.processC, .processC, .timeoutInsert 0, .timeoutExpire true, .processC, .processC,
        .processC] ]

theorem process_c_releases_twice :
    ∃ s, exec step booted firstTurn = some s ∧ s.releases =
      [⟨processAPid, false, true, false⟩, ⟨processCPid, true, true, false⟩,
        ⟨processCPid, true, false, true⟩] ∧ ¬ s.Respects := by
  have hrun : (exec step booted firstTurn).map (·.releases) =
      some [⟨processAPid, false, true, false⟩, ⟨processCPid, true, true, false⟩,
        ⟨processCPid, true, false, true⟩] := by
    decide +kernel
  obtain ⟨s, hexec, hreleases⟩ := Option.map_eq_some_iff.1 hrun
  refine ⟨s, hexec, hreleases, fun hrespects => ?_⟩
  have hproper := hrespects.proper ⟨processCPid, true, false, true⟩ (by simp [hreleases]) rfl
  exact absurd hproper.1 (by decide)

theorem process_c_respects_first_turn :
    Always step Respects booted firstTurn ↔ Along step NotDelayed booted firstTurn :=
  process_c_respects_iff started_booted firstTurn

end Abc

end Rtx.Unix
