import Rtx.Unix.AbcOwnership

/-!
# The first turn of process C

Messages come from process A to process C in the order of their counts, and the first count is 0. So
the first message that C takes is printed, and in a run without the second release of what was
printed C does not come to the end of its first turn (`not_yield_of_notDelayed`).
-/

namespace Rtx.Unix

open Places Transition
open Coldfire (cstr putText wrap32)

namespace Abc

variable {α : Type} {s s' t : Abc α} {l : AbcLabel α} {e x : α} {a b : Place} {pid destPid : ℤ}

/-- The envelope that process B has in hand. -/
def handB : BPc α → List α
  | .send e => [e]
  | .receive => []

/-- The envelope that process A has filled. -/
def filledA : APc α → List α
  | .send e => [e]
  | _ => []

/-- The messages on the way from A to C, the first one first. -/
def onTheWay (s : Abc α) : List α :=
  s.messageQueue ++ (s.places (.recvMsgs processCPid) ++
    (handB s.b ++ (s.places (.recvMsgs processBPid) ++ filledA s.a)))

/-- A message with the first count. -/
def Zero (m : Envelope) : Prop := m.msgType = countReport ∧ getInt m.msg = 0

/-- The next count that A fills in is the first one. -/
def Fresh (s : Abc α) : Prop :=
  match s.a with
  | .start | .releaseStart _ => True
  | .request | .fill _ => s.counter = 0
  | .send _ | .yield => False

/-- Before C takes a message, the first one in line has the first count. -/
def FirstZero (s : Abc α) : Prop :=
  (s.onTheWay = [] ∧ s.Fresh) ∨ ∃ e l, s.onTheWay = e :: l ∧ Zero (s.env e)

/-- C is in its first turn. -/
def InFirstTurn (s : Abc α) : Prop :=
  match s.c with
  | .test | .receive | .dequeue => s.FirstZero
  | .check deqMsg => Zero (s.env deqMsg)
  | .print _ | .awaitAck _ | .delay _ _ | .awaitWakeup _ _ => True
  | .releaseRecMsg _ recMsg2 _ | .releaseRecMsg2 recMsg2 _ => recMsg2 ≠ none
  | .releaseDeqMsg _ | .yield | .aborted => False

/-- C has not yet taken a message. -/
def Idle : CPc α → Prop
  | .test | .receive | .dequeue => True
  | _ => False

/-! ## Off the way -/

/-- A place on the way, or with C. -/
def OnPath (place : Place) : Prop :=
  place = .recvMsgs processBPid ∨ place = .held processBPid ∨ place = .recvMsgs processCPid ∨
    place = .held processCPid

/-- An envelope that is neither on the way nor with C. -/
def Away (s : Abc α) (e : α) : Prop := e ∉ s.onTheWay ∧ e ∉ s.places (.held processCPid)

theorem Owned.onPath (h : s.Owned) (hx : x ∈ s.onTheWay) :
    x ∈ filledA s.a ∨ ∃ place, OnPath place ∧ x ∈ s.places place := by
  simp only [onTheWay, List.mem_append] at hx
  rcases hx with hx | hx | hx | hx | hx
  · exact .inr ⟨_, .inr (.inr (.inr rfl)), h.c.held.mem_iff.2 (List.mem_append_right _ hx)⟩
  · exact .inr ⟨_, .inr (.inr (.inl rfl)), hx⟩
  · cases hb : s.b with
    | receive =>
      rw [hb] at hx
      contradiction
    | send e =>
      rw [hb] at hx
      cases List.mem_singleton.1 hx
      exact .inr ⟨_, .inr (.inl rfl), h.b x hb⟩
  · exact .inr ⟨_, .inl rfl, hx⟩
  · exact .inl hx

theorem Owned.away (h : s.Owned) (he : e ∈ s.places a) (ha : ¬ OnPath a)
    (hfilled : e ∉ filledA s.a) : s.Away e := by
  refine ⟨fun hway => ?_, fun hc => ha ?_⟩
  · rcases h.onPath hway with hx | ⟨place, hplace, hx⟩
    · exact hfilled hx
    · rw [h.partition.unique hx he] at hplace
      exact ha hplace
  · rw [h.partition.unique he hc]
    exact .inr (.inr (.inr rfl))

theorem Owned.not_filled (h : s.Owned) (he : e ∈ s.places a) (ha : a ≠ .held processAPid) :
    e ∉ filledA s.a := by
  intro hfilled
  cases hpc : s.a with
  | send countMsg =>
    rw [hpc] at hfilled
    cases List.mem_singleton.1 hfilled
    have hhand : e ∈ handA s.a := by
      rw [hpc]
      exact List.mem_cons_self
    exact ha (h.partition.unique he (h.a.hand e hhand))
  | _ =>
    rw [hpc] at hfilled
    contradiction

/-! ## What C does not see -/

/-- A step that C takes no part in. -/
structure Aside (s s' : Abc α) : Prop where
  c : s'.c = s.c
  checked : ∀ e ∈ s.places (.held processCPid), Zero (s.env e) → Zero (s'.env e)
  first : Idle s.c → s.FirstZero → s'.FirstZero

theorem FirstZero.same (h : s.FirstZero) (hway : s'.onTheWay = s.onTheWay)
    (hzero : ∀ e ∈ s.onTheWay, Zero (s.env e) → Zero (s'.env e)) (hfresh : s.Fresh → s'.Fresh) :
    s'.FirstZero := by
  rcases h with ⟨hnil, hf⟩ | ⟨e, l, hcons, he⟩
  · exact .inl ⟨hway.trans hnil, hfresh hf⟩
  · exact .inr ⟨e, l, hway.trans hcons, hzero e (by rw [hcons]; exact List.mem_cons_self) he⟩

theorem InFirstTurn.aside (h : s.InFirstTurn) (ho : s.Owned) (haside : Aside s s') :
    s'.InFirstTurn := by
  have hfirst := haside.first
  unfold InFirstTurn at h ⊢
  rw [haside.c]
  cases hc : s.c with
  | test | receive | dequeue =>
    rw [hc] at h hfirst
    exact hfirst trivial h
  | check deqMsg =>
    rw [hc] at h
    have hhand : handC s.c = [deqMsg] := by rw [hc]; rfl
    exact haside.checked deqMsg (ho.hand hhand).1 h
  | _ =>
    rw [hc] at h
    exact h

/-- The messages on the way stay, some of them further on. -/
theorem Aside.of_way (hc : s'.c = s.c) (hzero : ∀ x, Zero (s.env x) → Zero (s'.env x))
    (hway : s'.onTheWay = s.onTheWay) (hfresh : s.Fresh → s'.Fresh) : Aside s s' where
  c := hc
  checked x _ := hzero x
  first _ h := h.same hway (fun x _ => hzero x) hfresh

theorem Aside.refl (s : Abc α) : Aside s s := .of_way rfl (fun _ => id) rfl id

/-- An envelope changes hands off the way. -/
theorem Handover.aside (ho : Handover s s' e a b) (haway : s.Away e)
    (hb : b ≠ .recvMsgs processBPid)
    (hidle : Idle s.c → b ≠ .recvMsgs processCPid) (ha : filledA s'.a = filledA s.a)
    (hfresh : s.Fresh → s'.Fresh) (hrest : s'.b = s.b ∧ s'.c = s.c ∧
      s'.messageQueue = s.messageQueue) : Aside s s' := by
  obtain ⟨hsb, hsc, hqueue⟩ := hrest
  refine ⟨hsc, fun x hx hzero => ?_, fun hc h => h.same ?_ (fun x hx hzero => ?_) hfresh⟩
  · rw [ho.env x]
    · exact hzero
    · rintro rfl
      exact haway.2 hx
  · have hmail : ∀ q, q = processBPid ∨ q = processCPid →
        s'.places (.recvMsgs q) = s.places (.recvMsgs q) := by
      intro q hq
      apply ho.move.other
      · rintro rfl
        have he := ho.move.mem_src
        rcases hq with rfl | rfl <;> exact haway.1 (by simp [onTheWay, he])
      · rcases hq with rfl | rfl
        · exact hb.symm
        · exact (hidle hc).symm
    rw [onTheWay, onTheWay, hqueue, hmail _ (.inr rfl), hmail _ (.inl rfl), ha, hsb]
  · rw [ho.env x]
    · exact hzero
    · rintro rfl
      exact haway.1 hx

variable [DecidableEq α]

theorem Away.aside_write (haway : s.Away e) (fields : Envelope) : Aside s (s.setEnv e fields) := by
  have hzero : ∀ x, x ≠ e → Zero (s.env x) → Zero ((s.setEnv e fields).env x) := by
    intro x hx h
    rw [setEnv_env_of_ne fields hx]
    exact h
  refine ⟨rfl, fun x hx => hzero x ?_, fun _ h => h.same rfl (fun x hx => hzero x ?_) id⟩
  · rintro rfl
    exact haway.2 hx
  · rintro rfl
    exact haway.1 hx

/-! ## The i-processes and the others -/

omit [DecidableEq α] in
theorem not_onPath_held (hpid : pid ≠ processBPid ∧ pid ≠ processCPid) : ¬ OnPath (.held pid) := by
  simpa [OnPath] using hpid

omit [DecidableEq α] in
theorem not_onPath_recvMsgs (hpid : pid ≠ processBPid ∧ pid ≠ processCPid) :
    ¬ OnPath (.recvMsgs pid) := by
  simpa [OnPath] using hpid

omit [DecidableEq α] in
theorem Owned.away_held (h : s.Owned) (he : e ∈ s.places (.held pid))
    (hpid : pid ≠ processAPid ∧ pid ≠ processBPid ∧ pid ≠ processCPid) : s.Away e :=
  h.away he (not_onPath_held hpid.2) (h.not_filled he (by simpa using hpid.1))

omit [DecidableEq α] in
theorem Owned.aside_receive (h : s.Owned) {message : Option α}
    (hpid : pid ≠ processBPid ∧ pid ≠ processCPid)
    (hrecv : s.kReceiveMessage pid = (message, t)) : Aside s t := by
  cases message with
  | none =>
    rw [kReceiveMessage_none hrecv]
    exact .refl s
  | some e =>
    obtain ⟨places, rfl, hm⟩ := kReceiveMessage_eq hrecv
    have ho : Handover s { s with places := places } e (.recvMsgs pid) (.held pid) :=
      ⟨hm, fun _ _ => rfl⟩
    apply ho.aside (h.away hm.mem_src (not_onPath_recvMsgs hpid)
      (h.not_filled hm.mem_src (by simp)))
    · simp
    · simp
    · rfl
    · exact id
    · exact ⟨rfl, rfl, rfl⟩

omit [DecidableEq α] in
theorem Owned.aside_request (h : s.Owned) {message : Option α}
    (hrequest : s.kRequestMsgEnv pid = (message, t)) : Aside s t := by
  cases message with
  | none =>
    rw [kRequestMsgEnv_none hrequest]
    exact .refl s
  | some e =>
    obtain ⟨places, rfl, hm⟩ := kRequestMsgEnv_eq hrequest
    have ho : Handover s { s with places := places } e .freeEnvQ (.held pid) :=
      ⟨hm, fun _ _ => rfl⟩
    apply ho.aside (h.away hm.mem_src (by simp [OnPath]) (h.not_filled hm.mem_src (by simp)))
    · simp
    · simp
    · rfl
    · exact id
    · exact ⟨rfl, rfl, rfl⟩

/-- What is off the way is sent elsewhere than to B, and to C only where that has a message. -/
theorem Away.aside_send (haway : s.Away e) (he : e ∈ s.places (.held pid)) (fields : Envelope)
    (hb : destPid ≠ processBPid) (hidle : Idle s.c → destPid ≠ processCPid) :
    Aside s ((s.setEnv e fields).kSendMessage pid destPid e).2 := by
  by_cases hdest : 0 ≤ destPid ∧ destPid < totalNumProcesses
  · obtain ⟨places, heq, hm⟩ := kSendMessage_setEnv fields he hdest
    rw [heq]
    have ho : Handover s { s.setEnv e { fields with sendPid := pid, destPid := destPid } with
        places := places } e (.held pid) (.recvMsgs destPid) :=
      ⟨hm, fun x hx => setEnv_env_of_ne _ hx⟩
    apply ho.aside haway
    · simpa using hb
    · simpa using hidle
    · rfl
    · exact id
    · exact ⟨rfl, rfl, rfl⟩
  · rw [kSendMessage_illegal hdest]
    exact haway.aside_write fields

theorem Away.aside_release (haway : s.Away e) (hp : Partition s.places)
    (he : e ∈ s.places (.held pid)) : Aside s (s.kReleaseMsgEnv pid (some e)).2 := by
  obtain ⟨places, heq, hm⟩ := kReleaseMsgEnv_eq hp he
  rw [heq]
  have ho : Handover s { s with
      places := places
      releases := s.releases ++ [⟨pid, e, true, false⟩] } e (.held pid) .freeEnvQ :=
    ⟨hm, fun _ _ => rfl⟩
  apply ho.aside haway
  · simp
  · simp
  · rfl
  · exact id
  · exact ⟨rfl, rfl, rfl⟩

/-! ## Processes A and B -/

omit [DecidableEq α] in
theorem Aside.goto (h : Aside s t) {pc : APc α} {counter : ℤ} (hfilled : filledA pc = filledA t.a)
    (hfresh : t.Fresh → Fresh { t with a := pc, counter := counter }) :
    Aside s { t with a := pc, counter := counter } where
  c := h.c
  checked := h.checked
  first hidle hfirst := (h.first hidle hfirst).same (by rw [onTheWay, hfilled]; rfl)
    (fun _ _ => id) hfresh

/-- A message that is passed on comes last in the mailbox. -/
theorem kSendMessage_mail (s : Abc α) (pid : ℤ) (e : α)
    (hdest : 0 ≤ destPid ∧ destPid < totalNumProcesses) :
    ∃ places, (s.kSendMessage pid destPid e).2 =
        { s.setEnv e { s.env e with sendPid := pid, destPid := destPid } with places := places } ∧
      places (.recvMsgs destPid) = s.places (.recvMsgs destPid) ++ [e] ∧
      ∀ q, q ≠ destPid → places (.recvMsgs q) = s.places (.recvMsgs q) := by
  unfold kSendMessage
  rw [if_neg (by omega)]
  refine ⟨_, rfl, shift_dst .., fun q hq => ?_⟩
  apply shift_other
  · simp
  · simpa using hq

theorem zero_setEnv (pid destPid : ℤ) (h : Zero (s.env x)) :
    Zero ((s.setEnv e { s.env e with sendPid := pid, destPid := destPid }).env x) := by
  by_cases hx : x = e
  · subst hx
    rw [setEnv_env_self]
    exact h
  · rw [setEnv_env_of_ne _ hx]
    exact h

omit [DecidableEq α] in
theorem kReceiveMessage_recvMsgs (h : s.kReceiveMessage pid = (some e, t)) :
    s.places (.recvMsgs pid) = e :: t.places (.recvMsgs pid) := by
  unfold kReceiveMessage at h
  split at h
  · cases h
  · next msgEnv recvMsgs hrecv =>
    cases h
    have hsrc := shift_src s.places (show Place.recvMsgs pid ≠ .held pid by simp) recvMsgs
      (e :: s.places (.held pid))
    exact hrecv.trans (congrArg _ hsrc.symm)

/-- What A fills in, with the first count if there is none before it. -/
theorem Owned.aside_fill (h : s.Owned) {countMsg : α} (ha : s.a = .fill countMsg) :
    Aside s { s.setEnv countMsg { s.env countMsg with
      msgType := countReport
      msg := putInt (s.env countMsg).msg s.counter } with a := .send countMsg } := by
  have hfilled : filledA s.a = [] := by rw [ha]; rfl
  have haway : s.Away countMsg := by
    have hhand := h.a.hand countMsg
    rw [ha] at hhand
    apply h.away (hhand List.mem_cons_self)
      (by simp [OnPath, processAPid, processBPid, processCPid])
    rw [hfilled]
    exact List.not_mem_nil
  refine ⟨rfl, fun x hx => (haway.aside_write _).checked x hx, fun hidle hfirst => ?_⟩
  have hway : Abc.onTheWay { s.setEnv countMsg { s.env countMsg with
      msgType := countReport
      msg := putInt (s.env countMsg).msg s.counter } with a := .send countMsg } =
      s.onTheWay ++ [countMsg] := by
    simp only [onTheWay, hfilled, List.append_nil, List.append_assoc]
    rfl
  rcases hfirst with ⟨hnil, hfresh⟩ | ⟨e, l, hcons, hzero⟩
  · refine .inr ⟨countMsg, [], by rw [hway, hnil]; rfl, ?_⟩
    show Zero ((s.setEnv countMsg _).env countMsg)
    rw [setEnv_env_self]
    unfold Fresh at hfresh
    rw [ha] at hfresh
    refine ⟨rfl, ?_⟩
    rw [hfresh]
    exact getInt_putInt _ _
  · refine .inr ⟨e, l ++ [countMsg], by rw [hway, hcons]; rfl, ?_⟩
    show Zero ((s.setEnv countMsg _).env e)
    rw [setEnv_env_of_ne]
    · exact hzero
    · rintro rfl
      exact haway.1 (by rw [hcons]; exact List.mem_cons_self)

theorem Owned.aside_processA (h : s.Owned) (hstep : s.processA = some s') : Aside s s' := by
  unfold Abc.processA at hstep
  cases ha : s.a with
  | start =>
    simp only [ha] at hstep
    split at hstep
    · next startMsg t hrecv =>
      cases hstep
      have haside := h.aside_receive (by decide) hrecv
      obtain ⟨places, rfl, -⟩ := kReceiveMessage_eq hrecv
      apply haside.goto
      · rw [ha]
        rfl
      · exact fun _ => trivial
    · contradiction
  | releaseStart startMsg =>
    simp only [ha, Option.some.injEq] at hstep
    subst hstep
    have hhand := h.a.hand startMsg
    rw [ha] at hhand
    have he := hhand List.mem_cons_self
    have haway : s.Away startMsg := by
      apply h.away he (by simp [OnPath, processAPid, processBPid, processCPid])
      rw [ha]
      exact List.not_mem_nil
    apply (haway.aside_release h.partition he).goto
    · show filledA _ = filledA s.a
      rw [ha]
      rfl
    · exact fun _ => rfl
  | request =>
    simp only [ha] at hstep
    split at hstep
    · next countMsg t hrequest =>
      cases hstep
      have haside := h.aside_request hrequest
      obtain ⟨places, rfl, -⟩ := kRequestMsgEnv_eq hrequest
      apply haside.goto
      · rw [ha]
        rfl
      · unfold Fresh
        rw [ha]
        exact id
    · contradiction
  | fill countMsg =>
    simp only [ha, Option.some.injEq] at hstep
    subst hstep
    exact h.aside_fill ha
  | send countMsg =>
    simp only [ha, Option.some.injEq] at hstep
    subst hstep
    obtain ⟨places, heq, hmail, hother⟩ :=
      s.kSendMessage_mail processAPid countMsg (show 0 ≤ processBPid ∧ _ by decide)
    rw [heq]
    apply Aside.of_way
    · rfl
    · exact fun x => zero_setEnv _ _
    · simp [onTheWay, setEnv, hmail, hother processCPid (by decide), ha, filledA]
    · unfold Fresh
      rw [ha]
      exact False.elim
  | yield =>
    simp only [ha, Option.some.injEq] at hstep
    subst hstep
    apply (Aside.refl s).goto
    · rw [ha]
      rfl
    · unfold Fresh
      rw [ha]
      exact False.elim

theorem aside_processB (hstep : s.processB = some s') : Aside s s' := by
  unfold Abc.processB at hstep
  cases hb : s.b with
  | receive =>
    simp only [hb] at hstep
    split at hstep
    · next receivedMsg t hrecv =>
      cases hstep
      have hmail := kReceiveMessage_recvMsgs hrecv
      obtain ⟨places, rfl, hm⟩ := kReceiveMessage_eq hrecv
      have hmailC : places (.recvMsgs processCPid) = s.places (.recvMsgs processCPid) :=
        hm.other _ (by decide) (by decide)
      apply Aside.of_way
      · rfl
      · exact fun _ => id
      · simp [onTheWay, hb, hmail, hmailC, handB]
      · exact id
    · contradiction
  | send receivedMsg =>
    simp only [hb, Option.some.injEq] at hstep
    subst hstep
    obtain ⟨places, heq, hmail, hother⟩ :=
      s.kSendMessage_mail processBPid receivedMsg (show 0 ≤ processCPid ∧ _ by decide)
    rw [heq]
    apply Aside.of_way
    · rfl
    · exact fun x => zero_setEnv _ _
    · simp [onTheWay, setEnv, hmail, hother processBPid (by decide), hb, handB]
    · exact id

/-! ## The other steps -/

omit [DecidableEq α] in
theorem aside_crtSignal (hstep : s.crtSignal = some s') : Aside s s' := by
  unfold Abc.crtSignal at hstep
  split at hstep
  · cases hstep
    exact .of_way rfl (fun _ => id) rfl id
  · cases hstep
    exact .of_way rfl (fun _ => id) rfl id
  · contradiction

omit [DecidableEq α] in
theorem aside_crtHelper (hstep : s.crtHelper = some s') : Aside s s' := by
  unfold Abc.crtHelper at hstep
  split at hstep
  · cases hstep
    exact .of_way rfl (fun _ => id) rfl id
  · contradiction

theorem Owned.aside_crtIProcess (h : s.Owned) (hstep : s.crtIProcess = some s') : Aside s s' := by
  unfold Abc.crtIProcess at hstep
  split at hstep
  · split at hstep
    · next prevMsg hprev hflag =>
      cases hstep
      have he : prevMsg ∈ s.places (.held crtIProcessPid) := h.crt.held prevMsg (by simp [hprev])
      obtain ⟨-, hreturn, -⟩ := h.fits _ prevMsg he
      obtain ⟨-, hnb, hc⟩ := hreturn rfl
      have haside := (h.away_held he (by decide)).aside_send he
        { s.env prevMsg with msgType := displayAck } hnb fun hidle hpid => by
          rw [hc hpid] at hidle
          exact hidle
      exact ⟨haside.c, haside.checked, haside.first⟩
    · cases hstep
      exact .of_way rfl (fun _ => id) rfl id
  · cases hrecv : s.kReceiveMessage crtIProcessPid with
    | mk message t =>
      rw [hrecv] at hstep
      cases hstep
      have haside := h.aside_receive (by decide) hrecv
      exact ⟨haside.c, haside.checked, haside.first⟩
  · split at hstep
    · cases hstep
      exact .of_way rfl (fun _ => id) rfl id
    · cases hstep
      exact .of_way rfl (fun _ => id) rfl id
  · contradiction

theorem Owned.aside_timeoutInsert (h : s.Owned) {now : ℤ}
    (hstep : s.timeoutInsert now = some s') : Aside s s' := by
  unfold Abc.timeoutInsert at hstep
  split at hstep
  · next msgEnv t hrecv =>
    obtain ⟨places, rfl, hm⟩ := kReceiveMessage_eq hrecv
    cases hstep
    have ho : Handover s { s.setEnv msgEnv { s.env msgEnv with
          msg := putInt (s.env msgEnv).msg (wrap32 (now + getInt (s.env msgEnv).msg)) } with
        places := places
        timeoutQueue := s.timeoutQueue ++ [msgEnv] } msgEnv (.recvMsgs timeoutIProcessPid)
        (.held timeoutIProcessPid) := ⟨hm, fun x hx => setEnv_env_of_ne _ hx⟩
    apply ho.aside
    · exact h.away hm.mem_src (not_onPath_recvMsgs (by decide))
        (h.not_filled hm.mem_src (by decide))
    · decide
    · exact fun _ => by decide
    · rfl
    · exact id
    · exact ⟨rfl, rfl, rfl⟩
  · contradiction

theorem setEnv_same (s : Abc α) (e : α) : s.setEnv e (s.env e) = s := by
  unfold setEnv
  rw [Function.update_eq_self]

theorem Owned.aside_timeoutExpire (h : s.Owned) (hstep : s.timeoutExpire e = some s') :
    Aside s s' := by
  obtain ⟨he, hstep⟩ := Option.ite_none_right_eq_some.1 hstep
  cases hstep
  have hheld := h.timeout.held e he
  obtain ⟨-, -, hreturn⟩ := h.fits _ e hheld
  obtain ⟨-, hnb, hc⟩ := hreturn rfl
  have haside := (h.away_held hheld (by decide)).aside_send hheld (s.env e) hnb
    fun hidle hpid => by
      rw [(hc hpid).1] at hidle
      exact hidle
  rw [setEnv_same] at haside
  exact ⟨haside.c, haside.checked, haside.first⟩

/-! ## Process C -/

theorem InFirstTurn.processC_test (h : s.InFirstTurn) (hc : s.c = .test)
    (hstep : s.processC = some s') : s'.InFirstTurn := by
  unfold InFirstTurn at h
  unfold Abc.processC at hstep
  rw [hc] at h
  simp only [hc, Option.some.injEq] at hstep
  subst hstep
  by_cases hqueue : s.messageQueue = []
  · rw [if_pos hqueue]
    exact h
  · rw [if_neg hqueue]
    exact h

/-- What C receives was on its way already. -/
theorem InFirstTurn.processC_receive (h : s.InFirstTurn) (hc : s.c = .receive)
    (hstep : s.processC = some s') : s'.InFirstTurn := by
  unfold InFirstTurn at h
  unfold Abc.processC at hstep
  rw [hc] at h
  simp only [hc] at hstep
  split at hstep
  · next receivedMsg t hrecv =>
    cases hstep
    have hmail := kReceiveMessage_recvMsgs hrecv
    obtain ⟨places, rfl, hm⟩ := kReceiveMessage_eq hrecv
    have hmailB : places (.recvMsgs processBPid) = s.places (.recvMsgs processBPid) :=
      hm.other _ (by decide) (by decide)
    apply FirstZero.same h
    · simp [onTheWay, hmail, hmailB]
    · exact fun _ _ => id
    · exact id
  · contradiction

theorem InFirstTurn.processC_dequeue (h : s.InFirstTurn) (hc : s.c = .dequeue)
    (hstep : s.processC = some s') : s'.InFirstTurn := by
  unfold InFirstTurn at h
  unfold Abc.processC at hstep
  rw [hc] at h
  simp only [hc] at hstep
  split at hstep
  · next deqMsg messageQueue hqueue =>
    cases hstep
    rcases h with ⟨hnil, -⟩ | ⟨e, l, hcons, hzero⟩
    · simp [onTheWay, hqueue] at hnil
    · simp only [onTheWay, hqueue, List.cons_append, List.cons.injEq] at hcons
      rw [← hcons.1] at hzero
      exact hzero
  · contradiction

theorem InFirstTurn.processC_awaitAck {deqMsg : α} (ho : s.Owned) (hc : s.c = .awaitAck deqMsg)
    (hstep : s.processC = some s') : s'.InFirstTurn := by
  unfold Abc.processC at hstep
  simp only [hc] at hstep
  split at hstep
  · next recMsg t hrecv =>
    obtain ⟨places, rfl, hm⟩ := kReceiveMessage_eq hrecv
    split at hstep
    · cases hstep
      trivial
    · next hack =>
      split at hstep
      · cases hstep
        unfold InFirstTurn
        rw [hc]
        trivial
      · next hcount =>
        rcases ho.answer_ack hc hm.mem_src with hmsg | hmsg
        · exact absurd hmsg hcount
        · exact absurd hmsg.1 hack
  · contradiction

theorem InFirstTurn.processC_awaitWakeup {deqMsg recMsg : α}
    (hc : s.c = .awaitWakeup deqMsg recMsg) (hstep : s.processC = some s') : s'.InFirstTurn := by
  unfold Abc.processC at hstep
  simp only [hc] at hstep
  split at hstep
  · next recMsg2 t hrecv =>
    split at hstep
    · cases hstep
      exact Option.some_ne_none recMsg2
    · obtain ⟨places, rfl, -⟩ := kReceiveMessage_eq hrecv
      cases hstep
      unfold InFirstTurn
      rw [hc]
      trivial
  · contradiction

theorem InFirstTurn.processC (h : s.InFirstTurn) (ho : s.Owned) (hok : s.NotDelayed .processC)
    (hstep : s.processC = some s') : s'.InFirstTurn := by
  cases hc : s.c with
  | test => exact h.processC_test hc hstep
  | receive => exact h.processC_receive hc hstep
  | dequeue => exact h.processC_dequeue hc hstep
  | awaitAck deqMsg => exact processC_awaitAck ho hc hstep
  | awaitWakeup deqMsg recMsg => exact processC_awaitWakeup hc hstep
  | check deqMsg =>
    unfold InFirstTurn at h
    unfold Abc.processC at hstep
    rw [hc] at h
    simp only [hc] at hstep
    rw [if_pos ⟨h.1, by rw [h.2]; rfl⟩] at hstep
    cases hstep
    trivial
  | print deqMsg | delay deqMsg recMsg =>
    unfold Abc.processC at hstep
    simp only [hc, Option.some.injEq] at hstep
    subst hstep
    trivial
  | releaseRecMsg recMsg recMsg2 deqMsg =>
    unfold InFirstTurn at h
    unfold Abc.processC at hstep
    rw [hc] at h
    simp only [hc, Option.some.injEq] at hstep
    subst hstep
    exact h
  | releaseRecMsg2 recMsg2 deqMsg =>
    unfold InFirstTurn at h
    rw [hc] at h
    cases recMsg2 with
    | none => exact absurd rfl h
    | some recMsg2 => exact absurd hc (hok recMsg2 deqMsg rfl)
  | releaseDeqMsg deqMsg | yield | aborted =>
    unfold InFirstTurn at h
    rw [hc] at h
    exact h.elim

/-! ## Runs -/

theorem InFirstTurn.step (h : s.InFirstTurn) (ho : s.Owned) (hok : s.NotDelayed l)
    (hstep : s.step l = some s') : s'.InFirstTurn := by
  cases l with
  | processA => exact h.aside ho (ho.aside_processA hstep)
  | processB => exact h.aside ho (aside_processB hstep)
  | processC => exact h.processC ho hok hstep
  | crtSignal => exact h.aside ho (aside_crtSignal hstep)
  | crtIProcess => exact h.aside ho (ho.aside_crtIProcess hstep)
  | crtHelper => exact h.aside ho (aside_crtHelper hstep)
  | timeoutInsert now => exact h.aside ho (ho.aside_timeoutInsert hstep)
  | timeoutExpire msgEnv => exact h.aside ho (ho.aside_timeoutExpire hstep)
  | request pid =>
    obtain ⟨-, hstep⟩ := Option.ite_none_right_eq_some.1 hstep
    cases hstep
    exact h.aside ho (ho.aside_request rfl)
  | receive pid =>
    obtain ⟨hpid, hstep⟩ := Option.ite_none_right_eq_some.1 hstep
    cases hstep
    exact h.aside ho (ho.aside_receive ⟨hpid.2.1, hpid.2.2.1⟩ rfl)
  | release pid msgEnv =>
    obtain ⟨⟨hpid, he⟩, hstep⟩ := Option.ite_none_right_eq_some.1 hstep
    cases hstep
    have haway := ho.away_held he ⟨hpid.1, hpid.2.1, hpid.2.2.1⟩
    exact h.aside ho (haway.aside_release ho.partition he)
  | send pid destPid msgEnv =>
    obtain ⟨⟨hpid, he, hb, hc⟩, hstep⟩ := Option.ite_none_right_eq_some.1 hstep
    cases hstep
    have haside := (ho.away_held he ⟨hpid.1, hpid.2.1, hpid.2.2.1⟩).aside_send he (s.env msgEnv)
      hb fun _ => hc
    rw [setEnv_same] at haside
    exact h.aside ho haside
  | write pid msgEnv msgType msg =>
    obtain ⟨⟨hpid, he⟩, hstep⟩ := Option.ite_none_right_eq_some.1 hstep
    cases hstep
    have haway := ho.away_held he ⟨hpid.1, hpid.2.1, hpid.2.2.1⟩
    exact h.aside ho (haway.aside_write _)

omit [DecidableEq α] in
theorem Started.inFirstTurn (h : s.Started) : s.InFirstTurn := by
  have hempty : ∀ pid, s.places (.recvMsgs pid) = [] := fun pid => h.empty _ (by simp)
  unfold InFirstTurn
  rw [h.c]
  refine .inl ⟨?_, ?_⟩
  · simp [onTheWay, h.messageQueue, hempty, h.a, h.b, handB, filledA]
  · unfold Fresh
    rw [h.a]
    trivial

/-- A process C that releases nothing twice does not come to the end of its first turn. -/
theorem not_yield_of_notDelayed (hs : s.Started) {ls : List (AbcLabel α)}
    (hok : Along step NotDelayed s ls) (hrun : exec step s ls = some s') : s'.c ≠ .yield := by
  have hinv : s'.Owned ∧ s'.InFirstTurn := by
    apply exec_invariant (I := fun s => s.Owned ∧ s.InFirstTurn) _ ⟨hs.owned, hs.inFirstTurn⟩ hok
      hrun
    intro s l s' h hok hstep
    exact ⟨h.1.step hok hstep, h.2.step h.1 hok hstep⟩
  intro hyield
  have hturn := hinv.2
  unfold InFirstTurn at hturn
  rw [hyield] at hturn
  exact hturn

end Abc

end Rtx.Unix
