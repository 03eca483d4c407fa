import Rtx.Coldfire.Delivery
import Rtx.Unix.Conservation

/-!
# Delivery in the Unix port

What was sent to a process is what it received so far, followed by what waits in its mailbox, letter
by letter: nobody writes to an envelope that is queued (`messages_in_order`). A process that waits
for a message has none, since a send wakes it up.
-/

namespace Rtx.Unix

open Transition Places
open Coldfire (Letter MsgEnv PcbInit Sched)

variable {n : ℕ}

/-! ## Channels -/

/-- What a successful send to `q` sent. -/
def Event.sentTo? (q : Fin n) : Event n → Option (EnvPtr × Letter)
  | .sent _ p env letter => if p = q then some (env, letter) else none
  | _ => none

/-- What `q` received. -/
def Event.receivedBy? (q : Fin n) : Event n → Option (EnvPtr × Letter)
  | .received p env letter => if p = q then some (env, letter) else none
  | _ => none

/-- What was sent to `q`, oldest first. -/
def sentTo (log : List (Event n)) (q : Fin n) : List (EnvPtr × Letter) :=
  log.reverse.filterMap (Event.sentTo? q)

/-- What `q` received, oldest first. -/
def receivedBy (log : List (Event n)) (q : Fin n) : List (EnvPtr × Letter) :=
  log.reverse.filterMap (Event.receivedBy? q)

@[simp] theorem sentTo_cons (ev : Event n) (log : List (Event n)) (q : Fin n) :
    sentTo (ev :: log) q = sentTo log q ++ (ev.sentTo? q).toList := by
  cases h : ev.sentTo? q <;> simp [sentTo, h]

@[simp] theorem receivedBy_cons (ev : Event n) (log : List (Event n)) (q : Fin n) :
    receivedBy (ev :: log) q = receivedBy log q ++ (ev.receivedBy? q).toList := by
  cases h : ev.receivedBy? q <;> simp [receivedBy, h]

namespace Ipc

variable {I I' : Ipc n} {L L' : Spot n → List EnvPtr} {m : MailMove n} {q : Fin n} {x : EnvPtr}

/-- The mail of `q`, with what is in it. -/
def mail (I : Ipc n) (L : Spot n → List EnvPtr) (q : Fin n) : List (EnvPtr × Letter) :=
  (L (.queue (.recvMsgs q))).map fun env => (env, I.letter env)

/-- What was sent to a process is what it received and what waits for it. -/
def Delivers (I : Ipc n) (L : Spot n → List EnvPtr) : Prop :=
  ∀ q, sentTo I.log q = receivedBy I.log q ++ I.mail L q

/-- A proper move writes to nothing but what is held. -/
theorem Keeps.letter_of_mem (h : I.Keeps L) (hm : m.Proper I) {a : Spot n}
    (ha : ∀ p, a ≠ .held p) (hx : x ∈ L a) : m.letter I x = I.letter x := by
  have hne : ∀ {p y}, I.HeldBy p y → x ≠ y := fun hy => h.ne_of_mem hx (h.mem_held hy) (ha _)
  cases m with
  | fill p env letter => exact Function.update_of_ne (hne hm) ..
  | write p env content => exact Function.update_of_ne (hne hm) ..
  | send p q env sendPid destPid => exact Function.update_of_ne (hne hm) ..
  | insert p env => exact Function.update_of_ne (hne hm.1) ..
  | _ => rfl

theorem Keeps.mail_eq (h : I.Keeps L) (hm : m.Proper I) (he : Effect I m I') (q : Fin n) :
    I'.mail L q = I.mail L q := by
  refine List.map_congr_left fun x hx => ?_
  rw [he.letter, h.letter_of_mem hm (by simp) hx]

theorem Delivers.of_eq (h : I.Delivers L) (he : Effect I m I')
    (hev : ∀ ev ∈ m.event? I, ∀ q, ev.sentTo? q = none ∧ ev.receivedBy? q = none)
    (hmail : ∀ q, I'.mail L q = I.mail L q)
    (hL : ∀ q, L' (.queue (.recvMsgs q)) = L (.queue (.recvMsgs q))) : I'.Delivers L' := by
  intro q
  have hlog : sentTo I'.log q = sentTo I.log q ∧ receivedBy I'.log q = receivedBy I.log q := by
    rw [he.log]
    cases hm : m.event? I with
    | none => exact ⟨rfl, rfl⟩
    | some ev => simp [hev ev hm q]
  rw [hlog.1, hlog.2, h q, ← hmail q, mail, mail, hL]

theorem Delivers.move (h : I.Delivers L) (hk : I.Keeps L) (hm : m.Proper I)
    (hmoves : I.Moves L m I' L') : I'.Delivers L' := by
  have he := hmoves.effect
  have hmail := hk.mail_eq hm he
  have hlog := he.log
  have hother : (∀ ev ∈ m.event? I, ∀ q, ev.sentTo? q = none ∧ ev.receivedBy? q = none) →
      (∀ q, L' (.queue (.recvMsgs q)) = L (.queue (.recvMsgs q))) → I'.Delivers L' :=
    fun hev hL => h.of_eq he hev hmail hL
  cases hmoves.transfer with
  | fill | write | tick => exact hother nofun fun _ => rfl
  | @send p dest env sendPid destPid henv =>
    intro q
    have hdest : I'.letter env = I.stamped env sendPid destPid := by
      rw [he.letter, MailMove.letter, Function.update_self]
    simp only [hlog, MailMove.event?, Option.toList_some, List.singleton_append, sentTo_cons,
      receivedBy_cons, Event.sentTo?, Event.receivedBy?, Option.toList_none, List.append_nil]
    rw [h q, ← hmail q, List.append_assoc]
    congr 1
    by_cases hq : dest = q
    · subst hq
      simp [mail, shift_dst, hdest]
    · have hne : Spot.queue (.recvMsgs q) ≠ Spot.queue (.recvMsgs dest) := by
        simpa using Ne.symm hq
      simp [mail, shift_other L (by simp : Spot.queue (.recvMsgs q) ≠ .held p) hne, hq]
  | @receive p env l hl =>
    intro q
    simp only [hlog, MailMove.event?, Option.toList_some, List.singleton_append, sentTo_cons,
      receivedBy_cons, Event.sentTo?, Event.receivedBy?, Option.toList_none, List.append_nil]
    rw [h q, ← hmail q, List.append_assoc]
    congr 1
    by_cases hq : p = q
    · subst hq
      simp [mail, shift_src L (by simp : Spot.queue (.recvMsgs p) ≠ .held p), hl, he.letter,
        MailMove.letter]
    · have hne : Spot.queue (.recvMsgs q) ≠ Spot.queue (.recvMsgs p) := by
        simpa using Ne.symm hq
      simp [mail, shift_other L hne (by simp : _ ≠ Spot.held p), hq]
  | request | release | expire | store | display | ack =>
    refine hother (fun ev hev q => ?_) fun q => shift_other L (by simp) (by simp) ..
    cases hev
    exact ⟨rfl, rfl⟩
  | insert =>
    refine hother (fun ev hev q => ?_) fun q => shift_other L (by simp) (by simp) ..
    obtain ⟨delay, -, rfl⟩ := Option.map_eq_some_iff.1 hev
    exact ⟨rfl, rfl⟩

end Ipc

/-! ## Sleeping receivers -/

theorem Transfer.mail_nil {L L' : Spot n → List EnvPtr} {m : MailMove n} {q : Fin n}
    (h : Transfer L m L')
    (hsend : ∀ p env sendPid destPid, m ≠ .send p q env sendPid destPid)
    (hq : L (.queue (.recvMsgs q)) = []) : L' (.queue (.recvMsgs q)) = [] := by
  cases h with
  | @send p dest env sendPid destPid henv =>
    rw [shift_other L (by simp) ?_]
    · exact hq
    · intro hdest
      cases hdest
      exact hsend p env sendPid destPid rfl
  | @receive p env l hl =>
    rw [shift_other L ?_ (by simp)]
    · exact hq
    · intro hp
      cases hp
      rw [hq] at hl
      contradiction
  | request | release | insert | expire | store | display | ack =>
    rw [shift_other L (by simp) (by simp)]
    exact hq
  | fill | write | tick => exact hq

namespace Kernel

variable {initTable : Fin n → PcbInit} {b s t t' : Kernel n} {l : RtxLabel} {a : Act n}
  {L L' : Spot n → List EnvPtr}

/-- A process that waits for a message has none. -/
def Quiet (s : Kernel n) (L : Spot n → List EnvPtr) : Prop :=
  ∀ p, (s.sched.pTable p).state = .blockedOnReceive → L (.queue (.recvMsgs p)) = []

theorem Quiet.act (h : t.Quiet L) (hact : Acting initTable b l t a t' L L') : t'.Quiet L' := by
  intro p hp
  cases a with
  | mail m =>
    obtain ⟨-, hfollow⟩ := act_mail hact.act
    have htransfer := (hact.moves m rfl).transfer
    -- A move of the envelopes makes no process wait.
    have hwait : (t.sched.pTable p).state = .blockedOnReceive := by
      cases hm : m.brings t.sched with
      | none =>
        rw [hm] at hfollow
        rw [show t.sched = t'.sched from Option.some.inj hfollow]
        exact hp
      | some w =>
        rw [hm] at hfollow
        rcases (regular_move hact.before.regular hfollow).2.blocked p hp with hwait | rfl
        · exact hwait
        · rcases MailMove.brings_cases hm with ⟨q, hw⟩ | hw | ⟨q, hw⟩ <;> cases hw
    refine htransfer.mail_nil ?_ (h p hwait)
    rintro q env sendPid destPid rfl
    exact Coldfire.Sched.wakeReceiver_state (wakeReceiver_cold hfollow) hp
  | sched m =>
    obtain ⟨sched, hm, rfl⟩ := Option.map_eq_some_iff.1 hact.act
    rw [(hact.same (by simp)).2]
    rcases (regular_move hact.before.regular hm).2.blocked p hp with hwait | rfl
    · exact h p hwait
    · -- It has just gone to sleep, on an empty mailbox.
      exact hact.keeps.empty_iff.1 hact.ok.2.1
  | restore q =>
    obtain rfl : _ = t' := Option.some.inj hact.act
    rw [(hact.same (by simp)).2]
    by_cases hq : p = q
    · subst hq
      simp [Sched.setState, Sched.setInfo] at hp
    · have hp' : (t.sched.pTable p).state = .blockedOnReceive := by
        simpa [Sched.setState, Sched.setInfo, hq] using hp
      exact h p hp'
  | crt crtBuf =>
    obtain rfl : _ = t' := Option.some.inj hact.act
    rw [(hact.same (by simp)).2]
    exact h p hp

/-! ## Stamps -/

/-- Every send was stamped with the pid of the sender, and went where its destination pid says. -/
def Stamped (initTable : Fin n → PcbInit) (log : List (Event n)) : Prop :=
  ∀ p q env letter, .sent p q env letter ∈ log →
    letter.sendPid = (initTable p).pid ∧ pcbOf n letter.destPid = some q

theorem Stamped.act (h : Stamped initTable t.ipc.log) (hact : Acting initTable b l t a t' L L') :
    Stamped initTable t'.ipc.log := by
  intro p q env letter hsent
  cases a with
  | mail m =>
    rw [(hact.moves m rfl).effect.log, List.mem_append, Option.mem_toList] at hsent
    rcases hsent with hnew | hold
    · cases m with
      | send p' q' env' sendPid destPid =>
        cases hnew
        have hok : (MailMove.send p q env sendPid destPid).Ok b l t := hact.ok
        refine ⟨?_, hok.2.2.2.1⟩
        show sendPid = _
        rw [hok.2.2.1, hact.before.ids]
      | insert => obtain ⟨delay, -, hev⟩ := Option.map_eq_some_iff.1 hnew; contradiction
      | _ => cases hnew
    · exact h p q env letter hold
  | _ =>
    rw [(hact.same nofun).1] at hsent
    exact h p q env letter hsent

theorem Delivers.act (h : t.ipc.Delivers L) (hact : Acting initTable b l t a t' L L') :
    t'.ipc.Delivers L' := by
  cases a with
  | mail m => exact h.move hact.keeps (MailMove.Ok.proper hact.ok) (hact.moves m rfl)
  | _ =>
    rw [(hact.same nofun).1, (hact.same nofun).2]
    exact h

end Kernel

/-- Along every run of processes that only give away and write what they have, each process receives
what was sent to it, in the order of the sends, once each and unchanged; each send is stamped with
the pids of its sender and its receiver; and a process that waits for a message has none. -/
theorem messages_in_order {initTable : Fin n → PcbInit} {s : Kernel n}
    (hs : Reach Kernel.step (Kernel.Booted initTable) Kernel.Careful s) :
    (∀ q, receivedBy s.ipc.log q <+: sentTo s.ipc.log q) ∧
      Kernel.Stamped initTable s.ipc.log ∧
      ∀ p, (s.sched.pTable p).state = .blockedOnReceive →
        receivedBy s.ipc.log p = sentTo s.ipc.log p ∧ s.ipc.Empty (.recvMsgs p) := by
  have hboot : ∀ s : Kernel n, Kernel.Booted initTable s →
      s.ipc.Delivers Ipc.bootSpots ∧ Kernel.Stamped initTable s.ipc.log ∧
        s.Quiet Ipc.bootSpots := by
    intro s hs
    obtain ⟨memory, S₀, -, -, hbooting, -⟩ := hs.parts
    refine ⟨fun q => ?_, fun p q env letter hsent => ?_, fun _ _ => rfl⟩
    · rw [hbooting.log]
      rfl
    · rw [hbooting.log] at hsent
      contradiction
  obtain ⟨-, L, hkeeps, hdelivers, hstamped, hquiet⟩ := Kernel.tracks_reach
    (I := fun s L => s.ipc.Delivers L ∧ Kernel.Stamped initTable s.ipc.log ∧ s.Quiet L) hs
    (fun _ _ => id) hboot fun s l t a t' L L' _ hact ⟨hdelivers, hstamped, hquiet⟩ =>
      ⟨Kernel.Delivers.act hdelivers hact, hstamped.act hact, hquiet.act hact⟩
  refine ⟨fun q => ⟨_, (hdelivers q).symm⟩, hstamped, fun p hp => ⟨?_, ?_⟩⟩
  · rw [hdelivers p, Ipc.mail, hquiet p hp]
    simp
  · exact hkeeps.empty_iff.2 (hquiet p hp)

/-- Process A sends itself two messages, and has the first sent back after a tick. -/
def sentBack : List RtxLabel := [
  .call .requestMsgEnv,
  .call .requestMsgEnv,
  .call (.requestDelay 1 7 (some 0)),
  .call (.sendMessage processAPid (some 1)),
  .sigalrm,
  .sigalrm,
  .call .receiveMessage,
  .call .receiveMessage]

theorem messages_in_order_procCfg :
    ∃ s, ((Kernel.kInit Kernel.Ram.zero procCfg).bind fun s =>
        exec (guarded Kernel.step Kernel.Careful) s sentBack) = some s ∧
      (receivedBy s.ipc.log 6).map Prod.fst = [1, 0] ∧
      (∀ q, receivedBy s.ipc.log q <+: sentTo s.ipc.log q) ∧
      Kernel.Stamped procCfg s.ipc.log ∧
      ∀ p, (s.sched.pTable p).state = .blockedOnReceive →
        receivedBy s.ipc.log p = sentTo s.ipc.log p ∧ s.ipc.Empty (.recvMsgs p) := by
  have hrun : ((Kernel.kInit Kernel.Ram.zero procCfg).bind fun s =>
      exec (guarded Kernel.step Kernel.Careful) s sentBack).any (fun s =>
        decide ((receivedBy s.ipc.log 6).map Prod.fst = [1, 0])) = true := by
    decide +kernel
  obtain ⟨s, hs, hreceived⟩ := (Option.any_eq_true ..).1 hrun
  obtain ⟨s₀, hinit, hexec⟩ := Option.bind_eq_some_iff.1 hs
  exact ⟨s, hs, of_decide_eq_true hreceived,
    messages_in_order ((Reach.init ⟨_, hinit⟩).guarded hexec)⟩

end Rtx.Unix
