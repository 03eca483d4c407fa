import Rtx.Coldfire.Ownership

/-!
# Delivery

What was sent to a process is what it received so far, followed by what is in its mailbox
(`Delivers`). So it receives what was sent to it, in that order, once each, and as it was sent
(`fifo_delivery`). That a process which waits for a message has none (`Quiet`) is kept too: a send
to it wakes it up.
-/

namespace Rtx.Coldfire

open Transition Places

variable {n : ℕ} {β : Type}

/-! ## Channels -/

/-- What a successful send to `q` sent. -/
def Event.sentTo? (q : Fin n) : Event n → Option (EnvPtr × Letter)
  | .sent _ p env letter => if p = q then some (env, letter) else none
  | _ => none

/-- What `q` received. -/
def Event.receivedBy? (q : Fin n) : Event n → Option (EnvPtr × Letter)
  | .received p env letter => if p = q then some (env, letter) else none
  | _ => none

/-- What was sent to `q`, oldest first. -/
def sentTo (log : List (Event n)) (q : Fin n) : List (EnvPtr × Letter) :=
  log.reverse.filterMap (Event.sentTo? q)

/-- What `q` received, oldest first. -/
def receivedBy (log : List (Event n)) (q : Fin n) : List (EnvPtr × Letter) :=
  log.reverse.filterMap (Event.receivedBy? q)

@[simp] theorem sentTo_cons (ev : Event n) (log : List (Event n)) (q : Fin n) :
    sentTo (ev :: log) q = sentTo log q ++ (ev.sentTo? q).toList := by
  cases h : ev.sentTo? q <;> simp [sentTo, h]

@[simp] theorem receivedBy_cons (ev : Event n) (log : List (Event n)) (q : Fin n) :
    receivedBy (ev :: log) q = receivedBy log q ++ (ev.receivedBy? q).toList := by
  cases h : ev.receivedBy? q <;> simp [receivedBy, h]

/-- The mail of `q`, with what is in it. -/
def Ipc.mail (I : Ipc n) (L : Loc n → List EnvPtr) (q : Fin n) : List (EnvPtr × Letter) :=
  (L (.queue (.recvMsgs q))).map fun env => (env, I.letter env)

/-- Seen through `π`, what was sent to a process is what it received and what waits for it. -/
def Ipc.Delivers (π : EnvPtr × Letter → β) (I : Ipc n) (L : Loc n → List EnvPtr) : Prop :=
  ∀ q, (sentTo I.log q).map π = (receivedBy I.log q).map π ++ (I.mail L q).map π

/-- Nothing that `π` sees is filled in, but in an envelope somebody holds. -/
def IpcMove.Spares (m : IpcMove n) (π : EnvPtr × Letter → β) (I : Ipc n) : Prop :=
  ∀ env letter, m = .setLetter env letter →
    (∃ p, env ∈ heldBy I.log p) ∨ π (env, letter) = π (env, I.letter env)

namespace Ipc

variable {timer : Option (Fin n)} {I I' : Ipc n} {L L' : Loc n → List EnvPtr} {m : IpcMove n}
  {q : Fin n} {env x : EnvPtr} {π : EnvPtr × Letter → β}

/-- A proper move changes nothing in an envelope that nobody holds, unless it fills that in. -/
theorem Keeps.letter_eq (h : Keeps timer I L) (hm : m.Proper timer I)
    (hx : ∀ p, x ∉ L (.held p)) (hset : ∀ letter, m ≠ .setLetter x letter) :
    m.letter I x = I.letter x := by
  -- The envelope the move changes is held by somebody.
  have hne : ∀ {p y}, y ∈ heldBy I.log p → x ≠ y := by
    rintro p y hy rfl
    exact hx p (h.held p ▸ hy)
  cases m with
  | setLetter env letter =>
    refine Function.update_of_ne ?_ ..
    rintro rfl
    exact hset letter rfl
  | write env content =>
    obtain ⟨p, hp⟩ := hm
    exact Function.update_of_ne (hne hp) ..
  | send cur dest env sendPid destPid => exact Function.update_of_ne (hne hm) ..
  | insert p nullRead env => exact Function.update_of_ne (hne hm.1) ..
  | _ => rfl

theorem Keeps.mail_eq (h : Keeps timer I L) (hm : m.Proper timer I) (he : Effect I m I')
    (hspares : m.Spares π I) (q : Fin n) : (I'.mail L q).map π = (I.mail L q).map π := by
  simp only [mail, List.map_map]
  refine List.map_congr_left fun x hx => ?_
  have hheld : ∀ p, x ∉ L (.held p) := fun p => h.partition.not_mem hx nofun
  change π (x, I'.letter x) = π (x, I.letter x)
  rw [he.letter]
  by_cases hset : ∃ letter, m = .setLetter x letter
  · obtain ⟨letter, rfl⟩ := hset
    rcases hspares x letter rfl with ⟨p, hp⟩ | heq
    · exact absurd (h.held p ▸ hp) (hheld p)
    · rw [IpcMove.letter, Function.update_self, heq]
  · rw [h.letter_eq hm hheld fun letter hletter => hset ⟨letter, hletter⟩]

theorem Delivers.of_eq (h : I.Delivers π L) (he : Effect I m I')
    (hev : ∀ ev ∈ m.event? I, ∀ q, ev.sentTo? q = none ∧ ev.receivedBy? q = none)
    (hmail : ∀ q, (I'.mail L q).map π = (I.mail L q).map π)
    (hL : ∀ q, L' (.queue (.recvMsgs q)) = L (.queue (.recvMsgs q))) : I'.Delivers π L' := by
  intro q
  have hlog : sentTo I'.log q = sentTo I.log q ∧ receivedBy I'.log q = receivedBy I.log q := by
    rw [he.log]
    cases hm : m.event? I with
    | none => exact ⟨rfl, rfl⟩
    | some ev => simp [hev ev hm q]
  rw [hlog.1, hlog.2, h q, ← hmail q, mail, mail, hL]

theorem Delivers.move (h : I.Delivers π L) (hk : Keeps timer I L) (hm : m.Proper timer I)
    (ht : Transfer L m L') (he : Effect I m I') (hspares : m.Spares π I) : I'.Delivers π L' := by
  have hmail := hk.mail_eq hm he hspares
  have hlog := he.log
  cases ht with
  | setLetter => exact h.of_eq he (by simp [IpcMove.event?]) hmail fun _ => rfl
  | write => exact h.of_eq he (by simp [IpcMove.event?]) hmail fun _ => rfl
  | tick => exact h.of_eq he (by simp [IpcMove.event?]) hmail fun _ => rfl
  | copy =>
    refine h.of_eq he (fun ev hev q => ?_) hmail fun _ => rfl
    cases hev
    exact ⟨rfl, rfl⟩
  | @send cur dest env sendPid destPid henv =>
    intro q
    have hdest : I'.letter env = I.stamped env sendPid destPid := by
      rw [he.letter, IpcMove.letter, Function.update_self]
    simp only [hlog, IpcMove.event?, Option.toList_some, List.singleton_append, sentTo_cons,
      receivedBy_cons, Event.sentTo?, Event.receivedBy?, Option.toList_none, List.append_nil,
      List.map_append]
    rw [h q, ← hmail q, List.append_assoc]
    congr 1
    by_cases hq : dest = q
    · subst hq
      simp [mail, shift_dst, hdest]
    · have hne : Loc.queue (.recvMsgs q) ≠ Loc.queue (.recvMsgs dest) := by
        simpa using Ne.symm hq
      simp [mail, shift_other L (by simp : Loc.queue (.recvMsgs q) ≠ .held cur) hne, hq]
  | @receive p env l hl =>
    intro q
    simp only [hlog, IpcMove.event?, Option.toList_some, List.singleton_append, sentTo_cons,
      receivedBy_cons, Event.sentTo?, Event.receivedBy?, Option.toList_none, List.append_nil,
      List.map_append]
    rw [h q, ← hmail q, List.append_assoc]
    congr 1
    by_cases hq : p = q
    · subst hq
      simp [mail, shift_src L (by simp : Loc.queue (.recvMsgs p) ≠ .held p), hl, he.letter,
        IpcMove.letter]
    · have hne : Loc.queue (.recvMsgs q) ≠ Loc.queue (.recvMsgs p) := by
        simpa using Ne.symm hq
      simp [mail, shift_other L hne (by simp : _ ≠ Loc.held p), hq]
  | @request p queue env l hl =>
    refine h.of_eq he (fun ev hev q => ?_) hmail fun q => shift_other L ?_ (by simp) ..
    · cases hev
      exact ⟨rfl, rfl⟩
    · rcases hm with rfl | rfl <;> simp
  | @release p queue env henv =>
    refine h.of_eq he (fun ev hev q => ?_) hmail fun q => shift_other L (by simp) ?_ ..
    · cases hev
      exact ⟨rfl, rfl⟩
    · rw [hm.2]
      cases env <;> simp [homeQueue]
  | @insert p nullRead env l₁ l₂ henv hl =>
    refine h.of_eq he (fun ev hev q => ?_) hmail fun q => shift_other L (by simp) (by simp) ..
    obtain ⟨delay, -, rfl⟩ := Option.map_eq_some_iff.1 hev
    exact ⟨rfl, rfl⟩
  | @expire p env l hl =>
    refine h.of_eq he (fun ev hev q => ?_) hmail fun q => shift_other L (by simp) (by simp) ..
    cases hev
    exact ⟨rfl, rfl⟩

end Ipc

/-! ## Sleeping receivers -/

/-- A process that waits for a message has none. -/
def Kernel.Quiet (s : Kernel n) (L : Loc n → List EnvPtr) : Prop :=
  ∀ p, (s.sched.pTable p).state = .blockedOnReceive → L (.queue (.recvMsgs p)) = []

theorem Transfer.mail_nil {L L' : Loc n → List EnvPtr} {m : IpcMove n} {q : Fin n}
    {timer : Option (Fin n)} {I : Ipc n} (h : Transfer L m L') (hm : m.Proper timer I)
    (hsend : m.wakeUp ≠ some (.wakeReceiver q)) (hq : L (.queue (.recvMsgs q)) = []) :
    L' (.queue (.recvMsgs q)) = [] := by
  cases h with
  | @send cur dest env sendPid destPid henv =>
    rw [shift_other L (by simp) ?_]
    · exact hq
    · intro hdest
      cases hdest
      exact hsend rfl
  | @receive p env l hl =>
    rw [shift_other L ?_ (by simp)]
    · exact hq
    · intro hp
      cases hp
      rw [hq] at hl
      contradiction
  | request hl =>
    rw [shift_other L ?_ (by simp)]
    · exact hq
    · rcases hm with rfl | rfl <;> simp
  | @release p queue env henv =>
    rw [shift_other L (by simp) ?_]
    · exact hq
    · rw [hm.2]
      cases env <;> simp [homeQueue]
  | insert => rw [shift_other L (by simp) (by simp)]; exact hq
  | expire => rw [shift_other L (by simp) (by simp)]; exact hq
  | _ => exact hq

theorem Sched.wakeReceiver_state {S S' : Sched n} {p : Fin n} (h : S.wakeReceiver p = some S') :
    (S'.pTable p).state ≠ .blockedOnReceive := by
  unfold wakeReceiver at h
  split at h
  · have hview : S'.view = ((S.setState p .ready).becameReady p).view :=
      (enqueue_keeps (P := fun _ => True) h).1
    have hstate : (S'.pTable p).state = .ready := by
      rw [show (S'.pTable p).state = (S'.view p).state from rfl, hview]
      simp [Sched.view, becameReady, setState, setInfo]
    rw [hstate]
    simp
  · rename_i hp
    cases h
    exact hp

namespace Kernel

variable {table : Fin n → PcbInit} {s t t' : Kernel n} {l : Label} {a : Act n}
  {L L' : Loc n → List EnvPtr}

theorem Quiet.act (h : t.Quiet L) (hact : Acting table s l t a t' L L') : t'.Quiet L' := by
  intro p hp
  rcases (act_frame hact.before.regular hact.act).2.blocked p hp with hwait | rfl
  · cases a with
    | ipc m =>
      refine hact.transfer.mail_nil hact.proper (fun hwake => ?_) (h p hwait)
      obtain ⟨-, hsched, -⟩ := act_ipc hact.act
      rw [hwake] at hsched
      exact Sched.wakeReceiver_state hsched hp
    | _ =>
      rw [(hact.ipc_eq nofun).2]
      exact h p hwait
  · -- It has just gone to sleep, on an empty mailbox.
    have hempty : t.ipc.isEmpty (.recvMsgs p) = true := hact.does.2.2.2.1
    rw [(hact.ipc_eq nofun).2]
    exact (hact.before.keeps.queue _).isEmpty.1 hempty

/-! ## Channels along runs -/

theorem Delivers.act {π : EnvPtr × Letter → β} (h : t.ipc.Delivers π L)
    (hact : Acting table s l t a t' L L') (hspares : ∀ m, a = .ipc m → m.Spares π t.ipc) :
    t'.ipc.Delivers π L' := by
  cases a with
  | ipc m =>
    exact h.move hact.before.keeps hact.proper hact.transfer hact.effect (hspares m rfl)
  | _ =>
    rw [(hact.ipc_eq nofun).1, (hact.ipc_eq nofun).2]
    exact h

/-- An envelope, with the pids a send stamps on it. -/
def stamps (x : EnvPtr × Letter) : EnvPtr × ℤ × ℤ := (x.1, x.2.sendPid, x.2.destPid)

/-- No primitive changes the stamps of an envelope that nobody holds. -/
theorem Acting.spares_stamps {m : IpcMove n} (hact : Acting table s l t (.ipc m) t' L L') :
    m.Spares stamps t.ipc := by
  rintro env letter rfl
  rcases hact.does.fills hact.owning with hheld | ⟨-, -, hletter⟩
  · exact .inl hheld
  · right
    rw [hletter]
    rfl

/-- Every send was stamped with the pid of the sender, and went where its destination pid says. -/
def Stamped (s : Kernel n) : Prop :=
  ∀ p q env letter, .sent p q env letter ∈ s.ipc.log →
    letter.sendPid = (s.sched.pTable p).pid ∧ s.sched.kGetProcess letter.destPid = some q

theorem Stamped.act (h : t.Stamped) (hact : Acting table s l t a t' L L') : t'.Stamped := by
  have hids : t'.sched.ids = t.sched.ids := hact.after.ids.trans hact.before.ids.symm
  intro p q env letter hsent
  rw [Sched.pid_ids hids, Sched.kGetProcess_ids hids]
  cases a with
  | ipc m =>
    rw [hact.effect.log, List.mem_append, Option.mem_toList] at hsent
    rcases hsent with hnew | hold
    · cases m with
      | send cur dest env' sendPid destPid =>
        cases hnew
        obtain ⟨p', -, ⟨rfl, rfl, hdest⟩, -⟩ := hact.does
        exact ⟨rfl, hdest⟩
      | insert => obtain ⟨delay, -, hev⟩ := Option.map_eq_some_iff.1 hnew; contradiction
      | _ => cases hnew
    · exact h p q env letter hold
  | _ =>
    rw [(hact.ipc_eq nofun).1] at hsent
    exact h p q env letter hsent

theorem Booted.delivers (π : EnvPtr × Letter → β) (h : Booted table s) :
    s.ipc.Delivers π Ipc.bootPlaces := by
  intro q
  rw [h.filled.log, Ipc.mail, Ipc.bootPlaces_recvMsgs]
  rfl

end Kernel

/-- Along every run in which processes only give away what they hold, each process receives what
was sent to it, in the order of the sends, once each and with the pids stamped at the send; and a
process that waits for a message has none. -/
theorem fifo_delivery {table : Fin n → PcbInit} {s : Kernel n}
    (hs : Reach Kernel.step (Kernel.Booted table) Owning s) :
    (∀ q, (receivedBy s.ipc.log q).map Kernel.stamps <+: (sentTo s.ipc.log q).map Kernel.stamps) ∧
      s.Stamped ∧
      ∀ p, (s.sched.pTable p).state = .blockedOnReceive → s.ipc.isEmpty (.recvMsgs p) = true := by
  have hboot : ∀ s : Kernel n, Kernel.Booted table s →
      s.ipc.Delivers Kernel.stamps Ipc.bootPlaces ∧ s.Stamped ∧ s.Quiet Ipc.bootPlaces := by
    intro s hs
    refine ⟨hs.delivers _, fun p q env letter hsent => ?_, fun p _ => Ipc.bootPlaces_recvMsgs p⟩
    rw [hs.filled.log] at hsent
    contradiction
  obtain ⟨-, L, haccounts, hdelivers, hstamped, hquiet⟩ := Kernel.Accounts.reach
    (I := fun s L => s.ipc.Delivers Kernel.stamps L ∧ s.Stamped ∧ s.Quiet L) hs (fun _ _ => id)
    hboot fun s l t a t' L L' _ hact ⟨hdelivers, hstamped, hquiet⟩ =>
      ⟨Kernel.Delivers.act hdelivers hact fun m hm => (hm ▸ hact).spares_stamps,
        hstamped.act hact, hquiet.act hact⟩
  refine ⟨fun q => ⟨_, (hdelivers q).symm⟩, hstamped, fun p hp => ?_⟩
  exact (haccounts.keeps.queue _).isEmpty.2 (hquiet p hp)

/-- The CCI gets the envelope back that it sent to the timer. -/
theorem fifo_delivery_itable :
    ∃ s, ((Kernel.kInit Kernel.Ram.zero itable).bind fun s =>
        exec (guarded Kernel.step Owning) s delayed) = some s ∧
      receivedBy s.ipc.log 2 ≠ [] ∧
      (∀ q, (receivedBy s.ipc.log q).map Kernel.stamps <+:
        (sentTo s.ipc.log q).map Kernel.stamps) ∧
      s.Stamped ∧
      ∀ p, (s.sched.pTable p).state = .blockedOnReceive →
        s.ipc.isEmpty (.recvMsgs p) = true := by
  have hrun : ((Kernel.kInit Kernel.Ram.zero itable).bind fun s =>
      exec (guarded Kernel.step Owning) s delayed).any (fun s =>
        !(receivedBy s.ipc.log 2).isEmpty) = true := by
    decide +kernel
  obtain ⟨s, hs, hreceived⟩ := (Option.any_eq_true ..).1 hrun
  obtain ⟨s₀, hinit, hexec⟩ := Option.bind_eq_some_iff.1 hs
  refine ⟨s, hs, ?_, fifo_delivery ((Reach.init ⟨_, hinit⟩).guarded hexec)⟩
  simpa using hreceived

end Rtx.Coldfire
