import Rtx.Coldfire.TimerRuns

/-!
# What the delay service guarantees

The delay service is safe along every run in which processes only give away what they hold
(`delay_service`). It is not always in time: a tick returns one delay at most, so the timeout list
only stays free of expired delays while no two are due at the same tick (`on_time_iff`).
-/

namespace Rtx.Coldfire

open Transition Linked

variable {n : ℕ} {table : Fin n → PcbInit} {timer : Fin n}

/-! ## Safety -/

namespace Kernel

variable {s s' : Kernel n} {L : Loc n → List EnvPtr} {env : EnvPtr}

/-- The envelopes of the delays that are not over are in the timer's mailbox and in the timeout
list, each of them once; and nothing else is there. -/
def HoldsDelays (timer : Fin n) (s : Kernel n) : Prop :=
  ∃ mail list, Chain (nextOf s.ipc.env) (s.ipc.queue (.recvMsgs timer)).head mail ∧
    Chain (nextOf s.ipc.env) s.ipc.timeoutQueue list ∧
    ∀ env, (mail ++ list).count env = (delays timer s.ipc.log env).toList.length

theorem Timed.holdsDelays (h : s.Timed timer L) (haccounts : s.Accounts table L) :
    s.HoldsDelays timer := by
  have hpartition := haccounts.keeps.partition
  refine ⟨L (.queue (.recvMsgs timer)), L .timeoutQueue, (haccounts.keeps.queue _).chain,
    haccounts.keeps.timeoutQueue, fun env => ?_⟩
  have hnodup : (L (.queue (.recvMsgs timer)) ++ L .timeoutQueue).Nodup := by
    refine List.nodup_append.2 ⟨hpartition.nodup _, hpartition.nodup _, ?_⟩
    rintro x hx y hy rfl
    exact hpartition.not_mem hx (by simp) hy
  cases hd : delays timer s.ipc.log env with
  | none =>
    refine List.count_eq_zero.2 fun henv => ?_
    rcases List.mem_append.1 henv with henv | henv
    · obtain ⟨d, hd', -⟩ := h.times.requested env henv
      rw [hd] at hd'
      contradiction
    · obtain ⟨d, deadline, hd', -⟩ := h.times.pending env henv
      rw [hd] at hd'
      contradiction
  | some d =>
    refine List.count_eq_one_of_mem hnodup (List.mem_append.2 ?_)
    rcases h.times.place env (by rw [hd]; simp) with henv | henv | henv
    · exact .inl henv
    · exact .inr henv
    · rw [h.idle] at henv
      contradiction

theorem requestDelay_sent {timeDelay wakeupCode : ℤ} (haccounts : s.Accounts table L)
    (htimer : TimerIs table timer)
    (hstep : s.step (.call (.requestDelay timeDelay wakeupCode (some env))) = some s') :
    ∃ cur letter, s.sched.currentProcess = some cur ∧
      s'.ipc.log = .sent cur timer env letter :: s.ipc.log ∧
      letter.sendPid = (s.sched.pTable cur).pid ∧ letter.msgType = wakeupCode ∧
      letter.word = some (wrap32 timeDelay) := by
  obtain ⟨cur, context, hrun, ⟨o, htrap, hleave⟩ | ⟨-, hbetween⟩⟩ := step_cases hstep
  · obtain ⟨-, htrap⟩ := Option.ite_none_right_eq_some.1 htrap
    obtain ⟨⟨r, t⟩, hreq, rfl⟩ := Option.map_eq_some_iff.1 htrap
    cases hleave
    obtain ⟨env', body, henv, hbody, hsend⟩ := kRequestDelay_cases hreq
    obtain rfl := Option.some.inj henv
    set letter : Letter := { (s.ipc.env env).toLetter with
      msgType := wakeupCode
      msg := some (putInt body 0 timeDelay) } with hletter
    have hself : ((s.filled env letter).ipc.env env).toLetter = letter :=
      Ipc.toLetter_setLetter_self ..
    have hfound : (s.filled env letter).sched.kGetProcess timerIProcessPid = some timer :=
      haccounts.timer_found htimer
    obtain ⟨cur', dest, hsends⟩ := kSendMessage_sends
      (by rw [show ((s.filled env letter).ipc.env env).msg = letter.msg from
        congrArg Letter.msg hself]; rfl) (by rw [hfound]; rfl) hsend
    obtain rfl : dest = timer := Option.some.inj (hsends.found.symm.trans hfound)
    refine ⟨cur', _, hsends.current, hsends.log, rfl, ?_, ?_⟩
    · exact congrArg Letter.msgType hself
    · change ((s.filled env letter).ipc.env env).toLetter.word = _
      rw [hself, hletter, Letter.word, Option.map_some, getInt_putInt]
  · contradiction

end Kernel

/-- Along every run in which processes only give away what they hold, and no accepted delay
overflows: the delays that are not over are in the timer's mailbox and in the timeout list, once
each; each request is returned once, apart from one that is not over, when it is due and nothing is
due earlier, to the process that sent it, with the type it was sent with; and `k_request_delay`
makes such a request. -/
theorem delay_service {table : Fin n → PcbInit} {timer : Fin n} {s : Kernel n}
    (htimer : TimerIs table timer) (hs : Reach Kernel.step (Kernel.Booted table) Careful s)
    (hrange : ∀ ev ∈ s.ipc.log, ev.InRange) :
    s.HoldsDelays timer ∧ Served Delay.expiry timer s.ipc.log ∧ s.Stamped ∧
      (∀ env, s.ipc.log.countP (Event.returns timer env) +
        (delays timer s.ipc.log env).toList.length =
        s.ipc.log.countP (Event.requests timer env)) ∧
      ∀ timeDelay wakeupCode env s',
        s.step (.call (.requestDelay timeDelay wakeupCode (some env))) = some s' →
        ∃ cur letter, s.sched.currentProcess = some cur ∧
          s'.ipc.log = .sent cur timer env letter :: s.ipc.log ∧
          letter.sendPid = (s.sched.pTable cur).pid ∧ letter.msgType = wakeupCode ∧
          letter.word = some (wrap32 timeDelay) := by
  obtain ⟨-, L, haccounts, htimed⟩ := Kernel.Timed.reach htimer hs
  have hserved := htimed.times.served.exact hrange
  refine ⟨htimed.holdsDelays haccounts, hserved, htimed.stamped, hserved.returned_once, ?_⟩
  intro timeDelay wakeupCode env s' hstep
  exact Kernel.requestDelay_sent haccounts htimer hstep

theorem itable_timer : TimerIs itable 0 := ⟨by decide +kernel, rfl⟩

theorem delay_service_itable :
    ∃ s, ((Kernel.kInit Kernel.Ram.zero itable).bind fun s =>
        exec (guarded Kernel.step Careful) s delayed) = some s ∧
      s.ipc.log.countP (Event.returns 0 (.envPool 0)) = 1 ∧
      s.HoldsDelays 0 ∧ Served Delay.expiry 0 s.ipc.log := by
  have hrun : ((Kernel.kInit Kernel.Ram.zero itable).bind fun s =>
      exec (guarded Kernel.step Careful) s delayed).any (fun s => decide (
        s.ipc.log.countP (Event.returns 0 (.envPool 0)) = 1 ∧
        ∀ ev ∈ s.ipc.log, ev.InRange)) = true := by
    decide +kernel
  obtain ⟨s, hs, hfacts⟩ := (Option.any_eq_true ..).1 hrun
  obtain ⟨hreturned, hrange⟩ := of_decide_eq_true hfacts
  obtain ⟨s₀, hinit, hexec⟩ := Option.bind_eq_some_iff.1 hs
  obtain ⟨hholds, hserved, -⟩ :=
    delay_service itable_timer ((Reach.init ⟨_, hinit⟩).guarded hexec) hrange
  exact ⟨s, hs, hreturned, hholds, hserved⟩

/-- The CCI requests a second delay with an envelope that is in the timeout list. -/
def delayTwice : List Label := [
  .call .requestMsgEnv,
  .call (.requestDelay 5 7 (some (.envPool 0))),
  .irqTimer fun _ => some 0,
  .call (.requestDelay 5 7 (some (.envPool 0)))]

/-- Where processes give away what they do not hold, an envelope is both in the mailbox of the timer
and in the timeout list. -/
theorem delay_service_fails :
    ∃ s, Reach Kernel.step (Kernel.Booted itable) (fun _ _ => True) s ∧
      (∀ ev ∈ s.ipc.log, ev.InRange) ∧ ¬ s.HoldsDelays 0 := by
  have hrun : ((Kernel.kInit Kernel.Ram.zero itable).bind fun s =>
      exec (guarded Kernel.step fun _ _ => True) s delayTwice).any (fun s => decide (
        (s.ipc.queue (.recvMsgs 0)).head = some (.envPool 0) ∧
        s.ipc.timeoutQueue = some (.envPool 0) ∧ (s.ipc.env (.envPool 0)).next = none ∧
        (delays 0 s.ipc.log (.envPool 0)).toList.length = 1 ∧
        ∀ ev ∈ s.ipc.log, ev.InRange)) = true := by
    decide +kernel
  obtain ⟨s, hs, hfacts⟩ := (Option.any_eq_true ..).1 hrun
  obtain ⟨hmail, hlist, hnext, hdelay, hrange⟩ := of_decide_eq_true hfacts
  obtain ⟨s₀, hinit, hexec⟩ := Option.bind_eq_some_iff.1 hs
  refine ⟨s, (Reach.init ⟨_, hinit⟩).guarded hexec, hrange, ?_⟩
  rintro ⟨mail, list, hmail', hlist', hcount⟩
  rw [hmail] at hmail'
  rw [hlist] at hlist'
  obtain rfl : mail = [.envPool 0] := hmail'.unique ⟨rfl, hnext⟩
  obtain rfl : list = [.envPool 0] := hlist'.unique ⟨rfl, hnext⟩
  have htwice := hcount (.envPool 0)
  rw [hdelay] at htwice
  simp at htwice

/-! ## Punctuality -/

/-- Every delay in the timeout list is due later. -/
def OnTime (timer : Fin n) (s : Kernel n) : Prop :=
  ∀ l, Chain (nextOf s.ipc.env) s.ipc.timeoutQueue l → ∀ env ∈ l, ∃ d deadline,
    delays timer s.ipc.log env = some d ∧ d.deadline = some deadline ∧ s.ipc.clock < deadline

/-- The envelopes of the delays that are due at the next tick. -/
def dueNext (timer : Fin n) (s : Kernel n) : List EnvPtr :=
  Ipc.allEnvs.filter fun env => (s.nextDue timer env).any (· ≤ wrap32 (s.ipc.clock + 1))

/-- If the step is a tick, one delay at most is due at it. -/
def SingleDue (timer : Fin n) (s : Kernel n) : Label → Prop
  | .irqTimer _ => (dueNext timer s).length ≤ 1
  | _ => True

instance (timer : Fin n) (s : Kernel n) : (l : Label) → Decidable (SingleDue timer s l)
  | .irqTimer _ => inferInstanceAs (Decidable ((dueNext timer s).length ≤ 1))
  | .call _ | .resume | .irqUart .. | .write .. | .startPong => isTrue trivial

namespace Kernel

variable {s s' : Kernel n} {l : Label} {L L' : Loc n → List EnvPtr} {returned rest : List EnvPtr}

theorem mem_dueNext {env : EnvPtr} : env ∈ dueNext timer s ↔
    ∃ v, s.nextDue timer env = some v ∧ v ≤ wrap32 (s.ipc.clock + 1) := by
  rw [dueNext, List.mem_filter, Option.any_eq_true]
  simp [Ipc.mem_allEnvs]

/-- In a state of the kernel there is only one timeout list. -/
theorem onTime_iff (h : s.Accounts table L) : OnTime timer s ↔ ∀ env ∈ L .timeoutQueue,
    ∃ d deadline, delays timer s.ipc.log env = some d ∧ d.deadline = some deadline ∧
      s.ipc.clock < deadline := by
  constructor
  · intro hs
    exact hs _ h.keeps.timeoutQueue
  · intro hs l hl
    obtain rfl := hl.unique h.keeps.timeoutQueue
    exact hs

theorem Ticked.onTime (h : Ticked timer s s' returned rest) (hone : (dueNext timer s).length ≤ 1) :
    ∀ env ∈ rest, ∃ d deadline, delays timer s'.ipc.log env = some d ∧
      d.deadline = some deadline ∧ s'.ipc.clock < deadline := by
  intro env henv
  obtain ⟨d, deadline, hd, hdeadline, hnext⟩ := h.left env henv
  refine ⟨d, deadline, hd, hdeadline, ?_⟩
  cases hreturned : returned with
  | nil =>
    obtain ⟨v, hv, hlt⟩ := h.ahead hreturned env henv
    obtain rfl := Option.some.inj (hnext.symm.trans hv)
    exact hlt
  | cons first more =>
    -- The one that was returned is the only one that was due.
    by_contra hdue
    have hfirst : first ∈ dueNext timer s := by
      obtain ⟨v, hv, hle⟩ := h.due first (hreturned ▸ List.mem_cons_self)
      exact mem_dueNext.2 ⟨v, hv, h.clock ▸ hle⟩
    have henv' : env ∈ dueNext timer s :=
      mem_dueNext.2 ⟨deadline, hnext, by rw [← h.clock]; exact not_lt.1 hdue⟩
    obtain ⟨x, hx⟩ := List.length_eq_one_iff.1 (le_antisymm hone (List.length_pos_of_mem hfirst))
    rw [hx, List.mem_singleton] at hfirst henv'
    have hnodup := h.nodup
    rw [hreturned] at hnodup
    refine (List.nodup_append.1 hnodup).2.2 first List.mem_cons_self env henv ?_
    rw [hfirst, henv']

theorem Ticked.late (h : Ticked timer s s' returned rest) (hmany : ¬ (dueNext timer s).length ≤ 1) :
    ∃ env ∈ rest, ∃ d deadline, delays timer s'.ipc.log env = some d ∧
      d.deadline = some deadline ∧ deadline ≤ s'.ipc.clock := by
  by_contra hnone
  -- Otherwise all that are due are returned.
  have hall : dueNext timer s ⊆ returned := by
    intro env henv
    obtain ⟨v, hv, hle⟩ := mem_dueNext.1 henv
    rcases List.mem_append.1 (h.all env v hv) with hmem | hmem
    · exact hmem
    · obtain ⟨d, deadline, hd, hdeadline, hnext⟩ := h.left env hmem
      obtain rfl := Option.some.inj (hnext.symm.trans hv)
      exact absurd ⟨env, hmem, d, deadline, hd, hdeadline, h.clock ▸ hle⟩ hnone
  have hnodup : (dueNext timer s).Nodup := Ipc.nodup_allEnvs.filter _
  exact hmany ((hnodup.subperm hall).length_le.trans h.one)

/-- A step leaves the timeout list in time if it was, unless two delays are due at a tick. -/
theorem Timed.onTime (h : s.Timed timer L) (haccounts : s.Accounts table L)
    (htimer : TimerIs table timer) (hint : s.sched.interruptedProcess = none)
    (hcareful : Careful s l) (hs : OnTime timer s) (hstep : s.step l = some s') :
    OnTime timer s' ↔ SingleDue timer s l := by
  by_cases hl : l.actor = .timer
  · cases l with
    | irqTimer nullRead =>
      obtain ⟨L', returned, haccounts', -, hticked⟩ :=
        h.tick haccounts htimer hint hcareful.1 hstep
      rw [onTime_iff haccounts']
      constructor
      · intro hs'
        by_contra hmany
        obtain ⟨env, henv, d, deadline, hd, hdeadline, hle⟩ := hticked.late hmany
        obtain ⟨d', deadline', hd', hdeadline', hlt⟩ := hs' env henv
        obtain rfl := Option.some.inj (hd.symm.trans hd')
        obtain rfl := Option.some.inj (hdeadline.symm.trans hdeadline')
        exact absurd hle (not_le.2 hlt)
      · exact hticked.onTime
    | call c => cases c <;> contradiction
    | _ => contradiction
  · obtain ⟨L', haccounts', -, hclock, hlist, hdelays⟩ :=
      h.other haccounts htimer hint hcareful hl hstep
    have hs' : OnTime timer s' := by
      rw [onTime_iff haccounts', hlist, hclock]
      intro env henv
      rw [hdelays env henv]
      exact (onTime_iff haccounts).1 hs env henv
    refine ⟨fun _ => ?_, fun _ => hs'⟩
    cases l with
    | irqTimer nullRead => exact absurd rfl hl
    | _ => trivial

end Kernel

/-- In a run in which processes only give away what they hold, no envelope of an expired delay is
left in the timeout list if and only if at no tick two delays are due. -/
theorem on_time_iff {table : Fin n → PcbInit} {timer : Fin n} {s : Kernel n} {ls : List Label}
    (htimer : TimerIs table timer) (hs : Kernel.Booted table s)
    (hcareful : Along Kernel.step Careful s ls) :
    Always Kernel.step (OnTime timer) s ls ↔ Along Kernel.step (SingleDue timer) s ls := by
  refine always_iff_along (I := fun s => (s.sched.interruptedProcess = none ∧
    ∃ L, s.Accounts table L ∧ s.Timed timer L) ∧ OnTime timer s) ?_ (fun s h => h.2) ?_ ?_ hcareful
  · rintro s l s' ⟨⟨hint, L, haccounts, htimed⟩, hs⟩ hl hsingle hstep
    exact ⟨htimed.step haccounts htimer hint hl hstep,
      (htimed.onTime haccounts htimer hint hl hs hstep).2 hsingle⟩
  · rintro s l s' ⟨⟨hint, L, haccounts, htimed⟩, hs⟩ hl hmany hstep hs'
    exact hmany ((htimed.onTime haccounts htimer hint hl hs hstep).1 hs')
  · refine ⟨Kernel.Timed.reach htimer (.init hs), ?_⟩
    rw [Kernel.onTime_iff hs.accounts.2]
    nofun

/-- Two delays that are accepted at the same tick, the second one tick longer. -/
def apart : List Label := [
  .call .requestMsgEnv,
  .call .requestMsgEnv,
  .call (.requestDelay 1 7 (some (.envPool 0))),
  .call (.requestDelay 2 7 (some (.envPool 1))),
  .irqTimer fun _ => some 0,
  .irqTimer fun _ => some 0,
  .irqTimer fun _ => some 0]

theorem on_time_itable :
    ∃ s, Kernel.kInit Kernel.Ram.zero itable = some s ∧
      (exec Kernel.step s apart).isSome = true ∧ Always Kernel.step (OnTime 0) s apart := by
  have hrun : ((Kernel.kInit Kernel.Ram.zero itable).any fun s =>
      (exec (guarded Kernel.step Careful) s apart).isSome &&
      (exec (guarded Kernel.step (SingleDue 0)) s apart).isSome &&
      (exec Kernel.step s apart).isSome) = true := by
    decide +kernel
  obtain ⟨s, hinit, hfacts⟩ := (Option.any_eq_true ..).1 hrun
  simp only [Bool.and_eq_true] at hfacts
  obtain ⟨⟨hcareful, hsingle⟩, hexec⟩ := hfacts
  obtain ⟨t, hcareful⟩ := Option.isSome_iff_exists.1 hcareful
  obtain ⟨t', hsingle⟩ := Option.isSome_iff_exists.1 hsingle
  exact ⟨s, hinit, hexec, (on_time_iff itable_timer ⟨_, hinit⟩ (Along.guarded hcareful)).2
    (Along.guarded hsingle)⟩

/-- Two delays of one tick that are accepted at the same tick. -/
def together : List Label := [
  .call .requestMsgEnv,
  .call .requestMsgEnv,
  .call (.requestDelay 1 7 (some (.envPool 0))),
  .call (.requestDelay 1 7 (some (.envPool 1))),
  .irqTimer fun _ => some 0,
  .irqTimer fun _ => some 0]

/-- At the second tick both are due, and one is left in the timeout list. -/
theorem on_time_fails :
    ∃ s, Reach Kernel.step (Kernel.Booted itable) Careful s ∧ ¬ OnTime 0 s := by
  have hrun : ((Kernel.kInit Kernel.Ram.zero itable).bind fun s =>
      exec (guarded Kernel.step Careful) s together).any (fun s => decide (
        s.ipc.timeoutQueue = some (.envPool 0) ∧ (s.ipc.env (.envPool 0)).next = none ∧
        ((delays 0 s.ipc.log (.envPool 0)).bind Delay.deadline).any (· ≤ s.ipc.clock))) = true := by
    decide +kernel
  obtain ⟨s, hs, hfacts⟩ := (Option.any_eq_true ..).1 hrun
  obtain ⟨hlist, hnext, hlate⟩ := of_decide_eq_true hfacts
  obtain ⟨s₀, hinit, hexec⟩ := Option.bind_eq_some_iff.1 hs
  refine ⟨s, (Reach.init ⟨_, hinit⟩).guarded hexec, fun hontime => ?_⟩
  obtain ⟨d, deadline, hd, hdeadline, hlt⟩ :=
    hontime [.envPool 0] ⟨hlist, hnext⟩ (.envPool 0) List.mem_cons_self
  rw [hd, Option.bind_some, hdeadline] at hlate
  simp at hlate
  omega

end Rtx.Coldfire
