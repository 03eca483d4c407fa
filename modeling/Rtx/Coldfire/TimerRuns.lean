import Rtx.Coldfire.Delays

/-!
# The timer along runs

A step of another process leaves the delays alone (`Timed.other`). A tick accepts all requests and
then returns the first delay, if that is due (`Timed.tick`). So the delays are where they should be
in every reachable state (`Timed.reach`).
-/

namespace Rtx.Coldfire

open Transition Linked Places

variable {n : ℕ} {table : Fin n → PcbInit} {timer : Fin n}

/-- `timer` is the timer of the table, an i-process. -/
def TimerIs (table : Fin n → PcbInit) (timer : Fin n) : Prop :=
  getProcess table timerIProcessPid = some timer ∧ (table timer).isIProcess = true

namespace Kernel

variable {s s' t t' : Kernel n} {l : Label} {a : Act n} {L L' : Loc n → List EnvPtr}
  {env : EnvPtr}

/-- Between two steps: the delays are where they should be, and the timer holds nothing. -/
structure Timed (timer : Fin n) (s : Kernel n) (L : Loc n → List EnvPtr) : Prop where
  times : s.ipc.Times timer L
  stamped : s.Stamped
  idle : L (.held timer) = []

theorem Accounts.timer_found (h : s.Accounts table L) (htimer : TimerIs table timer) :
    s.sched.kGetProcess timerIProcessPid = some timer :=
  (kGetProcess_tableIds h.ids _).trans htimer.1

theorem Accounts.keeps_timer (h : s.Accounts table L) (htimer : TimerIs table timer) :
    s.ipc.Keeps (some timer) L :=
  h.timer_found htimer ▸ h.keeps

theorem Acting.proper_timer {m : IpcMove n} (h : Acting table s l t (.ipc m) t' L L')
    (htimer : TimerIs table timer) : m.Proper (some timer) t.ipc :=
  h.before.timer_found htimer ▸ h.proper

/-! ## Steps of the others -/

theorem worker_ne_timer (h : s.Accounts table L) (htimer : TimerIs table timer)
    (hint : s.sched.interruptedProcess = none) (hl : l.actor ≠ .timer) :
    s.worker l ≠ some timer := by
  refine worker_ne h.ids h.regular htimer.2 hint (fun hactor => absurd hactor hl) fun _ => ?_
  rw [getProcess_pid htimer.1]
  decide

theorem Timed.act (h : t.Timed timer L) (htimer : TimerIs table timer)
    (hworker : s.worker l ≠ some timer) (hcareful : Careful s l)
    (hact : Acting table s l t a t' L L') :
    t'.Timed timer L' ∧ L' .timeoutQueue = L .timeoutQueue ∧
      ∀ x ∈ L .timeoutQueue, delays timer t'.ipc.log x = delays timer t.ipc.log x := by
  have hstamped := h.stamped.act hact
  cases a with
  | ipc m =>
    have hmover : m.mover? ≠ some timer := hact.does.mover_ne hworker
    have hk := hact.before.keeps_timer htimer
    have hproper := hact.proper_timer htimer
    obtain ⟨htimes, hidle⟩ := h.times.other h.idle hk hproper hact.transfer hact.effect hmover
      fun env letter hm => hcareful.fills (hm ▸ hact.does)
    exact ⟨⟨htimes, hstamped, hidle⟩, hk.other_pending hproper hact.transfer hact.effect hmover⟩
  | _ =>
    obtain ⟨hipc, rfl⟩ := hact.ipc_eq nofun
    exact ⟨⟨hipc ▸ h.times, hstamped, h.idle⟩, rfl, fun x _ => by rw [hipc]⟩

theorem Acting.clock (hact : Acting table s l t a t' L L') (hl : l.actor ≠ .timer) :
    t'.ipc.clock = t.ipc.clock := by
  cases a with
  | ipc m =>
    rw [hact.effect.clock]
    cases m with
    | tick =>
      obtain ⟨p, -, -, hallows⟩ := hact.does
      cases hactor : l.actor with
      | timer => exact absurd hactor hl
      | _ => rw [hactor] at hallows; exact hallows.elim
    | _ => rfl
  | _ => rw [(hact.ipc_eq nofun).1]

theorem Timed.other (h : s.Timed timer L) (haccounts : s.Accounts table L)
    (htimer : TimerIs table timer) (hint : s.sched.interruptedProcess = none)
    (hcareful : Careful s l) (hl : l.actor ≠ .timer) (hstep : s.step l = some s') :
    ∃ L', s'.Accounts table L' ∧ s'.Timed timer L' ∧ s'.ipc.clock = s.ipc.clock ∧
      L' .timeoutQueue = L .timeoutQueue ∧
      ∀ x ∈ L .timeoutQueue, delays timer s'.ipc.log x = delays timer s.ipc.log x := by
  have hworker := worker_ne_timer haccounts htimer hint hl
  refine (haccounts.step (I := fun t L₁ => t.Timed timer L₁ ∧ t.ipc.clock = s.ipc.clock ∧
    L₁ .timeoutQueue = L .timeoutQueue ∧
    ∀ x ∈ L .timeoutQueue, delays timer t.ipc.log x = delays timer s.ipc.log x)
    ⟨h, rfl, rfl, fun _ _ => rfl⟩ hint hcareful.1 ?_ hstep).2
  rintro t a t' L₁ L₂ hact ⟨ht, hclock, hlist, hdelays⟩
  obtain ⟨ht', hlist', hdelays'⟩ := ht.act htimer hworker hcareful hact
  refine ⟨ht', (hact.clock hl).trans hclock, hlist'.trans hlist, fun x hx => ?_⟩
  rw [hdelays' x (hlist ▸ hx), hdelays x hx]

/-! ## Ticks -/

/-- In the step with label `l` from `s` the timer works, and starts with empty hands. -/
structure Ticking (table : Fin n → PcbInit) (timer : Fin n) (s : Kernel n) (l : Label) : Prop where
  found : TimerIs table timer
  ids : s.sched.ids = tableIds table
  owning : Owning s l
  actor : l.actor = .timer
  idle : heldBy s.ipc.log timer = []

theorem Ticking.worker (hs : Ticking table timer s l) : s.worker l = some timer := by
  rw [Label.worker_timer hs.actor, kGetProcess_tableIds hs.ids, hs.found.1]

theorem Ticking.act (hs : Ticking table timer s l) (h : t.ipc.Times timer L)
    (hact : Acting table s l t a t' L L') : t'.ipc.Times timer L' := by
  have hk := hact.before.keeps_timer hs.found
  have hk' := hact.after.keeps_timer hs.found
  have hl := hs.actor
  cases a with
  | ipc m =>
    have hmove := (act_ipc hact.act).1
    have he := hact.effect
    have hproper := hact.proper_timer hs.found
    have htransfer : Coldfire.Transfer L m L' := hact.transfer
    have hworker : ∀ {p}, s.worker l = some p → p = timer := fun hp =>
      Option.some.inj (hp.symm.trans hs.worker)
    have hempty : ∀ {p}, heldBy t.ipc.log p = heldBy s.ipc.log p → p = timer →
        L (.held timer) = [] := by
      rintro p heq rfl
      rw [hk.held, heq, hs.idle]
    cases m with
    | tick =>
      obtain ⟨p, hp, -, hallows⟩ := hact.does
      rw [hl] at hallows
      have hidle := hempty hallows (hworker hp)
      cases htransfer
      exact h.frame (he.log ▸ h.served) (by rw [he.log]; rfl) (fun x _ => congrFun he.letter x)
        rfl rfl ⟨hidle, hidle⟩
    | receive q env =>
      obtain ⟨p, hp, rfl, hallows⟩ := hact.does
      obtain rfl := hworker hp
      rw [hl] at hallows
      cases htransfer with
      | receive hmail => exact h.receive hmail (hempty hallows rfl) he
    | insert q nullRead env =>
      obtain ⟨p, hp, rfl, hallows⟩ := hact.does
      obtain rfl := hworker hp
      rw [hl] at hallows
      obtain ⟨hnext, log, hlog⟩ := hallows
      exact h.insert hk hk' hlog hnext hmove htransfer he
    | expire q env =>
      obtain ⟨p, hp, rfl, hallows⟩ := hact.does
      obtain rfl := hworker hp
      rw [hl] at hallows
      obtain ⟨-, timeout, htimeout, hdue⟩ := hk.effect_expire hmove
      cases htransfer with
      | expire hlist => exact h.expire hlist (hempty hallows rfl) htimeout hdue he
    | send cur dest env sendPid destPid =>
      obtain ⟨p, hp, ⟨rfl, -⟩, hallows⟩ := hact.does
      obtain rfl := hworker hp
      rw [hl] at hallows
      obtain ⟨hdest, time, log, hlog⟩ := hallows
      exact h.sendBack hk hproper hlog hdest htransfer he
    | write env content =>
      obtain ⟨rfl, -⟩ := hact.does
      contradiction
    | _ =>
      obtain ⟨p, -, -, hallows⟩ := hact.does
      rw [hl] at hallows
      exact hallows.elim
  | _ =>
    obtain ⟨hipc, rfl⟩ := hact.ipc_eq nofun
    exact hipc ▸ h

/-- A tick: the timer takes all requests, and then looks for an expired delay. -/
theorem irqTimer_cases {nullRead : EnvPtr → Option ℤ}
    (htimer : s.sched.kGetProcess timerIProcessPid = some timer)
    (hint : s.sched.interruptedProcess = none) (h : s.step (.irqTimer nullRead) = some s') :
    ∃ t t', Reach Kernel.act (· = s) ((Label.irqTimer nullRead).Does s) t ∧
      t.sched.currentProcess = some timer ∧ Drained s timer t ∧ t.expireTimeout = some t' ∧
      s'.ipc = t'.ipc := by
  obtain ⟨cur, context, hrun, ⟨o, htrap, -⟩ | ⟨-, hbetween⟩⟩ := step_cases h
  · contradiction
  have hcur := (running_eq_some.1 hrun).1
  obtain ⟨t', hran, rfl⟩ := Option.map_eq_some_iff.1 hbetween
  have henter : s.act (.sched (.enterIsr timerIProcessPid)) =
      some { s with sched := s.sched.enterIsr timerIProcessPid } := by
    simp [act, Sched.move, hcur, hint]
  simp only [Sched.enterIsr, htimer] at hran henter
  obtain ⟨t, hworks, hdrained, hexpire⟩ :=
    timerIProcess_drains (b := s) (by exact rfl) (by exact rfl) hran
  have hall := (kClockIncrSystemTime_works (b := s) (by exact rfl)).trans hworks
  refine ⟨t, t', ?_, hworks.pointers.1, hdrained, hexpire, rfl⟩
  refine Reach.trans (.one (l := Act.sched (.enterIsr timerIProcessPid)) ?_ henter)
    (hall.does (l := .irqTimer nullRead) htimer)
  exact ⟨id, ⟨fun _ => by simp, by simp [Move.blocked?]⟩, False.elim, trivial, trivial⟩

/-- Of the timeout list `l`, `returned` is sent back and `rest` is left. -/
structure Returns (t : Kernel n) (l returned rest : List EnvPtr) : Prop where
  split : l = returned ++ rest
  one : returned.length ≤ 1
  due : ∀ x ∈ returned, ∃ v, t.ipc.timeoutOf x = some v ∧ v ≤ t.ipc.clock
  ahead : returned = [] → ∀ x ∈ rest, ∃ v, t.ipc.timeoutOf x = some v ∧ t.ipc.clock < v

/-- If the first delay is not due, none is. -/
theorem ahead_of_head (h : t.Timed timer L)
    (hhead : ∀ x ∈ (L .timeoutQueue).head?, ∃ v, t.ipc.timeoutOf x = some v ∧ t.ipc.clock < v) :
    ∀ x ∈ L .timeoutQueue, ∃ v, t.ipc.timeoutOf x = some v ∧ t.ipc.clock < v := by
  intro x hx
  have hsorted := h.times.sorted
  cases hl : L .timeoutQueue with
  | nil => rw [hl] at hx; contradiction
  | cons env l =>
    rw [hl] at hx hhead hsorted
    obtain ⟨v, hv, hlt⟩ := hhead env rfl
    rcases List.mem_cons.1 hx with rfl | hmem
    · exact ⟨v, hv, hlt⟩
    · obtain ⟨d, w, -, -, hw⟩ :=
        (h.times.pending x (hl ▸ List.mem_cons_of_mem env hmem)).timeoutOf
      exact ⟨w, hw, hlt.trans_le ((List.pairwise_cons.1 hsorted).1 x hmem v w hv hw)⟩

theorem Ticking.expire {ipc : Ipc n} (hs : Ticking table timer s l) (h : t.Timed timer L)
    (haccounts : t.Accounts table L) (hcheck : t.ipc.checkTimeoutQueue = some (some env, ipc))
    (ht' : t' = { t with ipc := ipc.emit (.expired timer env ipc.clock) }) :
    ∃ L' rest, Acting table s l t (.ipc (.expire timer env)) t' L L' ∧
      L .timeoutQueue = env :: rest ∧ L' .timeoutQueue = rest ∧ L' (.held timer) = [env] := by
  have hk := haccounts.keeps_timer hs.found
  have hdoes : l.Does s t (.ipc (.expire timer env)) := by
    refine ⟨timer, hs.worker, rfl, ?_⟩
    rw [hs.actor]
    change heldBy t.ipc.log timer = heldBy s.ipc.log timer
    rw [← hk.held, h.idle, hs.idle]
  have hact : t.act (.ipc (.expire timer env)) = some t' := by
    subst ht'
    refine act_ipc_of ?_ rfl rfl
    simp [Ipc.move, Ipc.expire, hcheck]
  obtain ⟨L', hacting⟩ := haccounts.act hs.ids hs.owning hdoes hact
  have htransfer : Coldfire.Transfer L (.expire timer env) L' := hacting.transfer
  refine ⟨L', L' .timeoutQueue, hacting, ?_⟩
  cases htransfer with
  | @expire _ _ rest hlist =>
    refine ⟨?_, rfl, ?_⟩
    · rw [shift_src L (by simp), hlist]
    · rw [shift_dst, h.idle]

/-- An envelope that has just expired can be sent back to where it came from. -/
theorem Ticking.sendBack {time r : ℤ} {log : List (Event n)} (hs : Ticking table timer s l)
    (htimes : t.ipc.Times timer L) (hstamped : t.Stamped) (haccounts : t.Accounts table L)
    (hcur : t.sched.currentProcess = some timer)
    (hlog : t.ipc.log = .expired timer env time :: log) (hheld : L (.held timer) = [env])
    (hsend : t.kSendMessage (t.ipc.env env).sendPid (some env) = some (r, t')) :
    ∃ L' dest sendPid destPid,
      Acting table s l t (.ipc (.send timer dest env sendPid destPid)) t' L L' ∧
      L' .timeoutQueue = L .timeoutQueue ∧ L' (.held timer) = [] := by
  obtain ⟨-, d, deadline, hd, -, hmsg, -, hletter⟩ :=
    htimes.hand.of_expired hlog (hheld ▸ List.mem_singleton_self env)
  have hbody : (t.ipc.env env).msg.isSome := by
    change (t.ipc.letter env).msg.isSome
    rw [hletter, Delay.stored, Option.isSome_map]
    exact hmsg
  -- It came from a process of the table.
  have hpid : (t.ipc.env env).sendPid = (table d.client).pid := by
    change (t.ipc.letter env).sendPid = _
    rw [hletter, Delay.stored, (hstamped _ _ _ _ (delays_sent hd)).1]
    exact congrArg Prod.fst (congrFun haccounts.ids d.client)
  have hdest : (t.sched.kGetProcess (t.ipc.env env).sendPid).isSome := by
    rw [hpid, kGetProcess_tableIds haccounts.ids]
    exact getProcess_isSome table d.client
  obtain ⟨cur, dest, hsends⟩ := kSendMessage_sends hbody hdest hsend
  obtain rfl : cur = timer := Option.some.inj (hsends.current.symm.trans hcur)
  obtain ⟨L', hacting⟩ := haccounts.act hs.ids hs.owning
    (by exact ⟨cur, hs.worker, hsends.by, hs.actor ▸ ⟨rfl, _, _, hlog⟩⟩) hsends.act
  have htransfer : Coldfire.Transfer L (.send cur dest env _ _) L' := hacting.transfer
  refine ⟨L', dest, _, _, hacting, ?_⟩
  cases htransfer with
  | send =>
    refine ⟨shift_other L (by simp) (by simp) .., ?_⟩
    rw [shift_src L (by simp), hheld]
    simp

/-- The end of a tick: the first delay is returned if it is due. -/
theorem Ticking.returns (hs : Ticking table timer s l) (h : t.Timed timer L)
    (haccounts : t.Accounts table L) (hcur : t.sched.currentProcess = some timer)
    (hexpire : t.expireTimeout = some t') :
    ∃ L' returned, t'.Accounts table L' ∧ t'.Timed timer L' ∧ t'.ipc.clock = t.ipc.clock ∧
      t.Returns (L .timeoutQueue) returned (L' .timeoutQueue) ∧
      ∀ x ∈ L' .timeoutQueue, delays timer t'.ipc.log x = delays timer t.ipc.log x := by
  have hk := haccounts.keeps_timer hs.found
  rcases expireTimeout_cases hexpire with ⟨rfl, hcheck⟩ | ⟨cur, env, ipc, r, hcur', hcheck, hsend⟩
  · -- Nothing is due.
    refine ⟨L, [], haccounts, h, rfl, ⟨rfl, Nat.zero_le _, nofun, fun _ => ahead_of_head h ?_⟩,
      fun _ _ => rfl⟩
    rcases Ipc.checkTimeoutQueue_spec hk.timeoutQueue hcheck with ⟨-, -, hhead⟩ |
      ⟨head, rest, timeout, hfound, -⟩
    · exact hhead
    · contradiction
  obtain rfl : cur = timer := Option.some.inj (hcur'.symm.trans hcur)
  obtain ⟨L₁, rest, hact₁, hlist, hlist₁, hheld₁⟩ := hs.expire h haccounts hcheck rfl
  obtain ⟨-, timeout, htimeout, hdue⟩ := hk.effect_expire (act_ipc hact₁.act).1
  have htimes₁ := hs.act h.times hact₁
  have hstamped₁ := h.stamped.act hact₁
  obtain ⟨L', dest, sendPid, destPid, hact₂, hlist₂, hidle⟩ := hs.sendBack htimes₁ hstamped₁
    hact₁.after hcur rfl hheld₁ hsend
  have hother : ∀ x ∈ L' .timeoutQueue, x ≠ env := by
    rintro x hx rfl
    rw [hlist₂] at hx
    exact hact₁.after.keeps.partition.not_mem hx (by simp) (hheld₁ ▸ List.mem_singleton_self x)
  refine ⟨L', [env], hact₂.after, ⟨hs.act htimes₁ hact₂, hstamped₁.act hact₂, hidle⟩,
    hact₂.effect.clock.trans hact₁.effect.clock, ⟨?_, Nat.le_refl 1, ?_, nofun⟩, fun x hx => ?_⟩
  · rw [hlist, hlist₂, hlist₁]
    rfl
  · simpa using ⟨timeout, htimeout, hdue⟩
  · -- Only the delay that was returned is over.
    rw [hact₂.effect.log, hact₁.effect.log]
    exact Event.track_sent_of_ne (hother x hx)

/-- When the delay of an envelope expires, if the timer accepts it at the next tick at the
latest. -/
def nextDue (timer : Fin n) (s : Kernel n) (env : EnvPtr) : Option ℤ :=
  (delays timer s.ipc.log env).bind (Delay.dueAt (wrap32 (s.ipc.clock + 1)))

/-- A tick sends the envelopes `returned` back and leaves `rest` in the timeout list. -/
structure Ticked (timer : Fin n) (s s' : Kernel n) (returned rest : List EnvPtr) : Prop where
  clock : s'.ipc.clock = wrap32 (s.ipc.clock + 1)
  one : returned.length ≤ 1
  nodup : (returned ++ rest).Nodup
  all : ∀ env v, s.nextDue timer env = some v → env ∈ returned ++ rest
  left : ∀ env ∈ rest, ∃ d deadline, delays timer s'.ipc.log env = some d ∧
    d.deadline = some deadline ∧ s.nextDue timer env = some deadline
  due : ∀ env ∈ returned, ∃ v, s.nextDue timer env = some v ∧ v ≤ s'.ipc.clock
  ahead : returned = [] → ∀ env ∈ rest, ∃ v, s.nextDue timer env = some v ∧ s'.ipc.clock < v

theorem Timed.tick {nullRead : EnvPtr → Option ℤ} (h : s.Timed timer L)
    (haccounts : s.Accounts table L) (htimer : TimerIs table timer)
    (hint : s.sched.interruptedProcess = none) (hown : Owning s (.irqTimer nullRead))
    (hstep : s.step (.irqTimer nullRead) = some s') :
    ∃ L' returned, s'.Accounts table L' ∧ s'.Timed timer L' ∧
      Ticked timer s s' returned (L' .timeoutQueue) := by
  have hs : Ticking table timer s (.irqTimer nullRead) :=
    ⟨htimer, haccounts.ids, hown, rfl, (haccounts.keeps.held timer).symm.trans h.idle⟩
  obtain ⟨t, t', hreach, hcur, ⟨hdraining, hempty⟩, hexpire, hipc⟩ :=
    irqTimer_cases (haccounts.timer_found htimer) hint hstep
  -- All requests are taken.
  obtain ⟨L₁, haccounts₁, htimes₁, hstamped₁⟩ := haccounts.acts
    (I := fun t L => t.ipc.Times timer L ∧ t.Stamped) ⟨h.times, h.stamped⟩ hown
    (fun t a t' L L' hact ⟨htimes, hstamped⟩ => ⟨hs.act htimes hact, hstamped.act hact⟩) hreach
  have hidle₁ : L₁ (.held timer) = [] := by
    rw [haccounts₁.keeps.held, hdraining.held, hs.idle]
  have hmail₁ : L₁ (.queue (.recvMsgs timer)) = [] :=
    (haccounts₁.keeps.queue _).isEmpty.1 hempty
  obtain ⟨L', returned, haccounts', htimed', hclock, hreturns, hleft⟩ :=
    hs.returns ⟨htimes₁, hstamped₁, hidle₁⟩ haccounts₁ hcur hexpire
  -- The deadlines are those that were ahead.
  have hnext : ∀ env, s.nextDue timer env =
      (delays timer t.ipc.log env).bind (Delay.dueAt t.ipc.clock) := by
    intro env
    obtain ⟨new, hlog, hnew⟩ := hdraining.intake
    have hserved := htimes₁.served
    rw [hlog] at hserved ⊢
    rw [delays_intake hserved hnew, hdraining.clock, nextDue]
  have hpending : ∀ env ∈ L₁ .timeoutQueue, ∃ d deadline, delays timer t.ipc.log env = some d ∧
      d.deadline = some deadline ∧ t.ipc.timeoutOf env = some deadline ∧
      s.nextDue timer env = some deadline := by
    intro env henv
    obtain ⟨d, deadline, hd, hdeadline, htimeout⟩ := (htimes₁.pending env henv).timeoutOf
    refine ⟨d, deadline, hd, hdeadline, htimeout, ?_⟩
    rw [hnext, hd]
    exact Delay.dueAt_of_deadline hdeadline
  have hsplit := hreturns.split
  obtain ⟨-, L₂, haccounts₂, hstamped₂⟩ := haccounts.step (I := fun t _ => t.Stamped) h.stamped
    hint hown (fun t a t' L L' hact hstamped => hstamped.act hact) hstep
  have haccounts'' : s'.Accounts table L' := by
    refine ⟨haccounts₂.ids, haccounts₂.regular, ?_⟩
    rw [hipc, Sched.kGetProcess_ids (haccounts₂.ids.trans haccounts'.ids.symm)]
    exact haccounts'.keeps
  refine ⟨L', returned, haccounts'', ⟨hipc ▸ htimed'.times, hstamped₂, htimed'.idle⟩, ?_,
    hreturns.one, hsplit ▸ haccounts₁.keeps.partition.nodup _, fun env v hv => ?_,
    fun env henv => ?_, fun env henv => ?_, fun hnone env henv => ?_⟩
  · rw [hipc, hclock, hdraining.clock]
  · -- A delay is in the list, as the mailbox is empty.
    rw [hnext] at hv
    have hdelay : delays timer t.ipc.log env ≠ none := by
      intro hnone
      rw [hnone] at hv
      contradiction
    rw [← hsplit]
    rcases htimes₁.place env hdelay with henv | henv | henv
    · rw [hmail₁] at henv; contradiction
    · exact henv
    · rw [hidle₁] at henv; contradiction
  · obtain ⟨d, deadline, hd, hdeadline, -, hdue⟩ :=
      hpending env (hsplit ▸ List.mem_append_right returned henv)
    exact ⟨d, deadline, by rw [hipc, hleft env henv, hd], hdeadline, hdue⟩
  · obtain ⟨d, deadline, -, -, htimeout, hdue⟩ :=
      hpending env (hsplit ▸ List.mem_append_left _ henv)
    obtain ⟨v, hv, hle⟩ := hreturns.due env henv
    obtain rfl := Option.some.inj (htimeout.symm.trans hv)
    exact ⟨deadline, hdue, by rw [hipc, hclock]; exact hle⟩
  · obtain ⟨d, deadline, -, -, htimeout, hdue⟩ :=
      hpending env (hsplit ▸ List.mem_append_right returned henv)
    obtain ⟨v, hv, hlt⟩ := hreturns.ahead hnone env henv
    obtain rfl := Option.some.inj (htimeout.symm.trans hv)
    exact ⟨deadline, hdue, by rw [hipc, hclock]; exact hlt⟩

/-! ## Runs -/

theorem Booted.timed (h : Booted table s) : s.Timed timer Ipc.bootPlaces := by
  have hlog := h.filled.log
  refine ⟨⟨?_, fun env henv => ?_, nofun, .nil, .empty rfl, fun env henv => ?_⟩, ?_, rfl⟩
  · rw [hlog]
    trivial
  · rw [Ipc.bootPlaces_recvMsgs] at henv
    contradiction
  · rw [hlog] at henv
    contradiction
  · intro p q env letter hsent
    rw [hlog] at hsent
    contradiction

theorem Timed.step (h : s.Timed timer L) (haccounts : s.Accounts table L)
    (htimer : TimerIs table timer) (hint : s.sched.interruptedProcess = none)
    (hcareful : Careful s l) (hstep : s.step l = some s') :
    s'.sched.interruptedProcess = none ∧ ∃ L', s'.Accounts table L' ∧ s'.Timed timer L' := by
  refine ⟨(step_acts hint hstep).2, ?_⟩
  by_cases hl : l.actor = .timer
  · cases l with
    | irqTimer nullRead =>
      obtain ⟨L', -, haccounts', htimed', -⟩ := h.tick haccounts htimer hint hcareful.1 hstep
      exact ⟨L', haccounts', htimed'⟩
    | call c => cases c <;> contradiction
    | _ => contradiction
  · obtain ⟨L', haccounts', htimed', -⟩ := h.other haccounts htimer hint hcareful hl hstep
    exact ⟨L', haccounts', htimed'⟩

theorem Timed.reach (htimer : TimerIs table timer)
    (hs : Reach Kernel.step (Booted table) Careful s) :
    s.sched.interruptedProcess = none ∧ ∃ L, s.Accounts table L ∧ s.Timed timer L := by
  refine hs.invariant (I := fun s => s.sched.interruptedProcess = none ∧
    ∃ L, s.Accounts table L ∧ s.Timed timer L) ?_ ?_
  · intro s hs
    exact ⟨hs.accounts.1, _, hs.accounts.2, hs.timed⟩
  · rintro s l s' - ⟨hint, L, haccounts, htimed⟩ hcareful hstep
    exact htimed.step haccounts htimer hint hcareful hstep

end Kernel

end Rtx.Coldfire
