import Rtx.Coldfire.AbsSched

/-!
# The scheduler refines the abstract scheduler

`Refines S A`: the linked lists of `S` hold the queues of `A`, and everything else is equal. Every
move of the code is the same move of the abstract scheduler (`Refines.move`), with one exception:
a change of priority that takes the last of several processes out of its level leaves the tail
of that level dangling, and then `S` holds no queues any more.
-/

namespace Rtx.Coldfire

variable {n : ℕ}

namespace Sched

/-- One move, as the code makes it. -/
def move (S : Sched n) : Move n → Option (Sched n)
  | .wakeReceiver p => S.wakeReceiver p
  | .wakeRequester => S.wakeRequester
  | .blockReceive p =>
    if S.currentProcess = some p ∧ S.interruptedProcess = none then
      S.kProcessSwitch .blockedOnReceive .receiveMessage
    else none
  | .blockRequest p =>
    if S.currentProcess = some p ∧ S.interruptedProcess = none then
      (S.enqueue .blockedRequestEnvPq p).bind (·.kProcessSwitch .blockedOnEnvRequest .requestMsgEnv)
    else none
  | .yield p =>
    if S.currentProcess = some p ∧ S.interruptedProcess = none then
      (S.yield p).bind (·.kProcessSwitch .ready .releaseProcessor)
    else none
  | .changePriority newPriority targetProcessId =>
    (S.kChangePriority newPriority targetProcessId).map (·.2)
  | .toUser p =>
    if S.currentProcess = some p ∧ S.interruptedProcess = none then
      some (S.setContext p .user)
    else none
  | .enterIsr pid =>
    if S.interruptedProcess = none ∧ S.currentProcess.isSome then some (S.enterIsr pid) else none
  | .exitIsr => if S.interruptedProcess.isSome then some S.exitIsr else none

/-- The records of the processes. -/
def view (S : Sched n) : Fin n → ProcInfo := fun p => (S.pTable p).toProcInfo

theorem SameView.view {S S' : Sched n} (h : SameView S S') : S'.view = S.view := funext h.info

theorem view_setInfo (S : Sched n) (p : Fin n) (info : ProcInfo) :
    (S.setInfo p info).view = Function.update S.view p info := funext fun _ => info_setInfo ..

/-- The lists hold the queues, and everything else is equal. -/
structure Refines (S : Sched n) (A : AbsSched n) : Prop where
  queues : S.Queues A.queue
  info : S.view = A.info
  current : S.currentProcess = A.current
  interrupted : S.interruptedProcess = A.interrupted
  readyLog : S.readyLog = A.readyLog

variable {S S' : Sched n} {A A' B : AbsSched n} {p q : Fin n} {pq : PqPtr}

theorem Refines.kGetProcess (h : Refines S A) (pid : ℤ) : S.kGetProcess pid = A.getProcess pid := by
  unfold Sched.kGetProcess AbsSched.getProcess
  rw [← h.info]
  rfl

/-! ## Taking a process out, and putting it back -/

theorem out_eq_set {l₁ l₂ : List (Fin n)} {i : ℕ} (hA : A.Placed)
    (hl : A.queue pq i = l₁ ++ p :: l₂) : A.out p = A.queue.set pq i (l₁ ++ l₂) := by
  have hp := hA.mem_queue.1 (show p ∈ A.queue pq i by simp [hl])
  funext pq' i'
  by_cases hpi : pq' = pq ∧ i' = i
  · obtain ⟨rfl, rfl⟩ := hpi
    have hnd := hA.nodup pq' i'
    rw [hl, List.nodup_append, List.nodup_cons] at hnd
    obtain ⟨-, ⟨hp₂, -⟩, hdis⟩ := hnd
    have hp₁ : p ∉ l₁ := fun h => hdis p h p List.mem_cons_self rfl
    rw [Levels.set_self, AbsSched.out, hl, List.filter_append, List.filter_cons_of_neg (by simp),
      AbsSched.filter_ne_of_notMem hp₁, AbsSched.filter_ne_of_notMem hp₂]
  · rw [Levels.set_of_ne _ _ hpi]
    refine AbsSched.filter_ne_of_notMem fun hq => hpi ?_
    rw [hA.mem_queue, hp] at hq
    cases hq
    exact ⟨rfl, rfl⟩

theorem out_eq_self (hA : A.Placed) (hp : (A.info p).place = none) : A.out p = A.queue := by
  funext pq i
  refine AbsSched.filter_ne_of_notMem fun hq => ?_
  rw [hA.mem_queue, hp] at hq
  contradiction

theorem free_out (A : AbsSched n) (p : Fin n) : Free (A.out p) p := fun _ _ h =>
  (AbsSched.mem_out.1 h).2 rfl

/-- `proc_pq_enqueue` puts a process where its record says. -/
theorem enqueue_place (info : ProcInfo) (hq : S.Queues (A.out p))
    (hprio : (S.pTable p).priority = info.priority)
    (hplace : info.place = pq.levelOf info.priority) :
    ∃ S', S.enqueue pq p = some S' ∧ SameView S S' ∧ S'.Queues (A.place p info).queue := by
  obtain ⟨S', henq, hview, hq'⟩ := hq.enqueue (free_out A p) pq
  rw [hprio, ← hplace] at hq'
  exact ⟨S', henq, hview, hq'⟩

/-- `proc_pq_remove` takes a process out, unless it stands last behind another. -/
theorem remove_out (hA : A.Placed) (hq : S.Queues A.queue) (hinfo : S.view = A.info)
    (hplace : (A.info p).place = pq.levelOf (A.info p).priority)
    (hlast : ∀ i l, A.queue pq i = l ++ [p] → l = []) :
    ∃ S', S.remove pq p = some S' ∧ SameView S S' ∧ S'.Queues (A.out p) := by
  have hprio : (S.pTable p).priority = (A.info p).priority := by rw [← hinfo]; rfl
  cases hlevel : (A.info p).place with
  | none =>
    rw [out_eq_self hA hlevel]
    refine ⟨S, hq.remove_none (by rw [hprio, ← hplace, hlevel]), ⟨fun _ => rfl, rfl, rfl, rfl⟩, hq⟩
  | some level =>
    obtain ⟨pq', i⟩ := level
    obtain rfl : pq' = pq := by
      rw [hlevel] at hplace
      exact (PqPtr.levelOf_eq_some.1 hplace.symm).1
    obtain ⟨l₁, l₂, hl⟩ := List.append_of_mem (hA.mem_queue.2 hlevel)
    rw [out_eq_set hA hl]
    refine hq.remove (by rw [hprio, ← hplace, hlevel]) hl fun hl₁ hl₂ => hl₁ ?_
    exact hlast i l₁ (by rw [hl, hl₂])

theorem dequeue_out (hA : A.Placed) (hq : S.Queues A.queue) (hp : A.first pq = some p) :
    ∃ S', S.dequeue pq = (some p, S') ∧ SameView S S' ∧ S'.Queues (A.out p) := by
  obtain ⟨i, l, hi, hl, hbefore⟩ := AbsSched.first_eq_some hp
  rw [out_eq_set hA (show A.queue pq i = [] ++ p :: l from hl)]
  exact hq.dequeue_some hi hl hbefore

/-! ## Switching -/

theorem view_setState (S : Sched n) (p : Fin n) (state : ProcessState) :
    (S.setState p state).view = Function.update S.view p { S.view p with state := state } :=
  view_setInfo ..

theorem view_setContext (S : Sched n) (p : Fin n) (context : Context) :
    (S.setContext p context).view = Function.update S.view p { S.view p with context := context } :=
  view_setInfo ..

/-- The context of the old process may as well be saved before the new one is chosen. -/
theorem switch_info (V : Fin n → ProcInfo) (p q : Fin n) (state : ProcessState)
    (context : Context) :
    let V₁ := Function.update V p { V p with state := state }
    let V₂ := Function.update V₁ q { V₁ q with state := .executing }
    let V' := Function.update V p { V p with state := state, context := context }
    Function.update V₂ p { V₂ p with context := context } =
      Function.update V' q { V' q with state := .executing } := by
  intro V₁ V₂ V'
  funext r
  by_cases hpq : q = p
  · subst hpq
    by_cases hr : r = q <;> simp [V₁, V₂, V', hr]
  · by_cases hr : r = p
    · subst hr
      simp [V₁, V₂, V', Ne.symm hpq]
    · by_cases hrq : r = q <;> simp [V₁, V₂, V', hr, hrq, hpq]

/-- The old process `p` is where it belongs, and all that is missing in its record is the state it
goes to and the place where it will go on. -/
structure Parked (S : Sched n) (p : Fin n) (state : ProcessState) (context : Context)
    (B : AbsSched n) : Prop where
  current : S.currentProcess = some p
  queues : S.Queues B.queue
  info : B.info = Function.update S.view p { S.view p with state := state, context := context }
  placed : B.Placed
  interrupted : S.interruptedProcess = B.interrupted
  readyLog : S.readyLog = B.readyLog

/-- `k_process_switch` then runs the first ready process. -/
theorem Parked.first {state : ProcessState} {context : Context} (h : Parked S p state context B)
    (hfirst : B.first .readyPq = some q) :
    ∃ S', S.kProcessSwitch state context = some S' ∧
      Refines S' { B.place q { B.info q with state := .executing } with current := some q } := by
  obtain ⟨S₂, hdeq, hview, hq₂⟩ :=
    dequeue_out (S := S.setState p state) h.placed (h.queues.setInfo ..) hfirst
  refine ⟨_, by rw [kProcessSwitch, h.current]; simp only [dispatch, hdeq]; rfl, ?_⟩
  refine ⟨?_, ?_, rfl, hview.interrupted.trans h.interrupted, hview.readyLog.trans h.readyLog⟩
  · have hnone : ({ B.info q with state := .executing } : ProcInfo).place = none :=
      ProcInfo.place_eq_none nofun nofun
    refine Queues.setInfo (Queues.setInfo ?_ ..) ..
    rw [show AbsSched.queue _ = _ from AbsSched.queue_place_of_none hnone]
    exact ⟨hq₂.levels, hq₂.rep, hq₂.disjoint⟩
  · have hS₂ := hview.view.trans (view_setState S p state)
    refine Eq.trans ?_ ((switch_info S.view p q state context).trans ?_)
    · rw [view_setContext, view_setState,
        show Sched.view { S₂ with currentProcess := some q } = S₂.view from rfl, hS₂]
    · rw [← h.info]
      rfl

theorem Parked.refines {state : ProcessState} {context : Context} (h : Parked S p state context B)
    (h' : S.kProcessSwitch state context = some S') :
    ∃ B', B.dispatch = some B' ∧ Refines S' B' := by
  cases hfirst : B.first .readyPq with
  | none =>
    have hq : (S.setState p state).Queues B.queue := h.queues.setInfo ..
    rw [kProcessSwitch, h.current] at h'
    simp only [dispatch] at h'
    rw [hq.dequeue_none (AbsSched.first_eq_none hfirst)] at h'
    contradiction
  | some q =>
    obtain ⟨S'', h'', href⟩ := h.first hfirst
    obtain rfl : S'' = S' := Option.some.inj (h''.symm.trans h')
    exact ⟨_, by rw [AbsSched.dispatch, hfirst]; rfl, href⟩

/-! ## Moves -/

theorem wake_refines (hq : S.Queues (A.out p)) (hinfo : S.view = A.info)
    (hi : (A.info p).isIProcess = false) (hcur : S.currentProcess = A.current)
    (hint : S.interruptedProcess = A.interrupted) (hlog : S.readyLog = A.readyLog)
    (h : ((S.setState p .ready).becameReady p).enqueue .readyPq p = some S') :
    Refines S' (A.wake p) := by
  have hS : ((S.setState p .ready).becameReady p).Queues (A.out p) :=
    (hq.setInfo ..).becameReady p
  have hprio : (((S.setState p .ready).becameReady p).pTable p).priority = (A.info p).priority := by
    rw [← hinfo]
    simp [becameReady, setState, setInfo, Sched.view]
  obtain ⟨S'', henq, hview, hq'⟩ := enqueue_place { A.info p with state := .ready } hS hprio
    (show _ = PqPtr.levelOf .readyPq _ by simp [ProcInfo.place, hi])
  obtain rfl : S'' = S' := Option.some.inj (henq.symm.trans h)
  refine ⟨hq', ?_, hview.current.trans hcur, hview.interrupted.trans hint, ?_⟩
  · rw [hview.view, show Sched.view ((S.setState p .ready).becameReady p) =
      Sched.view (S.setState p .ready) from rfl, view_setState, hinfo]
    rfl
  · rw [hview.readyLog]
    exact congrArg (p :: ·) hlog

theorem reprioritise_refines (h : Refines S A) (hA : A.Placed)
    (hlast : ∀ pq i l, A.queue pq i = l ++ [p] → l = [])
    {newPriority : ℤ} (hplace : (A.info p).place = pq.levelOf (A.info p).priority)
    (hplace' : ({ A.info p with priority := newPriority } : ProcInfo).place =
      pq.levelOf newPriority)
    (h' : ((S.remove pq p).bind fun S => (S.setPriority p newPriority).enqueue pq p) = some S') :
    Refines S' (A.place p { A.info p with priority := newPriority }) := by
  obtain ⟨S₁, hrem, hview₁, hq₁⟩ := remove_out hA h.queues h.info hplace (hlast pq)
  rw [hrem, Option.bind_some] at h'
  have hprio : ((S₁.setPriority p newPriority).pTable p).priority = newPriority := by
    simp [setPriority, setInfo]
  obtain ⟨S₂, henq, hview₂, hq₂⟩ := enqueue_place { A.info p with priority := newPriority }
    (S := S₁.setPriority p newPriority) (hq₁.setInfo ..) hprio hplace'
  obtain rfl : S₂ = S' := Option.some.inj (henq.symm.trans h')
  refine ⟨hq₂, ?_, hview₂.current.trans (hview₁.current.trans h.current),
    hview₂.interrupted.trans (hview₁.interrupted.trans h.interrupted),
    hview₂.readyLog.trans (hview₁.readyLog.trans h.readyLog)⟩
  rw [hview₂.view, setPriority, view_setInfo, hview₁.view, h.info]
  have hS₁ : (S₁.pTable p).toProcInfo = A.info p := (hview₁.info p).trans (congrFun h.info p)
  rw [hS₁]
  rfl

theorem Refines.setPriority (h : Refines S A) (hA : A.Placed) {newPriority : ℤ}
    (hready : (A.info p).state ≠ .ready) (hblocked : (A.info p).state ≠ .blockedOnEnvRequest) :
    Refines (S.setPriority p newPriority)
      (A.place p { A.info p with priority := newPriority }) := by
  have hplace : ∀ priority, ({ A.info p with priority := priority } : ProcInfo).place = none :=
    fun priority => ProcInfo.place_eq_none hready hblocked
  refine ⟨?_, ?_, h.current, h.interrupted, h.readyLog⟩
  · rw [AbsSched.queue_place_of_none (hplace newPriority),
      out_eq_self hA (hplace (A.info p).priority)]
    exact h.queues.setInfo ..
  · rw [Sched.setPriority, view_setInfo, show (S.pTable p).toProcInfo = A.info p from
      congrFun h.info p, h.info]
    rfl

/-- What `k_change_priority` can do: nothing at all, or give a legal target another priority, and
with it another place if it is in a queue. -/
theorem kChangePriority_cases {newPriority tid code : ℤ}
    (h : S.kChangePriority newPriority tid = some (code, S')) :
    S' = S ∨ ∃ p, (0 ≤ newPriority ∧ newPriority < numPriorities ∧ S.kGetProcess tid = some p ∧
      (S.pTable p).isIProcess = false ∧ 0 < (S.pTable p).pid ∧
      (S.pTable p).priority ≠ newPriority) ∧
      ((S' = S.setPriority p newPriority ∧ ∀ pq : PqPtr, (S.pTable p).state ≠ pq.state) ∨
        ∃ (pq : PqPtr) (S₁ : Sched n), (S.pTable p).state = pq.state ∧ S.remove pq p = some S₁ ∧
          (S₁.setPriority p newPriority).enqueue pq p = some S') := by
  unfold kChangePriority at h
  split at h
  · cases h; exact .inl rfl
  rename_i hrange
  split at h
  · contradiction
  rename_i p hget
  split at h
  · cases h; exact .inl rfl
  rename_i hguard
  split at h
  · cases h; exact .inl rfl
  rename_i hne
  have hi : (S.pTable p).isIProcess = false := by simpa using fun hi => hguard (.inl hi)
  have hpid : 0 < (S.pTable p).pid := by simp only [nullPid] at hguard; omega
  have hmoved : ∀ {pq : PqPtr}, (do
      let S ← S.remove pq p
      let S ← (S.setPriority p newPriority).enqueue pq p
      return (codeSuccess, S)) = some (code, S') →
      ∃ S₁, S.remove pq p = some S₁ ∧ (S₁.setPriority p newPriority).enqueue pq p = some S' := by
    intro pq hdo
    obtain ⟨S₁, hrem, hdo⟩ := Option.bind_eq_some_iff.1 hdo
    obtain ⟨S₂, henq, hdo⟩ := Option.bind_eq_some_iff.1 hdo
    cases hdo
    exact ⟨S₁, hrem, henq⟩
  refine .inr ⟨p, ⟨by omega, by omega, hget, hi, hpid, hne⟩, ?_⟩
  split at h
  · rename_i hstate
    obtain ⟨S₁, hrem, henq⟩ := hmoved h
    exact .inr ⟨.readyPq, S₁, hstate, hrem, henq⟩
  · rename_i hstate
    obtain ⟨S₁, hrem, henq⟩ := hmoved h
    exact .inr ⟨.blockedRequestEnvPq, S₁, hstate, hrem, henq⟩
  · rename_i hready hblocked
    cases h
    refine .inl ⟨rfl, fun pq => ?_⟩
    cases pq
    · exact hready
    · exact hblocked

theorem kChangePriority_refines (h : Refines S A) (hA : A.Placed) {newPriority tid : ℤ}
    (hsafe : A.Safe (.changePriority newPriority tid)) {r : ℤ}
    (h' : S.kChangePriority newPriority tid = some (r, S')) :
    ∃ A', A.changePriority newPriority tid = some A' ∧ Refines S' A' := by
  unfold kChangePriority at h'
  unfold AbsSched.changePriority
  by_cases hrange : newPriority < 0 ∨ newPriority ≥ numPriorities
  · rw [if_pos hrange] at h' ⊢
    cases h'
    exact ⟨A, rfl, h⟩
  rw [if_neg hrange] at h' ⊢
  rw [h.kGetProcess] at h'
  cases hget : A.getProcess tid with
  | none => rw [hget] at h'; contradiction
  | some p =>
    rw [hget] at h'
    have hinfo : (S.pTable p).toProcInfo = A.info p := congrFun h.info p
    refine ⟨A.reprioritise p newPriority, rfl, ?_⟩
    simp only [hinfo] at h'
    unfold AbsSched.reprioritise
    by_cases hturned : (A.info p).isIProcess ∨ (A.info p).pid < 0 ∨ (A.info p).pid = nullPid
    · rw [if_pos hturned] at h'
      rw [if_pos (by tauto)]
      cases h'
      exact h
    rw [if_neg hturned] at h'
    by_cases hsame : (A.info p).priority = newPriority
    · rw [if_pos hsame] at h'
      rw [if_pos (by tauto)]
      cases h'
      exact h
    rw [if_neg hsame] at h'
    rw [if_neg (by tauto)]
    have hi : (A.info p).isIProcess = false := by simpa using fun hi => hturned (.inl hi)
    have hpid : 0 < (A.info p).pid := by simp only [nullPid] at hturned; omega
    have hlast := hsafe p ⟨by omega, by omega, hget, hi, hpid, hsame⟩
    have hmoved : ∀ pq, (A.info p).place = pq.levelOf (A.info p).priority →
        ({ A.info p with priority := newPriority } : ProcInfo).place = pq.levelOf newPriority →
        (do
          let S ← S.remove pq p
          let S ← (S.setPriority p newPriority).enqueue pq p
          return (codeSuccess, S)) = some (r, S') →
        Refines S' (A.place p { A.info p with priority := newPriority }) := by
      intro pq hplace hplace' hdo
      obtain ⟨S₁, hrem, hdo⟩ := Option.bind_eq_some_iff.1 hdo
      obtain ⟨S₂, henq, hdo⟩ := Option.bind_eq_some_iff.1 hdo
      cases hdo
      refine reprioritise_refines h hA hlast hplace hplace' ?_
      rw [hrem]
      exact henq
    cases hstate : (A.info p).state with
    | ready =>
      rw [hstate] at h'
      have hplace := ProcInfo.place_of_state .readyPq hi hstate
      exact hmoved .readyPq (hplace (A.info p).priority) (hplace newPriority) h'
    | blockedOnEnvRequest =>
      rw [hstate] at h'
      have hplace := ProcInfo.place_of_state .blockedRequestEnvPq hi hstate
      exact hmoved .blockedRequestEnvPq (hplace (A.info p).priority) (hplace newPriority) h'
    | executing | blockedOnReceive | interrupted =>
      rw [hstate] at h'
      cases h'
      exact h.setPriority hA (by simp [hstate]) (by simp [hstate])

theorem wakeReceiver_refines (h : Refines S A) (hA : A.Placed) (hm : S.wakeReceiver p = some S') :
    Refines S' (if (A.info p).state = .blockedOnReceive then A.wake p else A) := by
  have hinfo : (S.pTable p).toProcInfo = A.info p := congrFun h.info p
  rw [wakeReceiver, show (S.pTable p).state = (A.info p).state by rw [← hinfo]] at hm
  by_cases hp : (A.info p).state = .blockedOnReceive
  · rw [if_pos hp] at hm ⊢
    have hi : (A.info p).isIProcess = false := by
      by_contra hi
      have := hA.iProcess (by simpa using hi)
      rw [hp] at this
      contradiction
    have hfree : A.out p = A.queue :=
      out_eq_self hA (ProcInfo.place_eq_none (by simp [hp]) (by simp [hp]))
    exact wake_refines (hfree ▸ h.queues) h.info hi h.current h.interrupted h.readyLog hm
  · rw [if_neg hp] at hm ⊢
    cases hm
    exact h

theorem wakeRequester_refines (h : Refines S A) (hA : A.Placed) (hm : S.wakeRequester = some S') :
    ∃ A', A.move .wakeRequester = some A' ∧ Refines S' A' := by
  unfold AbsSched.move
  unfold wakeRequester at hm
  cases hfirst : A.first .blockedRequestEnvPq with
  | none =>
    rw [h.queues.dequeue_none (AbsSched.first_eq_none hfirst)] at hm
    cases hm
    exact ⟨A, rfl, h⟩
  | some p =>
    obtain ⟨S₁, hdeq, hview, hq⟩ := dequeue_out hA h.queues hfirst
    rw [hdeq] at hm
    have hi : (A.info p).isIProcess = false := by
      obtain ⟨i, l, -, hl, -⟩ := AbsSched.first_eq_some hfirst
      have hmem : p ∈ A.queue .blockedRequestEnvPq i := by rw [hl]; exact List.mem_cons_self
      exact (ProcInfo.place_blocked.1 (hA.mem_queue.1 hmem)).1
    exact ⟨_, rfl, wake_refines hq (hview.view.trans h.info) hi (hview.current.trans h.current)
      (hview.interrupted.trans h.interrupted) (hview.readyLog.trans h.readyLog) hm⟩

theorem out_running (hA : A.Sound) (hcur : A.current = some p ∧ A.interrupted = none) :
    (A.info p).isIProcess = false ∧ (A.info p).state = .executing ∧ A.out p = A.queue := by
  have hx : (A.info p).state = .executing := by
    rw [hA.executing p, AbsSched.running, hcur.1, hcur.2]
    rfl
  exact ⟨hA.isIProcess_of_executing hx, hx,
    out_eq_self hA.toPlaced (ProcInfo.place_eq_none (by simp [hx]) (by simp [hx]))⟩

theorem info_park (h : Refines S A) (p : Fin n) (state : ProcessState) (context : Context) :
    (A.park p state context).info =
      Function.update S.view p { S.view p with state := state, context := context } := by
  rw [h.info]
  rfl

theorem blockReceive_parked (h : Refines S A) (hA : A.Sound)
    (hcur : A.current = some p ∧ A.interrupted = none) :
    Parked S p .blockedOnReceive .receiveMessage
      (A.park p .blockedOnReceive .receiveMessage) where
  current := h.current.trans hcur.1
  queues := by
    rw [AbsSched.park, AbsSched.queue_place_of_none, (out_running hA hcur).2.2]
    · exact h.queues
    · exact ProcInfo.place_eq_none (by simp) (by simp)
  info := info_park h ..
  placed := (hA.park hcur .blockedOnReceive .receiveMessage nofun).1
  interrupted := h.interrupted
  readyLog := h.readyLog

theorem blockRequest_parked (h : Refines S A) (hA : A.Sound)
    (hcur : A.current = some p ∧ A.interrupted = none)
    (henq : S.enqueue .blockedRequestEnvPq p = some S') :
    Parked S' p .blockedOnEnvRequest .requestMsgEnv
      (A.park p .blockedOnEnvRequest .requestMsgEnv) := by
  obtain ⟨hi, -, hfree⟩ := out_running hA hcur
  obtain ⟨S₁, henq₁, hview, hq⟩ := enqueue_place (A := A)
    { A.info p with state := .blockedOnEnvRequest, context := .requestMsgEnv }
    (hfree ▸ h.queues) (by rw [← h.info]; rfl)
    (show _ = PqPtr.levelOf .blockedRequestEnvPq _ by simp [ProcInfo.place, hi])
  obtain rfl : S₁ = S' := Option.some.inj (henq₁.symm.trans henq)
  refine ⟨hview.current.trans (h.current.trans hcur.1), hq, ?_,
    (hA.park hcur .blockedOnEnvRequest .requestMsgEnv (by decide)).1,
    hview.interrupted.trans h.interrupted, hview.readyLog.trans h.readyLog⟩
  rw [hview.view]
  exact info_park h ..

theorem yield_parked (h : Refines S A) (hA : A.Sound)
    (hcur : A.current = some p ∧ A.interrupted = none) (hyield : S.yield p = some S') :
    Parked S' p .ready .releaseProcessor
      ((A.park p .ready .releaseProcessor).becameReady p) := by
  obtain ⟨hi, -, hfree⟩ := out_running hA hcur
  obtain ⟨S₁, henq, hview, hq⟩ := enqueue_place (A := A) (S := S.becameReady p)
    { A.info p with state := .ready, context := .releaseProcessor }
    ((hfree ▸ h.queues : S.Queues (A.out p)).becameReady p) (by rw [← h.info]; rfl)
    (show _ = PqPtr.levelOf .readyPq _ by simp [ProcInfo.place, hi])
  obtain rfl : S₁ = S' := Option.some.inj (henq.symm.trans hyield)
  have hplaced := (hA.park hcur .ready .releaseProcessor (by decide)).1
  refine ⟨hview.current.trans (h.current.trans hcur.1), hq, ?_,
    ⟨hplaced.mem_queue, hplaced.nodup, hplaced.iProcess⟩, hview.interrupted.trans h.interrupted,
    hview.readyLog.trans (congrArg (p :: ·) h.readyLog)⟩
  rw [hview.view]
  exact info_park h ..

theorem toUser_refines (h : Refines S A) (hA : A.Sound)
    (hcur : A.current = some p ∧ A.interrupted = none) :
    Refines (S.setContext p .user) (A.place p { A.info p with context := .user }) := by
  obtain ⟨-, hx, hfree⟩ := out_running hA hcur
  refine ⟨?_, ?_, h.current, h.interrupted, h.readyLog⟩
  · rw [AbsSched.queue_place_of_none, hfree]
    · exact h.queues.setInfo ..
    · exact ProcInfo.place_eq_none (by simp [hx]) (by simp [hx])
  · rw [view_setContext, h.info]
    rfl

/-- Every safe move of the code is the same move of the abstract scheduler. -/
theorem Refines.move (h : Refines S A) (hA : A.Sound) {m : Move n} (hsafe : A.Safe m)
    (hm : S.move m = some S') : ∃ A', A.move m = some A' ∧ Refines S' A' := by
  cases m with
  | wakeReceiver p => exact ⟨_, rfl, wakeReceiver_refines h hA.toPlaced hm⟩
  | wakeRequester => exact wakeRequester_refines h hA.toPlaced hm
  | blockReceive p =>
    simp only [Sched.move, Option.ite_none_right_eq_some, h.current, h.interrupted] at hm
    simp only [AbsSched.move, if_pos hm.1]
    exact (blockReceive_parked h hA hm.1).refines hm.2
  | blockRequest p =>
    simp only [Sched.move, Option.ite_none_right_eq_some, h.current, h.interrupted] at hm
    simp only [AbsSched.move, if_pos hm.1]
    obtain ⟨S₁, henq, hswitch⟩ := Option.bind_eq_some_iff.1 hm.2
    exact (blockRequest_parked h hA hm.1 henq).refines hswitch
  | yield p =>
    simp only [Sched.move, Option.ite_none_right_eq_some, h.current, h.interrupted] at hm
    simp only [AbsSched.move, if_pos hm.1]
    obtain ⟨S₁, hyield, hswitch⟩ := Option.bind_eq_some_iff.1 hm.2
    exact (yield_parked h hA hm.1 hyield).refines hswitch
  | changePriority newPriority targetProcessId =>
    obtain ⟨⟨r, S₁⟩, hchange, rfl⟩ := Option.map_eq_some_iff.1 hm
    exact kChangePriority_refines h hA.toPlaced hsafe hchange
  | toUser p =>
    simp only [Sched.move, Option.ite_none_right_eq_some, Option.some.injEq, h.current,
      h.interrupted] at hm
    obtain ⟨hcur, rfl⟩ := hm
    exact ⟨_, if_pos hcur, toUser_refines h hA hcur⟩
  | enterIsr pid =>
    simp only [Sched.move, Option.ite_none_right_eq_some, Option.some.injEq, h.current,
      h.interrupted] at hm
    obtain ⟨hcond, rfl⟩ := hm
    exact ⟨_, if_pos hcond, ⟨h.queues.levels, h.queues.rep, h.queues.disjoint⟩, h.info,
      h.kGetProcess pid, h.current, h.readyLog⟩
  | exitIsr =>
    simp only [Sched.move, Option.ite_none_right_eq_some, Option.some.injEq, h.interrupted] at hm
    obtain ⟨hcond, rfl⟩ := hm
    exact ⟨_, if_pos hcond, ⟨h.queues.levels, h.queues.rep, h.queues.disjoint⟩, h.info,
      h.interrupted, rfl,
      h.readyLog⟩

end Sched

end Rtx.Coldfire
