import Rtx.Unix.SchedLinks

/-!
# The scheduler of the Unix port refines the abstract scheduler

The abstract scheduler of the ColdFire port is one for the Unix port too: every move of the code is
a move of the abstract scheduler, and is possible exactly where that is (`SchedRefines.move`). So no
assertion of the queues fails. As on the ColdFire, the exception is a change of priority that takes
the last of several processes out of its level.
-/

namespace Rtx.Unix

open Coldfire (ProcessState Context ProcInfo PqPtr Sched AbsSched Levels pcbNext codeSuccess
  errorIllegalArg)
open Coldfire.Sched (Queues SameView Free Refines Parked)

variable {n : ℕ}

/-! ## Moves -/

/-- What the kernel does to the scheduler, outside the i-processes. -/
inductive SchedMove (n : ℕ)
  | wakeReceiver (p : Fin n)
  | wakeRequester
  | blockReceive (p : Fin n)
  | blockRequest (p : Fin n)
  | yield (p : Fin n)
  | toUser (p : Fin n)
  | changePriority (newPriority targetProcessId : ℤ)

/-- The process runs, and no i-process. -/
def Runs (S : Sched n) (p : Fin n) : Prop :=
  S.currentProcess = some p ∧ S.interruptedProcess = none

instance (S : Sched n) (p : Fin n) : Decidable (Runs S p) := by
  unfold Runs
  infer_instance

/-- One move, as the code makes it. -/
def schedMove (S : Sched n) : SchedMove n → Option (Sched n)
  | .wakeReceiver p => wakeReceiver S p
  | .wakeRequester => wakeRequester S
  | .blockReceive p =>
    if Runs S p then S.kProcessSwitch .blockedOnReceive .receiveMessage else none
  | .blockRequest p =>
    if Runs S p then
      (waitForEnv S p).bind (·.kProcessSwitch .blockedOnEnvRequest .requestMsgEnv)
    else none
  | .yield p =>
    if Runs S p then (yield S p).bind (·.kProcessSwitch .ready .releaseProcessor) else none
  | .toUser p => if Runs S p then some (S.setContext p .user) else none
  | .changePriority newPriority targetProcessId =>
    (kChangePriority S newPriority targetProcessId).map (·.2)

/-- `k_change_priority` with these arguments gives `p` another priority. -/
def Reprioritises (info : Fin n → ProcInfo) (newPriority targetProcessId : ℤ) (p : Fin n) : Prop :=
  0 ≤ newPriority ∧ newPriority < numPriorities ∧ pcbOf n targetProcessId = some p ∧
    (info p).isIProcess = false ∧ (info p).pid ≠ processNullPid ∧ (info p).priority ≠ newPriority

instance (info : Fin n → ProcInfo) (newPriority targetProcessId : ℤ) (p : Fin n) :
    Decidable (Reprioritises info newPriority targetProcessId p) := by
  unfold Reprioritises
  infer_instance

/-- A change of priority of the abstract scheduler. -/
def absChange (A : AbsSched n) (newPriority targetProcessId : ℤ) : AbsSched n :=
  match pcbOf n targetProcessId with
  | none => A
  | some p =>
    if Reprioritises A.info newPriority targetProcessId p then
      A.place p { A.info p with priority := newPriority }
    else A

/-- One move of the abstract scheduler. -/
def absMove (A : AbsSched n) : SchedMove n → Option (AbsSched n)
  | .wakeReceiver p => A.move (.wakeReceiver p)
  | .wakeRequester => A.move .wakeRequester
  | .blockReceive p => A.move (.blockReceive p)
  | .blockRequest p => A.move (.blockRequest p)
  | .yield p => A.move (.yield p)
  | .toUser p => A.move (.toUser p)
  | .changePriority newPriority targetProcessId => some (absChange A newPriority targetProcessId)

/-- The move takes no process out of the end of a level in which others stand before it. -/
def SafeMove (A : AbsSched n) : SchedMove n → Prop
  | .changePriority newPriority targetProcessId =>
    ∀ p, Reprioritises A.info newPriority targetProcessId p →
      ∀ pq i l, A.queue pq i = l ++ [p] → l = []
  | _ => True

variable {S S' : Sched n} {A B : AbsSched n} {p q : Fin n} {pq : PqPtr} {m : SchedMove n}

/-- The move of the ColdFire port that a move is, if it is not about pids. -/
def SchedMove.move? : SchedMove n → Option (Coldfire.Move n)
  | .wakeReceiver p => some (.wakeReceiver p)
  | .wakeRequester => some .wakeRequester
  | .blockReceive p => some (.blockReceive p)
  | .blockRequest p => some (.blockRequest p)
  | .yield p => some (.yield p)
  | .toUser p => some (.toUser p)
  | .changePriority .. => none

/-- A move of the abstract scheduler is one of the ColdFire port, or gives a process another
priority, or does nothing. -/
theorem absMove_cases (hm : absMove A m = some B) :
    (∃ m', m.move? = some m' ∧ A.move m' = some B) ∨
      ∃ newPriority targetProcessId, m = .changePriority newPriority targetProcessId ∧
        (B = A ∨ ∃ p, Reprioritises A.info newPriority targetProcessId p ∧
          B = A.place p { A.info p with priority := newPriority }) := by
  cases m with
  | changePriority newPriority targetProcessId =>
    right
    obtain rfl : absChange A newPriority targetProcessId = B := Option.some.inj hm
    refine ⟨newPriority, targetProcessId, rfl, ?_⟩
    unfold absChange
    split
    · exact .inl rfl
    · rename_i p _
      split
      · rename_i hp
        exact .inr ⟨p, hp, rfl⟩
      · exact .inl rfl
  | _ => exact .inl ⟨_, rfl, hm⟩

theorem absMove_sound (h : A.Sound) (hm : absMove A m = some B) : B.Sound := by
  rcases absMove_cases hm with ⟨m', -, hm'⟩ | ⟨newPriority, tid, rfl, rfl | ⟨p, -, rfl⟩⟩
  · exact h.move hm'
  · exact h
  · exact h.place h.iProcess Iff.rfl

/-! ## The refinement -/

/-- The code refines the abstract scheduler, and what is in no queue is linked to nothing. -/
structure SchedRefines (S : Sched n) (A : AbsSched n) : Prop where
  refines : S.Refines A
  untied : Untied S A.queue

theorem wake_refines (hq : S.Queues (A.out p)) (hl : Untied S (A.out p)) (hinfo : S.view = A.info)
    (hi : (A.info p).isIProcess = false) (hcur : S.currentProcess = A.current)
    (hint : S.interruptedProcess = A.interrupted) (hlog : S.readyLog = A.readyLog) :
    ∃ S', enqueueOn ((S.setState p .ready).becameReady p) .readyPq p =
        some (if (PqPtr.levelOf .readyPq (A.info p).priority).isSome then codeSuccess
          else errorIllegalArg, S') ∧
      SchedRefines S' (A.wake p) := by
  have hS : ((S.setState p .ready).becameReady p).Queues (A.out p) :=
    (hq.setInfo ..).becameReady p
  have huntied : Untied ((S.setState p .ready).becameReady p) (A.out p) :=
    (hl.setInfo p { S.view p with state := .ready }).of_next rfl
  have hrecord : (((S.setState p .ready).becameReady p).pTable p).toProcInfo =
      { A.info p with state := .ready } := by
    rw [← hinfo]
    simp [Sched.becameReady, Sched.setState, Sched.setInfo, Sched.view]
  have hi' : (((S.setState p .ready).becameReady p).pTable p).isIProcess = false := by
    rw [hrecord]
    exact hi
  obtain ⟨S', henq, -, -, huntied'⟩ :=
    huntied.enqueueOn hS (Coldfire.Sched.free_out A p) hi' .readyPq
  rw [hrecord] at henq huntied'
  refine ⟨S', henq, Coldfire.Sched.wake_refines hq hinfo hi hcur hint hlog
    (enqueueOn_enqueue henq), ?_⟩
  have hplace : ({ A.info p with state := .ready } : ProcInfo).place =
      PqPtr.levelOf .readyPq (A.info p).priority := by
    simp [ProcInfo.place, hi]
  show Untied S' ((A.out p).append p ({ A.info p with state := .ready } : ProcInfo).place)
  rw [hplace]
  exact huntied'

theorem SchedRefines.wakeReceiver (h : SchedRefines S A) (hA : A.Placed) (p : Fin n) :
    Option.Rel SchedRefines (wakeReceiver S p) (A.move (.wakeReceiver p)) := by
  have hinfo : (S.pTable p).toProcInfo = A.info p := congrFun h.refines.info p
  show Option.Rel SchedRefines _ (some (if (A.info p).state = .blockedOnReceive then _ else A))
  rw [Unix.wakeReceiver, hinfo]
  by_cases hp : (A.info p).state = .blockedOnReceive
  · rw [if_pos hp, if_pos hp]
    have hi : (A.info p).isIProcess = false := by
      by_contra hi
      have hready := hA.iProcess (by simpa using hi)
      rw [hp] at hready
      contradiction
    have hfree : A.out p = A.queue :=
      Coldfire.Sched.out_eq_self hA (ProcInfo.place_eq_none (by simp [hp]) (by simp [hp]))
    obtain ⟨S', henq, h'⟩ := wake_refines (hfree ▸ h.refines.queues) (hfree ▸ h.untied)
      h.refines.info hi h.refines.current h.refines.interrupted h.refines.readyLog
    rw [henq]
    exact .some h'
  · rw [if_neg hp, if_neg hp]
    exact .some h

theorem dequeue_untied (hl : Untied S A.queue) (hdeq : S.dequeue pq = (some p, S')) :
    Untied S' (A.out p) := by
  refine hl.leave (dequeue_next hdeq) fun q hq hqp pq' i' hmem => ?_
  exact hq pq' i' (AbsSched.mem_out.2 ⟨hmem, hqp⟩)

theorem SchedRefines.wakeRequester (h : SchedRefines S A) (hA : A.Placed) :
    Option.Rel SchedRefines (wakeRequester S) (A.move .wakeRequester) := by
  unfold Unix.wakeRequester AbsSched.move
  cases hfirst : A.first .blockedRequestEnvPq with
  | none =>
    rw [h.refines.queues.dequeue_none (AbsSched.first_eq_none hfirst)]
    exact .some h
  | some p =>
    obtain ⟨S₁, hdeq, hview, hq⟩ := Coldfire.Sched.dequeue_out hA h.refines.queues hfirst
    obtain ⟨i, l, -, hl, -⟩ := AbsSched.first_eq_some hfirst
    have hmem : p ∈ A.queue .blockedRequestEnvPq i := by rw [hl]; exact List.mem_cons_self
    obtain ⟨hi, -, hprio, hlt⟩ := ProcInfo.place_blocked.1 (hA.mem_queue.1 hmem)
    obtain ⟨S₂, henq, h₂⟩ := wake_refines hq (dequeue_untied h.untied hdeq)
      (hview.view.trans h.refines.info) hi (hview.current.trans h.refines.current)
      (hview.interrupted.trans h.refines.interrupted)
      (hview.readyLog.trans h.refines.readyLog)
    -- A level of `env_blocked_pq` is one of `ready_pq`, so the assertion holds.
    have hlevel : (PqPtr.levelOf .readyPq (A.info p).priority).isSome = true := by
      have h₃ : i < 3 := hlt
      have h₄ : ((PqPtr.levels .readyPq : ℕ) : ℤ) = 4 := rfl
      rw [PqPtr.levelOf, if_pos (by rw [hprio, h₄]; omega)]
      rfl
    rw [if_pos hlevel] at henq
    simp only [hdeq, henq, Option.bind_eq_bind, Option.bind_some, if_true]
    exact .some h₂

/-! ## Switches -/

theorem kProcessSwitch_untied {state : ProcessState} {context : Context} (hl : Untied S B.queue)
    (h : S.kProcessSwitch state context = some S') (hcur : S'.currentProcess = some q) :
    Untied S' (B.out q) := by
  unfold Sched.kProcessSwitch at h
  split at h
  · contradiction
  rename_i cur _
  unfold Sched.dispatch at h
  cases hdeq : (S.setState cur state).dequeue .readyPq with
  | mk found S₁ =>
    rw [hdeq] at h
    cases found with
    | none => contradiction
    | some p =>
      cases h
      obtain rfl : p = q := Option.some.inj hcur
      have hl₁ : Untied S₁ (B.out p) := dequeue_untied (hl.setInfo cur _) hdeq
      exact ((hl₁.of_next rfl : Untied { S₁ with currentProcess := some p } _).setInfo p _).setInfo
        cur _

theorem switch_refines {state : ProcessState} {context : Context} (h : Parked S p state context B)
    (hl : Untied S B.queue) :
    Option.Rel SchedRefines (S.kProcessSwitch state context) B.dispatch := by
  cases hfirst : B.first .readyPq with
  | none =>
    have hnone : S.kProcessSwitch state context = none := by
      cases hswitch : S.kProcessSwitch state context with
      | none => rfl
      | some S' =>
        obtain ⟨B', hB', -⟩ := h.refines hswitch
        rw [AbsSched.dispatch, hfirst] at hB'
        contradiction
    rw [hnone, AbsSched.dispatch, hfirst]
    exact .none
  | some q =>
    obtain ⟨S', hswitch, href⟩ := h.first hfirst
    rw [hswitch, AbsSched.dispatch, hfirst]
    refine .some ⟨href, ?_⟩
    show Untied S' (B.place q { B.info q with state := .executing }).queue
    rw [AbsSched.queue_place_of_none (ProcInfo.place_eq_none (by simp) (by simp))]
    exact kProcessSwitch_untied hl hswitch href.current

/-- The running process is in no queue, so it can be put into one. -/
theorem SchedRefines.enqueue_running (h : SchedRefines S A) (hA : A.Sound)
    (hcur : A.current = some p ∧ A.interrupted = none) (pq : PqPtr) :
    ∃ code S', enqueueOn S pq p = some (code, S') ∧
      Untied S' (A.queue.append p (pq.levelOf (A.info p).priority)) := by
  obtain ⟨hi, -, hfree⟩ := Coldfire.Sched.out_running hA hcur
  have hinfo : (S.pTable p).toProcInfo = A.info p := congrFun h.refines.info p
  obtain ⟨S', henq, -, -, hl⟩ := h.untied.enqueueOn h.refines.queues
    (hfree ▸ Coldfire.Sched.free_out A p) (by rw [hinfo]; exact hi) pq
  rw [hinfo] at hl
  exact ⟨_, S', henq, hl⟩

theorem runs_iff (h : SchedRefines S A) (p : Fin n) :
    Runs S p ↔ A.current = some p ∧ A.interrupted = none := by
  rw [Runs, h.refines.current, h.refines.interrupted]

theorem SchedRefines.blockReceive (h : SchedRefines S A) (hA : A.Sound) (p : Fin n) :
    Option.Rel SchedRefines (schedMove S (.blockReceive p)) (A.move (.blockReceive p)) := by
  simp only [schedMove, AbsSched.move]
  by_cases hcur : A.current = some p ∧ A.interrupted = none
  · rw [if_pos ((runs_iff h p).2 hcur), if_pos hcur]
    refine switch_refines (Coldfire.Sched.blockReceive_parked h.refines hA hcur) ?_
    rw [AbsSched.park, AbsSched.queue_place_of_none (ProcInfo.place_eq_none (by simp) (by simp)),
      (Coldfire.Sched.out_running hA hcur).2.2]
    exact h.untied
  · rw [if_neg (mt (runs_iff h p).1 hcur), if_neg hcur]
    exact .none

theorem SchedRefines.blockRequest (h : SchedRefines S A) (hA : A.Sound) (p : Fin n) :
    Option.Rel SchedRefines (schedMove S (.blockRequest p)) (A.move (.blockRequest p)) := by
  simp only [schedMove, AbsSched.move]
  by_cases hcur : A.current = some p ∧ A.interrupted = none
  · rw [if_pos ((runs_iff h p).2 hcur), if_pos hcur]
    obtain ⟨hi, -, hfree⟩ := Coldfire.Sched.out_running hA hcur
    obtain ⟨code, S', henq, hl⟩ := h.enqueue_running hA hcur .blockedRequestEnvPq
    rw [waitForEnv, henq]
    refine switch_refines
      (Coldfire.Sched.blockRequest_parked h.refines hA hcur (enqueueOn_enqueue henq)) ?_
    show Untied S' ((A.out p).append p
      ({ A.info p with state := .blockedOnEnvRequest, context := .requestMsgEnv } : ProcInfo).place)
    rw [hfree]
    simpa [ProcInfo.place, hi] using hl
  · rw [if_neg (mt (runs_iff h p).1 hcur), if_neg hcur]
    exact .none

theorem SchedRefines.yield (h : SchedRefines S A) (hA : A.Sound) (p : Fin n) :
    Option.Rel SchedRefines (schedMove S (.yield p)) (A.move (.yield p)) := by
  simp only [schedMove, AbsSched.move]
  by_cases hcur : A.current = some p ∧ A.interrupted = none
  · rw [if_pos ((runs_iff h p).2 hcur), if_pos hcur]
    obtain ⟨hi, -, hfree⟩ := Coldfire.Sched.out_running hA hcur
    have hinfo : (S.pTable p).toProcInfo = A.info p := congrFun h.refines.info p
    obtain ⟨S', henq, -, -, hl⟩ := (h.untied.of_next rfl : Untied (S.becameReady p) _).enqueueOn
      (h.refines.queues.becameReady p) (hfree ▸ Coldfire.Sched.free_out A p)
      (show (S.pTable p).isIProcess = false by rw [hinfo]; exact hi) .readyPq
    have hyield : S.yield p = some S' := enqueueOn_enqueue henq
    rw [Unix.yield, henq]
    refine switch_refines (Coldfire.Sched.yield_parked h.refines hA hcur hyield) ?_
    show Untied S' ((A.out p).append p
      ({ A.info p with state := .ready, context := .releaseProcessor } : ProcInfo).place)
    rw [show ((S.becameReady p).pTable p).priority = (A.info p).priority by rw [← hinfo]; rfl] at hl
    rw [hfree]
    simpa [ProcInfo.place, hi] using hl
  · rw [if_neg (mt (runs_iff h p).1 hcur), if_neg hcur]
    exact .none

theorem SchedRefines.toUser (h : SchedRefines S A) (hA : A.Sound) (p : Fin n) :
    Option.Rel SchedRefines (schedMove S (.toUser p)) (A.move (.toUser p)) := by
  simp only [schedMove, AbsSched.move]
  by_cases hcur : A.current = some p ∧ A.interrupted = none
  · rw [if_pos ((runs_iff h p).2 hcur), if_pos hcur]
    obtain ⟨-, hx, hfree⟩ := Coldfire.Sched.out_running hA hcur
    refine .some ⟨Coldfire.Sched.toUser_refines h.refines hA hcur, ?_⟩
    rw [AbsSched.queue_place_of_none (ProcInfo.place_eq_none (by simp [hx]) (by simp [hx])), hfree]
    exact h.untied.setInfo p _
  · rw [if_neg (mt (runs_iff h p).1 hcur), if_neg hcur]
    exact .none

/-! ## Changes of priority -/

theorem remove_untied (hA : A.Placed) (h : SchedRefines S A)
    (hplace : (A.info p).place = pq.levelOf (A.info p).priority)
    (hlast : ∀ i l, A.queue pq i = l ++ [p] → l = []) (hrem : S.remove pq p = some S') :
    Untied S' (A.out p) := by
  have hprio : (S.pTable p).priority = (A.info p).priority := by rw [← h.refines.info]; rfl
  cases hlevel : (A.info p).place with
  | none =>
    rw [h.refines.queues.remove_none (by rw [hprio, ← hplace, hlevel])] at hrem
    cases hrem
    rw [Coldfire.Sched.out_eq_self hA hlevel]
    exact h.untied
  | some level =>
    obtain ⟨pq', i⟩ := level
    obtain rfl : pq' = pq := by
      rw [hlevel] at hplace
      exact (PqPtr.levelOf_eq_some.1 hplace.symm).1
    obtain ⟨l₁, l₂, hl⟩ := List.append_of_mem (hA.mem_queue.2 hlevel)
    rw [Coldfire.Sched.out_eq_set hA hl]
    refine h.untied.remove h.refines.queues (by rw [hprio, ← hplace, hlevel]) hl (fun hl₁ hl₂ => ?_)
      hrem
    exact hl₁ (hlast i l₁ (by rw [hl, hl₂]))

/-- A process gets another priority, and with it another place in its queue. -/
theorem SchedRefines.requeue (h : SchedRefines S A) (hA : A.Placed) (pq : PqPtr) (newPriority : ℤ)
    (hi : (A.info p).isIProcess = false) (hstate : (A.info p).state = pq.state)
    (hlast : ∀ pq i l, A.queue pq i = l ++ [p] → l = []) :
    ∃ S₁ code S₂, S.remove pq p = some S₁ ∧
      enqueueOn (S₁.setPriority p newPriority) pq p = some (code, S₂) ∧
      SchedRefines S₂ (A.place p { A.info p with priority := newPriority }) := by
  have hplace := ProcInfo.place_of_state pq hi hstate
  obtain ⟨S₁, hrem, hview, hq⟩ := Coldfire.Sched.remove_out hA h.refines.queues h.refines.info
    (hplace (A.info p).priority) (hlast pq)
  have hl := remove_untied hA h (hplace (A.info p).priority) (hlast pq) hrem
  have hrecord : ((S₁.setPriority p newPriority).pTable p).toProcInfo =
      { A.info p with priority := newPriority } := by
    have hS₁ : (S₁.pTable p).toProcInfo = A.info p :=
      (hview.info p).trans (congrFun h.refines.info p)
    simp [Sched.setPriority, Sched.setInfo, hS₁]
  have hl' : Untied (S₁.setPriority p newPriority) (A.out p) := hl.setInfo p _
  have hq' : (S₁.setPriority p newPriority).Queues (A.out p) := hq.setInfo p _
  obtain ⟨S₂, henq, -, -, hl₂⟩ := hl'.enqueueOn hq' (Coldfire.Sched.free_out A p)
    (by rw [hrecord]; exact hi) pq
  refine ⟨S₁, _, S₂, hrem, henq, ?_, ?_⟩
  · refine Coldfire.Sched.reprioritise_refines h.refines hA hlast (hplace (A.info p).priority)
      (hplace newPriority) ?_
    rw [hrem]
    exact enqueueOn_enqueue henq
  · show Untied S₂ ((A.out p).append p ({ A.info p with priority := newPriority } : ProcInfo).place)
    rw [hplace newPriority]
    rwa [hrecord] at hl₂

theorem SchedRefines.changePriority (h : SchedRefines S A) (hA : A.Placed) {newPriority tid : ℤ}
    (hsafe : SafeMove A (.changePriority newPriority tid)) :
    ∃ code S', kChangePriority S newPriority tid = some (code, S') ∧
      SchedRefines S' (absChange A newPriority tid) := by
  have hnone : ∀ q, pcbOf n tid = some q → ¬ Reprioritises A.info newPriority tid q →
      absChange A newPriority tid = A := by
    intro q hq hnot
    rw [absChange, hq]
    exact if_neg hnot
  unfold kChangePriority
  by_cases hrange : newPriority < 0 ∨ newPriority ≥ numPriorities
  · rw [if_pos hrange]
    refine ⟨_, S, rfl, ?_⟩
    cases hpcb : pcbOf n tid with
    | none => rw [absChange, hpcb]; exact h
    | some p =>
      rw [hnone p hpcb fun hp => by obtain ⟨h₀, h₁, -⟩ := hp; omega]
      exact h
  rw [if_neg hrange]
  cases hpcb : pcbOf n tid with
  | none =>
    rw [absChange, hpcb]
    exact ⟨_, S, rfl, h⟩
  | some p =>
    have hinfo : (S.pTable p).toProcInfo = A.info p := congrFun h.refines.info p
    simp only [hinfo]
    by_cases hturned : (A.info p).isIProcess ∨ (A.info p).pid = processNullPid
    · rw [if_pos hturned, hnone p hpcb fun hp => ?_]
      · exact ⟨_, S, rfl, h⟩
      · rcases hturned with hi | hpid
        · rw [hp.2.2.2.1] at hi
          contradiction
        · exact hp.2.2.2.2.1 hpid
    rw [if_neg hturned]
    by_cases hsame : (A.info p).priority = newPriority
    · rw [if_pos hsame, hnone p hpcb fun hp => hp.2.2.2.2.2 hsame]
      exact ⟨_, S, rfl, h⟩
    rw [if_neg hsame]
    have hi : (A.info p).isIProcess = false := by simpa using fun hi => hturned (.inl hi)
    have hp : Reprioritises A.info newPriority tid p :=
      ⟨by omega, by omega, hpcb, hi, fun hpid => hturned (.inr hpid), hsame⟩
    have habs : absChange A newPriority tid =
        A.place p { A.info p with priority := newPriority } := by
      rw [absChange, hpcb]
      exact if_pos hp
    rw [habs]
    cases hstate : (A.info p).state with
    | ready =>
      obtain ⟨S₁, code, S₂, hrem, henq, h'⟩ :=
        h.requeue hA .readyPq newPriority hi hstate (hsafe p hp)
      exact ⟨codeSuccess, S₂, by simp [hrem, henq], h'⟩
    | blockedOnEnvRequest =>
      obtain ⟨S₁, code, S₂, hrem, henq, h'⟩ :=
        h.requeue hA .blockedRequestEnvPq newPriority hi hstate (hsafe p hp)
      exact ⟨codeSuccess, S₂, by simp [hrem, henq], h'⟩
    | executing | blockedOnReceive | interrupted =>
      refine ⟨codeSuccess, _, rfl, h.refines.setPriority hA (by simp [hstate])
        (by simp [hstate]), ?_⟩
      have hplace : ∀ priority, ({ A.info p with priority := priority } : ProcInfo).place = none :=
        fun priority => ProcInfo.place_eq_none (by simp [hstate]) (by simp [hstate])
      rw [AbsSched.queue_place_of_none (hplace newPriority),
        Coldfire.Sched.out_eq_self hA (hplace (A.info p).priority)]
      exact h.untied.setInfo p _

/-- Every safe move of the code is the same move of the abstract scheduler, and is possible exactly
where that is. -/
theorem SchedRefines.move (h : SchedRefines S A) (hA : A.Sound) (hsafe : SafeMove A m) :
    Option.Rel SchedRefines (schedMove S m) (absMove A m) := by
  cases m with
  | wakeReceiver p => exact h.wakeReceiver hA.toPlaced p
  | wakeRequester => exact h.wakeRequester hA.toPlaced
  | blockReceive p => exact h.blockReceive hA p
  | blockRequest p => exact h.blockRequest hA p
  | yield p => exact h.yield hA p
  | toUser p => exact h.toUser hA p
  | changePriority newPriority tid =>
    obtain ⟨code, S', hchange, h'⟩ := h.changePriority hA.toPlaced hsafe
    rw [schedMove, hchange]
    exact .some h'

end Rtx.Unix
