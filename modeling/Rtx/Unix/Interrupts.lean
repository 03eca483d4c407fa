import Rtx.Unix.SchedRefine

/-!
# I-processes and the scheduler

`k_i_process_enter` and `k_i_process_exit` rewrite the statuses of the interrupted process and of
the i-process. All an i-process does to the scheduler in between is to wake receivers up, and that
it does as if it had never been entered: leaving it commutes with a wake-up (`wake_leave`), and
leaving it at once undoes the entering (`enter_leave`).
-/

namespace Rtx.Unix

open Coldfire (ProcessState ProcInfo Pcb ProcQueue ProcPq PqPtr Sched setPcbNext)

variable {n : ℕ}

/-! ## Rewritten records -/

/-- Rewrite the records of the process table, the links apart. -/
def recast (f : Fin n → ProcInfo → ProcInfo) (mem : Fin n → Pcb n) : Fin n → Pcb n := fun p =>
  { mem p with toProcInfo := f p (mem p).toProcInfo }

/-- The records keep what the queues look at. -/
def Keeping (f : Fin n → ProcInfo → ProcInfo) : Prop := ∀ p info,
  (f p info).priority = info.priority ∧ (f p info).isIProcess = info.isIProcess

variable {f : Fin n → ProcInfo → ProcInfo} {mem : Fin n → Pcb n} {p q r : Fin n}

theorem setPcbNext_recast (f : Fin n → ProcInfo → ProcInfo) (mem : Fin n → Pcb n) (p : Fin n)
    (v : Option (Fin n)) : setPcbNext (recast f mem) p v = recast f (setPcbNext mem p v) := by
  funext q
  by_cases hq : q = p
  · subst hq; simp [setPcbNext, recast]
  · simp [setPcbNext, recast, hq]

theorem procQueueEnqueue_recast (f : Fin n → ProcInfo → ProcInfo) (mem : Fin n → Pcb n)
    (queue : ProcQueue n) (p : Fin n) :
    procQueueEnqueue (recast f mem) queue p =
      (procQueueEnqueue mem queue p).map fun x => (recast f x.1, x.2) := by
  obtain ⟨head, tail⟩ := queue
  have hnext : (recast f mem p).next = (mem p).next := rfl
  simp only [procQueueEnqueue, hnext]
  by_cases hp : (mem p).next = none
  · rw [if_neg (not_not.2 hp), if_neg (not_not.2 hp)]
    cases head <;> cases tail <;> simp [Coldfire.procQueueEnqueue, setPcbNext_recast]
  · rw [if_pos hp, if_pos hp]
    rfl

theorem procPqEnqueue_recast (hf : Keeping f) (mem : Fin n → Pcb n) (ppq : ProcPq n)
    (p : Fin n) :
    procPqEnqueue (recast f mem) ppq p =
      (procPqEnqueue mem ppq p).map fun x => (x.1, recast f x.2.1, x.2.2) := by
  obtain ⟨hprio, hi⟩ := hf p (mem p).toProcInfo
  have hprio' : (recast f mem p).priority = (mem p).priority := hprio
  have hi' : (recast f mem p).isIProcess = (mem p).isIProcess := hi
  simp only [procPqEnqueue, hprio', hi', procQueueEnqueue_recast]
  split
  · rfl
  · split
    · rfl
    · simp [Option.map_map, Function.comp_def]

/-! ## Leaving an i-process -/

/-- The statuses `k_i_process_exit` sets, when `p` was interrupted by `i`. -/
def leaving (i p : Fin n) : Fin n → ProcInfo → ProcInfo := fun q info =>
  if q = p then { info with state := .executing }
  else if q = i then { info with state := .ready }
  else info

theorem keeping_leaving (i p : Fin n) : Keeping (leaving i p) := by
  intro q info
  unfold leaving
  split
  · exact ⟨rfl, rfl⟩
  · split <;> exact ⟨rfl, rfl⟩

/-- The scheduler, as `k_i_process_exit` of `i` back to `p` leaves it. -/
def left (i p : Fin n) (S : Sched n) : Sched n :=
  { S with
    pTable := recast (leaving i p) S.pTable
    currentProcess := some p
    interruptedProcess := none }

/-- The i-process `i` runs, and has interrupted `p`. -/
structure Interrupting (S : Sched n) (i p : Fin n) : Prop where
  current : S.currentProcess = some i
  interrupted : S.interruptedProcess = some p
  iProcess : (S.pTable i).state = .executing
  process : (S.pTable p).state = .interrupted

variable {S S' : Sched n} {i : Fin n}

theorem kIProcessExit_eq (h : Interrupting S i p) : kIProcessExit S = some (left i p S) := by
  unfold kIProcessExit
  rw [h.current, h.interrupted]
  simp only [left, Option.some.injEq]
  unfold Sched.setState Sched.setInfo
  simp only [Sched.mk.injEq, and_true]
  funext q
  by_cases hqp : q = p
  · subst hqp
    by_cases hqi : q = i
    · subst hqi; simp [recast, leaving]
    · simp [recast, leaving, hqi]
  · by_cases hqi : q = i
    · subst hqi; simp [recast, leaving, hqp]
    · simp [recast, leaving, hqp, hqi]

/-- Leaving at once undoes the entering, but for the status of a process that was not executing. -/
theorem enter_leave (hcur : S.currentProcess = some p) (hint : S.interruptedProcess = none)
    (hpi : p ≠ i) (hi : (S.pTable i).state = .ready) :
    ∃ S₁, kIProcessEnter S i = some S₁ ∧ Interrupting S₁ i p ∧
      left i p S₁ = S.setState p .executing := by
  refine ⟨_, by rw [kIProcessEnter, hcur], ⟨rfl, rfl, ?_, ?_⟩, ?_⟩
  · simp [Sched.setState, Sched.setInfo]
  · simp [Sched.setState, Sched.setInfo, hpi]
  · obtain ⟨pTable, pq, current, interrupted, log⟩ := S
    simp only at hcur hint hi
    subst hcur hint
    simp only [left, Sched.setState, Sched.setInfo, Sched.mk.injEq, and_true]
    funext q
    by_cases hqp : q = p
    · subst hqp
      simp [recast, leaving, hpi]
    · by_cases hqi : q = i
      · subst hqi
        simp [recast, leaving, hqp, ← hi]
      · simp [recast, leaving, hqp, hqi]

theorem setState_executing (hp : (S.pTable p).state = .executing) :
    S.setState p .executing = S := by
  obtain ⟨pTable, pq, current, interrupted, log⟩ := S
  simp only at hp
  simp only [Sched.setState, Sched.setInfo, Sched.mk.injEq, and_true, ← hp]
  exact Function.update_eq_self ..

/-- A wake-up inside an i-process leaves the i-process running. -/
theorem Interrupting.wake (h : Interrupting S i p) (hwake : wakeReceiver S q = some S') :
    Interrupting S' i p := by
  unfold wakeReceiver at hwake
  split at hwake
  · rename_i hq
    have hqp : p ≠ q := by
      rintro rfl
      rw [h.process] at hq
      contradiction
    have hqi : i ≠ q := by
      rintro rfl
      rw [h.iProcess] at hq
      contradiction
    obtain ⟨⟨code, S₁⟩, henq, rfl⟩ := Option.map_eq_some_iff.1 hwake
    have hcold := enqueueOn_enqueue henq
    obtain ⟨hcur, hint⟩ := Coldfire.Sched.enqueue_pointers hcold
    have hview := (Coldfire.Sched.enqueue_keeps (P := fun _ => True) hcold).1
    have hrecord : ∀ r, r ≠ q → (S₁.pTable r).toProcInfo = (S.pTable r).toProcInfo := by
      intro r hr
      have hr' := congrFun hview r
      simp only [Sched.view, Sched.becameReady, Sched.setState, Sched.setInfo,
        Function.update_of_ne hr] at hr'
      exact hr'
    refine ⟨hcur.trans h.current, hint.trans h.interrupted, ?_, ?_⟩
    · show (S₁.pTable i).state = _
      rw [hrecord i hqi]
      exact h.iProcess
    · show (S₁.pTable p).state = _
      rw [hrecord p hqp]
      exact h.process
  · cases hwake
    exact h

/-- A wake-up inside an i-process is one outside. -/
theorem wake_leave (h : Interrupting S i p) (q : Fin n) :
    wakeReceiver (left i p S) q = (wakeReceiver S q).map (left i p) := by
  unfold wakeReceiver
  by_cases hq : (S.pTable q).state = .blockedOnReceive
  · have hqp : q ≠ p := by
      rintro rfl
      rw [h.process] at hq
      contradiction
    have hqi : q ≠ i := by
      rintro rfl
      rw [h.iProcess] at hq
      contradiction
    have hstate : ((left i p S).pTable q).state = .blockedOnReceive := by
      simp [left, recast, leaving, hqp, hqi, hq]
    have hmem : (((left i p S).setState q .ready).becameReady q).pTable =
        recast (leaving i p) ((S.setState q .ready).becameReady q).pTable := by
      funext r
      by_cases hr : r = q
      · subst hr
        simp [left, recast, leaving, hqp, hqi, Sched.becameReady, Sched.setState, Sched.setInfo]
      · simp [left, recast, Sched.becameReady, Sched.setState, Sched.setInfo, hr]
    have hpq : (((left i p S).setState q .ready).becameReady q).pq .readyPq =
        ((S.setState q .ready).becameReady q).pq .readyPq := rfl
    rw [if_pos hq, if_pos hstate]
    unfold enqueueOn
    rw [hmem, hpq, procPqEnqueue_recast (keeping_leaving i p)]
    cases procPqEnqueue ((S.setState q .ready).becameReady q).pTable
      (((S.setState q .ready).becameReady q).pq .readyPq) q with
    | none => rfl
    | some r => rfl
  · have hstate : ((left i p S).pTable q).state ≠ .blockedOnReceive := by
      show (leaving i p q (S.pTable q).toProcInfo).state ≠ _
      unfold leaving
      split
      · simp
      · split
        · simp
        · exact hq
    rw [if_neg hq, if_neg hstate]
    rfl

theorem ids_left (i p : Fin n) (S : Sched n) : (left i p S).ids = S.ids := by
  funext q
  show ((leaving i p q (S.pTable q).toProcInfo).pid,
    (leaving i p q (S.pTable q).toProcInfo).isIProcess) = _
  unfold leaving
  split
  · rfl
  · split <;> rfl

end Rtx.Unix
