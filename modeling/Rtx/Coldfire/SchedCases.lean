import Rtx.Coldfire.SchedFrame

/-!
# What an operation on a priority queue can do

One inversion lemma for each operation, whatever the queues look like. A stale tail never makes an
operation write through null: a level that has a head has a tail (`Tailed`), along every run.
-/

namespace Rtx.Coldfire

open Linked

variable {n : ℕ}

namespace Sched

/-- Level `i` of a priority queue. -/
def level (S : Sched n) (pq : PqPtr) (i : ℕ) : ProcQueue n := (S.pq pq).priorityQueues i

/-- Overwrite a level, and the PCBs. -/
def setLevel (S : Sched n) (pq : PqPtr) (i : ℕ) (mem : Fin n → Pcb n) (queue : ProcQueue n) :
    Sched n :=
  { S with pTable := mem, pq := Function.update S.pq pq ((S.pq pq).setLevel i queue) }

variable {S S' : Sched n} {pq : PqPtr} {p : Fin n} {i : ℕ} {mem : Fin n → Pcb n}
  {queue : ProcQueue n} {r : Option (Fin n)}

@[simp] theorem pTable_setLevel : (S.setLevel pq i mem queue).pTable = mem := rfl

@[simp] theorem level_setLevel_self : (S.setLevel pq i mem queue).level pq i = queue := by
  simp [level, setLevel, ProcPq.setLevel]

theorem level_setLevel_of_ne {pq' : PqPtr} {j : ℕ} (h : ¬ (pq' = pq ∧ j = i)) :
    (S.setLevel pq i mem queue).level pq' j = S.level pq' j := by
  by_cases hpq : pq' = pq
  · subst hpq
    have hj : j ≠ i := by
      intro hj
      exact h ⟨rfl, hj⟩
    simp [level, setLevel, ProcPq.setLevel, hj]
  · simp [level, setLevel, hpq]

@[simp] theorem numPriorities_setLevel (pq' : PqPtr) :
    ((S.setLevel pq i mem queue).pq pq').numPriorities = (S.pq pq').numPriorities := by
  by_cases hpq : pq' = pq
  · subst hpq
    simp [setLevel, ProcPq.setLevel]
  · simp [setLevel, hpq]

theorem enqueue_level (hprio : (S.pTable p).priority = i) (hi : i < (S.pq pq).numPriorities)
    (henq : procQueueEnqueue S.pTable (S.level pq i) p = some (mem, queue)) :
    S.enqueue pq p = some (S.setLevel pq i mem queue) := by
  have hrange : ¬ ((S.pTable p).priority < 0 ∨
      (S.pTable p).priority ≥ (S.pq pq).numPriorities) := by
    omega
  rw [Sched.enqueue, procPqEnqueue, if_neg hrange, hprio, Int.toNat_natCast]
  simp only [show (S.pq pq).priorityQueues i = S.level pq i from rfl, henq, Option.map_some]
  rfl

theorem remove_level (hprio : (S.pTable p).priority = i) (hi : i < (S.pq pq).numPriorities)
    (hrem : procQueueRemove S.pTable (S.level pq i) p = some (r, mem, queue)) :
    S.remove pq p = some (S.setLevel pq i mem queue) := by
  have hrange : 0 ≤ (S.pTable p).priority ∧ (S.pTable p).priority < (S.pq pq).numPriorities := by
    omega
  rw [Sched.remove, procPqRemove, if_pos hrange, hprio, Int.toNat_natCast]
  simp only [show (S.pq pq).priorityQueues i = S.level pq i from rfl, hrem, Option.map_some]
  rfl

/-- An enqueue appends the process to the level of its priority, if there is one. -/
theorem enqueue_cases (h : S.enqueue pq p = some S') :
    (S' = S ∧ ((S.pTable p).priority < 0 ∨ (S.pTable p).priority ≥ (S.pq pq).numPriorities)) ∨
    ∃ (i : ℕ) (mem : Fin n → Pcb n) (queue : ProcQueue n), (S.pTable p).priority = i ∧
      i < (S.pq pq).numPriorities ∧ procQueueEnqueue S.pTable (S.level pq i) p = some (mem, queue) ∧
      S' = S.setLevel pq i mem queue := by
  obtain ⟨⟨code, mem, ppq⟩, henq, rfl⟩ := Option.map_eq_some_iff.1 h
  unfold procPqEnqueue at henq
  split at henq
  · rename_i hrange
    cases henq
    exact .inl ⟨by simp, hrange⟩
  · rename_i hrange
    obtain ⟨⟨mem', queue⟩, hqueue, hr⟩ := Option.map_eq_some_iff.1 henq
    cases hr
    exact .inr ⟨_, mem', queue, by omega, by omega, hqueue, rfl⟩

/-- A dequeue takes the head of a level, unless all are empty. -/
theorem dequeue_cases (h : S.dequeue pq = (r, S')) :
    (r = none ∧ S' = S ∧ ∀ i < (S.pq pq).numPriorities, (S.level pq i).head = none) ∨
      ∃ i p, i < (S.pq pq).numPriorities ∧ (S.level pq i).head = some p ∧ r = some p ∧
        S' = S.setLevel pq i (setPcbNext S.pTable p none)
          { S.level pq i with head := (S.pTable p).next } := by
  have hloop : ∀ k j, (∃ i p, j ≤ i ∧ i < j + k ∧ (S.level pq i).head = some p ∧
      procPqDequeueLoop S.pTable (S.pq pq) k j = (some p, setPcbNext S.pTable p none,
        (S.pq pq).setLevel i { S.level pq i with head := (S.pTable p).next })) ∨
      ((∀ i, j ≤ i → i < j + k → (S.level pq i).head = none) ∧
        procPqDequeueLoop S.pTable (S.pq pq) k j = (none, S.pTable, S.pq pq)) := by
    intro k
    induction k with
    | zero =>
      intro j
      exact .inr ⟨fun i h₁ h₂ => by omega, rfl⟩
    | succ k ih =>
      intro j
      cases hhead : (S.level pq j).head with
      | none =>
        have hempty : procQueueIsEmpty ((S.pq pq).priorityQueues j) = true := by
          rw [procQueueIsEmpty, show ((S.pq pq).priorityQueues j).head = none from hhead]
          rfl
        rw [procPqDequeueLoop, if_pos hempty]
        rcases ih (j + 1) with ⟨i, p, hj, hi, hp, hdeq⟩ | ⟨hnone, hdeq⟩
        · exact .inl ⟨i, p, by omega, by omega, hp, hdeq⟩
        · refine .inr ⟨fun i h₁ h₂ => ?_, hdeq⟩
          rcases Nat.eq_or_lt_of_le h₁ with rfl | hlt
          · exact hhead
          · exact hnone i hlt (by omega)
      | some p =>
        have hempty : ¬ procQueueIsEmpty ((S.pq pq).priorityQueues j) = true := by
          rw [procQueueIsEmpty, show ((S.pq pq).priorityQueues j).head = some p from hhead]
          simp
        refine .inl ⟨j, p, Nat.le_refl j, by omega, hhead, ?_⟩
        rw [procPqDequeueLoop, if_neg hempty, procQueueDequeue,
          show ((S.pq pq).priorityQueues j).head = some p from hhead]
        rfl
  unfold dequeue procPqDequeue at h
  rcases hloop (S.pq pq).numPriorities 0 with ⟨i, p, -, hi, hp, hdeq⟩ | ⟨hnone, hdeq⟩
  · rw [hdeq] at h
    cases h
    exact .inr ⟨i, p, by omega, hp, rfl, rfl⟩
  · rw [hdeq] at h
    cases h
    refine .inl ⟨rfl, ?_, fun i hi => hnone i (Nat.zero_le i) (by omega)⟩
    simp

/-- A removal takes the head of the level, or a process behind it; or it does nothing. -/
theorem remove_cases (h : S.remove pq p = some S') :
    S' = S ∨ ∃ (i : ℕ) (head : Fin n), (S.pTable p).priority = i ∧
      (S.level pq i).head = some head ∧
      ((head = p ∧ S' = S.setLevel pq i (setPcbNext S.pTable p none)
          { S.level pq i with head := (S.pTable p).next }) ∨
        ∃ r mem, head ≠ p ∧
          procQueueRemoveLoop S.pTable p (n + 1) head (S.pTable head).next = some (r, mem) ∧
          S' = S.setLevel pq i mem (S.level pq i)) := by
  obtain ⟨⟨r, mem, ppq⟩, hrem, rfl⟩ := Option.map_eq_some_iff.1 h
  unfold procPqRemove at hrem
  split at hrem
  · rename_i hrange
    obtain ⟨⟨r', mem', queue⟩, hqueue, hr⟩ := Option.map_eq_some_iff.1 hrem
    cases hr
    change procQueueRemove S.pTable (S.level pq (S.pTable p).priority.toNat) p = _ at hqueue
    unfold procQueueRemove at hqueue
    cases hhead : (S.level pq (S.pTable p).priority.toNat).head with
    | none =>
      rw [hhead] at hqueue
      cases hqueue
      left
      simp [level, ProcPq.setLevel]
    | some head =>
      rw [hhead] at hqueue
      refine .inr ⟨_, head, by omega, hhead, ?_⟩
      simp only at hqueue
      split at hqueue
      · rename_i hp
        subst hp
        rw [procQueueDequeue, hhead] at hqueue
        cases hqueue
        exact .inl ⟨rfl, rfl⟩
      · rename_i hp
        obtain ⟨⟨r, mem⟩, hloop, hr⟩ := Option.map_eq_some_iff.1 hqueue
        cases hr
        exact .inr ⟨r, mem, hp, hloop, rfl⟩
  · cases hrem
    left
    simp

/-! ## Tails -/

/-- A level that has a head has a tail, though perhaps a stale one. -/
def Tailed (S : Sched n) : Prop := ∀ pq i, (S.level pq i).head ≠ none → (S.level pq i).tail ≠ none

theorem Tailed.setLevel (h : S.Tailed) (hqueue : queue.head ≠ none → queue.tail ≠ none) :
    (S.setLevel pq i mem queue).Tailed := by
  intro pq' j
  by_cases hpq : pq' = pq ∧ j = i
  · obtain ⟨rfl, rfl⟩ := hpq
    rw [level_setLevel_self]
    exact hqueue
  · rw [level_setLevel_of_ne hpq]
    exact h pq' j

theorem Tailed.enqueue (h : S.Tailed) (henq : S.enqueue pq p = some S') : S'.Tailed := by
  rcases enqueue_cases henq with ⟨rfl, -⟩ | ⟨i, mem, queue, -, -, hqueue, rfl⟩
  · exact h
  · refine h.setLevel fun _ => ?_
    unfold procQueueEnqueue at hqueue
    split at hqueue
    · cases hqueue; nofun
    split at hqueue
    · contradiction
    · cases hqueue; nofun

theorem Tailed.dequeue (h : S.Tailed) (hdeq : S.dequeue pq = (r, S')) : S'.Tailed := by
  rcases dequeue_cases hdeq with ⟨-, rfl, -⟩ | ⟨i, p, -, hhead, -, rfl⟩
  · exact h
  · refine h.setLevel fun _ => h pq i ?_
    simp [hhead]

theorem Tailed.remove (h : S.Tailed) (hrem : S.remove pq p = some S') : S'.Tailed := by
  rcases remove_cases hrem with rfl | ⟨i, head, -, hhead, ⟨-, rfl⟩ | ⟨r, mem, -, -, rfl⟩⟩
  · exact h
  · refine h.setLevel fun _ => h pq i ?_
    simp [hhead]
  · exact h.setLevel (h pq i)

theorem Tailed.enqueue_isSome (h : S.Tailed) (pq : PqPtr) (p : Fin n) :
    (S.enqueue pq p).isSome = true := by
  rw [Sched.enqueue, Option.isSome_map, procPqEnqueue]
  split
  · rfl
  · rw [Option.isSome_map, procQueueEnqueue]
    split
    · rfl
    · rename_i head hhead
      split
      · rename_i htail
        refine absurd htail (h pq _ ?_)
        rw [level, hhead]
        simp
      · rfl

theorem Tailed.of_pq (h : S.Tailed) (hpq : S'.pq = S.pq) : S'.Tailed := by
  unfold Tailed level
  rw [hpq]
  exact h

/-! ## Links -/

/-- Every list of processes ends. -/
def Ended (S : Sched n) : Prop := ∀ p, Ends (pcbNext S.pTable) (some p)

theorem Ended.of_next (h : S.Ended) (hnext : pcbNext S'.pTable = pcbNext S.pTable) : S'.Ended := by
  unfold Ended
  rw [hnext]
  exact h

theorem Ended.ends (h : S.Ended) : ∀ p, Ends (pcbNext S.pTable) p
  | none => .null
  | some p => h p

/-- Whatever the queue is, an enqueue links the process in with a null link. -/
theorem procQueueEnqueue_ends {mem : Fin n → Pcb n} {q : Option (Fin n)}
    (h : Ends (pcbNext S.pTable) q)
    (henq : procQueueEnqueue S.pTable queue p = some (mem, queue')) :
    Ends (pcbNext mem) q := by
  unfold procQueueEnqueue at henq
  split at henq
  · cases henq
    rw [pcbNext_setPcbNext]
    exact h.cut p
  split at henq
  · contradiction
  · cases henq
    rw [pcbNext_setPcbNext, pcbNext_setPcbNext]
    exact h.link _ p

theorem procQueueRemoveLoop_ended {mem : Fin n → Pcb n} (h : S.Ended) {fuel : ℕ} {prev : Fin n}
    {curr : Option (Fin n)} (hprev : pcbNext S.pTable prev = curr)
    (hloop : procQueueRemoveLoop S.pTable p fuel prev curr = some (r, mem)) (q : Fin n) :
    Ends (pcbNext mem) (some q) := by
  induction fuel generalizing prev curr with
  | zero => contradiction
  | succ fuel ih =>
    cases curr with
    | none =>
      cases hloop
      exact h q
    | some curr =>
      unfold procQueueRemoveLoop at hloop
      split at hloop
      · cases hloop
        rw [pcbNext_setPcbNext, pcbNext_setPcbNext]
        exact (h q).unlink (h prev) hprev
      · exact ih rfl hloop

theorem Ended.enqueue (h : S.Ended) (henq : S.enqueue pq p = some S') : S'.Ended := by
  rcases enqueue_cases henq with ⟨rfl, -⟩ | ⟨i, mem, queue, -, -, hqueue, rfl⟩
  · exact h
  · exact fun q => procQueueEnqueue_ends (h q) hqueue

theorem Ended.dequeue (h : S.Ended) (hdeq : S.dequeue pq = (r, S')) : S'.Ended := by
  rcases dequeue_cases hdeq with ⟨-, rfl, -⟩ | ⟨i, p, -, -, -, rfl⟩
  · exact h
  · intro q
    rw [pTable_setLevel, pcbNext_setPcbNext]
    exact (h q).cut p

theorem Ended.remove (h : S.Ended) (hrem : S.remove pq p = some S') : S'.Ended := by
  rcases remove_cases hrem with rfl | ⟨i, head, -, -, ⟨-, rfl⟩ | ⟨r, mem, -, hloop, rfl⟩⟩
  · exact h
  · intro q
    rw [pTable_setLevel, pcbNext_setPcbNext]
    exact (h q).cut p
  · exact procQueueRemoveLoop_ended h rfl hloop

/-! ## Invariants of the queues -/

/-- `P` speaks about the queues and the links only, and the three operations keep it. -/
structure QueueInvariant (P : Sched n → Prop) : Prop where
  same : ∀ {S S' : Sched n}, P S → S'.pq = S.pq → pcbNext S'.pTable = pcbNext S.pTable → P S'
  enqueue : ∀ {S S' : Sched n} {pq p}, P S → S.enqueue pq p = some S' → P S'
  dequeue : ∀ {S S' : Sched n} {pq r}, P S → S.dequeue pq = (r, S') → P S'
  remove : ∀ {S S' : Sched n} {pq p}, P S → S.remove pq p = some S' → P S'

theorem tailed_invariant : QueueInvariant (n := n) Tailed where
  same h hpq _ := h.of_pq hpq
  enqueue := Tailed.enqueue
  dequeue := Tailed.dequeue
  remove := Tailed.remove

theorem ended_invariant : QueueInvariant (n := n) Ended where
  same h _ hnext := h.of_next hnext
  enqueue := Ended.enqueue
  dequeue := Ended.dequeue
  remove := Ended.remove

namespace QueueInvariant

variable {P : Sched n → Prop}

theorem setInfo (hP : QueueInvariant P) (h : P S) (p : Fin n) (info : ProcInfo) :
    P (S.setInfo p info) :=
  hP.same h rfl (pcbNext_setInfo S p info)

theorem becameReady (hP : QueueInvariant P) (h : P S) (p : Fin n) : P (S.becameReady p) :=
  hP.same h rfl rfl

theorem switch {state : ProcessState} {resumeAt : Context} (hP : QueueInvariant P) (h : P S)
    (hsw : S.kProcessSwitch state resumeAt = some S') : P S' := by
  unfold kProcessSwitch dispatch at hsw
  split at hsw
  · contradiction
  split at hsw
  · contradiction
  · rename_i hdeq
    cases hsw
    refine hP.setInfo (hP.setInfo ?_ _ _) _ _
    exact hP.same (hP.dequeue (hP.setInfo h _ _) hdeq) rfl rfl

theorem changePriority {newPriority tid code : ℤ} (hP : QueueInvariant P) (h : P S)
    (hchange : S.kChangePriority newPriority tid = some (code, S')) : P S' := by
  rcases kChangePriority_cases hchange with rfl | ⟨p, -, ⟨rfl, -⟩ | ⟨pq, S₁, -, hrem, henq⟩⟩
  · exact h
  · exact hP.setInfo h _ _
  · exact hP.enqueue (hP.setInfo (hP.remove h hrem) _ _) henq

theorem wake (hP : QueueInvariant P) (h : P S)
    (hwake : ((S.setState p .ready).becameReady p).enqueue .readyPq p = some S') : P S' :=
  hP.enqueue (hP.becameReady (hP.setInfo h _ _) p) hwake

theorem move (hP : QueueInvariant P) {m : Move n} (h : P S) (hm : S.move m = some S') : P S' := by
  cases m with
  | wakeReceiver p =>
    simp only [Sched.move, wakeReceiver] at hm
    split at hm
    · exact hP.wake h hm
    · cases hm; exact h
  | wakeRequester =>
    simp only [Sched.move, wakeRequester] at hm
    split at hm
    · rename_i hdeq
      cases hm
      exact hP.dequeue h hdeq
    · rename_i hdeq
      exact hP.wake (hP.dequeue h hdeq) hm
  | blockReceive p =>
    obtain ⟨-, hm⟩ := Option.ite_none_right_eq_some.1 hm
    exact hP.switch h hm
  | blockRequest p =>
    obtain ⟨-, hm⟩ := Option.ite_none_right_eq_some.1 hm
    obtain ⟨S₁, henq, hm⟩ := Option.bind_eq_some_iff.1 hm
    exact hP.switch (hP.enqueue h henq) hm
  | yield p =>
    obtain ⟨-, hm⟩ := Option.ite_none_right_eq_some.1 hm
    obtain ⟨S₁, henq, hm⟩ := Option.bind_eq_some_iff.1 hm
    exact hP.switch (hP.enqueue (hP.becameReady h p) henq) hm
  | changePriority newPriority tid =>
    obtain ⟨⟨code, S₁⟩, hchange, hS₁⟩ := Option.map_eq_some_iff.1 hm
    cases hS₁
    exact hP.changePriority h hchange
  | toUser p =>
    obtain ⟨-, hm⟩ := Option.ite_none_right_eq_some.1 hm
    cases hm
    exact hP.setInfo h _ _
  | enterIsr pid =>
    obtain ⟨-, hm⟩ := Option.ite_none_right_eq_some.1 hm
    cases hm
    exact hP.same h rfl rfl
  | exitIsr =>
    obtain ⟨-, hm⟩ := Option.ite_none_right_eq_some.1 hm
    cases hm
    exact hP.same h rfl rfl

end QueueInvariant

/-! ## Boot -/

/-- `init_processes` after the processes in `l`: the queues have their tails, and the lists from
these processes end. -/
structure Chained (l : List (Fin n)) (S : Sched n) : Prop where
  tailed : S.Tailed
  ends : ∀ p ∈ l, Ends (pcbNext S.pTable) (some p)

variable {table : Fin n → PcbInit} {l : List (Fin n)}

theorem Chained.step (h : Chained l S) (hinit : initProcess table S p = some S') :
    Chained (l ++ [p]) S' := by
  unfold initProcess at hinit
  simp only at hinit
  set S₀ : Sched n := { S with pTable := Function.update S.pTable p _ } with hS₀
  have hnext : pcbNext S₀.pTable = Function.update (pcbNext S.pTable) p none := by
    funext q
    by_cases hq : q = p
    · subst hq
      simp [hS₀, pcbNext]
    · simp [hS₀, pcbNext, hq]
  have h₀ : Chained (l ++ [p]) S₀ := by
    refine ⟨h.tailed.of_pq rfl, fun q hq => ?_⟩
    rw [hnext]
    rcases List.mem_append.1 hq with hq | hq
    · exact (h.ends q hq).cut p
    · rw [List.mem_singleton.1 hq]
      exact .single (Function.update_self ..)
  split at hinit
  · exact Option.some.inj hinit ▸ h₀
  · have htailed : (S₀.becameReady p).Tailed := h₀.tailed.of_pq rfl
    refine ⟨htailed.enqueue hinit, fun q hq => ?_⟩
    rcases enqueue_cases hinit with ⟨rfl, -⟩ | ⟨i, mem, queue, -, -, hqueue, rfl⟩
    · exact h₀.ends q hq
    · exact procQueueEnqueue_ends (h₀.ends q hq) hqueue

theorem Chained.run {l' : List (Fin n)} (h : Chained l S)
    (hrun : l'.foldlM (initProcess table) S = some S') : Chained (l ++ l') S' := by
  induction l' generalizing l S with
  | nil => cases hrun; rwa [List.append_nil]
  | cons p l' ih =>
    obtain ⟨S₁, hinit, hrun⟩ := Option.bind_eq_some_iff.1 hrun
    rw [List.append_cons]
    exact ih (h.step hinit) hrun

/-- The queues are made empty, and then only appended to. -/
theorem chained_init {memory : Fin n → Pcb n} {S₀ : Sched n}
    (hinit : initProcesses memory table = some S₀) : Chained (List.finRange n) S₀ := by
  refine Chained.run (l := []) ⟨fun pq i hhead => ?_, nofun⟩ hinit
  cases pq <;> exact absurd rfl hhead

theorem QueueInvariant.firstDispatch {P : Sched n → Prop} (hP : QueueInvariant P) (hS : P S)
    (h : S.firstDispatch = some S') : P S' := by
  unfold Sched.firstDispatch at h
  split at h
  · contradiction
  · rename_i hdeq
    cases h
    refine hP.setInfo ?_ _ _
    exact hP.same (hP.dequeue hS hdeq) rfl rfl

theorem linked_boot {memory : Fin n → Pcb n} {S₀ : Sched n}
    (hinit : initProcesses memory table = some S₀) (h : S₀.firstDispatch = some S) :
    S.Tailed ∧ S.Ended := by
  have hboot := chained_init hinit
  exact ⟨tailed_invariant.firstDispatch hboot.tailed h,
    ended_invariant.firstDispatch (fun p => hboot.ends p (List.mem_finRange p)) h⟩

/-! ## The running process -/

theorem switch_running {state : ProcessState} {resumeAt : Context}
    (h : S.kProcessSwitch state resumeAt = some S') : S'.running.isSome = true := by
  unfold kProcessSwitch dispatch at h
  split at h
  · contradiction
  split at h
  · contradiction
  · cases h
    simp [running, setContext, setState, setInfo]

theorem move_running {m : Move n} (h : S.running.isSome = true) (hm : S.move m = some S') :
    S'.running.isSome = true := by
  cases m with
  | wakeReceiver p => rwa [running_congr (wakeReceiver_pointers hm)]
  | wakeRequester => rwa [running_congr (wakeRequester_pointers hm)]
  | blockReceive p =>
    obtain ⟨-, hm⟩ := Option.ite_none_right_eq_some.1 hm
    exact switch_running hm
  | blockRequest p =>
    obtain ⟨-, hm⟩ := Option.ite_none_right_eq_some.1 hm
    obtain ⟨S₁, -, hm⟩ := Option.bind_eq_some_iff.1 hm
    exact switch_running hm
  | yield p =>
    obtain ⟨-, hm⟩ := Option.ite_none_right_eq_some.1 hm
    obtain ⟨S₁, -, hm⟩ := Option.bind_eq_some_iff.1 hm
    exact switch_running hm
  | changePriority newPriority tid =>
    obtain ⟨⟨code, S₁⟩, hchange, hS₁⟩ := Option.map_eq_some_iff.1 hm
    cases hS₁
    rwa [running_congr (kChangePriority_pointers hchange)]
  | toUser p =>
    obtain ⟨-, hm⟩ := Option.ite_none_right_eq_some.1 hm
    cases hm
    exact h
  | enterIsr pid =>
    obtain ⟨⟨-, hcur⟩, hm⟩ := Option.ite_none_right_eq_some.1 hm
    cases hm
    obtain ⟨p, hp⟩ := Option.isSome_iff_exists.1 hcur
    simp [running, enterIsr, hp]
  | exitIsr =>
    obtain ⟨hint, hm⟩ := Option.ite_none_right_eq_some.1 hm
    cases hm
    obtain ⟨p, hp⟩ := Option.isSome_iff_exists.1 hint
    simp [running, exitIsr, hp]

end Sched

end Rtx.Coldfire
