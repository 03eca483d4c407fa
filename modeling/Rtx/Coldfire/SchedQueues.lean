import Rtx.Coldfire.Scheduler

/-!
# The two priority queues as lists

`S.Queues L` says that level `i` of priority queue `pq` holds the list `L pq i`, and that no
process is in two levels. Each operation of `proc_pq.c` is then an operation on `L`, and changes
nothing else that can be seen of the scheduler (`SameView`).
-/

namespace Rtx.Coldfire

variable {n : ℕ}

/-- The number of levels of a priority queue. -/
def PqPtr.levels : PqPtr → ℕ
  | .readyPq => numPriorities + additionalNullPriority
  | .blockedRequestEnvPq => numPriorities

/-- The state of the processes in a priority queue. -/
def PqPtr.state : PqPtr → ProcessState
  | .readyPq => .ready
  | .blockedRequestEnvPq => .blockedOnEnvRequest

/-- The contents of the levels of both priority queues. -/
abbrev Levels (n : ℕ) := PqPtr → ℕ → List (Fin n)

/-- Replace the contents of one level. -/
def Levels.set (L : Levels n) (pq : PqPtr) (i : ℕ) (l : List (Fin n)) : Levels n := fun pq' i' =>
  if pq' = pq ∧ i' = i then l else L pq' i'

@[simp] theorem Levels.set_self (L : Levels n) (pq : PqPtr) (i : ℕ) (l : List (Fin n)) :
    L.set pq i l pq i = l := if_pos ⟨rfl, rfl⟩

theorem Levels.set_of_ne (L : Levels n) {pq pq' : PqPtr} {i i' : ℕ} (l : List (Fin n))
    (h : ¬ (pq' = pq ∧ i' = i)) : L.set pq i l pq' i' = L pq' i' := if_neg h

/-- The level for a priority, if the queue has one. -/
def PqPtr.levelOf (pq : PqPtr) (priority : ℤ) : Option (PqPtr × ℕ) :=
  if 0 ≤ priority ∧ priority < pq.levels then some (pq, priority.toNat) else none

/-- Append a process to a level, if it has one. -/
def Levels.append (L : Levels n) (p : Fin n) : Option (PqPtr × ℕ) → Levels n
  | none => L
  | some (pq, i) => L.set pq i (L pq i ++ [p])

theorem Levels.append_apply (L : Levels n) (p : Fin n) (place : Option (PqPtr × ℕ)) (pq : PqPtr)
    (i : ℕ) : L.append p place pq i = L pq i ++ if place = some (pq, i) then [p] else [] := by
  rcases place with _ | ⟨pq', i'⟩
  · simp [append]
  · by_cases hpi : pq = pq' ∧ i = i'
    · obtain ⟨rfl, rfl⟩ := hpi
      simp [append]
    · rw [append, set_of_ne L _ hpi, if_neg, List.append_nil]
      rintro ⟨⟩
      exact hpi ⟨rfl, rfl⟩

namespace Sched

/-- The levels hold `L`, and are disjoint. -/
structure Queues (S : Sched n) (L : Levels n) : Prop where
  levels : ∀ pq, (S.pq pq).numPriorities = pq.levels
  rep : ∀ pq i, ProcRep S.pTable ((S.pq pq).priorityQueues i) (L pq i)
  disjoint : ∀ {p pq i pq' i'}, p ∈ L pq i → p ∈ L pq' i' → pq = pq' ∧ i = i'

/-- The same PCBs, links apart, and the same process pointers. -/
structure SameView (S S' : Sched n) : Prop where
  info : ∀ p, (S'.pTable p).toProcInfo = (S.pTable p).toProcInfo
  current : S'.currentProcess = S.currentProcess
  interrupted : S'.interruptedProcess = S.interruptedProcess
  readyLog : S'.readyLog = S.readyLog

/-- The process is in no level. -/
def Free (L : Levels n) (p : Fin n) : Prop := ∀ pq i, p ∉ L pq i

/-! ## The process table -/

@[simp] theorem pcbNext_setInfo (S : Sched n) (p : Fin n) (info : ProcInfo) :
    pcbNext (S.setInfo p info).pTable = pcbNext S.pTable := by
  funext q
  by_cases hq : q = p
  · subst hq; simp [pcbNext, setInfo]
  · simp [pcbNext, setInfo, hq]

theorem info_setInfo (S : Sched n) (p q : Fin n) (info : ProcInfo) :
    ((S.setInfo p info).pTable q).toProcInfo =
      Function.update (fun q => (S.pTable q).toProcInfo) p info q := by
  by_cases hq : q = p
  · subst hq; simp [setInfo]
  · simp [setInfo, hq]

variable {S : Sched n} {L : Levels n} {pq : PqPtr} {p : Fin n} {i : ℕ} {l l₁ l₂ : List (Fin n)}

theorem Queues.setInfo (h : S.Queues L) (p : Fin n) (info : ProcInfo) :
    (S.setInfo p info).Queues L :=
  { levels := h.levels
    rep := fun pq i => Linked.Rep.congr (h.rep pq i) fun q _ =>
      congrFun (pcbNext_setInfo S p info) q
    disjoint := h.disjoint }

theorem Queues.becameReady (h : S.Queues L) (p : Fin n) : (S.becameReady p).Queues L :=
  ⟨h.levels, h.rep, h.disjoint⟩

/-! ## Operations -/

/-- An operation on one level that leaves the links of the other levels alone. -/
theorem Queues.setLevel (h : S.Queues L) {mem' : Fin n → Pcb n} {q' : ProcQueue n}
    {keep : Fin n → Prop} (hr : ProcRep mem' q' l) (hm : Relinked S.pTable mem' keep)
    (hkeep : ∀ pq' i', ¬ (pq' = pq ∧ i' = i) → ∀ p ∈ L pq' i', keep p)
    (hl : ∀ p ∈ l, p ∈ L pq i ∨ Free L p) :
    { S with
      pTable := mem'
      pq := Function.update S.pq pq ((S.pq pq).setLevel i q') }.Queues (L.set pq i l) where
  levels pq' := by
    by_cases hpq : pq' = pq
    · subst hpq; simp [ProcPq.setLevel, h.levels]
    · simp [hpq, h.levels]
  rep pq' i' := by
    by_cases hpi : pq' = pq ∧ i' = i
    · obtain ⟨rfl, rfl⟩ := hpi
      simpa [ProcPq.setLevel] using hr
    · rw [Levels.set_of_ne L l hpi]
      have hrep := (h.rep pq' i').relinked hm (hkeep pq' i' hpi)
      by_cases hpq : pq' = pq
      · subst hpq
        have hi : i' ≠ i := fun hi => hpi ⟨rfl, hi⟩
        simpa [ProcPq.setLevel, hi] using hrep
      · simpa [hpq] using hrep
  disjoint {p pq₁ i₁ pq₂ i₂} h₁ h₂ := by
    have hside : ∀ {pq' i'}, ¬ (pq' = pq ∧ i' = i) → p ∈ L pq' i' → p ∉ l := by
      intro pq' i' hne hp hpl
      rcases hl p hpl with hpi | hfree
      · obtain ⟨rfl, rfl⟩ := h.disjoint hp hpi
        exact hne ⟨rfl, rfl⟩
      · exact hfree _ _ hp
    unfold Levels.set at h₁ h₂
    split at h₁ <;> split at h₂
    · rename_i e₁ e₂
      exact ⟨e₁.1.trans e₂.1.symm, e₁.2.trans e₂.2.symm⟩
    · rename_i hne
      exact absurd h₁ (hside hne h₂)
    · rename_i hne _
      exact absurd h₂ (hside hne h₁)
    · exact h.disjoint h₁ h₂

/-- A process that is in no level goes to the end of the level of its priority. One without a
level is turned away. -/
theorem Queues.enqueue (h : S.Queues L) (hp : Free L p) (pq : PqPtr) :
    ∃ S', S.enqueue pq p = some S' ∧ SameView S S' ∧
      S'.Queues (L.append p (pq.levelOf (S.pTable p).priority)) := by
  by_cases hprio : 0 ≤ (S.pTable p).priority ∧ (S.pTable p).priority < pq.levels
  · have hrange : ¬ ((S.pTable p).priority < 0 ∨ (S.pTable p).priority ≥ pq.levels) := by omega
    obtain ⟨mem', q', henq, hr, hm⟩ :=
      procQueueEnqueue_spec (h.rep pq (S.pTable p).priority.toNat) (hp _ _)
    have hpq : procPqEnqueue S.pTable (S.pq pq) p = some (codeSuccess, mem',
        (S.pq pq).setLevel (S.pTable p).priority.toNat q') := by
      rw [procPqEnqueue, h.levels, if_neg hrange]
      simp only [henq, Option.map_some]
    refine ⟨_, by rw [Sched.enqueue, hpq]; rfl, ?_, ?_⟩
    · exact ⟨hm.info, rfl, rfl, rfl⟩
    rw [PqPtr.levelOf, if_pos hprio]
    refine h.setLevel hr hm (fun pq' i' hne r hr' => ⟨fun hrl => ?_, ?_⟩) fun r hr' => ?_
    · exact hne (h.disjoint hr' hrl)
    · rintro rfl; exact hp _ _ hr'
    · rcases List.mem_append.1 hr' with hr' | hr'
      · exact Or.inl hr'
      · exact Or.inr (List.mem_singleton.1 hr' ▸ hp)
  · have hrange : (S.pTable p).priority < 0 ∨ (S.pTable p).priority ≥ pq.levels := by omega
    refine ⟨S, ?_, ⟨fun _ => rfl, rfl, rfl, rfl⟩, by rw [PqPtr.levelOf, if_neg hprio]; exact h⟩
    rw [Sched.enqueue, procPqEnqueue, h.levels, if_pos hrange]
    simp

theorem Queues.dequeue_none (h : S.Queues L) (hempty : ∀ i < pq.levels, L pq i = []) :
    S.dequeue pq = (none, S) := by
  have hloop : procPqDequeueLoop S.pTable (S.pq pq) pq.levels 0 = (none, S.pTable, S.pq pq) :=
    procPqDequeueLoop_empty pq.levels 0 fun i _ hi => (h.rep pq i).isEmpty.2 (hempty i (by omega))
  rw [Sched.dequeue, procPqDequeue, h.levels, hloop]
  simp

theorem Queues.dequeue_some (h : S.Queues L) (hi : i < pq.levels) (hl : L pq i = p :: l)
    (hempty : ∀ j < i, L pq j = []) :
    ∃ S', S.dequeue pq = (some p, S') ∧ SameView S S' ∧ S'.Queues (L.set pq i l) := by
  have hne : procQueueIsEmpty ((S.pq pq).priorityQueues i) = false := by
    rw [Bool.eq_false_iff, Ne, (h.rep pq i).isEmpty, hl]
    simp
  have hloop : procPqDequeueLoop S.pTable (S.pq pq) pq.levels 0 = _ :=
    procPqDequeueLoop_found hne pq.levels 0 (Nat.zero_le i) (by omega) fun j _ hj =>
      (h.rep pq j).isEmpty.2 (hempty j hj)
  obtain ⟨mem', q', hdeq, hr, hm⟩ := procQueueDequeue_cons (hl ▸ h.rep pq i)
  refine ⟨_, by rw [Sched.dequeue, procPqDequeue, h.levels, hloop, hdeq], ?_, ?_⟩
  · exact ⟨hm.info, rfl, rfl, rfl⟩
  · refine h.setLevel hr hm (fun pq' i' hne r hr' => ?_) fun r hr' => ?_
    · rintro rfl
      exact hne (h.disjoint hr' (by rw [hl]; exact List.mem_cons_self))
    · exact Or.inl (by rw [hl]; exact List.mem_cons_of_mem p hr')

/-- A process is taken out of its level, unless it stands last behind another. -/
theorem Queues.remove (h : S.Queues L) (hprio : pq.levelOf (S.pTable p).priority = some (pq, i))
    (hl : L pq i = l₁ ++ p :: l₂) (hlast : l₁ ≠ [] → l₂ ≠ []) :
    ∃ S', S.remove pq p = some S' ∧ SameView S S' ∧ S'.Queues (L.set pq i (l₁ ++ l₂)) := by
  obtain ⟨mem', q', hrem, hr, hm⟩ := procQueueRemove_spec (hl ▸ h.rep pq i) hlast
  obtain ⟨hrange, hi⟩ := Option.ite_none_right_eq_some.1 hprio
  have htoNat : (S.pTable p).priority.toNat = i := (Prod.mk.inj (Option.some.inj hi)).2
  have hpq : procPqRemove S.pTable (S.pq pq) p = some (some p, mem', (S.pq pq).setLevel i q') := by
    rw [procPqRemove, h.levels, if_pos hrange, htoNat]
    simp only [hrem, Option.map_some]
  refine ⟨_, by rw [Sched.remove, hpq]; rfl, ?_, ?_⟩
  · exact ⟨hm.info, rfl, rfl, rfl⟩
  refine h.setLevel hr hm (fun pq' i' hne r hr' hrl => ?_) fun r hr' => Or.inl ?_
  · exact hne (h.disjoint hr' (by rw [hl]; exact hrl))
  · rw [hl]
    exact ((List.sublist_cons_self p l₂).append_left l₁).subset hr'

theorem Queues.remove_none (h : S.Queues L) (hprio : pq.levelOf (S.pTable p).priority = none) :
    S.remove pq p = some S := by
  have hrange : ¬ (0 ≤ (S.pTable p).priority ∧ (S.pTable p).priority < pq.levels) := by
    intro hr
    rw [PqPtr.levelOf, if_pos hr] at hprio
    contradiction
  rw [Sched.remove, procPqRemove, h.levels, if_neg hrange]
  simp

end Sched

end Rtx.Coldfire
