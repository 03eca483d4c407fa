import Rtx.Coldfire.SchedRuns
import Rtx.Unix.Scheduler

/-!
# The links of the process table

The assertion of `proc_queue_enqueue`, that a PCB is linked to nothing, holds of every process that
is in no queue (`Untied`): a process leaves a queue without its link. So the queues of the Unix port
do what those of the ColdFire port do, and no assertion fails.
-/

namespace Rtx.Unix

open Coldfire (ProcInfo Pcb ProcQueue ProcPq PqPtr Sched Levels ProcRep Relinked pcbNext setPcbNext
  procQueueDequeue procPqDequeue procPqDequeueLoop codeSuccess errorIllegalArg)
open Coldfire.Sched (Queues SameView Free)

variable {n : ℕ} {S S' : Sched n} {L : Levels n} {pq : PqPtr} {p q : Fin n} {i : ℕ} {code : ℤ}
  {l l₁ l₂ : List (Fin n)}

/-- What is in no queue is linked to nothing. -/
def Untied (S : Sched n) (L : Levels n) : Prop := ∀ p, Free L p → pcbNext S.pTable p = none

theorem Untied.of_next (h : Untied S L) (hnext : pcbNext S'.pTable = pcbNext S.pTable) :
    Untied S' L := by
  intro p hp
  rw [hnext]
  exact h p hp

theorem Untied.setInfo (h : Untied S L) (p : Fin n) (info : ProcInfo) :
    Untied (S.setInfo p info) L :=
  h.of_next (Coldfire.Sched.pcbNext_setInfo S p info)

/-! ## Enqueue -/

/-- Where no assertion fails, the queue is the one of the ColdFire port. -/
theorem enqueueOn_enqueue (h : enqueueOn S pq p = some (code, S')) : S.enqueue pq p = some S' := by
  obtain ⟨⟨code', mem, ppq⟩, henq, hS'⟩ := Option.map_eq_some_iff.1 h
  obtain ⟨rfl, rfl⟩ : code' = code ∧ _ = S' := by simpa using hS'
  unfold Sched.enqueue
  suffices hcold : Coldfire.procPqEnqueue S.pTable (S.pq pq) p = some (code', mem, ppq) by
    rw [hcold]
    rfl
  unfold procPqEnqueue at henq
  unfold Coldfire.procPqEnqueue
  split at henq
  · rename_i hrange
    rw [if_pos hrange]
    exact henq
  · rename_i hrange
    rw [if_neg hrange]
    split at henq
    · contradiction
    · simp only [procQueueEnqueue] at henq
      split at henq
      · contradiction
      · exact henq

/-- No assertion fails for a process that is in no queue and linked to nothing, and what is in no
queue afterwards keeps its link. -/
theorem enqueueOn_spec (hq : S.Queues L) (hp : Free L p) (hnext : pcbNext S.pTable p = none)
    (hi : (S.pTable p).isIProcess = false) (pq : PqPtr) :
    ∃ S', enqueueOn S pq p = some (if (pq.levelOf (S.pTable p).priority).isSome then codeSuccess
        else errorIllegalArg, S') ∧
      SameView S S' ∧ S'.Queues (L.append p (pq.levelOf (S.pTable p).priority)) ∧
      ∀ r, Free (L.append p (pq.levelOf (S.pTable p).priority)) r →
        pcbNext S'.pTable r = pcbNext S.pTable r := by
  obtain ⟨S', henq, hview, hq'⟩ := hq.enqueue hp pq
  refine ⟨S', ?_, hview, hq', ?_⟩
  · have hnext' : (S.pTable p).next = none := hnext
    obtain ⟨⟨code, mem, ppq⟩, hcold, hS'⟩ := Option.map_eq_some_iff.1 henq
    suffices hpq : procPqEnqueue S.pTable (S.pq pq) p =
        some (if (pq.levelOf (S.pTable p).priority).isSome then codeSuccess else errorIllegalArg,
          mem, ppq) by
      rw [Unix.enqueueOn, hpq]
      exact congrArg (fun S => some (_, S)) hS'
    unfold Coldfire.procPqEnqueue at hcold
    unfold Unix.procPqEnqueue
    rw [hq.levels] at hcold ⊢
    by_cases hlevel : 0 ≤ (S.pTable p).priority ∧ (S.pTable p).priority < pq.levels
    · have hrange : ¬ ((S.pTable p).priority < 0 ∨ (S.pTable p).priority ≥ pq.levels) := by omega
      rw [if_neg hrange] at hcold
      obtain ⟨⟨mem', q'⟩, hqueue, hr⟩ := Option.map_eq_some_iff.1 hcold
      obtain ⟨-, rfl, rfl⟩ : codeSuccess = code ∧ mem' = mem ∧ _ = ppq := by simpa using hr
      rw [if_neg hrange, if_neg (by simp [hi]), PqPtr.levelOf, if_pos hlevel]
      simp [Unix.procQueueEnqueue, hnext', hqueue]
    · have hrange : (S.pTable p).priority < 0 ∨ (S.pTable p).priority ≥ pq.levels := by omega
      rw [if_pos hrange] at hcold
      obtain ⟨-, rfl, rfl⟩ : errorIllegalArg = code ∧ S.pTable = mem ∧ S.pq pq = ppq := by
        simpa using hcold
      rw [if_pos hrange, PqPtr.levelOf, if_neg hlevel]
      rfl
  · intro r hr
    by_cases hlevel : 0 ≤ (S.pTable p).priority ∧ (S.pTable p).priority < pq.levels
    · rw [PqPtr.levelOf, if_pos hlevel] at hr
      have hrange : ¬ ((S.pTable p).priority < 0 ∨ (S.pTable p).priority ≥ pq.levels) := by omega
      obtain ⟨mem', q', hqueue, -, hm⟩ :=
        Coldfire.procQueueEnqueue_spec (hq.rep pq (S.pTable p).priority.toNat) (hp _ _)
      have hpq : Coldfire.procPqEnqueue S.pTable (S.pq pq) p = some (codeSuccess, mem',
          (S.pq pq).setLevel (S.pTable p).priority.toNat q') := by
        rw [Coldfire.procPqEnqueue, hq.levels, if_neg hrange]
        simp only [hqueue, Option.map_some]
      rw [Sched.enqueue, hpq] at henq
      cases henq
      have hr₁ := hr pq (S.pTable p).priority.toNat
      rw [Levels.append, Levels.set_self, List.mem_append, not_or, List.mem_singleton] at hr₁
      exact hm.next r hr₁
    · have hrange : (S.pTable p).priority < 0 ∨ (S.pTable p).priority ≥ pq.levels := by omega
      rw [Sched.enqueue, Coldfire.procPqEnqueue, hq.levels, if_pos hrange] at henq
      cases henq
      rfl

theorem free_append {place : Option (PqPtr × ℕ)} (h : Free (L.append p place) q) : Free L q := by
  intro pq i hmem
  apply h pq i
  rw [Levels.append_apply]
  exact List.mem_append_left _ hmem

theorem Untied.enqueueOn (h : Untied S L) (hq : S.Queues L) (hp : Free L p)
    (hi : (S.pTable p).isIProcess = false) (pq : PqPtr) :
    ∃ S', enqueueOn S pq p = some (if (pq.levelOf (S.pTable p).priority).isSome then codeSuccess
        else errorIllegalArg, S') ∧
      SameView S S' ∧ S'.Queues (L.append p (pq.levelOf (S.pTable p).priority)) ∧
      Untied S' (L.append p (pq.levelOf (S.pTable p).priority)) := by
  obtain ⟨S', henq, hview, hq', hnext⟩ := enqueueOn_spec hq hp (h p hp) hi pq
  refine ⟨S', henq, hview, hq', fun r hr => ?_⟩
  rw [hnext r hr]
  exact h r (free_append hr)

/-! ## Dequeue and remove -/

theorem procPqDequeueLoop_next {mem mem' : Fin n → Pcb n} {ppq ppq' : ProcPq n} (k j : ℕ)
    (h : procPqDequeueLoop mem ppq k j = (some p, mem', ppq')) :
    pcbNext mem' = Function.update (pcbNext mem) p none := by
  induction k generalizing j with
  | zero => cases h
  | succ k ih =>
    rw [procPqDequeueLoop] at h
    split at h
    · exact ih (j + 1) h
    · unfold procQueueDequeue at h
      cases hhead : (ppq.priorityQueues j).head with
      | none =>
        rw [hhead] at h
        cases h
      | some q =>
        rw [hhead] at h
        cases h
        exact Coldfire.pcbNext_setPcbNext ..

theorem dequeue_next (h : S.dequeue pq = (some p, S')) :
    pcbNext S'.pTable = Function.update (pcbNext S.pTable) p none := by
  unfold Sched.dequeue procPqDequeue at h
  cases hloop : procPqDequeueLoop S.pTable (S.pq pq) (S.pq pq).numPriorities 0 with
  | mk found rest =>
    obtain ⟨mem, ppq⟩ := rest
    rw [hloop] at h
    cases h
    exact procPqDequeueLoop_next _ _ hloop

theorem Untied.leave (h : Untied S L)
    (hnext : pcbNext S'.pTable = Function.update (pcbNext S.pTable) p none)
    {L' : Levels n} (hL : ∀ q, Free L' q → q ≠ p → Free L q) : Untied S' L' := by
  intro q hq
  rw [hnext]
  by_cases hqp : q = p
  · subst hqp
    exact Function.update_self ..
  · rw [Function.update_of_ne hqp]
    exact h q (hL q hq hqp)

/-- What is removed leaves without its link. -/
theorem Untied.remove (h : Untied S L) (hq : S.Queues L)
    (hprio : pq.levelOf (S.pTable p).priority = some (pq, i)) (hl : L pq i = l₁ ++ p :: l₂)
    (hlast : l₁ ≠ [] → l₂ ≠ []) (hrem : S.remove pq p = some S') :
    Untied S' (L.set pq i (l₁ ++ l₂)) := by
  obtain ⟨hrange, hi⟩ := Option.ite_none_right_eq_some.1 hprio
  have htoNat : (S.pTable p).priority.toNat = i := (Prod.mk.inj (Option.some.inj hi)).2
  have hrep := hl ▸ hq.rep pq i
  obtain ⟨mem', q', hqueue, hother, hself⟩ : ∃ mem' q',
      Coldfire.procQueueRemove S.pTable ((S.pq pq).priorityQueues i) p = some (some p, mem', q') ∧
        (∀ r, r ∉ l₁ ++ p :: l₂ → pcbNext mem' r = pcbNext S.pTable r) ∧ pcbNext mem' p = none := by
    cases l₁ with
    | nil =>
      have hh : ((S.pq pq).priorityQueues i).head = some p := hrep.chain.1
      refine ⟨setPcbNext S.pTable p none, _, by
        rw [Coldfire.procQueueRemove, hh]
        simp only [if_true, procQueueDequeue, hh]
        rfl, fun r hr => ?_, ?_⟩
      · have hrp : r ≠ p := by rintro rfl; exact hr (by simp)
        rw [Coldfire.pcbNext_setPcbNext, Function.update_of_ne hrp]
      · rw [Coldfire.pcbNext_setPcbNext, Function.update_self]
    | cons a l₁ =>
      obtain ⟨mem', hrem', -, hm, hnone⟩ := Coldfire.procQueueRemove_behind hrep.chain
      exact ⟨mem', _, hrem', hm.next, hnone⟩
  have hpq : Coldfire.procPqRemove S.pTable (S.pq pq) p =
      some (some p, mem', (S.pq pq).setLevel i q') := by
    rw [Coldfire.procPqRemove, hq.levels, if_pos hrange, htoNat]
    simp only [hqueue, Option.map_some]
  rw [Sched.remove, hpq] at hrem
  cases hrem
  intro r hr
  show pcbNext mem' r = none
  by_cases hrp : r = p
  · subst hrp
    exact hself
  · have hrl : r ∉ l₁ ++ p :: l₂ := by
      have hri := hr pq i
      rw [Levels.set_self] at hri
      simp only [List.mem_append, List.mem_cons, not_or] at hri ⊢
      exact ⟨hri.1, hrp, hri.2⟩
    rw [hother r hrl]
    refine h r fun pq' i' hr' => ?_
    by_cases hpi : pq' = pq ∧ i' = i
    · obtain ⟨rfl, rfl⟩ := hpi
      exact hrl (hl ▸ hr')
    · apply hr pq' i'
      rw [Levels.set_of_ne _ _ hpi]
      exact hr'

end Rtx.Unix
