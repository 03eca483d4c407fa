import Rtx.Lib.LevelQueue
import Rtx.Lib.Run
import Rtx.Unix.ProcQueue

/-!
# Priority queues as stable priority queues

`proc_pq` of both ports, on any sequence of operations, against the stable priority queue of
`LevelQueue`. `proc_queue_remove` does not move the tail, so when it takes the last of several
processes from a level, what is appended to that level is lost until the level has been empty
(`Watch.stale`). Without such an append the results agree (`proc_pq_stable`).
-/

namespace Rtx

open Transition Linked LevelQueue Coldfire

variable {n : ℕ}

inductive Port
  | coldfire
  | unix
  deriving DecidableEq

/-- `proc_pq_enqueue` of each port. `proc_pq_dequeue` and `proc_pq_remove` are the same in both. -/
def Port.procPqEnqueue : Port → (Fin n → Pcb n) → ProcPq n → Fin n →
    Option (ℤ × (Fin n → Pcb n) × ProcPq n)
  | .coldfire => Coldfire.procPqEnqueue
  | .unix => Unix.procPqEnqueue

/-! ## The code -/

/-- The PCBs and a priority queue. -/
structure PqState (n : ℕ) where
  mem : Fin n → Pcb n
  ppq : ProcPq n

/-- What an operation returns. -/
inductive PqResult (n : ℕ)
  | code (code : ℤ)
  | pcb (pcb : Option (Fin n))
  | done
  deriving DecidableEq

/-- One operation. -/
def PqState.step (port : Port) (s : PqState n) : Op (Fin n) → Option (PqResult n × PqState n)
  | .enqueue pcb => (port.procPqEnqueue s.mem s.ppq pcb).map fun r => (.code r.1, ⟨r.2.1, r.2.2⟩)
  | .dequeue =>
    let r := procPqDequeue s.mem s.ppq
    some (.pcb r.1, ⟨r.2.1, r.2.2⟩)
  | .remove pcb => (procPqRemove s.mem s.ppq pcb).map fun r => (.pcb r.1, ⟨r.2.1, r.2.2⟩)
  | .setPriority pcb priority =>
    some (.done, ⟨Function.update s.mem pcb { s.mem pcb with priority := priority }, s.ppq⟩)

/-! ## The specification -/

/-- A result of the specification, as the code returns it. -/
def PqResult.of : Result (Fin n) → PqResult n
  | .accepted true => .code codeSuccess
  | .accepted false => .code errorIllegalArg
  | .element a => .pcb a
  | .done => .done

/-- The operation takes the last process of the level. -/
def removesLast (s : State (Fin n)) : Op (Fin n) → ℕ → Bool
  | .remove p, i => s.levelOf p = some i && (s.levels i).getLast? = some p
  | _, _ => false

/-- A stable priority queue, and the levels whose last process was removed and that have not been
empty since. -/
structure Watch (n : ℕ) where
  queue : State (Fin n)
  stale : ℕ → Bool

namespace Watch

/-- One operation. -/
def step (w : Watch n) (op : Op (Fin n)) : Option (PqResult n × Watch n) :=
  let (r, queue) := w.queue.step op
  some (.of r, ⟨queue, fun i => !(queue.levels i).isEmpty &&
    (w.stale i || removesLast w.queue op i)⟩)

/-- The operation does not append to a stale level. -/
def Fresh (w : Watch n) : Op (Fin n) → Prop
  | .enqueue p => ∀ i ∈ w.queue.levelOf p, w.stale i = false
  | _ => True

end Watch

/-! ## The simulation -/

/-- The levels are lists of the PCBs. The tail of a level that is not stale is its last process.
On Unix, a PCB that is in no level is linked to nothing. -/
structure Sim (port : Port) (iProcess : Fin n → Bool) (s : PqState n) (w : Watch n) : Prop where
  placed : w.queue.Placed
  numLevels : s.ppq.numPriorities = w.queue.numLevels
  priority : ∀ p, (s.mem p).priority = w.queue.priority p
  chain : ∀ i, Chain (pcbNext s.mem) (s.ppq.priorityQueues i).head (w.queue.levels i)
  tail : ∀ i, w.stale i = false → ∀ p ∈ (w.queue.levels i).getLast?,
    (s.ppq.priorityQueues i).tail = some p
  unlinked : port = .unix → ∀ p, w.queue.Out p → (s.mem p).next = none
  iProcess : ∀ p, (s.mem p).isIProcess = iProcess p

variable {port : Port} {iProcess : Fin n → Bool} {s s' : PqState n} {w w' : Watch n} {p : Fin n}
  {i : ℕ} {l : List (Fin n)} {stale : ℕ → Bool}

theorem Sim.restale (h : Sim port iProcess s w)
    (hstale : ∀ i, stale i = false → w.queue.levels i ≠ [] → w.stale i = false) :
    Sim port iProcess s ⟨w.queue, stale⟩ := by
  refine { h with tail := fun i hi p hp => h.tail i (hstale i hi ?_) p hp }
  rintro hnil
  rw [hnil] at hp
  contradiction

/-- An operation on one level that leaves the links of the other levels alone. -/
theorem Sim.setLevel (h : Sim port iProcess s w) {mem' : Fin n → Pcb n} {queue' : ProcQueue n}
    {keep : Fin n → Prop} (hplaced : (w.queue.setLevel i l).Placed)
    (hm : Relinked s.mem mem' keep) (hkeep : ∀ j, j ≠ i → ∀ p ∈ w.queue.levels j, keep p)
    (hchain : Chain (pcbNext mem') queue'.head l)
    (htail : stale i = false → ∀ p ∈ l.getLast?, queue'.tail = some p)
    (hstale : ∀ j, j ≠ i → stale j = false → w.queue.levels j ≠ [] → w.stale j = false)
    (hunlinked : port = .unix → ∀ p, (w.queue.setLevel i l).Out p → (mem' p).next = none) :
    Sim port iProcess ⟨mem', s.ppq.setLevel i queue'⟩ ⟨w.queue.setLevel i l, stale⟩ where
  placed := hplaced
  numLevels := h.numLevels
  priority p := (congrArg ProcInfo.priority (hm.info p)).trans (h.priority p)
  chain j := by
    by_cases hj : j = i
    · subst hj
      simpa [ProcPq.setLevel] using hchain
    · rw [State.setLevel_of_ne _ _ hj]
      simp only [ProcPq.setLevel, Function.update_of_ne hj]
      exact (h.chain j).congr fun p hp => hm.next p (hkeep j hj p hp)
  tail j hfresh p hp := by
    by_cases hj : j = i
    · subst hj
      simp only [ProcPq.setLevel, Function.update_self]
      rw [State.setLevel_self] at hp
      exact htail hfresh p hp
    · rw [State.setLevel_of_ne _ _ hj] at hp
      simp only [ProcPq.setLevel, Function.update_of_ne hj]
      refine h.tail j (hstale j hj hfresh ?_) p hp
      rintro hnil
      rw [hnil] at hp
      contradiction
  unlinked := hunlinked
  iProcess p := (congrArg ProcInfo.isIProcess (hm.info p)).trans (h.iProcess p)

/-- The operation is proper and appends to no stale level. On Unix, no i-process is appended. -/
structure Allowed (port : Port) (iProcess : Fin n → Bool) (w : Watch n) (op : Op (Fin n)) :
    Prop where
  proper : w.queue.Proper op
  fresh : w.Fresh op
  regular : port = .unix → ∀ p, op = .enqueue p → iProcess p = false

instance (w : Watch n) : (op : Op (Fin n)) → Decidable (w.Fresh op)
  | .enqueue p => inferInstanceAs (Decidable (∀ i ∈ w.queue.levelOf p, w.stale i = false))
  | .dequeue | .remove _ | .setPriority .. => isTrue trivial

instance (port : Port) (iProcess : Fin n → Bool) (w : Watch n) (op : Op (Fin n)) :
    Decidable (Allowed port iProcess w op) :=
  decidable_of_iff (w.queue.Proper op ∧ w.Fresh op ∧
    (port = .unix → ∀ p, op = .enqueue p → iProcess p = false))
    ⟨fun h => ⟨h.1, h.2.1, h.2.2⟩, fun h => ⟨h.proper, h.fresh, h.regular⟩⟩

theorem Sim.isEmpty (h : Sim port iProcess s w) (i : ℕ) :
    procQueueIsEmpty (s.ppq.priorityQueues i) = (w.queue.levels i).isEmpty := by
  have hchain := h.chain i
  cases hl : w.queue.levels i with
  | nil =>
    rw [hl] at hchain
    rw [procQueueIsEmpty, chain_nil.1 hchain]
    rfl
  | cons p l =>
    rw [hl] at hchain
    rw [procQueueIsEmpty, (chain_cons.1 hchain).1]
    rfl

theorem Sim.out_of_setLevel (hout : (w.queue.setLevel i l).Out p) (hi : p ∉ w.queue.levels i) :
    w.queue.Out p := by
  intro j hlt hj
  by_cases hji : j = i
  · subst hji
    exact hi hj
  · refine hout j hlt ?_
    rwa [State.setLevel_of_ne _ _ hji]

theorem levelOf_eq_none (h : Sim port iProcess s w) :
    w.queue.levelOf p = none ↔
      (s.mem p).priority < 0 ∨ (s.mem p).priority ≥ s.ppq.numPriorities := by
  rw [h.priority, h.numLevels, State.levelOf]
  simp
  omega

theorem levelOf_eq_some (h : Sim port iProcess s w) (hi : w.queue.levelOf p = some i) :
    (0 ≤ (s.mem p).priority ∧ (s.mem p).priority < s.ppq.numPriorities) ∧
      (s.mem p).priority.toNat = i := by
  rw [h.priority, h.numLevels]
  obtain ⟨hrange, heq⟩ := Option.ite_none_right_eq_some.1 hi
  exact ⟨hrange, Option.some.inj heq⟩

theorem Port.procPqEnqueue_eq {mem : Fin n → Pcb n} {ppq : ProcPq n}
    (hrange : 0 ≤ (mem p).priority ∧ (mem p).priority < ppq.numPriorities)
    (hassert : port = .unix → (mem p).next = none ∧ (mem p).isIProcess = false) :
    port.procPqEnqueue mem ppq p =
      (Coldfire.procQueueEnqueue mem (ppq.priorityQueues (mem p).priority.toNat) p).map fun r =>
        (codeSuccess, r.1, ppq.setLevel (mem p).priority.toNat r.2) := by
  have hvalid : ¬ ((mem p).priority < 0 ∨ (mem p).priority ≥ ppq.numPriorities) := by omega
  cases port with
  | coldfire => exact if_neg hvalid
  | unix =>
    obtain ⟨hnext, hregular⟩ := hassert rfl
    simp only [Port.procPqEnqueue, Unix.procPqEnqueue, Unix.procQueueEnqueue]
    rw [if_neg hvalid, if_neg (by rw [hregular]; decide), if_neg (by simp [hnext])]

/-- The code appends to a level that is not stale. -/
theorem Sim.enqueue {r : PqResult n} (h : Sim port iProcess s w)
    (hop : Allowed port iProcess w (.enqueue p)) (hw : w.step (.enqueue p) = some (r, w')) :
    ∃ s', s.step port (.enqueue p) = some (r, s') ∧ Sim port iProcess s' w' := by
  have hplaced : (w.queue.step (.enqueue p)).2.Placed := h.placed.step hop.proper
  unfold Watch.step at hw
  cases hlevel : w.queue.levelOf p with
  | none =>
    simp only [State.step, hlevel] at hw
    cases hw
    refine ⟨s, ?_, h.restale fun j hj hne => ?_⟩
    · have hrange := (levelOf_eq_none h).1 hlevel
      cases port with
      | coldfire => simp only [PqState.step, Port.procPqEnqueue, procPqEnqueue, if_pos hrange]; rfl
      | unix =>
        simp only [PqState.step, Port.procPqEnqueue, Unix.procPqEnqueue, if_pos hrange]
        rfl
    · simpa [removesLast, hne] using hj
  | some i =>
    simp only [State.step, hlevel] at hw hplaced
    cases hw
    obtain ⟨hrange, hi⟩ := levelOf_eq_some h hlevel
    have hrep : ProcRep s.mem (s.ppq.priorityQueues i) (w.queue.levels i) :=
      ⟨h.chain i, h.tail i (hop.fresh i hlevel)⟩
    obtain ⟨mem', q', henq, hr, hm⟩ := procQueueEnqueue_spec hrep
      (hop.proper i (State.lt_of_levelOf hlevel))
    have henq' : port.procPqEnqueue s.mem s.ppq p = _ := port.procPqEnqueue_eq hrange fun hport =>
      ⟨h.unlinked hport p hop.proper, (h.iProcess p).trans (hop.regular hport p rfl)⟩
    rw [hi, henq] at henq'
    refine ⟨⟨mem', s.ppq.setLevel i q'⟩, by simp only [PqState.step, henq']; rfl, ?_⟩
    refine h.setLevel hplaced hm ?_ hr.chain (fun _ => hr.tail_eq) ?_ ?_
    · intro j hj q hq
      refine ⟨fun hqi => hj (h.placed.unique hq hqi), ?_⟩
      rintro rfl
      exact hop.proper j (h.placed.lt hq) hq
    · intro j hj hfresh hne
      rw [State.setLevel_of_ne _ _ hj] at hfresh
      simpa [removesLast, hne] using hfresh
    · intro hport q hout
      have hq := hout i (State.lt_of_levelOf hlevel)
      rw [State.setLevel_self, List.mem_append, List.mem_singleton, not_or] at hq
      exact (hm.next q hq).trans (h.unlinked hport q (Sim.out_of_setLevel hout hq.1))

/-- The first process of a level is taken, and unlinked. The tail stays. -/
theorem Sim.takeHead (h : Sim port iProcess s w) (hl : w.queue.levels i = p :: l)
    (hstale : ∀ j, stale j = false → (w.queue.setLevel i l).levels j ≠ [] → w.stale j = false) :
    ∃ mem' queue', procQueueDequeue s.mem (s.ppq.priorityQueues i) = (some p, mem', queue') ∧
      Sim port iProcess ⟨mem', s.ppq.setLevel i queue'⟩ ⟨w.queue.setLevel i l, stale⟩ := by
  have hchain := h.chain i
  have hnodup := h.placed.nodup i
  rw [hl] at hchain hnodup
  obtain ⟨hhead, hrest⟩ := chain_cons.1 hchain
  have hp : p ∉ l := (List.nodup_cons.1 hnodup).1
  have hmem : p ∈ w.queue.levels i := by
    rw [hl]
    exact List.mem_cons_self
  refine ⟨setPcbNext s.mem p none, { s.ppq.priorityQueues i with head := (s.mem p).next },
    by rw [procQueueDequeue, hhead], ?_⟩
  have hm : Relinked s.mem (setPcbNext s.mem p none) (· ≠ p) := by
    refine ⟨fun q => toProcInfo_setPcbNext .., fun q hq => ?_⟩
    rw [pcbNext_setPcbNext, Function.update_of_ne hq]
  refine h.setLevel (h.placed.setLevel ?_ hnodup.of_cons) hm ?_ ?_ ?_ ?_ ?_
  · intro q hq
    refine h.placed.level i q ?_
    rw [hl]
    exact List.mem_cons_of_mem p hq
  · rintro j hj q hq rfl
    exact hj (h.placed.unique hq hmem)
  · rw [pcbNext_setPcbNext]
    exact hrest.update hp none
  · intro hfresh q hq
    have hne : l ≠ [] := by
      rintro rfl
      contradiction
    refine h.tail i (hstale i hfresh (by rwa [State.setLevel_self])) q ?_
    rw [hl, List.getLast?_cons_of_ne_nil hne]
    exact hq
  · intro j hj hfresh hne
    exact hstale j hfresh (by rwa [State.setLevel_of_ne _ _ hj])
  · intro hport q hout
    by_cases hqp : q = p
    · subst hqp
      simp [setPcbNext]
    · have hq := hout i (h.placed.lt hmem)
      rw [State.setLevel_self] at hq
      refine (hm.next q hqp).trans (h.unlinked hport q (Sim.out_of_setLevel hout ?_))
      rw [hl, List.mem_cons, not_or]
      exact ⟨hqp, hq⟩

theorem Sim.dequeue {r : PqResult n} (h : Sim port iProcess s w)
    (hw : w.step .dequeue = some (r, w')) :
    ∃ s', s.step port .dequeue = some (r, s') ∧ Sim port iProcess s' w' := by
  unfold Watch.step at hw
  have hnever : ∀ j, removesLast w.queue .dequeue j = false := fun _ => rfl
  cases hfirst : w.queue.firstLevel with
  | none =>
    simp only [State.step, hfirst] at hw
    cases hw
    have hloop : procPqDequeueLoop s.mem s.ppq s.ppq.numPriorities 0 = (none, s.mem, s.ppq) := by
      refine procPqDequeueLoop_empty _ 0 fun j _ hj => ?_
      rw [h.isEmpty, State.firstLevel_eq_none hfirst j (by rw [← h.numLevels]; omega)]
      rfl
    refine ⟨s, by simp only [PqState.step, procPqDequeue, hloop]; rfl, h.restale fun j hj hne => ?_⟩
    simpa [hnever, hne] using hj
  | some i =>
    simp only [State.step, hfirst] at hw
    obtain ⟨hi, hne, hempty⟩ := State.firstLevel_eq_some hfirst
    obtain ⟨p, l, hl⟩ := List.exists_cons_of_ne_nil hne
    rw [hl] at hw
    cases hw
    obtain ⟨mem', queue', hdeq, hsim⟩ : ∃ mem' queue', _ ∧ Sim port iProcess
        ⟨mem', s.ppq.setLevel i queue'⟩ ⟨w.queue.setLevel i l, fun j =>
          !((w.queue.setLevel i l).levels j).isEmpty &&
            (w.stale j || removesLast w.queue .dequeue j)⟩ :=
      h.takeHead hl fun j hj hne => by simpa [hnever, hne] using hj
    have hnonempty : procQueueIsEmpty (s.ppq.priorityQueues i) = false := by
      rw [h.isEmpty, hl]
      rfl
    have hbefore : ∀ j, 0 ≤ j → j < i → procQueueIsEmpty (s.ppq.priorityQueues j) = true := by
      intro j _ hj
      rw [h.isEmpty, hempty j hj]
      rfl
    have hloop : procPqDequeueLoop s.mem s.ppq s.ppq.numPriorities 0 =
        (some p, mem', s.ppq.setLevel i queue') := by
      rw [procPqDequeueLoop_found hnonempty _ 0 (Nat.zero_le i) (by rw [h.numLevels]; omega)
        hbefore, hdeq]
    refine ⟨_, ?_, hsim⟩
    simp only [PqState.step, procPqDequeue, hloop]
    rfl

/-- What is not stale after an operation was not before, and did not lose its last process. -/
theorem fresh_of {queue : State (Fin n)} (op : Op (Fin n)) {j : ℕ}
    (hfresh : (!(queue.levels j).isEmpty && (w.stale j || removesLast w.queue op j)) = false)
    (hne : queue.levels j ≠ []) : w.stale j = false ∧ removesLast w.queue op j = false := by
  simpa [hne] using hfresh

/-- A process that stands behind another is linked out. If it was the last, the level is stale. -/
theorem Sim.takeBehind {l₁ l₂ : List (Fin n)} {a : Fin n} (h : Sim port iProcess s w)
    (hl : w.queue.levels i = a :: l₁ ++ p :: l₂)
    (hstale : ∀ j, stale j = false → (w.queue.setLevel i (a :: l₁ ++ l₂)).levels j ≠ [] →
      w.stale j = false ∧ (j = i → l₂ ≠ [])) :
    ∃ mem', procQueueRemove s.mem (s.ppq.priorityQueues i) p =
        some (some p, mem', s.ppq.priorityQueues i) ∧
      Sim port iProcess ⟨mem', s.ppq.setLevel i (s.ppq.priorityQueues i)⟩
        ⟨w.queue.setLevel i (a :: l₁ ++ l₂), stale⟩ := by
  have hchain := h.chain i
  have hnodup := h.placed.nodup i
  rw [hl] at hchain hnodup
  have hmem : p ∈ w.queue.levels i := by
    rw [hl]
    simp
  obtain ⟨mem', hrem, hchain', hm, hnext⟩ := procQueueRemove_behind hchain
  have hsub : List.Sublist (a :: l₁ ++ l₂) (a :: l₁ ++ p :: l₂) :=
    (List.sublist_cons_self p l₂).append_left (a :: l₁)
  refine ⟨mem', hrem, h.setLevel
    (h.placed.setLevel ?_ (hnodup.sublist hsub)) hm ?_ hchain' ?_ ?_ ?_⟩
  · intro q hq
    refine h.placed.level i q ?_
    rw [hl]
    exact hsub.subset hq
  · intro j hj q hq hqi
    rw [← hl] at hqi
    exact hj (h.placed.unique hq hqi)
  · intro hfresh q hq
    obtain ⟨hfresh', hne⟩ := hstale i hfresh (by simp)
    refine h.tail i hfresh' q ?_
    rw [List.getLast?_append_of_ne_nil _ (hne rfl)] at hq
    rw [hl, List.getLast?_append_of_ne_nil _ (by simp), List.getLast?_cons_of_ne_nil (hne rfl)]
    exact hq
  · intro j hj hfresh hne
    exact (hstale j hfresh (by rwa [State.setLevel_of_ne _ _ hj])).1
  · intro hport q hout
    by_cases hqp : q = p
    · subst hqp
      exact hnext
    · have hq := hout i (h.placed.lt hmem)
      rw [State.setLevel_self] at hq
      have hqi : q ∉ a :: l₁ ++ p :: l₂ := by
        simp only [List.mem_append, List.mem_cons, not_or] at hq ⊢
        exact ⟨hq.1, hqp, hq.2⟩
      refine (hm.next q hqi).trans (h.unlinked hport q (Sim.out_of_setLevel hout ?_))
      rwa [hl]

theorem Sim.remove {r : PqResult n} (h : Sim port iProcess s w)
    (hw : w.step (.remove p) = some (r, w')) :
    ∃ s', s.step port (.remove p) = some (r, s') ∧ Sim port iProcess s' w' := by
  unfold Watch.step at hw
  cases hlevel : w.queue.levelOf p with
  | none =>
    simp only [State.step, hlevel] at hw
    cases hw
    have hrange : ¬ (0 ≤ (s.mem p).priority ∧ (s.mem p).priority < s.ppq.numPriorities) := by
      have := (levelOf_eq_none h).1 hlevel
      omega
    refine ⟨s, by simp only [PqState.step, procPqRemove, if_neg hrange]; rfl, h.restale ?_⟩
    exact fun j hj hne => (fresh_of (.remove p) hj hne).1
  | some i =>
    obtain ⟨hrange, hi⟩ := levelOf_eq_some h hlevel
    have hstep : ∀ {found mem' queue'},
        procQueueRemove s.mem (s.ppq.priorityQueues i) p = some (found, mem', queue') →
        s.step port (.remove p) = some (.pcb found, ⟨mem', s.ppq.setLevel i queue'⟩) := by
      intro found mem' queue' hrem
      simp only [PqState.step, procPqRemove, if_pos hrange, hi, hrem]
      rfl
    simp only [State.step, hlevel] at hw
    split at hw
    · rename_i hmem
      cases hw
      obtain ⟨l₁, l₂, hl⟩ := List.append_of_mem hmem
      have hp₁ : p ∉ l₁ := by
        have hnodup := h.placed.nodup i
        rw [hl, List.nodup_append] at hnodup
        exact fun hp => hnodup.2.2 p hp p List.mem_cons_self rfl
      have herase : (w.queue.levels i).erase p = l₁ ++ l₂ := by
        rw [hl, List.erase_append_right _ hp₁, List.erase_cons_head]
      rw [herase]
      cases l₁ with
      | nil =>
        obtain ⟨mem', queue', hdeq, hsim⟩ :=
          h.takeHead hl fun j hj hne => (fresh_of (.remove p) hj hne).1
        have hchain := h.chain i
        rw [hl] at hchain
        refine ⟨_, hstep ?_, hsim⟩
        simp only [procQueueRemove, (chain_cons.1 hchain).1, if_true, hdeq]
      | cons a l₁ =>
        obtain ⟨mem', hrem, hsim⟩ := h.takeBehind hl fun j hj hne => by
          obtain ⟨hfresh, hlast⟩ := fresh_of (.remove p) hj hne
          refine ⟨hfresh, ?_⟩
          rintro rfl rfl
          have hp : (a :: l₁ ++ [p]).getLast? = some p := List.getLast?_concat
          rw [removesLast, hlevel, hl, hp] at hlast
          simp at hlast
        exact ⟨_, hstep hrem, hsim⟩
    · rename_i hmem
      cases hw
      have hsame : s.ppq.setLevel i (s.ppq.priorityQueues i) = s.ppq := by
        rw [ProcPq.setLevel, Function.update_eq_self]
      have habsent : procQueueRemove s.mem (s.ppq.priorityQueues i) p =
          some (none, s.mem, s.ppq.priorityQueues i) := by
        have hchain := h.chain i
        unfold procQueueRemove
        cases hl : w.queue.levels i with
        | nil =>
          rw [hl] at hchain
          rw [chain_nil.1 hchain]
        | cons a l =>
          rw [hl] at hchain hmem
          obtain ⟨hhead, hrest⟩ := chain_cons.1 hchain
          have hlen : l.length < n + 1 := by
            have := List.Nodup.length_le_card hrest.nodup
            rw [Fintype.card_fin] at this
            omega
          rw [List.mem_cons, not_or] at hmem
          simp only [hhead, if_neg (Ne.symm hmem.1)]
          have hloop : procQueueRemoveLoop s.mem p (n + 1) a (s.mem a).next = some (none, s.mem) :=
            procQueueRemoveLoop_absent hrest hmem.2 (n + 1) a hlen
          rw [hloop]
          rfl
      refine ⟨_, hstep habsent, ?_⟩
      rw [hsame]
      exact h.restale fun j hj hne => (fresh_of (.remove p) hj hne).1

theorem Sim.setPriority {r : PqResult n} {priority : ℤ} (h : Sim port iProcess s w)
    (hop : w.queue.Proper (.setPriority p priority))
    (hw : w.step (.setPriority p priority) = some (r, w')) :
    ∃ s', s.step port (.setPriority p priority) = some (r, s') ∧ Sim port iProcess s' w' := by
  have hplaced : (w.queue.step (.setPriority p priority)).2.Placed := h.placed.step hop
  unfold Watch.step at hw
  simp only [State.step] at hw hplaced
  cases hw
  have hnext : pcbNext (Function.update s.mem p { s.mem p with priority := priority }) =
      pcbNext s.mem := by
    funext q
    by_cases hq : q = p
    · subst hq
      simp [pcbNext]
    · simp [pcbNext, hq]
  refine ⟨_, rfl, hplaced, h.numLevels, fun q => ?_, fun j => ?_, fun j hfresh q hq => ?_, ?_,
    fun q => ?_⟩
  · by_cases hq : q = p
    · subst hq
      simp
    · simpa [hq] using h.priority q
  · rw [hnext]
    exact h.chain j
  · refine h.tail j (fresh_of (.setPriority p priority) hfresh ?_).1 q hq
    rintro hnil
    rw [hnil] at hq
    contradiction
  · intro hport q hout
    exact (congrFun hnext q).trans (h.unlinked hport q hout)
  · by_cases hq : q = p
    · subst hq
      simpa using h.iProcess q
    · simpa [hq] using h.iProcess q

theorem Sim.step {op : Op (Fin n)} {r : PqResult n} (h : Sim port iProcess s w)
    (hop : Allowed port iProcess w op) (hw : w.step op = some (r, w')) :
    ∃ s', s.step port op = some (r, s') ∧ Sim port iProcess s' w' := by
  cases op with
  | enqueue p => exact h.enqueue hop hw
  | dequeue => exact h.dequeue hw
  | remove p => exact h.remove hw
  | setPriority p priority => exact h.setPriority hop.proper hw

/-- A new priority queue, of PCBs that on Unix are linked to nothing. -/
theorem Sim.create {numPriorities : ℕ} {mem : Fin n → Pcb n}
    (hnext : port = .unix → ∀ p, (mem p).next = none) :
    Sim port (fun p => (mem p).isIProcess) ⟨mem, procPqCreate numPriorities⟩
      ⟨.empty numPriorities fun p => (mem p).priority, fun _ => false⟩ where
  placed := State.placed_empty ..
  numLevels := rfl
  priority _ := rfl
  chain _ := rfl
  tail _ _ _ hp := absurd hp (by simp [State.empty])
  unlinked hport p _ := hnext hport p
  iProcess _ := rfl

/-! ## Runs -/

/-- In every run in which nothing is appended to a level whose last process was removed and that
has not been empty since, `proc_pq` returns what a stable priority queue does. -/
theorem proc_pq_stable {port : Port} {numPriorities : ℕ} {mem : Fin n → Pcb n}
    {ops : List (Op (Fin n))} {rs : List (PqResult n)}
    (hnext : port = .unix → ∀ p, (mem p).next = none)
    (hops : Along (silent Watch.step) (Allowed port fun p => (mem p).isIProcess)
      ⟨.empty numPriorities fun p => (mem p).priority, fun _ => false⟩ ops)
    (hrs : observe Watch.step ⟨.empty numPriorities fun p => (mem p).priority, fun _ => false⟩ ops =
      some rs) :
    observe (PqState.step port) ⟨mem, procPqCreate numPriorities⟩ ops = some rs :=
  observe_simulates (fun _ _ _ _ _ h hop hw => h.step hop hw) (Sim.create hnext) hops hrs

/-- Three processes of the same priority. -/
def threePcbs : Fin 3 → Pcb 3 := fun p => ⟨⟨p, 0, .ready, .user, false⟩, none⟩

/-- The last process is removed, and the level drained before the next is appended. -/
def drained : List (Op (Fin 3)) :=
  [.enqueue 0, .enqueue 1, .remove 1, .dequeue, .enqueue 2, .setPriority 1 5, .enqueue 1, .dequeue]

/-- What its operations return. -/
def drainedResults : List (PqResult 3) :=
  [.code codeSuccess, .code codeSuccess, .pcb (some 1), .pcb (some 0), .code codeSuccess, .done,
    .code errorIllegalArg, .pcb (some 2)]

theorem proc_pq_stable_threePcbs :
    observe (PqState.step .coldfire) ⟨threePcbs, procPqCreate 4⟩ drained = some drainedResults ∧
      observe (PqState.step .unix) ⟨threePcbs, procPqCreate 4⟩ drained = some drainedResults := by
  have hport : ∀ port, observe (PqState.step port) ⟨threePcbs, procPqCreate 4⟩ drained =
      some drainedResults := by
    intro port
    have hrun : (exec (guarded (silent Watch.step) (Allowed port fun p => (threePcbs p).isIProcess))
        ⟨.empty 4 fun p => (threePcbs p).priority, fun _ => false⟩ drained).isSome = true := by
      cases port <;> decide +kernel
    obtain ⟨w, hw⟩ := Option.isSome_iff_exists.1 hrun
    exact proc_pq_stable (fun _ _ => rfl) (Along.guarded hw) (by decide +kernel)
  exact ⟨hport .coldfire, hport .unix⟩

/-- The last process is removed, and another one appended to its level. -/
def behindRemoved : List (Op (Fin 3)) :=
  [.enqueue 0, .enqueue 1, .remove 1, .enqueue 2, .dequeue, .dequeue]

/-- It is lost. -/
theorem proc_pq_stable_fails :
    ∃ rs, Along (silent Watch.step) (fun w op => w.queue.Proper op)
        ⟨.empty 4 fun p => (threePcbs p).priority, fun _ => false⟩ behindRemoved ∧
      observe Watch.step ⟨.empty 4 fun p => (threePcbs p).priority, fun _ => false⟩ behindRemoved =
        some (rs ++ [.pcb (some 2)]) ∧
      observe (PqState.step .coldfire) ⟨threePcbs, procPqCreate 4⟩ behindRemoved =
        some (rs ++ [.pcb none]) ∧
      observe (PqState.step .unix) ⟨threePcbs, procPqCreate 4⟩ behindRemoved =
        some (rs ++ [.pcb none]) := by
  have hrun : (exec (guarded (silent Watch.step) fun w op => w.queue.Proper op)
      ⟨.empty 4 fun p => (threePcbs p).priority, fun _ => false⟩ behindRemoved).isSome = true := by
    decide +kernel
  obtain ⟨w, hw⟩ := Option.isSome_iff_exists.1 hrun
  refine ⟨[.code codeSuccess, .code codeSuccess, .pcb (some 1), .code codeSuccess, .pcb (some 0)],
    Along.guarded hw, by decide +kernel, by decide +kernel, by decide +kernel⟩

end Rtx
