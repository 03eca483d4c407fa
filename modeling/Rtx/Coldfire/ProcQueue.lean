import Mathlib.Data.Fintype.Card
import Rtx.Lib.Chain
import Rtx.Coldfire.Structs

/-!
# Process queues and priority queues

`proc_queue.c` and `proc_pq.c`. A process queue is a head/tail list through the `next` field of
the PCBs; a priority queue is an array of them, indexed by the PCB's own priority.

`procQueueDequeue` never clears the tail, so the tail of a drained level dangles. That is
harmless, because the next enqueue finds the head null and overwrites both. Taking the *last* of
several processes out with `procQueueRemove` leaves the tail dangling too, and then it is not:
the next enqueue on that level writes through it.
-/

namespace Rtx.Coldfire

open Linked

variable {n : ℕ}

/-! ## Queues -/

/-- `struct proc_queue`. -/
structure ProcQueue (n : ℕ) where
  head : Option (Fin n)
  tail : Option (Fin n)
  deriving DecidableEq

/-- `proc_queue_create`. -/
def procQueueCreate : ProcQueue n := ⟨none, none⟩

/-- `proc_queue_is_empty`. -/
def procQueueIsEmpty (queue : ProcQueue n) : Bool := queue.head.isNone

/-- `pcb->next = v`. -/
def setPcbNext (mem : Fin n → Pcb n) (pcb : Fin n) (v : Option (Fin n)) : Fin n → Pcb n :=
  Function.update mem pcb { mem pcb with next := v }

/-- `proc_queue_dequeue`. The source tests `queue->head == NULL` a second time, after the empty
queue has been turned away, so its assignment to the tail is never reached. -/
def procQueueDequeue (mem : Fin n → Pcb n) (queue : ProcQueue n) :
    Option (Fin n) × (Fin n → Pcb n) × ProcQueue n :=
  match queue.head with
  | none => (none, mem, queue)
  | some pcb => (some pcb, setPcbNext mem pcb none, { queue with head := (mem pcb).next })

/-- `proc_queue_enqueue`. -/
def procQueueEnqueue (mem : Fin n → Pcb n) (queue : ProcQueue n) (pcb : Fin n) :
    Option ((Fin n → Pcb n) × ProcQueue n) :=
  match queue.head with
  | none => some (setPcbNext mem pcb none, ⟨some pcb, some pcb⟩)
  | some head =>
    match queue.tail with
    | none => none -- `queue->tail->next` through a null tail
    | some tail =>
      some (setPcbNext (setPcbNext mem tail (some pcb)) pcb none, ⟨some head, some pcb⟩)

/-- The search loop of `proc_queue_remove`. With more fuel than there are PCBs it only runs out on
a cyclic list, where the source loops for ever. -/
def procQueueRemoveLoop (mem : Fin n → Pcb n) (pcb : Fin n) :
    ℕ → Fin n → Option (Fin n) → Option (Option (Fin n) × (Fin n → Pcb n))
  | 0, _, _ => none
  | _ + 1, _, none => some (none, mem)
  | fuel + 1, prevNode, some currNode =>
    if currNode = pcb then
      some (some currNode,
        setPcbNext (setPcbNext mem prevNode (mem currNode).next) currNode none)
    else procQueueRemoveLoop mem pcb fuel currNode (mem currNode).next

/-- `proc_queue_remove`. The tail is left as it is, also when the last process goes. -/
def procQueueRemove (mem : Fin n → Pcb n) (queue : ProcQueue n) (pcb : Fin n) :
    Option (Option (Fin n) × (Fin n → Pcb n) × ProcQueue n) :=
  match queue.head with
  | none => some (none, mem, queue)
  | some head =>
    if head = pcb then some (procQueueDequeue mem queue)
    else (procQueueRemoveLoop mem pcb (n + 1) head (mem head).next).map fun r =>
      (r.1, r.2, queue)

/-- `proc_queue_print`. What it prints goes to the debug port; with more fuel than there are PCBs
the walk only runs out on a cyclic list. -/
def procQueuePrint (mem : Fin n → Pcb n) (queue : ProcQueue n) : Option Unit :=
  walk (fun p => (mem p).next) (fun _ _ => some ()) (n + 1) () queue.head

/-! ## Priority queues -/

/-- `struct proc_pq`. -/
structure ProcPq (n : ℕ) where
  numPriorities : ℕ
  priorityQueues : ℕ → ProcQueue n

/-- `proc_pq_create`, for a positive number of levels. -/
def procPqCreate (numPriorities : ℕ) : ProcPq n := ⟨numPriorities, fun _ => procQueueCreate⟩

/-- Replace one level. -/
def ProcPq.setLevel (ppq : ProcPq n) (i : ℕ) (queue : ProcQueue n) : ProcPq n :=
  { ppq with priorityQueues := Function.update ppq.priorityQueues i queue }

/-- The loop of `proc_pq_dequeue` over the last `k` levels, from `priority` on. -/
def procPqDequeueLoop (mem : Fin n → Pcb n) (ppq : ProcPq n) :
    ℕ → ℕ → Option (Fin n) × (Fin n → Pcb n) × ProcPq n
  | 0, _ => (none, mem, ppq)
  | k + 1, priority =>
    if procQueueIsEmpty (ppq.priorityQueues priority) then
      procPqDequeueLoop mem ppq k (priority + 1)
    else
      let (pcb, mem, queue) := procQueueDequeue mem (ppq.priorityQueues priority)
      (pcb, mem, ppq.setLevel priority queue)

/-- `proc_pq_dequeue`. -/
def procPqDequeue (mem : Fin n → Pcb n) (ppq : ProcPq n) :
    Option (Fin n) × (Fin n → Pcb n) × ProcPq n :=
  procPqDequeueLoop mem ppq ppq.numPriorities 0

/-- `proc_pq_enqueue`. -/
def procPqEnqueue (mem : Fin n → Pcb n) (ppq : ProcPq n) (pcb : Fin n) :
    Option (ℤ × (Fin n → Pcb n) × ProcPq n) :=
  if (mem pcb).priority < 0 ∨ (mem pcb).priority ≥ ppq.numPriorities then
    some (errorIllegalArg, mem, ppq)
  else
    let level := (mem pcb).priority.toNat
    (procQueueEnqueue mem (ppq.priorityQueues level) pcb).map fun r =>
      (codeSuccess, r.1, ppq.setLevel level r.2)

/-- `proc_pq_remove`. -/
def procPqRemove (mem : Fin n → Pcb n) (ppq : ProcPq n) (pcb : Fin n) :
    Option (Option (Fin n) × (Fin n → Pcb n) × ProcPq n) :=
  if 0 ≤ (mem pcb).priority ∧ (mem pcb).priority < ppq.numPriorities then
    let level := (mem pcb).priority.toNat
    (procQueueRemove mem (ppq.priorityQueues level) pcb).map fun r =>
      (r.1, r.2.1, ppq.setLevel level r.2.2)
  else some (none, mem, ppq)

/-- `proc_pq_print`. -/
def procPqPrint (mem : Fin n → Pcb n) (ppq : ProcPq n) : Option Unit :=
  (List.range ppq.numPriorities).forM fun i => procQueuePrint mem (ppq.priorityQueues i)

/-! ## Representation -/

/-- The links of the process table. -/
def pcbNext (mem : Fin n → Pcb n) : Fin n → Option (Fin n) := fun p => (mem p).next

/-- The queue holds `l`, oldest first. -/
def ProcRep (mem : Fin n → Pcb n) (queue : ProcQueue n) (l : List (Fin n)) : Prop :=
  Rep (pcbNext mem) queue.head queue.tail l

@[simp] theorem pcbNext_setPcbNext (mem : Fin n → Pcb n) (p : Fin n) (v : Option (Fin n)) :
    pcbNext (setPcbNext mem p v) = Function.update (pcbNext mem) p v := by
  funext q
  by_cases hq : q = p
  · subst hq; simp [pcbNext, setPcbNext]
  · simp [pcbNext, setPcbNext, hq]

@[simp] theorem toProcInfo_setPcbNext (mem : Fin n → Pcb n) (p q : Fin n)
    (v : Option (Fin n)) : (setPcbNext mem p v q).toProcInfo = (mem q).toProcInfo := by
  by_cases hq : q = p
  · subst hq; simp [setPcbNext]
  · simp [setPcbNext, hq]

/-- `mem'` is `mem` with some links changed, none of them the link of a PCB in `keep`. -/
structure Relinked (mem mem' : Fin n → Pcb n) (keep : Fin n → Prop) : Prop where
  info : ∀ p, (mem' p).toProcInfo = (mem p).toProcInfo
  next : ∀ p, keep p → pcbNext mem' p = pcbNext mem p

theorem ProcRep.relinked {mem mem' : Fin n → Pcb n} {keep : Fin n → Prop} {q : ProcQueue n}
    {l : List (Fin n)} (hr : ProcRep mem q l) (hm : Relinked mem mem' keep)
    (hl : ∀ p ∈ l, keep p) : ProcRep mem' q l :=
  Rep.congr hr fun p hp => hm.next p (hl p hp)

/-! ## Printing -/

theorem procQueuePrint_isSome {mem : Fin n → Pcb n} {queue : ProcQueue n}
    (h : Ends (pcbNext mem) queue.head) : (procQueuePrint mem queue).isSome = true := by
  obtain ⟨l, hc⟩ := h
  refine (walk_unit_isSome_iff fun l hl => ?_).2 ⟨l, hc, fun _ _ => rfl⟩
  have hcard := hl.length_le_card
  rw [Fintype.card_fin] at hcard
  exact Nat.lt_succ_of_le hcard

theorem procPqPrint_isSome {mem : Fin n → Pcb n} (h : ∀ p, Ends (pcbNext mem) p) (ppq : ProcPq n) :
    (procPqPrint mem ppq).isSome = true :=
  isSome_forM_iff.2 fun _ _ => procQueuePrint_isSome (h _)

/-! ## Operations -/

section Specs

variable {mem : Fin n → Pcb n} {q : ProcQueue n} {l l₁ l₂ : List (Fin n)} {p a : Fin n}

theorem procRep_create (mem : Fin n → Pcb n) : ProcRep mem procQueueCreate [] := Rep.nil

theorem ProcRep.isEmpty (hr : ProcRep mem q l) : procQueueIsEmpty q = true ↔ l = [] := by
  rw [procQueueIsEmpty, Option.isNone_iff_eq_none]
  exact Rep.head_eq_none hr

theorem procQueueDequeue_cons (hr : ProcRep mem q (p :: l)) :
    ∃ mem' q', procQueueDequeue mem q = (some p, mem', q') ∧ ProcRep mem' q' l ∧
      Relinked mem mem' (· ≠ p) := by
  have hh : q.head = some p := hr.chain.1
  refine ⟨_, _, by rw [procQueueDequeue, hh], ?_, fun r => toProcInfo_setPcbNext .., ?_⟩
  · unfold ProcRep at hr ⊢
    rw [pcbNext_setPcbNext]
    rw [hh] at hr
    exact hr.dequeue fun _ => rfl
  · intro r hrp
    rw [pcbNext_setPcbNext, Function.update_of_ne hrp]

theorem procQueueEnqueue_spec (hr : ProcRep mem q l) (hp : p ∉ l) :
    ∃ mem' q', procQueueEnqueue mem q p = some (mem', q') ∧ ProcRep mem' q' (l ++ [p]) ∧
      Relinked mem mem' fun r => r ∉ l ∧ r ≠ p := by
  rcases l.eq_nil_or_concat' with rfl | ⟨l₁, c, rfl⟩
  · have hh : q.head = none := hr.chain
    refine ⟨_, _, by rw [procQueueEnqueue, hh], ?_, fun r => toProcInfo_setPcbNext .., ?_⟩
    · unfold ProcRep
      rw [pcbNext_setPcbNext]
      exact Rep.enqueue_nil _ p
    · rintro r ⟨-, hrp⟩
      rw [pcbNext_setPcbNext, Function.update_of_ne hrp]
  · have ht : q.tail = some c := hr.tail_eq c (by simp)
    obtain ⟨h, hh⟩ : ∃ h, q.head = some h := by
      have hne := mt (Rep.head_eq_none hr).1 (by simp)
      exact Option.ne_none_iff_exists'.1 hne
    have hr' : Rep (pcbNext mem) q.head (some c) (l₁ ++ [c]) := ht ▸ hr
    refine ⟨_, _, by rw [procQueueEnqueue, hh, ht], ?_, fun r => ?_, ?_⟩
    · unfold ProcRep
      rw [pcbNext_setPcbNext, pcbNext_setPcbNext, ← hh]
      exact hr'.enqueue (by simp) hp
    · rw [toProcInfo_setPcbNext, toProcInfo_setPcbNext]
    · rintro r ⟨hr₁, hrp⟩
      have hrc : r ≠ c := by rintro rfl; exact hr₁ (by simp)
      rw [pcbNext_setPcbNext, pcbNext_setPcbNext, Function.update_of_ne hrp,
        Function.update_of_ne hrc]

/-- The search finds a process that stands behind `a`, and links it out. -/
theorem procQueueRemoveLoop_spec (hc : Chain (pcbNext mem) (some a) (a :: l₁ ++ p :: l₂))
    (hp : p ∉ l₁) : ∀ fuel, l₁.length < fuel →
    ∃ b, (a :: l₁).getLast? = some b ∧ procQueueRemoveLoop mem p fuel a (mem a).next =
      some (some p, setPcbNext (setPcbNext mem b (mem p).next) p none) := by
  induction l₁ generalizing a with
  | nil =>
    intro fuel hf
    have hn : (mem a).next = some p := hc.2.1
    cases fuel with
    | zero => exact absurd hf (by simp)
    | succ fuel => exact ⟨a, rfl, by simp [procQueueRemoveLoop, hn]⟩
  | cons c l₁ ih =>
    intro fuel hf
    have hn : (mem a).next = some c := hc.2.1
    have hcp : c ≠ p := fun h => hp (h ▸ List.mem_cons_self)
    have hcc : Chain (pcbNext mem) (some c) (c :: l₁ ++ p :: l₂) := ⟨rfl, hc.2.2⟩
    cases fuel with
    | zero => exact absurd hf (by simp)
    | succ fuel =>
      obtain ⟨b, hb, hloop⟩ := ih hcc (fun h => hp (List.mem_cons_of_mem c h)) fuel
        (Nat.lt_of_succ_lt_succ hf)
      refine ⟨b, by rw [List.getLast?_cons_of_ne_nil (by simp)]; exact hb, ?_⟩
      rw [hn, procQueueRemoveLoop, if_neg hcp]
      exact hloop

/-- A process that stands behind another is linked out, whatever the tail is. -/
theorem procQueueRemove_behind (hc : Chain (pcbNext mem) q.head (a :: l₁ ++ p :: l₂)) :
    ∃ mem', procQueueRemove mem q p = some (some p, mem', q) ∧
      Chain (pcbNext mem') q.head (a :: l₁ ++ l₂) ∧
      Relinked mem mem' (· ∉ a :: l₁ ++ p :: l₂) ∧ (mem' p).next = none := by
  have hh : q.head = some a := hc.1
  have hnd := hc.nodup
  rw [List.nodup_append, List.nodup_cons] at hnd
  obtain ⟨⟨ha₁, -⟩, -, hdis⟩ := hnd
  have hpa : a ≠ p := hdis a List.mem_cons_self p List.mem_cons_self
  have hp₁ : p ∉ l₁ := fun h => hdis p (List.mem_cons_of_mem a h) p List.mem_cons_self rfl
  have hlen : l₁.length < n + 1 := by
    have := List.Nodup.length_le_card hc.nodup
    simp only [List.length_append, List.length_cons, Fintype.card_fin] at this
    omega
  obtain ⟨b, hb, hloop⟩ := procQueueRemoveLoop_spec (hh ▸ hc) hp₁ (n + 1) hlen
  obtain ⟨l₀, hl₀⟩ : ∃ l₀, a :: l₁ = l₀ ++ [b] := by
    rw [List.getLast?_eq_some_iff] at hb
    exact hb
  rw [hl₀] at hc ⊢
  have hrem : procQueueRemove mem q p =
      some (some p, setPcbNext (setPcbNext mem b (mem p).next) p none, q) := by
    rw [procQueueRemove, hh]
    simp [hpa, hloop]
  refine ⟨_, hrem, ?_, ⟨fun r => ?_, fun r hr => ?_⟩, by simp [setPcbNext]⟩
  · rw [pcbNext_setPcbNext, pcbNext_setPcbNext]
    have hc₀ : Chain (pcbNext mem) q.head (l₀ ++ b :: p :: l₂) := by simpa using hc
    rw [List.append_assoc]
    exact hc₀.removeAfter
  · rw [toProcInfo_setPcbNext, toProcInfo_setPcbNext]
  · have hrp : r ≠ p := by rintro rfl; exact hr (by simp)
    have hrb : r ≠ b := by rintro rfl; exact hr (by simp)
    rw [pcbNext_setPcbNext, pcbNext_setPcbNext, Function.update_of_ne hrp,
      Function.update_of_ne hrb]

/-- A process is taken out of its queue, whatever becomes of the tail. -/
theorem procQueueRemove_chain (hr : ProcRep mem q (l₁ ++ p :: l₂)) :
    ∃ mem' q', procQueueRemove mem q p = some (some p, mem', q') ∧
      Chain (pcbNext mem') q'.head (l₁ ++ l₂) ∧ Relinked mem mem' (· ∉ l₁ ++ p :: l₂) := by
  cases l₁ with
  | nil =>
    obtain ⟨mem', q', hd, hr', hm⟩ := procQueueDequeue_cons hr
    refine ⟨mem', q', ?_, hr'.chain, hm.info, fun r hr => hm.next r ?_⟩
    · rw [procQueueRemove, show q.head = some p from hr.chain.1]
      simp [hd]
    · rintro rfl; exact hr (by simp)
  | cons a l₁ =>
    obtain ⟨mem', hrem, hc, hm, -⟩ := procQueueRemove_behind hr.chain
    exact ⟨mem', q, hrem, hc, hm⟩

/-- A process that is not the last of several is taken out of its queue. -/
theorem procQueueRemove_spec (hr : ProcRep mem q (l₁ ++ p :: l₂)) (hl : l₁ ≠ [] → l₂ ≠ []) :
    ∃ mem' q', procQueueRemove mem q p = some (some p, mem', q') ∧ ProcRep mem' q' (l₁ ++ l₂) ∧
      Relinked mem mem' (· ∉ l₁ ++ p :: l₂) := by
  cases l₁ with
  | nil =>
    obtain ⟨mem', q', hd, hr', hm⟩ := procQueueDequeue_cons hr
    refine ⟨mem', q', ?_, hr', hm.info, fun r hr => hm.next r ?_⟩
    · rw [procQueueRemove, show q.head = some p from hr.chain.1]
      simp [hd]
    · rintro rfl; exact hr (by simp)
  | cons a l₁ =>
    obtain ⟨mem', hrem, hc, hm, -⟩ := procQueueRemove_behind hr.chain
    have hne : l₂ ≠ [] := hl (by simp)
    refine ⟨mem', q, hrem, ⟨hc, fun c hlast => hr.tail_eq c ?_⟩, hm⟩
    rw [List.getLast?_append_of_ne_nil _ hne] at hlast
    rw [List.getLast?_append_of_ne_nil _ (by simp), List.getLast?_cons_of_ne_nil hne]
    exact hlast

theorem procQueueRemoveLoop_absent {curr : Option (Fin n)} (hc : Chain (pcbNext mem) curr l)
    (hp : p ∉ l) : ∀ fuel prev, l.length < fuel →
      procQueueRemoveLoop mem p fuel prev curr = some (none, mem) := by
  induction l generalizing curr with
  | nil =>
    intro fuel prev hf
    obtain rfl : curr = none := hc
    cases fuel with
    | zero => exact absurd hf (Nat.lt_irrefl 0)
    | succ fuel => rfl
  | cons c l ih =>
    intro fuel prev hf
    obtain ⟨rfl, hc⟩ := hc
    have hcp : c ≠ p := fun h => hp (h ▸ List.mem_cons_self)
    cases fuel with
    | zero => exact absurd hf (Nat.not_lt_zero _)
    | succ fuel =>
      rw [procQueueRemoveLoop, if_neg hcp]
      exact ih hc (fun h => hp (List.mem_cons_of_mem c h)) fuel c (Nat.lt_of_succ_lt_succ hf)

end Specs

/-! ## The levels of a priority queue -/

section Levels

variable {mem : Fin n → Pcb n} {ppq : ProcPq n} {i : ℕ}

theorem procPqDequeueLoop_empty (k j : ℕ)
    (hempty : ∀ i, j ≤ i → i < j + k → procQueueIsEmpty (ppq.priorityQueues i) = true) :
    procPqDequeueLoop mem ppq k j = (none, mem, ppq) := by
  induction k generalizing j with
  | zero => rfl
  | succ k ih =>
    rw [procPqDequeueLoop, if_pos (hempty j le_rfl (by omega))]
    exact ih (j + 1) fun i h₁ h₂ => hempty i (by omega) (by omega)

theorem procPqDequeueLoop_found (hi : procQueueIsEmpty (ppq.priorityQueues i) = false) (k j : ℕ)
    (hj : j ≤ i) (hk : i < j + k)
    (hempty : ∀ i', j ≤ i' → i' < i → procQueueIsEmpty (ppq.priorityQueues i') = true) :
    procPqDequeueLoop mem ppq k j =
      let r := procQueueDequeue mem (ppq.priorityQueues i)
      (r.1, r.2.1, ppq.setLevel i r.2.2) := by
  induction k generalizing j with
  | zero => omega
  | succ k ih =>
    rcases Nat.eq_or_lt_of_le hj with rfl | hlt
    · rw [procPqDequeueLoop, if_neg (by rw [hi]; decide)]
    · rw [procPqDequeueLoop, if_pos (hempty j le_rfl hlt)]
      exact ih (j + 1) hlt (by omega) fun i' h₁ h₂ => hempty i' (by omega) h₂

end Levels

end Rtx.Coldfire
