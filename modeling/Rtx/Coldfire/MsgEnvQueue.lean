import Rtx.Lib.Chain
import Rtx.Coldfire.Structs

/-!
# Envelope queues

`msg_env_queue.c`: head/tail queues of envelopes, linked through the one `next` field. The
functions take the envelope memory and the queue and return both; a step that would write
through a null tail has no result.

`QueueRep mem q l` says the queue `q` holds `l`, oldest first. The three operations are then
`List` operations, and change no link outside the list they work on.
-/

namespace Rtx.Coldfire

open Linked

variable {ι : Type}

/-- `struct msg_env_queue`. -/
structure MsgEnvQueue (ι : Type) where
  head : Option ι
  tail : Option ι
  deriving DecidableEq

/-- `msg_env_queue_create`. -/
def msgEnvQueueCreate : MsgEnvQueue ι := ⟨none, none⟩

/-- `msg_env_queue_is_empty`. -/
def msgEnvQueueIsEmpty (queue : MsgEnvQueue ι) : Bool := queue.head.isNone

section Write

variable [DecidableEq ι]

/-- `env->next = v`. -/
def setNext (mem : ι → MsgEnv ι) (env : ι) (v : Option ι) : ι → MsgEnv ι :=
  Function.update mem env { mem env with next := v }

/-- `msg_env_queue_dequeue`. -/
def msgEnvQueueDequeue (mem : ι → MsgEnv ι) (queue : MsgEnvQueue ι) :
    Option ι × (ι → MsgEnv ι) × MsgEnvQueue ι :=
  let returnEnv := queue.head
  let queue := if queue.head = queue.tail then { queue with tail := none } else queue
  match queue.head with
  | some head => (returnEnv, setNext mem head none, { queue with head := (mem head).next })
  | none => (returnEnv, mem, queue)

/-- `msg_env_queue_enqueue`. -/
def msgEnvQueueEnqueue (mem : ι → MsgEnv ι) (queue : MsgEnvQueue ι) (env : ι) :
    Option ((ι → MsgEnv ι) × MsgEnvQueue ι) :=
  match queue.head with
  | none => some (setNext mem env none, ⟨some env, some env⟩)
  | some head =>
    match queue.tail with
    | none => none -- `queue->tail->next` through a null tail
    | some tail =>
      some (setNext (setNext mem tail (some env)) env none, ⟨some head, some env⟩)

end Write

/-- The loop of `msg_env_queue_size`. With more fuel than there are envelopes it only runs out on a
cyclic list, where the source loops for ever. -/
def msgEnvQueueSizeLoop (mem : ι → MsgEnv ι) : ℕ → Option ι → ℤ → Option ℤ
  | 0, _, _ => none
  | _ + 1, none, size => some size
  | fuel + 1, some env, size => msgEnvQueueSizeLoop mem fuel (mem env).next (size + 1)

/-- `msg_env_queue_size`. -/
def msgEnvQueueSize (mem : ι → MsgEnv ι) (fuel : ℕ) : Option (MsgEnvQueue ι) → Option ℤ
  | none => some (-1)
  | some queue => msgEnvQueueSizeLoop mem fuel queue.head 0

/-- The loop of `rtx_dbug_outs` over the body of an envelope. A text without a NUL among the first
`ipcMsgEnvMsgSize` bytes is read beyond the array. -/
def outsLoop (msg : Body) : ℕ → ℕ → Option Unit
  | 0, _ => none
  | fuel + 1, i => if msg i ≠ 0 then outsLoop msg fuel (i + 1) else some ()

/-- `trace_inline(ALWAYS, node->msg)`. A null pointer is an error code, which is not looked at. -/
def traceMsg : Option Body → Option Unit
  | none => some ()
  | some msg => outsLoop msg ipcMsgEnvMsgSize 0

/-- `msg_env_queue_print`, with fuel as above. -/
def msgEnvQueuePrint (mem : ι → MsgEnv ι) (fuel : ℕ) (queue : MsgEnvQueue ι) : Option Unit :=
  walk (fun node => (mem node).next) (fun _ node => traceMsg (mem node).msg) fuel () queue.head

/-! ## Representation -/

/-- The links of a memory. -/
def nextOf (mem : ι → MsgEnv ι) : ι → Option ι := fun a => (mem a).next

/-- The queue holds `l`, oldest first. -/
def QueueRep (mem : ι → MsgEnv ι) (queue : MsgEnvQueue ι) (l : List ι) : Prop :=
  Rep (nextOf mem) queue.head queue.tail l

theorem queueRep_create (mem : ι → MsgEnv ι) : QueueRep mem msgEnvQueueCreate [] := Rep.nil

theorem QueueRep.isEmpty {mem : ι → MsgEnv ι} {q : MsgEnvQueue ι} {l : List ι}
    (hr : QueueRep mem q l) : msgEnvQueueIsEmpty q = true ↔ l = [] := by
  rw [msgEnvQueueIsEmpty, Option.isNone_iff_eq_none]
  exact Rep.head_eq_none hr

/-! ## Walks -/

section Walk

variable {mem : ι → MsgEnv ι} {q : MsgEnvQueue ι} {fuel : ℕ}

/-- The text in a body ends inside it. -/
def Terminated (msg : Body) : Prop := ∃ k < ipcMsgEnvMsgSize, msg k = 0

theorem msgEnvQueueSizeLoop_eq_walk (mem : ι → MsgEnv ι) (fuel : ℕ) (p : Option ι) (size : ℤ) :
    msgEnvQueueSizeLoop mem fuel p size =
      walk (nextOf mem) (fun size _ => some (size + 1)) fuel size p := by
  induction fuel generalizing p size with
  | zero => rfl
  | succ fuel ih =>
    cases p with
    | none => rfl
    | some env =>
      rw [msgEnvQueueSizeLoop, ih]
      rfl

theorem foldlM_size (l : List ι) (size : ℤ) :
    l.foldlM (fun size _ => some (size + 1)) size = some (size + l.length) := by
  induction l generalizing size with
  | nil => simp
  | cons a l ih =>
    rw [List.foldlM_cons, Option.bind_eq_bind, Option.bind_some, ih, List.length_cons]
    congr 1
    push_cast
    ring

theorem msgEnvQueueSizeLoop_eq {p : Option ι} {l : List ι} (hc : Chain (nextOf mem) p l)
    (hfuel : l.length < fuel) (size : ℤ) :
    msgEnvQueueSizeLoop mem fuel p size = some (size + l.length) := by
  rw [msgEnvQueueSizeLoop_eq_walk, walk_eq_some_iff]
  exact ⟨l, hc, hfuel, foldlM_size l size⟩

theorem msgEnvQueueSize_isSome_iff (hfuel : ∀ l : List ι, l.Nodup → l.length < fuel) :
    (msgEnvQueueSize mem fuel (some q)).isSome = true ↔ Ends (nextOf mem) q.head := by
  rw [msgEnvQueueSize, msgEnvQueueSizeLoop_eq_walk, walk_isSome_iff hfuel]
  simp only [foldlM_size, Option.isSome_some, and_true]
  rfl

theorem outsLoop_isSome_iff {msg : Body} {i : ℕ} :
    (outsLoop msg fuel i).isSome = true ↔ ∃ k, i ≤ k ∧ k < i + fuel ∧ msg k = 0 := by
  induction fuel generalizing i with
  | zero =>
    refine iff_of_false Bool.false_ne_true ?_
    rintro ⟨k, hik, hk, -⟩
    omega
  | succ fuel ih =>
    unfold outsLoop
    by_cases hchar : msg i = 0
    · rw [if_neg (not_not.2 hchar)]
      exact iff_of_true rfl ⟨i, le_rfl, by omega, hchar⟩
    · rw [if_pos hchar, ih]
      constructor
      · rintro ⟨k, hik, hk, hnul⟩
        exact ⟨k, by omega, by omega, hnul⟩
      · rintro ⟨k, hik, hk, hnul⟩
        have hne : i ≠ k := by
          rintro rfl
          exact hchar hnul
        exact ⟨k, by omega, by omega, hnul⟩

theorem traceMsg_isSome_iff {msg : Option Body} :
    (traceMsg msg).isSome = true ↔ ∀ body ∈ msg, Terminated body := by
  cases msg with
  | none => simp [traceMsg]
  | some body => simp [traceMsg, outsLoop_isSome_iff, Terminated]

theorem msgEnvQueuePrint_isSome_iff (hfuel : ∀ l : List ι, l.Nodup → l.length < fuel) :
    (msgEnvQueuePrint mem fuel q).isSome = true ↔
      ∃ l, Chain (nextOf mem) q.head l ∧ ∀ env ∈ l, ∀ body ∈ (mem env).msg, Terminated body := by
  rw [msgEnvQueuePrint, walk_unit_isSome_iff hfuel]
  simp only [traceMsg_isSome_iff]
  rfl

end Walk

/-! ## Operations -/

section Write

variable [DecidableEq ι] {mem mem' : ι → MsgEnv ι} {q q' : MsgEnvQueue ι} {l : List ι} {a b : ι}

@[simp] theorem nextOf_setNext (mem : ι → MsgEnv ι) (a : ι) (v : Option ι) :
    nextOf (setNext mem a v) = Function.update (nextOf mem) a v := by
  funext b
  by_cases hb : b = a
  · subst hb; simp [nextOf, setNext]
  · simp [nextOf, setNext, hb]

@[simp] theorem toLetter_setNext (mem : ι → MsgEnv ι) (a b : ι) (v : Option ι) :
    (setNext mem a v b).toLetter = (mem b).toLetter := by
  by_cases hb : b = a
  · subst hb; simp [setNext]
  · simp [setNext, hb]

/-- Whatever the queue is, what is taken from it leaves with a null link. -/
theorem msgEnvQueueDequeue_mem (h : (msgEnvQueueDequeue mem q).1 = some a) :
    (msgEnvQueueDequeue mem q).2.1 = setNext mem a none := by
  obtain ⟨head, tail⟩ := q
  cases head with
  | none =>
    rcases eq_or_ne none tail with rfl | ht
    · simp [msgEnvQueueDequeue] at h
    · simp [msgEnvQueueDequeue, ht] at h
  | some b =>
    rcases eq_or_ne (some b) tail with rfl | ht
    · simp_all [msgEnvQueueDequeue]
    · simp_all [msgEnvQueueDequeue]

theorem msgEnvQueueDequeue_nil (hr : QueueRep mem q []) :
    ∃ q', msgEnvQueueDequeue mem q = (none, mem, q') ∧ QueueRep mem q' [] := by
  obtain ⟨hc, -⟩ := hr
  have hh : q.head = none := hc
  by_cases ht : none = q.tail
  · exact ⟨⟨none, none⟩, by simp [msgEnvQueueDequeue, hh, ← ht], Rep.nil⟩
  · exact ⟨q, by simp [msgEnvQueueDequeue, hh, ht], ⟨hh, by simp⟩⟩

theorem msgEnvQueueDequeue_cons (hr : QueueRep mem q (a :: l)) :
    ∃ q', msgEnvQueueDequeue mem q = (some a, setNext mem a none, q') ∧
      QueueRep (setNext mem a none) q' l := by
  have hh : q.head = some a := hr.chain.1
  refine ⟨{ head := (mem a).next, tail := if q.head = q.tail then none else q.tail }, ?_, ?_⟩
  · by_cases ht : q.tail = some a
    · simp [msgEnvQueueDequeue, hh, ht]
    · simp [msgEnvQueueDequeue, hh, Ne.symm ht]
  · unfold QueueRep at hr ⊢
    rw [hh] at hr
    rw [nextOf_setNext]
    refine hr.dequeue fun hl => if_neg fun hht => ?_
    -- The tail is the last of `l`, so it is not the head.
    obtain ⟨c, hc⟩ := Option.ne_none_iff_exists'.1 (mt List.getLast?_eq_none_iff.1 hl)
    have htc := hr.tail_eq c (by rw [List.getLast?_cons_of_ne_nil hl]; exact hc)
    have hac : a = c := Option.some.inj (by rw [← hh, hht, htc])
    exact (List.nodup_cons.1 hr.nodup).1 (hac ▸ List.mem_of_getLast? hc)

/-- An envelope that is not in the queue goes to its end. The letters are untouched, and so is
every link outside the queue. -/
theorem msgEnvQueueEnqueue_spec (hr : QueueRep mem q l) (hb : b ∉ l) :
    ∃ mem' q', msgEnvQueueEnqueue mem q b = some (mem', q') ∧ QueueRep mem' q' (l ++ [b]) ∧
      (∀ a, (mem' a).toLetter = (mem a).toLetter) ∧
      ∀ a, a ∉ l → a ≠ b → nextOf mem' a = nextOf mem a := by
  rcases l.eq_nil_or_concat' with rfl | ⟨l₁, c, rfl⟩
  · have hh : q.head = none := hr.chain
    refine ⟨_, _, by rw [msgEnvQueueEnqueue, hh], ?_, fun a => toLetter_setNext .., ?_⟩
    · unfold QueueRep
      rw [nextOf_setNext]
      exact Rep.enqueue_nil _ b
    · intro a _ hab
      rw [nextOf_setNext, Function.update_of_ne hab]
  · have ht : q.tail = some c := hr.tail_eq c (by simp)
    obtain ⟨h, hh⟩ : ∃ h, q.head = some h := by
      have hne := mt (Rep.head_eq_none hr).1 (by simp)
      exact Option.ne_none_iff_exists'.1 hne
    have hr' : Rep (nextOf mem) q.head (some c) (l₁ ++ [c]) := ht ▸ hr
    refine ⟨_, _, by rw [msgEnvQueueEnqueue, hh, ht], ?_, fun a => ?_, fun a ha hab => ?_⟩
    · unfold QueueRep
      rw [nextOf_setNext, nextOf_setNext, ← hh]
      exact hr'.enqueue (by simp) hb
    · rw [toLetter_setNext, toLetter_setNext]
    · have hac : a ≠ c := by rintro rfl; exact ha (by simp)
      rw [nextOf_setNext, nextOf_setNext, Function.update_of_ne hab, Function.update_of_ne hac]

end Write

end Rtx.Coldfire
