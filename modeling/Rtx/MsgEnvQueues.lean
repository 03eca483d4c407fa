import Mathlib.Data.Fintype.Defs
import Mathlib.Data.Fintype.Basic
import Rtx.Lib.Run
import Rtx.Coldfire.MsgEnvQueue

/-!
# Envelope queues of both ports

Any number of envelope queues over one memory of envelopes, on any sequence of calls. The two
`msg_env_queue.c` have the same `msg_env_queue_create`, `_dequeue`, `_enqueue` and `_size`; only
the ColdFire one has `msg_env_queue_has`, and only the Unix `msg_env_queue_is_empty` asserts. A
failed assertion leaves no result.

As long as an envelope is enqueued only while it is in no queue, the calls return what calls on
lists return, and the queries agree with the lists (`msgEnvQueues_fifo`).
-/

namespace Rtx

open Transition Linked Coldfire

variable {ι κ : Type}

/-! ## The queries -/

/-- The loop of `msg_env_queue_has`. -/
def msgEnvQueueHasLoop [DecidableEq ι] (mem : ι → MsgEnv ι) (target : Option ι) :
    ℕ → Option ι → Option Bool
  | 0, _ => none
  | _ + 1, none => some false
  | fuel + 1, some env =>
    if some env = target then some true else msgEnvQueueHasLoop mem target fuel (mem env).next

/-- `msg_env_queue_has`. -/
def msgEnvQueueHas [DecidableEq ι] (mem : ι → MsgEnv ι) (fuel : ℕ)
    (queue : Option (MsgEnvQueue ι)) (target : Option ι) : Option Bool :=
  match queue with
  | none => some false
  | some queue => msgEnvQueueHasLoop mem target fuel queue.head

/-- `msg_env_queue_is_empty` of the Unix port. -/
def Unix.msgEnvQueueIsEmpty : Option (MsgEnvQueue ι) → Option ℤ
  | none => some (-1)
  | some queue =>
    if queue.head = none ∧ queue.tail ≠ none then none -- the assertion fails
    else some (if queue.head = none then 1 else 0)

section Loops

variable {mem : ι → MsgEnv ι} {p target : Option ι} {l : List ι} {fuel : ℕ}

theorem msgEnvQueueHasLoop_eq [DecidableEq ι] (hc : Chain (nextOf mem) p l)
    (hfuel : l.length < fuel) :
    msgEnvQueueHasLoop mem target fuel p = some (decide (∃ a ∈ l, some a = target)) := by
  induction l generalizing p fuel with
  | nil =>
    obtain ⟨fuel, rfl⟩ := Nat.exists_eq_succ_of_ne_zero (Nat.ne_of_gt hfuel)
    rw [chain_nil] at hc
    subst hc
    simp [msgEnvQueueHasLoop]
  | cons a l ih =>
    obtain ⟨fuel, rfl⟩ := Nat.exists_eq_succ_of_ne_zero (Nat.ne_of_gt (Nat.zero_lt_of_lt hfuel))
    obtain ⟨rfl, hc⟩ := hc
    rw [msgEnvQueueHasLoop]
    by_cases ha : some a = target
    · simp [ha]
    · rw [if_neg ha, show (mem a).next = nextOf mem a from rfl,
        ih hc (Nat.succ_lt_succ_iff.1 hfuel)]
      simp [ha]

end Loops

/-! ## Calls -/

variable [DecidableEq ι] [DecidableEq κ]

/-- The envelopes, and the queues that have been created. -/
structure QueueMem (ι κ : Type) where
  mem : ι → MsgEnv ι
  queues : κ → MsgEnvQueue ι

/-- A call on the queues; `none` is a null argument. Between the calls other code works on the
envelopes, and may leave anything in one. -/
inductive QueueCall (ι κ : Type)
  | enqueue (queue : Option κ) (env : Option ι)
  | dequeue (queue : Option κ)
  | write (env : ι) (contents : MsgEnv ι)

/-- What a call returns. -/
inductive QueueResult (ι : Type)
  | code (code : ℤ)
  | env (env : Option ι)
  | done
  deriving DecidableEq

/-- One call. -/
def QueueMem.call (s : QueueMem ι κ) : QueueCall ι κ → Option (QueueResult ι × QueueMem ι κ)
  | .enqueue (some k) (some env) =>
    (msgEnvQueueEnqueue s.mem (s.queues k) env).map fun r =>
      (.code codeSuccess, ⟨r.1, Function.update s.queues k r.2⟩)
  | .enqueue _ _ => some (.code errorNullArg, s)
  | .dequeue (some k) =>
    let r := msgEnvQueueDequeue s.mem (s.queues k)
    some (.env r.1, ⟨r.2.1, Function.update s.queues k r.2.2⟩)
  | .dequeue none => some (.env none, s)
  | .write env contents => some (.done, { s with mem := Function.update s.mem env contents })

/-- The call on lists. -/
def listCall (l : κ → List ι) : QueueCall ι κ → Option (QueueResult ι × (κ → List ι))
  | .enqueue (some k) (some env) =>
    some (.code codeSuccess, Function.update l k (l k ++ [env]))
  | .enqueue _ _ => some (.code errorNullArg, l)
  | .dequeue (some k) => some (.env (l k).head?, Function.update l k (l k).tail)
  | .dequeue none => some (.env none, l)
  | .write _ _ => some (.done, l)

/-- An envelope is enqueued, and written to by others, only while it is in no queue. -/
def Loose (l : κ → List ι) : QueueCall ι κ → Prop
  | .enqueue (some _) (some env) => ∀ k, env ∉ l k
  | .write env _ => ∀ k, env ∉ l k
  | _ => True

instance [Fintype κ] (l : κ → List ι) (c : QueueCall ι κ) : Decidable (Loose l c) :=
  match c with
  | .enqueue (some _) (some env) => inferInstanceAs (Decidable (∀ k, env ∉ l k))
  | .enqueue (some _) none => isTrue trivial
  | .enqueue none _ => isTrue trivial
  | .dequeue _ => isTrue trivial
  | .write env _ => inferInstanceAs (Decidable (∀ k, env ∉ l k))

omit [DecidableEq ι] in
theorem listCall_total (l : κ → List ι) (c : QueueCall ι κ) :
    ∃ r l', listCall l c = some (r, l') := by
  cases c with
  | enqueue queue env => cases queue <;> cases env <;> exact ⟨_, _, rfl⟩
  | dequeue queue => cases queue <;> exact ⟨_, _, rfl⟩
  | write env contents => exact ⟨_, _, rfl⟩

omit [DecidableEq ι] in
theorem silent_listCall_total (l : κ → List ι) (c : QueueCall ι κ) :
    ∃ l', silent listCall l c = some l' := by
  obtain ⟨r, l', h⟩ := listCall_total l c
  exact ⟨l', by rw [silent, h]; rfl⟩

/-! ## The invariant -/

/-- The queues hold the lists. -/
def QueueMem.Holds (s : QueueMem ι κ) (l : κ → List ι) : Prop :=
  Family (nextOf s.mem) (fun k => (s.queues k).head) (fun k => (s.queues k).tail) l

variable {s s' : QueueMem ι κ} {l l' : κ → List ι} {k : κ} {env : ι}

theorem msgEnvQueueDequeue_tail (mem : ι → MsgEnv ι) (q : MsgEnvQueue ι) :
    (msgEnvQueueDequeue mem q).2.2.tail = if q.head = q.tail then none else q.tail := by
  obtain ⟨head, tail⟩ := q
  by_cases ht : head = tail
  · subst ht
    cases head <;> simp [msgEnvQueueDequeue]
  · cases head <;> simp [msgEnvQueueDequeue, ht]

/-- The tail reset of `msg_env_queue_dequeue`: it empties a queue that holds one envelope. -/
theorem msgEnvQueueDequeue_last {mem : ι → MsgEnv ι} {q : MsgEnvQueue ι} {a : ι}
    (hr : QueueRep mem q [a]) : (msgEnvQueueDequeue mem q).2.2.tail = none := by
  have hh : q.head = some a := hr.chain.1
  have ht : q.tail = some a := hr.tail_eq a rfl
  rw [msgEnvQueueDequeue_tail, hh, ht, if_pos rfl]

omit [DecidableEq ι] [DecidableEq κ] in
theorem holds_create (mem : ι → MsgEnv ι) :
    (⟨mem, fun _ => msgEnvQueueCreate⟩ : QueueMem ι κ).Holds fun _ => [] :=
  Family.empty _

omit [DecidableEq ι] in
theorem QueueMem.Holds.set (h : s.Holds l) {mem' : ι → MsgEnv ι} {q' : MsgEnvQueue ι}
    {l₁ : List ι} (hrep : QueueRep mem' q' l₁) (hnil : l₁ = [] → q'.tail = none)
    (hown : ∀ a ∈ l₁, a ∈ l k ∨ ∀ j, a ∉ l j)
    (hframe : ∀ j, j ≠ k → ∀ a ∈ l j, nextOf mem' a = nextOf s.mem a) :
    (⟨mem', Function.update s.queues k q'⟩ : QueueMem ι κ).Holds (Function.update l k l₁) := by
  apply Family.set h (k := k)
  · simp only [Function.update_self]
    exact hrep
  · simp only [Function.update_self]
    exact hnil
  · intro j hj
    simp [hj]
  · simp only [Function.update_self]
    exact hown
  · exact hframe

theorem QueueMem.Holds.enqueue (h : s.Holds l) (henv : ∀ j, env ∉ l j) (k : κ) :
    ∃ s', s.call (.enqueue (some k) (some env)) = some (.code codeSuccess, s') ∧
      s'.Holds (Function.update l k (l k ++ [env])) := by
  obtain ⟨mem', q', hcall, hrep, -, hframe⟩ := msgEnvQueueEnqueue_spec (h.rep k) (henv k)
  refine ⟨⟨mem', Function.update s.queues k q'⟩, ?_, h.set hrep (by simp) ?_ ?_⟩
  · show (msgEnvQueueEnqueue s.mem (s.queues k) env).map _ = _
    rw [show msgEnvQueueEnqueue s.mem (s.queues k) env = some (mem', q') from hcall]
    rfl
  · intro a ha
    rcases List.mem_append.1 ha with ha | ha
    · exact Or.inl ha
    · rw [List.mem_singleton.1 ha]
      exact Or.inr henv
  · intro j hj a ha
    apply hframe a (h.disjoint j k hj a ha)
    rintro rfl
    exact henv j ha

theorem QueueMem.Holds.dequeue (h : s.Holds l) (k : κ) :
    ∃ s', s.call (.dequeue (some k)) = some (.env (l k).head?, s') ∧
      s'.Holds (Function.update l k (l k).tail) := by
  have hrep : QueueRep s.mem (s.queues k) (l k) := h.rep k
  have htail := msgEnvQueueDequeue_tail s.mem (s.queues k)
  cases hl : l k with
  | nil =>
    rw [hl] at hrep
    obtain ⟨q', hcall, hrep'⟩ := msgEnvQueueDequeue_nil hrep
    rw [hcall, h.tail_nil k hl, ite_self] at htail
    refine ⟨⟨s.mem, Function.update s.queues k q'⟩, by simp [QueueMem.call, hcall], ?_⟩
    exact h.set hrep' (fun _ => htail) (by simp) fun _ _ _ _ => rfl
  | cons a l₁ =>
    rw [hl] at hrep
    obtain ⟨q', hcall, hrep'⟩ := msgEnvQueueDequeue_cons hrep
    refine ⟨⟨setNext s.mem a none, Function.update s.queues k q'⟩,
      by simp [QueueMem.call, hcall], h.set hrep' ?_ ?_ ?_⟩
    · rintro rfl
      have hlast := msgEnvQueueDequeue_last hrep
      rwa [hcall] at hlast
    · intro b hb
      rw [hl]
      exact Or.inl (List.mem_cons_of_mem a hb)
    · intro j hj b hb
      have hba : b ≠ a := by
        rintro rfl
        exact h.disjoint j k hj b hb (hl ▸ List.mem_cons_self)
      rw [nextOf_setNext, Function.update_of_ne hba]

omit [DecidableEq κ] in
theorem QueueMem.Holds.write (h : s.Holds l) (henv : ∀ k, env ∉ l k) (contents : MsgEnv ι) :
    (⟨Function.update s.mem env contents, s.queues⟩ : QueueMem ι κ).Holds l := by
  refine h.congr fun k a ha => ?_
  have hne : a ≠ env := by
    rintro rfl
    exact henv k ha
  simp [nextOf, Function.update_of_ne hne]

/-- A call on the queues returns what the call on the lists returns. -/
theorem QueueMem.Holds.call (h : s.Holds l) {c : QueueCall ι κ} (hc : Loose l c)
    {r : QueueResult ι} (hcall : listCall l c = some (r, l')) :
    ∃ s', s.call c = some (r, s') ∧ s'.Holds l' := by
  cases c with
  | enqueue k env =>
    cases k with
    | none => simp_all [listCall, QueueMem.call]
    | some k =>
      cases env with
      | none => simp_all [listCall, QueueMem.call]
      | some env =>
        obtain ⟨rfl, rfl⟩ : .code codeSuccess = r ∧ Function.update l k (l k ++ [env]) = l' := by
          simpa [listCall] using hcall
        exact h.enqueue hc k
  | dequeue k =>
    cases k with
    | none => simp_all [listCall, QueueMem.call]
    | some k =>
      obtain ⟨rfl, rfl⟩ : .env (l k).head? = r ∧ Function.update l k (l k).tail = l' := by
        simpa [listCall] using hcall
      exact h.dequeue k
  | write env contents =>
    obtain ⟨rfl, rfl⟩ : QueueResult.done = r ∧ l = l' := by simpa [listCall] using hcall
    exact ⟨_, rfl, h.write hc contents⟩

theorem QueueMem.Holds.silent (h : s.Holds l) {c : QueueCall ι κ} (hc : Loose l c)
    (hcall : silent listCall l c = some l') :
    ∃ s', silent QueueMem.call s c = some s' ∧ s'.Holds l' := by
  obtain ⟨⟨r, l₁⟩, hr, rfl⟩ := Option.map_eq_some_iff.1 hcall
  obtain ⟨s', hs', h'⟩ := h.call hc hr
  exact ⟨s', by rw [Transition.silent, hs']; rfl, h'⟩

/-! ## Runs -/

/-- The queries say of the queue what they would say of the list; its head is null just when its
tail is, its last envelope is linked to nothing, and so is what is dequeued next. -/
structure AgreesWith (mem : ι → MsgEnv ι) (q : MsgEnvQueue ι) (l : List ι) : Prop where
  size : ∀ fuel, l.length < fuel → msgEnvQueueSize mem fuel (some q) = some (l.length : ℤ)
  has : ∀ fuel target, l.length < fuel →
    msgEnvQueueHas mem fuel (some q) (some target) = some (decide (target ∈ l))
  has_null : ∀ fuel, l.length < fuel → msgEnvQueueHas mem fuel (some q) none = some false
  isEmpty : msgEnvQueueIsEmpty q = decide (l = [])
  isEmpty_unix : Unix.msgEnvQueueIsEmpty (some q) = some (if l = [] then 1 else 0)
  head_tail : q.head = none ↔ q.tail = none
  last : ∀ a ∈ l.getLast?, (mem a).next = none
  dequeued : ∀ a, (msgEnvQueueDequeue mem q).1 = some a →
    ((msgEnvQueueDequeue mem q).2.1 a).next = none

omit [DecidableEq κ] in
theorem QueueMem.Holds.agreesWith (h : s.Holds l) (k : κ) :
    AgreesWith s.mem (s.queues k) (l k) := by
  have hrep : QueueRep s.mem (s.queues k) (l k) := h.rep k
  have hhead : (s.queues k).head = none ↔ l k = [] := Rep.head_eq_none hrep
  have htail : (s.queues k).tail = none ↔ l k = [] := h.tail_eq_none k
  constructor
  · intro fuel hfuel
    rw [msgEnvQueueSize, msgEnvQueueSizeLoop_eq hrep.chain hfuel, zero_add]
  · intro fuel target hfuel
    rw [msgEnvQueueHas, msgEnvQueueHasLoop_eq hrep.chain hfuel]
    simp
  · intro fuel hfuel
    rw [msgEnvQueueHas, msgEnvQueueHasLoop_eq hrep.chain hfuel]
    simp
  · rw [Bool.eq_iff_iff, hrep.isEmpty, decide_eq_true_eq]
  · simp only [Unix.msgEnvQueueIsEmpty, hhead, ne_eq, htail, and_not_self, if_false]
  · rw [hhead, htail]
  · intro a ha
    exact Family.next_last h (Option.mem_def.1 ha)
  · intro a ha
    rw [msgEnvQueueDequeue_mem ha]
    simp [setNext]

/-- **Envelope queues are FIFO lists.** In every sequence of calls that enqueue an envelope only
while it is in no queue, whatever the envelopes held before, no call writes through a null tail,
the calls return what they would return on lists, and every queue agrees with its list. -/
theorem msgEnvQueues_fifo (mem : ι → MsgEnv ι) (calls : List (QueueCall ι κ))
    (hloose : Along (silent listCall) Loose (fun _ => []) calls) :
    ∃ s l, exec (silent QueueMem.call) ⟨mem, fun _ => msgEnvQueueCreate⟩ calls = some s ∧
      exec (silent listCall) (fun _ => []) calls = some l ∧
      observe QueueMem.call ⟨mem, fun _ => msgEnvQueueCreate⟩ calls =
        observe listCall (fun _ => []) calls ∧
      ∀ k, AgreesWith s.mem (s.queues k) (l k) := by
  have hinit := holds_create (κ := κ) mem
  obtain ⟨l, hl⟩ := exec_total silent_listCall_total (fun _ => []) calls
  obtain ⟨rs, hrs⟩ := observe_total listCall_total (fun _ => []) calls
  obtain ⟨s, hs, hholds⟩ : ∃ s : QueueMem ι κ,
      exec (silent QueueMem.call) ⟨mem, fun _ => msgEnvQueueCreate⟩ calls = some s ∧ s.Holds l := by
    refine exec_simulates (R := fun l (s : QueueMem ι κ) => s.Holds l) ?_ hinit hloose hl
    intro l s c l' h hc hcall
    exact h.silent hc hcall
  have hobs : observe QueueMem.call ⟨mem, fun _ => msgEnvQueueCreate⟩ calls = some rs := by
    apply observe_simulates (R := QueueMem.Holds) _ hinit hloose hrs
    intro s l c r l' h hc hcall
    exact h.call hc hcall
  exact ⟨s, l, hs, hl, hobs.trans hrs.symm, hholds.agreesWith⟩

/-- Two queues, and envelopes with stale links: what is dequeued from one is enqueued on the
other. -/
theorem msgEnvQueues_fifo_two :
    let mem : Fin 3 → MsgEnv (Fin 3) := fun _ => ⟨⟨0, 0, 0, none⟩, some (Fin.last 2)⟩
    let e : Fin 3 := Fin.last 2
    let calls : List (QueueCall (Fin 3) Bool) :=
      [.enqueue (some true) (some e), .dequeue (some true), .enqueue (some false) (some e)]
    ∃ s l, exec (silent QueueMem.call) ⟨mem, fun _ => msgEnvQueueCreate⟩ calls = some s ∧
      exec (silent listCall) (fun _ => []) calls = some l ∧
      observe QueueMem.call ⟨mem, fun _ => msgEnvQueueCreate⟩ calls =
        observe listCall (fun _ => []) calls ∧
      ∀ k, AgreesWith s.mem (s.queues k) (l k) :=
  msgEnvQueues_fifo _ _ (Along.guarded rfl)

end Rtx
