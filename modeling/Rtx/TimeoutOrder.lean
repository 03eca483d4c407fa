import Rtx.Coldfire.Envelopes
import Rtx.Unix.TimeoutQueue

/-!
# The timeout list stays sorted

`timeout_queue_insert` of both ports, on any sorted list. What it looks at are the links, the
first words of the bodies, the head and the clock: a `TimeoutList`. `TimeoutList.insert` is the
code on that data, and both ports are shown to be it.

The search reads the timeout of the next node before it tests that there is one. So it reads
through null exactly if the new deadline is later than every deadline of a list of at least two
(`timeout_queue_insert_in_order`).
-/

namespace Rtx

open Linked Coldfire

variable {α : Type} {n : ℕ}

/-! ## What the code looks at -/

/-- The links, the integers in the bodies, the head of the list and the clock. -/
structure TimeoutList (α : Type) where
  next : α → Option α
  stored : α → Option ℤ
  head : Option α
  clock : ℤ

namespace TimeoutList

/-- `l` are the pending envelopes, sorted by their absolute timeouts `due`. -/
structure Pending (L : TimeoutList α) (due : α → ℤ) (l : List α) : Prop where
  chain : Chain L.next L.head l
  stored : ∀ x ∈ l, L.stored x = some (due x)
  sorted : l.Pairwise fun x y => due x ≤ due y

/-- The search loop. Reading through null yields `nullRead`. -/
def insertionPoint (L : TimeoutList α) (nullRead : Option ℤ) (timeout : ℤ) :
    ℕ → α → Option α → ℤ → Option (α × Option α)
  | 0, _, _, _ => none
  | fuel + 1, prevNode, node, timeoutSoFar =>
    match node with
    | none => some (prevNode, none)
    | some node =>
      if timeoutSoFar < timeout then do
        let timeoutSoFar ← (L.next node).elim nullRead L.stored
        L.insertionPoint nullRead timeout fuel node (L.next node) timeoutSoFar
      else some (prevNode, some node)

variable [DecidableEq α]

/-- `*((int *) env->msg) = timeout`. -/
def store (L : TimeoutList α) (env : α) (timeout : ℤ) : TimeoutList α :=
  { L with stored := Function.update L.stored env (some timeout) }

/-- The code on a list that is not empty, once the new envelope holds its absolute timeout. -/
def link (L : TimeoutList α) (nullRead : Option ℤ) (fuel : ℕ) (env : α) (timeout : ℤ) (node : α) :
    Option (TimeoutList α) := do
  let timeoutSoFar ← L.stored node
  if timeout ≤ timeoutSoFar then
    some { L with next := Function.update L.next env (some node), head := some env }
  else
    let (prevNode, node) ←
      match L.next node with
      | none => some (node, none)
      | some next => do L.insertionPoint nullRead timeout fuel node (some next) (← L.stored next)
    some { L with next := Function.update (Function.update L.next prevNode (some env)) env node }

/-- `timeout_queue_insert`. -/
def insert (L : TimeoutList α) (nullRead : Option ℤ) (fuel : ℕ) (env : α) :
    Option (TimeoutList α) := do
  let timeout := wrap32 (L.clock + (← L.stored env))
  let L := L.store env timeout
  match L.head with
  | none => some { L with head := some env }
  | some node => L.link nullRead fuel env timeout node

/-! ## The search -/

variable {L : TimeoutList α} {due : α → ℤ} {l : List α} {env a : α} {timeout : ℤ} {fuel : ℕ}
  {node : Option α}

omit [DecidableEq α] in
/-- Off the end of the list, the search reads through null. -/
theorem insertionPoint_none (hc : Chain L.next node (a :: l))
    (hstored : ∀ x ∈ a :: l, L.stored x = some (due x)) (hearly : ∀ x ∈ a :: l, due x < timeout)
    (prevNode : α) : L.insertionPoint none timeout fuel prevNode node (due a) = none := by
  induction fuel generalizing a l node prevNode with
  | zero => rfl
  | succ fuel ih =>
    obtain ⟨rfl, hc⟩ := hc
    simp only [insertionPoint, if_pos (hearly a List.mem_cons_self)]
    cases l with
    | nil => rw [show L.next a = none from hc]; rfl
    | cons b l =>
      have hb : L.next a = some b := hc.1
      rw [hb] at hc ⊢
      simp only [Option.elim_some, hstored b (by simp), Option.bind_eq_bind, Option.bind_some]
      exact ih hc (fun x hx => hstored x (List.mem_cons_of_mem a hx))
        (fun x hx => hearly x (List.mem_cons_of_mem a hx)) a

omit [DecidableEq α] in
theorem insertionPoint_some (hc : Chain L.next node (a :: l))
    (hstored : ∀ x ∈ a :: l, L.stored x = some (due x)) (hlate : ∃ x ∈ a :: l, timeout ≤ due x)
    (hfuel : l.length < fuel) (prevNode : α) :
    ∃ l₁ b l₂ last, a :: l = l₁ ++ b :: l₂ ∧ (∀ x ∈ l₁, due x < timeout) ∧ timeout ≤ due b ∧
      (prevNode :: l₁).getLast? = some last ∧
      L.insertionPoint none timeout fuel prevNode node (due a) = some (last, some b) := by
  induction fuel generalizing a l node prevNode with
  | zero => contradiction
  | succ fuel ih =>
    obtain ⟨rfl, hc⟩ := hc
    by_cases ha : timeout ≤ due a
    · exact ⟨[], a, l, prevNode, rfl, by simp, ha, rfl, by simp [insertionPoint, not_lt.2 ha]⟩
    · have hl : ∃ x ∈ l, timeout ≤ due x := by
        obtain ⟨x, hx, hxt⟩ := hlate
        rcases List.mem_cons.1 hx with rfl | hx
        · exact absurd hxt ha
        · exact ⟨x, hx, hxt⟩
      cases l with
      | nil => simp at hl
      | cons b l =>
        have hb : L.next a = some b := hc.1
        rw [hb] at hc
        obtain ⟨l₁, c, l₂, last, hlist, hearly, hc', hlast, heq⟩ :=
          ih hc (fun x hx => hstored x (List.mem_cons_of_mem a hx)) hl (by simpa using hfuel) a
        refine ⟨a :: l₁, c, l₂, last, by rw [hlist]; rfl, ?_, hc', ?_, ?_⟩
        · exact List.forall_mem_cons.2 ⟨not_le.1 ha, hearly⟩
        · rw [List.getLast?_cons_cons]; exact hlast
        · simp only [insertionPoint, if_pos (not_le.1 ha)]
          rw [hb]
          simp only [Option.elim_some, hstored b (by simp), Option.bind_eq_bind, Option.bind_some]
          exact heq

/-! ## Sorted lists -/

/-- `env` joined the sorted list. -/
def Joined (L : TimeoutList α) (due : α → ℤ) (l : List α) (env : α) (timeout : ℤ) : Prop :=
  ∃ l', l'.Perm (env :: l) ∧ L.Pending (Function.update due env timeout) l'

theorem update_due (henv : env ∉ l) : ∀ x ∈ l, Function.update due env timeout x = due x := by
  intro x hx
  apply Function.update_of_ne
  rintro rfl
  exact henv hx

theorem Pending.between {L' : TimeoutList α} (l₁ l₂ : List α) (h : L.Pending due (l₁ ++ l₂))
    (henv : env ∉ l₁ ++ l₂) (hc : Chain L'.next L'.head (l₁ ++ env :: l₂))
    (hstored : L'.stored = L.stored) (hself : L.stored env = some timeout)
    (hearly : ∀ x ∈ l₁, due x < timeout) (hlate : ∀ x ∈ l₂.head?, timeout ≤ due x) :
    L'.Joined due (l₁ ++ l₂) env timeout := by
  have hsorted := h.sorted
  rw [List.pairwise_append] at hsorted
  obtain ⟨h₁, h₂, h₁₂⟩ := hsorted
  have hlate' : ∀ x ∈ l₂, timeout ≤ due x := by
    intro x hx
    cases l₂ with
    | nil => contradiction
    | cons b l₂ =>
      have hb := hlate b rfl
      rcases List.mem_cons.1 hx with rfl | hx
      · exact hb
      · exact hb.trans ((List.pairwise_cons.1 h₂).1 x hx)
  have hold : ∀ x ∈ l₁ ++ l₂, Function.update due env timeout x = due x := update_due henv
  refine ⟨l₁ ++ env :: l₂, List.perm_middle, hc, fun x hx => ?_, ?_⟩
  · rw [hstored]
    by_cases hxe : x = env
    · subst hxe
      rw [Function.update_self, hself]
    · have hx' : x ∈ l₁ ++ l₂ := by simpa [hxe] using hx
      rw [hold x hx', h.stored x hx']
  · have hold₁ : ∀ x ∈ l₁, Function.update due env timeout x = due x := fun x hx =>
      hold x (List.mem_append_left l₂ hx)
    have hold₂ : ∀ x ∈ l₂, Function.update due env timeout x = due x := fun x hx =>
      hold x (List.mem_append_right l₁ hx)
    refine List.pairwise_append.2 ⟨?_, List.pairwise_cons.2 ⟨?_, ?_⟩, ?_⟩
    · refine h₁.imp_of_mem fun hx hy hxy => ?_
      rwa [hold₁ _ hx, hold₁ _ hy]
    · intro y hy
      rw [Function.update_self, hold₂ y hy]
      exact hlate' y hy
    · refine h₂.imp_of_mem fun hx hy hxy => ?_
      rwa [hold₂ _ hx, hold₂ _ hy]
    · intro x hx y hy
      rw [hold₁ x hx]
      rcases List.mem_cons.1 hy with rfl | hy
      · rw [Function.update_self]
        exact (hearly x hx).le
      · rw [hold₂ y hy]
        exact h₁₂ x hx y hy

/-- Linking in behind what is due earlier, once the search has found the place. -/
theorem Pending.behind (l₁ l₂ : List α) {last : α} (h : L.Pending due (l₁ ++ l₂))
    (henv : env ∉ l₁ ++ l₂) (hself : L.stored env = some timeout)
    (hlast : l₁.getLast? = some last) (hearly : ∀ x ∈ l₁, due x < timeout)
    (hlate : ∀ x ∈ l₂.head?, timeout ≤ due x) :
    { L with
      next := Function.update (Function.update L.next last (some env)) env l₂.head? }.Joined
        due (l₁ ++ l₂) env timeout := by
  refine Pending.between _ _ h henv ?_ rfl hself hearly hlate
  exact h.chain.insertBehind hlast henv

/-- A list that is not empty: the insertion goes well if some envelope is not due earlier, or if
there is just one. -/
theorem link_iff (h : L.Pending due (a :: l)) (henv : env ∉ a :: l)
    (hself : L.stored env = some timeout) (hfuel : l.length ≤ fuel) :
    (∃ L', L.link none fuel env timeout a = some L' ∧ L'.Joined due (a :: l) env timeout) ↔
      (a :: l).length ≤ 1 ∨ ∃ x ∈ a :: l, timeout ≤ due x := by
  have ha := h.stored a List.mem_cons_self
  by_cases hle : timeout ≤ due a
  · refine iff_of_true ⟨{ L with next := Function.update L.next env (some a), head := some env },
      ?_, ?_⟩ (.inr ⟨a, List.mem_cons_self, hle⟩)
    · simp only [link, ha, Option.bind_eq_bind, Option.bind_some, if_pos hle]
    · refine Pending.between [] (a :: l) h henv ?_ rfl hself (by simp) (by simpa using hle)
      have hc := h.chain
      rw [hc.1] at hc
      exact hc.push henv
  have hearly : due a < timeout := not_le.1 hle
  simp only [link, ha, Option.bind_eq_bind, Option.bind_some, if_neg hle]
  cases l with
  | nil =>
    have hnext : L.next a = none := h.chain.2
    refine iff_of_true ⟨_, by rw [hnext], ?_⟩ (.inl le_rfl)
    exact Pending.behind [a] [] h henv hself rfl (by simpa using hearly) (by simp)
  | cons b l =>
    have hnext : L.next a = some b := h.chain.2.1
    have hcb : Chain L.next (some b) (b :: l) := hnext ▸ h.chain.2
    have hstored : ∀ x ∈ b :: l, L.stored x = some (due x) := fun x hx =>
      h.stored x (List.mem_cons_of_mem a hx)
    simp only [hnext, hstored b List.mem_cons_self, Option.bind_some]
    by_cases hlate : ∃ x ∈ b :: l, timeout ≤ due x
    · obtain ⟨l₁, c, l₂, last, hlist, hearly', hc, hlast, heq⟩ :=
        insertionPoint_some hcb hstored hlate hfuel a
      obtain ⟨x, hx, hxt⟩ := hlate
      refine iff_of_true ⟨_, by rw [heq]; rfl, ?_⟩ (.inr ⟨x, List.mem_cons_of_mem a hx, hxt⟩)
      rw [hlist] at h henv ⊢
      exact Pending.behind (a :: l₁) (c :: l₂) h henv hself hlast
        (List.forall_mem_cons.2 ⟨hearly, hearly'⟩) (by simpa using hc)
    · have hall : ∀ x ∈ b :: l, due x < timeout := by
        intro x hx
        by_contra hx'
        exact hlate ⟨x, hx, not_lt.1 hx'⟩
      rw [insertionPoint_none hcb hstored hall]
      refine iff_of_false (by simp) ?_
      rintro (hlen | ⟨x, hx, hxt⟩)
      · simp at hlen
      · rcases List.mem_cons.1 hx with rfl | hx
        · exact hle hxt
        · exact hlate ⟨x, hx, hxt⟩

/-- When the insertion goes well: some pending envelope is not due earlier, or there is at most
one; and what becomes the only envelope is linked to nothing. -/
def Inside (L : TimeoutList α) (due : α → ℤ) (l : List α) (env : α) (timeout : ℤ) : Prop :=
  (l = [] → L.next env = none) ∧ (l.length ≤ 1 ∨ ∃ x ∈ l, timeout ≤ due x)

/-- The insertion reads nothing through null and keeps the list sorted exactly if it stays
inside. -/
theorem insert_iff {delay : ℤ} (h : L.Pending due l) (henv : env ∉ l)
    (hdelay : L.stored env = some delay) (h₁ : -2 ^ 31 ≤ L.clock + delay)
    (h₂ : L.clock + delay < 2 ^ 31) (hfuel : l.length ≤ fuel + 1) :
    (∃ L', L.insert none fuel env = some L' ∧ L'.Joined due l env (L.clock + delay)) ↔
      L.Inside due l env (L.clock + delay) := by
  set timeout := L.clock + delay with htimeout
  have hins : L.insert none fuel env =
      match L.head with
      | none => some { L.store env timeout with head := some env }
      | some node => (L.store env timeout).link none fuel env timeout node := by
    simp only [insert, hdelay, Option.bind_eq_bind, Option.bind_some]
    rw [← htimeout, wrap32_of_range h₁ h₂]
    rfl
  have hJ : (L.store env timeout).Pending due l := by
    refine ⟨h.chain, fun x hx => ?_, h.sorted⟩
    rw [← h.stored x hx]
    apply Function.update_of_ne
    rintro rfl
    exact henv hx
  have hself : (L.store env timeout).stored env = some timeout := Function.update_self ..
  cases l with
  | nil =>
    have hhead : L.head = none := h.chain
    rw [hins]
    simp only [hhead, Option.some.injEq, exists_eq_left']
    constructor
    · rintro ⟨l', hperm, hl'⟩
      obtain rfl := List.perm_singleton.1 hperm
      exact ⟨fun _ => hl'.chain.2, .inl (Nat.zero_le 1)⟩
    · rintro ⟨hnext, -⟩
      refine ⟨[env], .refl _, ⟨rfl, hnext rfl⟩, ?_, List.pairwise_singleton ..⟩
      intro x hx
      obtain rfl := List.mem_singleton.1 hx
      rw [Function.update_self]
      exact hself
  | cons a l =>
    have hhead : L.head = some a := h.chain.1
    rw [hins, hhead]
    refine (link_iff hJ henv hself (by simpa using hfuel)).trans ?_
    simp [Inside]

end TimeoutList

/-! ## The ColdFire port -/

namespace Coldfire.Ipc

variable {I : Ipc n} {nullRead : Option ℤ} {env : EnvPtr}

def timeoutList (I : Ipc n) : TimeoutList EnvPtr where
  next := nextOf I.env
  stored := I.timeoutOf
  head := I.timeoutQueue
  clock := I.clock

theorem timeoutList_insertionPoint (timeout : ℤ) (fuel : ℕ) (prevNode : EnvPtr)
    (node : Option EnvPtr) (timeoutSoFar : ℤ) :
    I.insertionPoint nullRead timeout fuel prevNode node timeoutSoFar =
      I.timeoutList.insertionPoint nullRead timeout fuel prevNode node timeoutSoFar := by
  induction fuel generalizing prevNode node timeoutSoFar with
  | zero => rfl
  | succ fuel ih =>
    cases node with
    | none => rfl
    | some node =>
      simp only [insertionPoint, TimeoutList.insertionPoint]
      have hread : I.readTimeout nullRead (I.env node).next =
          (I.timeoutList.next node).elim nullRead I.timeoutList.stored := by
        change _ = (I.env node).next.elim nullRead I.timeoutOf
        cases (I.env node).next <;> rfl
      rw [hread]
      cases (I.timeoutList.next node).elim nullRead I.timeoutList.stored with
      | none => rfl
      | some timeoutSoFar => simp only [ih, Option.bind_eq_bind, Option.bind_some]; rfl

theorem timeoutList_relink (I : Ipc n) {mem : EnvPtr → MsgEnv EnvPtr} (head : Option EnvPtr)
    (hmem : ∀ x, (mem x).toLetter = (I.env x).toLetter) :
    { I with env := mem, timeoutQueue := head }.timeoutList =
      { I.timeoutList with next := nextOf mem, head := head } := by
  simp only [timeoutList, TimeoutList.mk.injEq, true_and, and_true]
  funext x
  exact timeoutOf_congr (hmem x)

theorem timeoutList_link (I : Ipc n) {node : EnvPtr} (hqueue : I.timeoutQueue = some node)
    (prevNode env : EnvPtr) (v : Option EnvPtr) :
    { I with
      env := setNext (setNext I.env prevNode (some env)) env v
      timeoutQueue := some node }.timeoutList =
      { I.timeoutList with
        next := Function.update
          (Function.update I.timeoutList.next prevNode (some env)) env v } := by
  refine (I.timeoutList_relink _ fun x => ?_).trans ?_
  · rw [toLetter_setNext, toLetter_setNext]
  · rw [nextOf_setNext, nextOf_setNext, ← hqueue]
    rfl

theorem timeoutList_setLetter (I : Ipc n) (env : EnvPtr) {letter : Letter} {timeout : ℤ}
    (hletter : letter.msg.map (getInt · 0) = some timeout) :
    (I.setLetter env letter).timeoutList = I.timeoutList.store env timeout := by
  simp only [timeoutList, TimeoutList.store, nextOf_setLetter, TimeoutList.mk.injEq, true_and]
  refine ⟨?_, rfl, rfl⟩
  funext x
  by_cases hx : x = env
  · subst hx
    simp [timeoutOf, hletter]
  · rw [Function.update_of_ne hx]
    exact timeoutOf_congr (toLetter_setLetter_of_ne I hx letter)

/-- The port's code is `TimeoutList.insert`. -/
theorem timeoutList_insert :
    (I.timeoutQueueInsert nullRead env).map timeoutList =
      I.timeoutList.insert nullRead envFuel env := by
  have hstored : I.timeoutList.stored env = (I.env env).msg.map (getInt · 0) := rfl
  cases hmsg : (I.env env).msg with
  | none =>
    simp only [timeoutQueueInsert, TimeoutList.insert, hstored, hmsg]
    rfl
  | some body =>
    set letter : Letter := { (I.env env).toLetter with
      msg := some (putInt body 0 (wrap32 (I.clock + getInt body 0))) } with hletter
    have hJ : (I.setLetter env letter).timeoutList =
        I.timeoutList.store env (wrap32 (I.clock + getInt body 0)) :=
      timeoutList_setLetter I env (by simp [hletter])
    simp only [timeoutQueueInsert, TimeoutList.insert, hstored, hmsg, Option.map_some,
      Option.bind_eq_bind, Option.bind_some]
    have hclock : I.timeoutList.clock = I.clock := rfl
    rw [← hletter, hclock, ← hJ]
    set J := I.setLetter env letter
    have hhead : J.timeoutList.head = J.timeoutQueue := rfl
    rw [hhead]
    cases hqueue : J.timeoutQueue with
    | none => rfl
    | some node =>
      have hread : J.timeoutList.stored node = J.timeoutOf node := rfl
      have hnext : J.timeoutList.next node = (J.env node).next := rfl
      simp only [TimeoutList.link, hread, hnext]
      cases J.timeoutOf node with
      | none => rfl
      | some first =>
        simp only [Option.bind_eq_bind, Option.bind_some]
        split
        · refine congrArg some ((J.timeoutList_relink _ fun x => toLetter_setNext ..).trans ?_)
          rw [nextOf_setNext]
          rfl
        · cases (J.env node).next with
          | none => exact congrArg some (J.timeoutList_link hqueue node env none)
          | some next =>
            have hread' : J.timeoutList.stored next = J.timeoutOf next := rfl
            simp only [hread']
            cases J.timeoutOf next with
            | none => rfl
            | some second =>
              simp only [Option.bind_some, timeoutList_insertionPoint]
              cases J.timeoutList.insertionPoint nullRead (wrap32 (I.clock + getInt body 0))
                envFuel node (some next) second with
              | none => rfl
              | some point => exact congrArg some (J.timeoutList_link hqueue point.1 env point.2)

end Coldfire.Ipc

/-! ## The Unix port -/

namespace Unix.TimeoutMem

variable {T : TimeoutMem α} {env : α}

def timeoutList (T : TimeoutMem α) : TimeoutList α where
  next := nextOf T.env
  stored := T.timeoutOf
  head := T.timeoutQueue
  clock := T.clock

theorem timeoutList_insertionPoint (timeout : ℤ) (fuel : ℕ) (prevNode : α) (node : Option α)
    (timeoutSoFar : ℤ) :
    T.insertionPoint timeout fuel prevNode node timeoutSoFar =
      T.timeoutList.insertionPoint none timeout fuel prevNode node timeoutSoFar := by
  induction fuel generalizing prevNode node timeoutSoFar with
  | zero => rfl
  | succ fuel ih =>
    cases node with
    | none => simp [insertionPoint, TimeoutList.insertionPoint]
    | some node =>
      simp only [insertionPoint, TimeoutList.insertionPoint]
      have hread : (T.env node).next.bind T.timeoutOf =
          (T.timeoutList.next node).elim none T.timeoutList.stored := by
        change _ = (T.env node).next.elim none T.timeoutOf
        cases (T.env node).next <;> rfl
      rw [hread]
      cases (T.timeoutList.next node).elim none T.timeoutList.stored with
      | none => rfl
      | some timeoutSoFar => simp only [ih, Option.bind_eq_bind, Option.bind_some]; rfl

theorem timeoutOf_congr {T' : TimeoutMem α} {x : α}
    (h : (T'.env x).toLetter = (T.env x).toLetter) : T'.timeoutOf x = T.timeoutOf x := by
  rw [timeoutOf, timeoutOf, h]

theorem timeoutList_relink (T : TimeoutMem α) {mem : α → MsgEnv α} (head : Option α)
    (hmem : ∀ x, (mem x).toLetter = (T.env x).toLetter) :
    { T with env := mem, timeoutQueue := head }.timeoutList =
      { T.timeoutList with next := nextOf mem, head := head } := by
  simp only [timeoutList, TimeoutList.mk.injEq, true_and, and_true]
  funext x
  exact timeoutOf_congr (hmem x)

variable [DecidableEq α]

theorem timeoutList_setMsg (T : TimeoutMem α) (env : α) (body : Body) {timeout : ℤ}
    (htimeout : wrap32 timeout = timeout) :
    (T.setMsg env (putInt body timeout)).timeoutList = T.timeoutList.store env timeout := by
  simp only [timeoutList, TimeoutList.store, TimeoutList.mk.injEq]
  refine ⟨?_, ?_, rfl, rfl⟩ <;> funext x <;> by_cases hx : x = env
  · subst hx; simp [nextOf, setMsg]
  · simp [nextOf, setMsg, hx]
  · subst hx; simp [timeoutOf, setMsg, htimeout]
  · rw [Function.update_of_ne hx]
    exact timeoutOf_congr (by simp [setMsg, hx])

theorem timeoutList_link (T : TimeoutMem α) {node : α} (hqueue : T.timeoutQueue = some node)
    (prevNode env : α) (v : Option α) :
    { T with
      env := setNext (setNext T.env prevNode (some env)) env v
      timeoutQueue := some node }.timeoutList =
      { T.timeoutList with
        next := Function.update
          (Function.update T.timeoutList.next prevNode (some env)) env v } := by
  refine (T.timeoutList_relink _ fun x => ?_).trans ?_
  · rw [toLetter_setNext, toLetter_setNext]
  · rw [nextOf_setNext, nextOf_setNext, ← hqueue]
    rfl

/-- The port's code is `TimeoutList.insert`. -/
theorem timeoutList_insert (fuel : ℕ) :
    (T.timeoutQueueInsert fuel (some env)).map timeoutList =
      T.timeoutList.insert none fuel env := by
  have hstored : T.timeoutList.stored env = (T.env env).msg.map getInt := rfl
  cases hmsg : (T.env env).msg with
  | none =>
    simp only [timeoutQueueInsert, TimeoutList.insert, hstored, hmsg, Option.bind_eq_bind,
      Option.bind_some]
    rfl
  | some body =>
    have hJ := timeoutList_setMsg T env body (wrap32_wrap32 (T.clock + getInt body))
    simp only [timeoutQueueInsert, TimeoutList.insert, hstored, hmsg, Option.map_some,
      Option.bind_eq_bind, Option.bind_some]
    have hclock : T.timeoutList.clock = T.clock := rfl
    rw [hclock, ← hJ]
    set J := T.setMsg env (putInt body (wrap32 (T.clock + getInt body)))
    have hhead : J.timeoutList.head = J.timeoutQueue := rfl
    rw [hhead]
    cases hqueue : J.timeoutQueue with
    | none => rfl
    | some node =>
      have hread : J.timeoutList.stored node = J.timeoutOf node := rfl
      have hnext : J.timeoutList.next node = (J.env node).next := rfl
      simp only [TimeoutList.link, hread, hnext]
      cases J.timeoutOf node with
      | none => rfl
      | some first =>
        simp only [Option.bind_eq_bind, Option.bind_some]
        split
        · refine congrArg some ((J.timeoutList_relink _ fun x => toLetter_setNext ..).trans ?_)
          rw [nextOf_setNext]
          rfl
        · cases (J.env node).next with
          | none => exact congrArg some (J.timeoutList_link hqueue node env none)
          | some next =>
            have hread' : J.timeoutList.stored next = J.timeoutOf next := rfl
            simp only [hread']
            cases J.timeoutOf next with
            | none => rfl
            | some second =>
              simp only [Option.bind_some, timeoutList_insertionPoint]
              cases J.timeoutList.insertionPoint none (wrap32 (T.clock + getInt body)) fuel node
                (some next) second with
              | none => rfl
              | some point => exact congrArg some (J.timeoutList_link hqueue point.1 env point.2)

end Unix.TimeoutMem

/-! ## Both ports -/

/-- The envelopes are distinct, so the search of the ColdFire port never runs out of fuel. -/
theorem length_le_envFuel {l : List EnvPtr} (h : l.Nodup) : l.length ≤ Ipc.envFuel + 1 :=
  (Ipc.length_lt_envFuel h).le.trans (Nat.le_succ _)

/-- **On a sorted list, `timeout_queue_insert` reads nothing through null and leaves the sorted
list with the new envelope in it, exactly if the insertion stays inside**: unless the list has at
most one envelope, one of them is not due before the new one. -/
theorem timeout_queue_insert_in_order [DecidableEq α] (I : Ipc n) (T : Unix.TimeoutMem α) :
    (∀ (due : EnvPtr → ℤ) (l : List EnvPtr) (env : EnvPtr) (delay : ℤ),
      I.timeoutList.Pending due l → env ∉ l → I.timeoutOf env = some delay →
      -2 ^ 31 ≤ I.clock + delay → I.clock + delay < 2 ^ 31 →
      ((∃ I', I.timeoutQueueInsert none env = some I' ∧
          I'.timeoutList.Joined due l env (I.clock + delay)) ↔
        I.timeoutList.Inside due l env (I.clock + delay))) ∧
    ∀ (due : α → ℤ) (l : List α) (env : α) (delay : ℤ) (fuel : ℕ),
      T.timeoutList.Pending due l → env ∉ l → T.timeoutOf env = some delay →
      -2 ^ 31 ≤ T.clock + delay → T.clock + delay < 2 ^ 31 → l.length ≤ fuel →
      ((∃ T', T.timeoutQueueInsert fuel (some env) = some T' ∧
          T'.timeoutList.Joined due l env (T.clock + delay)) ↔
        T.timeoutList.Inside due l env (T.clock + delay)) := by
  constructor
  · intro due l env delay h henv hdelay h₁ h₂
    rw [← show I.timeoutList.clock = I.clock from rfl] at h₁ h₂ ⊢
    rw [← TimeoutList.insert_iff h henv hdelay h₁ h₂ (length_le_envFuel h.chain.nodup),
      ← Ipc.timeoutList_insert]
    simp
  · intro due l env delay fuel h henv hdelay h₁ h₂ hfuel
    rw [← show T.timeoutList.clock = T.clock from rfl] at h₁ h₂ ⊢
    rw [← TimeoutList.insert_iff h henv hdelay h₁ h₂ (Nat.le_succ_of_le hfuel),
      ← Unix.TimeoutMem.timeoutList_insert]
    simp

/-- Three envelopes, the first two pending at 101 and 1001. The clock is at 1, and the third holds
the given delay. -/
def threeEnvs (delay : ℤ) : Unix.TimeoutMem ℕ where
  env i := {
    destPid := 0
    sendPid := 0
    msgType := 1
    msg := some (Unix.putInt (fun _ => 0) (if i = 0 then 101 else if i = 1 then 1001 else delay))
    next := if i = 0 then some 1 else none }
  timeoutQueue := some 0
  clock := 1

/-- The same on the ColdFire. -/
def threeEnvPool (delay : ℤ) : Ipc 0 where
  env env := {
    destPid := 0
    sendPid := 0
    msgType := 1
    msg := some (putInt (fun _ => 0) 0
      (if env = .envPool 0 then 101 else if env = .envPool 1 then 1001 else delay))
    next := if env = .envPool 0 then some (.envPool 1) else none }
  queue _ := msgEnvQueueCreate
  envOwned := nofun
  timeoutQueue := some (.envPool 0)
  sendTraceBuf := ⟨0, fun _ => ⟨0, 0, 0, 0⟩⟩
  recvTraceBuf := ⟨0, fun _ => ⟨0, 0, 0, 0⟩⟩
  clock := 1
  log := []

theorem threeEnvs_pending (delay : ℤ) :
    (threeEnvs delay).timeoutList.Pending (fun i => if i = 0 then 101 else 1001) [0, 1] where
  chain := ⟨rfl, rfl, rfl⟩
  stored := by simp [Unix.TimeoutMem.timeoutList, Unix.TimeoutMem.timeoutOf, threeEnvs, wrap32]
  sorted := by decide

theorem threeEnvPool_pending (delay : ℤ) :
    (threeEnvPool delay).timeoutList.Pending (fun env => if env = .envPool 0 then 101 else 1001)
      [.envPool 0, .envPool 1] where
  chain := ⟨rfl, rfl, rfl⟩
  stored := by simp [Ipc.timeoutList, Ipc.timeoutOf, threeEnvPool, wrap32]
  sorted := by decide

/-- Both insert a delay of 10 at the head. -/
theorem timeout_queue_insert_threeEnvs :
    (∃ I', (threeEnvPool 10).timeoutQueueInsert none (.envPool 2) = some I' ∧
      I'.timeoutList.Joined (fun env => if env = .envPool 0 then 101 else 1001)
        [.envPool 0, .envPool 1] (.envPool 2) 11) ∧
    ∃ T', (threeEnvs 10).timeoutQueueInsert 2 (some 2) = some T' ∧
      T'.timeoutList.Joined (fun i => if i = 0 then 101 else 1001) [0, 1] 2 11 := by
  constructor
  · exact ((timeout_queue_insert_in_order (threeEnvPool 10) (threeEnvs 10)).1 _ _ (.envPool 2) 10
      (threeEnvPool_pending 10) (by decide) (by decide +kernel) (by decide) (by decide)).2
        ⟨by decide, .inr ⟨_, List.mem_cons_self, by decide⟩⟩
  · exact ((timeout_queue_insert_in_order (threeEnvPool 10) (threeEnvs 10)).2 _ _ 2 10 2
      (threeEnvs_pending 10)
      (by decide) (by decide +kernel) (by decide) (by decide) (by decide)).2
        ⟨by decide, .inr ⟨_, List.mem_cons_self, by decide⟩⟩

/-- Both read through null when the third delay is 2000, although the list is sorted. -/
theorem timeout_queue_insert_late :
    ((threeEnvPool 2000).timeoutList.Pending (fun env => if env = .envPool 0 then 101 else 1001)
        [.envPool 0, .envPool 1] ∧
      (threeEnvPool 2000).timeoutOf (.envPool 2) = some 2000 ∧
      (threeEnvPool 2000).timeoutQueueInsert none (.envPool 2) = none) ∧
    (threeEnvs 2000).timeoutList.Pending (fun i => if i = 0 then 101 else 1001) [0, 1] ∧
      (threeEnvs 2000).timeoutOf 2 = some 2000 ∧
      (threeEnvs 2000).timeoutQueueInsert 2 (some 2) = none := by
  refine ⟨⟨threeEnvPool_pending 2000, by decide +kernel, ?_⟩, threeEnvs_pending 2000,
    by decide +kernel, ?_⟩
  · exact Option.isNone_iff_eq_none.1 (by decide +kernel)
  · exact Option.isNone_iff_eq_none.1 (by decide +kernel)

end Rtx
