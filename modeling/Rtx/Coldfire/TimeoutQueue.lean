import Rtx.Coldfire.Ipc

/-!
# The timeout list

`timeout_queue.c`: the pending delays, as a list of envelopes sorted by absolute timeout. The
first word of an envelope's body holds the requested delay until the envelope is inserted, and
the absolute timeout from then on.

The search loop of `timeout_queue_insert` reads the timeout of the next node before it tests
that there is one. What that read through null yields is the parameter `nullRead`: an integer,
or nothing where it faults.
-/

namespace Rtx.Coldfire

open Linked

variable {n : ℕ}

namespace Ipc

/-- `*((int *) env->msg)`; nothing where `msg` is null. -/
def timeoutOf (I : Ipc n) (env : EnvPtr) : Option ℤ := (I.env env).msg.map (getInt · 0)

/-- `*((int *) node->msg)` for a node that may be null. -/
def readTimeout (I : Ipc n) (nullRead : Option ℤ) : Option EnvPtr → Option ℤ
  | none => nullRead
  | some node => I.timeoutOf node

/-- The search loop of `timeout_queue_insert`: the final `prev_node` and `node`. With more fuel
than there are envelopes it only runs out on a cyclic list, where the source loops for ever. -/
def insertionPoint (I : Ipc n) (nullRead : Option ℤ) (timeout : ℤ) :
    ℕ → EnvPtr → Option EnvPtr → ℤ → Option (EnvPtr × Option EnvPtr)
  | 0, _, _, _ => none
  | fuel + 1, prevNode, node, timeoutSoFar =>
    match node with
    | none => some (prevNode, none)
    | some node =>
      if timeoutSoFar < timeout then
        match I.readTimeout nullRead (I.env node).next with
        | none => none
        | some timeoutSoFar =>
          I.insertionPoint nullRead timeout fuel node (I.env node).next timeoutSoFar
      else some (prevNode, some node)

/-- More than the number of envelopes. -/
def envFuel : ℕ := ipcNumFreeMsgEnvs + ipcNumSysFreeMsgEnvs + 1

/-- `timeout_queue_insert`. -/
def timeoutQueueInsert (I : Ipc n) (nullRead : Option ℤ) (newMsgEnv : EnvPtr) :
    Option (Ipc n) := do
  let body ← (I.env newMsgEnv).msg
  let timeout := wrap32 (I.clock + getInt body 0)
  let I := I.setLetter newMsgEnv
    { (I.env newMsgEnv).toLetter with msg := some (putInt body 0 timeout) }
  match I.timeoutQueue with
  | none => return { I with timeoutQueue := some newMsgEnv }
  | some node =>
    let timeoutSoFar ← I.timeoutOf node
    if timeout ≤ timeoutSoFar then
      return { I with env := setNext I.env newMsgEnv (some node), timeoutQueue := some newMsgEnv }
    else
      let prevNode := node
      let node := (I.env node).next
      let (prevNode, node) ←
        match node with
        | none => some (prevNode, none)
        | some next => do
          I.insertionPoint nullRead timeout envFuel prevNode (some next) (← I.timeoutOf next)
      return { I with env := setNext (setNext I.env prevNode (some newMsgEnv)) newMsgEnv node }

/-- `check_timeout_queue`: the loop returns in its first turn, so at most the head is taken. Its
link is left as it is. -/
def checkTimeoutQueue (I : Ipc n) : Option (Option EnvPtr × Ipc n) :=
  match I.timeoutQueue with
  | none => some (none, I)
  | some head => do
    let timeout ← I.timeoutOf head
    if timeout ≤ I.clock then
      return (some head, { I with timeoutQueue := (I.env head).next })
    else return (none, I)

/-! ## The list -/

variable {I I' : Ipc n} {env : EnvPtr} {nullRead : Option ℤ} {l : List EnvPtr}

/-- The owner counts, the clock and the log are the same. -/
structure SameRest (I I' : Ipc n) : Prop where
  envOwned : I'.envOwned = I.envOwned
  clock : I'.clock = I.clock
  log : I'.log = I.log

/-- `env`, with the given delay, was inserted between `l₁` and `l₂`: behind everything that is due
earlier, before the first envelope that is not. Only its own body changed. -/
structure Inserted (I : Ipc n) (env : EnvPtr) (delay : ℤ) (l₁ l₂ : List EnvPtr) (I' : Ipc n) :
    Prop where
  rest : SameRest I I'
  queue : I'.queue = I.queue
  chain : Chain (nextOf I'.env) I'.timeoutQueue (l₁ ++ env :: l₂)
  next : ∀ x, x ∉ l₁ ++ l₂ → x ≠ env → nextOf I'.env x = nextOf I.env x
  letter : ∀ x, x ≠ env → (I'.env x).toLetter = (I.env x).toLetter
  body : ∃ body, (I.env env).msg = some body ∧ getInt body 0 = delay ∧
    (I'.env env).toLetter = { (I.env env).toLetter with
      msg := some (putInt body 0 (wrap32 (I.clock + delay))) }
  before : ∀ x ∈ l₁, ∃ v, I.timeoutOf x = some v ∧ v < wrap32 (I.clock + delay)
  after : ∀ x ∈ l₂.head?, ∃ v, I.timeoutOf x = some v ∧ wrap32 (I.clock + delay) ≤ v

theorem nextOf_setLetter (I : Ipc n) (env : EnvPtr) (letter : Letter) :
    nextOf (I.setLetter env letter).env = nextOf I.env := by
  funext x
  by_cases hx : x = env
  · subst hx; simp [nextOf, setLetter]
  · simp [nextOf, setLetter, hx]

theorem toLetter_setLetter_of_ne (I : Ipc n) {x : EnvPtr} (hx : x ≠ env) (letter : Letter) :
    ((I.setLetter env letter).env x).toLetter = (I.env x).toLetter := by
  simp [setLetter, hx]

@[simp] theorem toLetter_setLetter_self (I : Ipc n) (env : EnvPtr) (letter : Letter) :
    ((I.setLetter env letter).env env).toLetter = letter := by
  simp [setLetter]

theorem timeoutOf_congr {x : EnvPtr} (h : (I'.env x).toLetter = (I.env x).toLetter) :
    I'.timeoutOf x = I.timeoutOf x := by
  rw [timeoutOf, timeoutOf, h]

theorem insertionPoint_spec {timeout timeoutSoFar : ℤ} {fuel : ℕ} {prevNode : EnvPtr}
    {node : Option EnvPtr} {r : EnvPtr × Option EnvPtr} (hc : Chain (nextOf I.env) node l)
    (hnode : ∀ x ∈ node, I.timeoutOf x = some timeoutSoFar)
    (h : I.insertionPoint nullRead timeout fuel prevNode node timeoutSoFar = some r) :
    ∃ l₁ l₂, l = l₁ ++ l₂ ∧ (prevNode :: l₁).getLast? = some r.1 ∧ r.2 = l₂.head? ∧
      (∀ x ∈ l₁, ∃ v, I.timeoutOf x = some v ∧ v < timeout) ∧
      ∀ x ∈ l₂.head?, ∃ v, I.timeoutOf x = some v ∧ timeout ≤ v := by
  induction fuel generalizing prevNode node timeoutSoFar l with
  | zero => contradiction
  | succ fuel ih =>
    cases l with
    | nil =>
      obtain rfl : node = none := hc
      cases h
      exact ⟨[], [], rfl, rfl, rfl, by simp, by simp⟩
    | cons a l =>
      obtain ⟨rfl, hc⟩ := hc
      have ha := hnode a rfl
      simp only [insertionPoint] at h
      split at h
      · split at h
        · contradiction
        rename_i hlt _ next hread
        have hnext : ∀ x ∈ (I.env a).next, I.timeoutOf x = some next := by
          intro x hx
          rw [hx] at hread
          exact hread
        obtain ⟨l₁, l₂, rfl, hlast, hhead, hbefore, hafter⟩ := ih hc hnext h
        refine ⟨a :: l₁, l₂, rfl, ?_, hhead, ?_, hafter⟩
        · rw [List.getLast?_cons_cons]; exact hlast
        · exact List.forall_mem_cons.2 ⟨⟨timeoutSoFar, ha, hlt⟩, hbefore⟩
      · rename_i hge
        cases h
        exact ⟨[], a :: l, rfl, rfl, rfl, by simp, by simpa using ⟨timeoutSoFar, ha, by omega⟩⟩

/-- Both ways through the search end behind a non-empty part of the list. -/
theorem search_spec {ρ : Type} {timeout : ℤ} {a : EnvPtr} {k : EnvPtr × Option EnvPtr → Option ρ}
    {result : ρ} (hc : Chain (nextOf I.env) (I.env a).next l)
    (h : (match (I.env a).next with
      | none => k (a, none)
      | some next => (I.timeoutOf next).bind fun timeoutSoFar =>
        (I.insertionPoint nullRead timeout envFuel a (some next) timeoutSoFar).bind k) =
          some result) :
    ∃ prevNode l₁ l₂, l = l₁ ++ l₂ ∧ (a :: l₁).getLast? = some prevNode ∧
      (∀ x ∈ l₁, ∃ v, I.timeoutOf x = some v ∧ v < timeout) ∧
      (∀ x ∈ l₂.head?, ∃ v, I.timeoutOf x = some v ∧ timeout ≤ v) ∧
      k (prevNode, l₂.head?) = some result := by
  cases hnode : (I.env a).next with
  | none =>
    rw [hnode] at h hc
    obtain rfl : l = [] := by
      cases l with
      | nil => rfl
      | cons b l => exact absurd hc.1 (by simp)
    exact ⟨a, [], [], rfl, rfl, by simp, by simp, h⟩
  | some next =>
    rw [hnode] at h hc
    obtain ⟨timeoutSoFar, htime, h⟩ := Option.bind_eq_some_iff.1 h
    obtain ⟨⟨prevNode, node⟩, hpoint, h⟩ := Option.bind_eq_some_iff.1 h
    have hnext : ∀ x ∈ some next, I.timeoutOf x = some timeoutSoFar := by
      intro x hx
      obtain rfl := Option.some.inj hx
      exact htime
    obtain ⟨l₁, l₂, hl, hlast, rfl, hbefore, hafter⟩ := insertionPoint_spec hc hnext hpoint
    exact ⟨prevNode, l₁, l₂, hl, hlast, hbefore, hafter, h⟩

/-- What holds wherever the envelope is linked in, once its body holds the absolute timeout. -/
theorem inserted_of_linked {body : Body} {letter : Letter} {l₁ l₂ : List EnvPtr}
    {mem : EnvPtr → MsgEnv EnvPtr} {head : Option EnvPtr} (hbody : (I.env env).msg = some body)
    (hletter : letter = { (I.env env).toLetter with
      msg := some (putInt body 0 (wrap32 (I.clock + getInt body 0))) })
    (henv : env ∉ l₁ ++ l₂) (hc : Chain (nextOf mem) head (l₁ ++ env :: l₂))
    (hmem : ∀ x, (mem x).toLetter = ((I.setLetter env letter).env x).toLetter)
    (hlink : ∀ x, x ∉ l₁ ++ l₂ → x ≠ env → nextOf mem x = nextOf I.env x)
    (hbefore : ∀ x ∈ l₁, ∃ v, (I.setLetter env letter).timeoutOf x = some v ∧
      v < wrap32 (I.clock + getInt body 0))
    (hafter : ∀ x ∈ l₂.head?, ∃ v, (I.setLetter env letter).timeoutOf x = some v ∧
      wrap32 (I.clock + getInt body 0) ≤ v) :
    Inserted I env (getInt body 0) l₁ l₂
      { I.setLetter env letter with env := mem, timeoutQueue := head } := by
  have hother : ∀ x, x ≠ env →
      ((I.setLetter env letter).env x).toLetter = (I.env x).toLetter := fun x hx =>
    toLetter_setLetter_of_ne I hx letter
  have hread : ∀ x ∈ l₁ ++ l₂, (I.setLetter env letter).timeoutOf x = I.timeoutOf x := fun x hx =>
    timeoutOf_congr (hother x fun hxe => henv (hxe ▸ hx))
  refine ⟨⟨rfl, rfl, rfl⟩, rfl, hc, hlink, fun x hx => (hmem x).trans (hother x hx),
    ⟨body, hbody, rfl, ?_⟩, fun x hx => ?_, fun x hx => ?_⟩
  · rw [← hletter, ← toLetter_setLetter_self I env letter]
    exact hmem env
  · rw [← hread x (List.mem_append_left l₂ hx)]
    exact hbefore x hx
  · rw [← hread x (List.mem_append_right l₁ (List.mem_of_head? hx))]
    exact hafter x hx

/-- An envelope that is not in the list, with a null link, is inserted where it belongs. -/
theorem timeoutQueueInsert_spec (hc : Chain (nextOf I.env) I.timeoutQueue l) (henv : env ∉ l)
    (hnext : (I.env env).next = none) (h : I.timeoutQueueInsert nullRead env = some I') :
    ∃ delay l₁ l₂, I.timeoutOf env = some delay ∧ l = l₁ ++ l₂ ∧
      Inserted I env delay l₁ l₂ I' := by
  unfold timeoutQueueInsert at h
  obtain ⟨body, hbody, h⟩ := Option.bind_eq_some_iff.1 h
  simp only at h
  have hdelay : I.timeoutOf env = some (getInt body 0) := by rw [timeoutOf, hbody]; rfl
  refine ⟨getInt body 0, ?_⟩
  set timeout := wrap32 (I.clock + getInt body 0) with htimeout
  set letter : Letter :=
    { (I.env env).toLetter with msg := some (putInt body 0 timeout) } with hletter
  set J := I.setLetter env letter with hJ
  have hnextJ : nextOf J.env = nextOf I.env := nextOf_setLetter I env letter
  cases l with
  | nil =>
    have hnull : J.timeoutQueue = none := hc
    rw [hnull] at h
    cases h
    refine ⟨[], [], hdelay, rfl, inserted_of_linked hbody hletter henv ⟨rfl, ?_⟩ (fun _ => rfl)
      (fun x _ _ => congrFun hnextJ x) (by simp) (by simp)⟩
    exact (congrFun hnextJ env).trans hnext
  | cons a l =>
    have hhead : J.timeoutQueue = some a := hc.1
    rw [hhead] at h
    obtain ⟨first, hfirst, h⟩ := Option.bind_eq_some_iff.1 h
    by_cases hle : timeout ≤ first
    · rw [if_pos hle] at h
      cases h
      refine ⟨[], a :: l, hdelay, rfl, inserted_of_linked hbody hletter henv ?_
        (fun _ => toLetter_setNext ..) (fun x _ hx => ?_) (by simp)
        (by simpa using ⟨first, hfirst, hle⟩)⟩
      · rw [nextOf_setNext, List.nil_append, hnextJ]
        exact Chain.push (p := some a) ⟨rfl, hc.2⟩ henv
      · rw [nextOf_setNext, Function.update_of_ne hx, hnextJ]
    · rw [if_neg hle] at h
      have hcJ : Chain (nextOf J.env) (J.env a).next l := by
        show Chain (nextOf J.env) (nextOf J.env a) l
        rw [hnextJ]
        exact hc.2
      obtain ⟨prevNode, l₁, l₂, rfl, hlast, hbefore, hafter, hI'⟩ := search_spec
        (k := fun point => some { J with
          env := setNext (setNext J.env point.1 (some env)) env point.2
          timeoutQueue := some a }) hcJ h
      cases hI'
      refine ⟨a :: l₁, l₂, hdelay, rfl, inserted_of_linked hbody hletter henv ?_ (fun x => ?_)
        (fun x hx hxe => ?_) ?_ hafter⟩
      · rw [nextOf_setNext, nextOf_setNext, hnextJ]
        have hchain : Chain (nextOf I.env) (some a) ((a :: l₁) ++ l₂) := ⟨rfl, hc.2⟩
        exact hchain.insertBehind hlast henv
      · rw [toLetter_setNext, toLetter_setNext]
      · have hxp : x ≠ prevNode := by
          rintro rfl
          exact hx (List.mem_append_left l₂ (List.mem_of_getLast? hlast))
        rw [nextOf_setNext, nextOf_setNext, Function.update_of_ne hxe, Function.update_of_ne hxp,
          hnextJ]
      · exact List.forall_mem_cons.2 ⟨⟨first, hfirst, by omega⟩, hbefore⟩

/-- Whatever the list is, only the envelopes and the list are worked on. -/
theorem timeoutQueueInsert_eq (h : I.timeoutQueueInsert nullRead env = some I') :
    ∃ mem head, I' = { I with env := mem, timeoutQueue := head } := by
  unfold timeoutQueueInsert at h
  obtain ⟨body, -, h⟩ := Option.bind_eq_some_iff.1 h
  simp only at h
  split at h
  · cases h; exact ⟨_, _, rfl⟩
  · obtain ⟨timeoutSoFar, -, h⟩ := Option.bind_eq_some_iff.1 h
    split at h
    · cases h; exact ⟨_, _, rfl⟩
    split at h
    · cases h; exact ⟨_, _, rfl⟩
    · obtain ⟨first, -, h⟩ := Option.bind_eq_some_iff.1 h
      obtain ⟨point, -, h⟩ := Option.bind_eq_some_iff.1 h
      cases h
      exact ⟨_, _, rfl⟩

theorem timeoutQueueInsert_rest (h : I.timeoutQueueInsert nullRead env = some I') :
    SameRest I I' := by
  obtain ⟨mem, head, rfl⟩ := timeoutQueueInsert_eq h
  exact ⟨rfl, rfl, rfl⟩

theorem checkTimeoutQueue_eq {found : Option EnvPtr}
    (h : I.checkTimeoutQueue = some (found, I')) :
    ∃ mem head, I' = { I with env := mem, timeoutQueue := head } := by
  unfold checkTimeoutQueue at h
  split at h
  · cases h; exact ⟨_, _, rfl⟩
  · obtain ⟨timeout, -, h⟩ := Option.bind_eq_some_iff.1 h
    split at h <;> cases h <;> exact ⟨_, _, rfl⟩

theorem checkTimeoutQueue_none (h : I.checkTimeoutQueue = some (none, I')) : I' = I := by
  unfold checkTimeoutQueue at h
  split at h
  · cases h; rfl
  · obtain ⟨timeout, -, h⟩ := Option.bind_eq_some_iff.1 h
    split at h
    · cases h
    · cases h; rfl

theorem checkTimeoutQueue_spec {found : Option EnvPtr}
    (hc : Chain (nextOf I.env) I.timeoutQueue l)
    (h : I.checkTimeoutQueue = some (found, I')) :
    (found = none ∧ I' = I ∧ ∀ x ∈ l.head?, ∃ v, I.timeoutOf x = some v ∧ I.clock < v) ∨
      ∃ head rest timeout, found = some head ∧ l = head :: rest ∧
        I.timeoutOf head = some timeout ∧ timeout ≤ I.clock ∧
        I' = { I with timeoutQueue := (I.env head).next } ∧
        Chain (nextOf I.env) I'.timeoutQueue rest := by
  unfold checkTimeoutQueue at h
  cases l with
  | nil =>
    have hnull : I.timeoutQueue = none := hc
    rw [hnull] at h
    cases h
    exact .inl ⟨rfl, rfl, by simp⟩
  | cons a l =>
    obtain ⟨ha, hcl⟩ := hc
    rw [ha] at h
    obtain ⟨timeout, htime, h⟩ := Option.bind_eq_some_iff.1 h
    split at h
    · rename_i hle
      cases h
      exact .inr ⟨a, l, timeout, rfl, rfl, htime, hle, rfl, hcl⟩
    · rename_i hgt
      cases h
      exact .inl ⟨rfl, rfl, by simpa using ⟨timeout, htime, by omega⟩⟩

end Ipc

end Rtx.Coldfire
