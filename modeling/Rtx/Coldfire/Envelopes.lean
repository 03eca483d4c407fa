import Rtx.Lib.Places
import Rtx.Coldfire.IpcMoves

/-!
# Where the envelopes are

Every envelope is in one of the queues, in the timeout list, or held by a process. Who holds what
is not in the kernel's data; it is read off the log (`heldBy`).

`Keeps timer I L` says that `L` is where the envelopes are, that each is in one place only, and
that the owner counts are right. A move takes at most one envelope from one place to another
(`Transfer`), and `Keeps` is kept as long as nobody gives away what is not his (`Proper`).
-/

namespace Rtx.Coldfire

open Linked Places

variable {n : ℕ}

/-! ## Places -/

/-- A place for envelopes. -/
inductive Loc (n : ℕ)
  | queue (queue : QueuePtr n)
  | timeoutQueue
  | held (p : Fin n)
  deriving DecidableEq

/-- What `p` holds after an event. -/
def Event.held (p : Fin n) (held : List EnvPtr) : Event n → List EnvPtr
  | .requested q env | .received q env _ | .expired q env _ => if q = p then env :: held else held
  | .released q env | .sent q _ env _ | .delayed q env _ _ => if q = p then held.erase env else held
  | .copied .. => held

/-- The envelopes `p` got and has not given away since. -/
def heldBy (log : List (Event n)) (p : Fin n) : List EnvPtr :=
  log.foldr (fun ev held => ev.held p held) []

@[simp] theorem heldBy_nil (p : Fin n) : heldBy [] p = [] := rfl

@[simp] theorem heldBy_cons (ev : Event n) (log : List (Event n)) (p : Fin n) :
    heldBy (ev :: log) p = ev.held p (heldBy log p) := rfl

/-- Whose `env_owned` counts the envelopes in a place. -/
def Loc.owner (timer : Option (Fin n)) : Loc n → Option (Fin n)
  | .queue (.recvMsgs p) => some p
  | .queue _ => none
  | .timeoutQueue => timer
  | .held p => some p

/-- The number of envelopes that count as owned by `p`: its mail, what it holds, and for the timer
also the pending delays. -/
def owned (timer : Option (Fin n)) (L : Loc n → List EnvPtr) (p : Fin n) : ℤ :=
  (L (.queue (.recvMsgs p))).length + (L (.held p)).length +
    if timer = some p then ((L .timeoutQueue).length : ℤ) else 0

/-- An envelope that goes from one place to another changes owner. -/
theorem owned_shift {timer : Option (Fin n)} {L : Loc n → List EnvPtr} {a b : Loc n}
    {e : EnvPtr} {l l' : List EnvPtr} (hab : a ≠ b) (ha : (L a).Perm (e :: l))
    (hb : l'.Perm (e :: L b)) (p : Fin n) :
    owned timer (shift L a b l l') p = owned timer L p -
      (if a.owner timer = some p then 1 else 0) + if b.owner timer = some p then 1 else 0 := by
  have hlen : ∀ c, ((shift L a b l l' c).length : ℤ) =
      (L c).length - (if a = c then 1 else 0) + if b = c then 1 else 0 := by
    intro c
    have hla := ha.length_eq
    have hlb := hb.length_eq
    simp only [List.length_cons] at hla hlb
    by_cases hcb : b = c
    · subst hcb
      simp [hab, hlb]
    · by_cases hca : a = c
      · subst hca
        simp [shift_src L hab, Ne.symm hab, hla]
      · simp [shift_other L (Ne.symm hca) (Ne.symm hcb), hca, hcb]
  simp only [owned, hlen]
  by_cases htimer : timer = some p
  · subst htimer
    have howner : ∀ c : Loc n, (if c.owner (some p) = some p then (1 : ℤ) else 0) =
        (if c = .queue (.recvMsgs p) then 1 else 0) + (if c = .held p then 1 else 0) +
          if c = .timeoutQueue then 1 else 0 := by
      intro c
      rcases c with ⟨_ | _ | q⟩ | _ | q <;> simp [Loc.owner]
    simp only [howner, if_true]
    ring
  · have howner : ∀ c : Loc n, (if c.owner timer = some p then (1 : ℤ) else 0) =
        (if c = .queue (.recvMsgs p) then 1 else 0) + if c = .held p then 1 else 0 := by
      intro c
      rcases c with ⟨_ | _ | q⟩ | _ | q <;> simp [Loc.owner, htimer]
    simp only [howner, htimer, if_false]
    ring

/-! ## The invariant -/

namespace Ipc

/-- The envelopes are where `L` says, each in one place, and everything is counted. -/
structure Keeps (timer : Option (Fin n)) (I : Ipc n) (L : Loc n → List EnvPtr) : Prop where
  queue : ∀ q, QueueRep I.env (I.queue q) (L (.queue q))
  timeoutQueue : Chain (nextOf I.env) I.timeoutQueue (L .timeoutQueue)
  held : ∀ p, L (.held p) = heldBy I.log p
  partition : Partition L
  home : ∀ q e, q = .freeEnvQ ∨ q = .sysFreeEnvQ → e ∈ L (.queue q) → homeQueue e = q
  owned : ∀ p, I.envOwned p = owned timer L p

end Ipc

/-- The envelope is the mover's to give away, and goes where envelopes of its kind go. Only the
timer works on the timeout list. -/
def IpcMove.Proper (timer : Option (Fin n)) (I : Ipc n) : IpcMove n → Prop
  | .setLetter .. | .receive .. | .tick | .copy .. => True
  | .write env _ => ∃ p, env ∈ heldBy I.log p
  | .send cur _ env _ _ => env ∈ heldBy I.log cur
  | .request _ queue _ => queue = .freeEnvQ ∨ queue = .sysFreeEnvQ
  | .release p queue env => env ∈ heldBy I.log p ∧ queue = homeQueue env
  | .insert p _ env => env ∈ heldBy I.log p ∧ (I.env env).next = none ∧ timer = some p
  | .expire p _ => timer = some p

/-- Where the envelopes are after a move. -/
inductive Transfer (L : Loc n → List EnvPtr) : IpcMove n → (Loc n → List EnvPtr) → Prop
  | setLetter {env letter} : Transfer L (.setLetter env letter) L
  | write {env content} : Transfer L (.write env content) L
  | tick : Transfer L .tick L
  | copy {env text} : Transfer L (.copy env text) L
  | send {cur dest env sendPid destPid} (henv : env ∈ L (.held cur)) :
    Transfer L (.send cur dest env sendPid destPid)
      (shift L (.held cur) (.queue (.recvMsgs dest)) ((L (.held cur)).erase env)
        (L (.queue (.recvMsgs dest)) ++ [env]))
  | receive {p env l} (hl : L (.queue (.recvMsgs p)) = env :: l) :
    Transfer L (.receive p env) (shift L (.queue (.recvMsgs p)) (.held p) l (env :: L (.held p)))
  | request {p queue env l} (hl : L (.queue queue) = env :: l) :
    Transfer L (.request p queue env) (shift L (.queue queue) (.held p) l (env :: L (.held p)))
  | release {p queue env} (henv : env ∈ L (.held p)) :
    Transfer L (.release p queue env)
      (shift L (.held p) (.queue queue) ((L (.held p)).erase env) (L (.queue queue) ++ [env]))
  | insert {p nullRead env l₁ l₂} (henv : env ∈ L (.held p)) (hl : L .timeoutQueue = l₁ ++ l₂) :
    Transfer L (.insert p nullRead env)
      (shift L (.held p) .timeoutQueue ((L (.held p)).erase env) (l₁ ++ env :: l₂))
  | expire {p env l} (hl : L .timeoutQueue = env :: l) :
    Transfer L (.expire p env) (shift L .timeoutQueue (.held p) l (env :: L (.held p)))

namespace Ipc

variable {timer : Option (Fin n)} {I I' : Ipc n} {L L' : Loc n → List EnvPtr} {p cur dest : Fin n}
  {env : EnvPtr} {queue : QueuePtr n}

/-! ## What the moves do -/

/-- The first envelope of a queue was taken: only its link changed. -/
structure Taken (I : Ipc n) (queue : QueuePtr n) (env : EnvPtr) (l : List EnvPtr) (I' : Ipc n) :
    Prop where
  rest : SameRest I I'
  timeoutQueue : I'.timeoutQueue = I.timeoutQueue
  env : I'.env = setNext I.env env none
  other : ∀ q, q ≠ queue → I'.queue q = I.queue q
  rep : QueueRep I'.env (I'.queue queue) l

theorem take_spec {l : List EnvPtr} (hr : QueueRep I.env (I.queue queue) l)
    (h : I.take queue env = some I') : ∃ l', l = env :: l' ∧ Taken I queue env l' I' := by
  unfold take at h
  obtain ⟨hdeq, h⟩ := Option.ite_none_right_eq_some.1 h
  cases h
  cases l with
  | nil =>
    obtain ⟨q', hq', -⟩ := msgEnvQueueDequeue_nil hr
    simp [dequeue, hq'] at hdeq
  | cons a l =>
    obtain ⟨q', hq', hr'⟩ := msgEnvQueueDequeue_cons hr
    have hd : I.dequeue queue = (some a, { I with
        env := setNext I.env a none, queue := Function.update I.queue queue q' }) := by
      simp [dequeue, hq']
    rw [hd] at hdeq ⊢
    obtain rfl := Option.some.inj hdeq
    refine ⟨l, rfl, ⟨rfl, rfl, rfl⟩, rfl, rfl, fun q hq => Function.update_of_ne hq .., ?_⟩
    simp only [Function.update_self]
    exact hr'

/-- An envelope was put at the end of a queue: only links changed, in the queue. -/
structure Queued (I : Ipc n) (queue : QueuePtr n) (l : List EnvPtr) (env : EnvPtr) (I' : Ipc n) :
    Prop where
  rest : SameRest I I'
  timeoutQueue : I'.timeoutQueue = I.timeoutQueue
  other : ∀ q, q ≠ queue → I'.queue q = I.queue q
  rep : QueueRep I'.env (I'.queue queue) (l ++ [env])
  letter : ∀ x, (I'.env x).toLetter = (I.env x).toLetter
  next : ∀ x, x ∉ l → x ≠ env → nextOf I'.env x = nextOf I.env x

theorem enqueue_spec {l : List EnvPtr} (hr : QueueRep I.env (I.queue queue) l) (henv : env ∉ l)
    (h : I.enqueue queue env = some I') : Queued I queue l env I' := by
  obtain ⟨mem, q', henq, hr', hletter, hnext⟩ := msgEnvQueueEnqueue_spec hr henv
  unfold enqueue at h
  rw [henq, Option.map_some] at h
  cases h
  refine ⟨⟨rfl, rfl, rfl⟩, rfl, fun q hq => Function.update_of_ne hq .., ?_, hletter, hnext⟩
  simp only [Function.update_self]
  exact hr'

/-! ## Moves keep the invariant -/

/-- What a list holds does not depend on the links outside it. -/
theorem Keeps.of_links (h : Keeps timer I L) (hqueue : I'.queue = I.queue)
    (htimeout : I'.timeoutQueue = I.timeoutQueue) (howned : I'.envOwned = I.envOwned)
    (hheld : heldBy I'.log = heldBy I.log)
    (hnext : ∀ x c, x ∈ L c → (∀ q, c ≠ .held q) → nextOf I'.env x = nextOf I.env x) :
    Keeps timer I' L where
  queue q := by
    rw [hqueue]
    exact (h.queue q).congr fun x hx => hnext x _ hx nofun
  timeoutQueue := by
    rw [htimeout]
    exact h.timeoutQueue.congr fun x hx => hnext x _ hx nofun
  held p := by rw [hheld, h.held]
  partition := h.partition
  home := h.home
  owned p := by rw [howned, h.owned]

/-- An envelope goes from one place to another. The hypotheses say what happens to the lists of
the two places; of the links, only those of the envelope and of its new list change. -/
theorem Keeps.transfer {a b : Loc n} {l l' : List EnvPtr} (h : Keeps timer I L) (hab : a ≠ b)
    (ha : (L a).Perm (env :: l)) (hb : l'.Perm (env :: L b))
    (hqueue : ∀ q, (.queue q ≠ a → .queue q ≠ b → I'.queue q = I.queue q) ∧
      (.queue q = a → QueueRep I'.env (I'.queue q) l) ∧
      (.queue q = b → QueueRep I'.env (I'.queue q) l'))
    (htimeout : (.timeoutQueue ≠ a → .timeoutQueue ≠ b → I'.timeoutQueue = I.timeoutQueue) ∧
      (.timeoutQueue = a → Chain (nextOf I'.env) I'.timeoutQueue l) ∧
      (.timeoutQueue = b → Chain (nextOf I'.env) I'.timeoutQueue l'))
    (hnext : ∀ x, x ∉ L b → x ≠ env → nextOf I'.env x = nextOf I.env x)
    (hheld : ∀ p, shift L a b l l' (.held p) = heldBy I'.log p)
    (hhome : ∀ q, .queue q = b → q = .freeEnvQ ∨ q = .sysFreeEnvQ → homeQueue env = q)
    (howned : ∀ p, I'.envOwned p = I.envOwned p -
      (if a.owner timer = some p then 1 else 0) + if b.owner timer = some p then 1 else 0) :
    Keeps timer I' (shift L a b l l') := by
  have henv : env ∈ L a := ha.mem_iff.2 List.mem_cons_self
  -- Every other list has neither the envelope nor anything of the new list.
  have hframe : ∀ c, c ≠ a → c ≠ b → ∀ x ∈ L c, nextOf I'.env x = nextOf I.env x := by
    intro c hca hcb x hx
    refine hnext x (h.partition.not_mem hx (Ne.symm hcb)) ?_
    rintro rfl
    exact h.partition.not_mem henv hca hx
  constructor
  · intro q
    obtain ⟨hother, hqa, hqb⟩ := hqueue q
    by_cases hcb : Loc.queue q = b
    · rw [← hcb, shift_dst]; exact hqb hcb
    by_cases hca : Loc.queue q = a
    · rw [hca, shift_src L hab]; exact hqa hca
    · rw [shift_other L hca hcb, hother hca hcb]
      exact (h.queue q).congr (hframe _ hca hcb)
  · obtain ⟨hother, hta, htb⟩ := htimeout
    by_cases hcb : Loc.timeoutQueue = b
    · rw [← hcb, shift_dst]; exact htb hcb
    by_cases hca : Loc.timeoutQueue = a
    · rw [hca, shift_src L hab]; exact hta hca
    · rw [shift_other L hca hcb, hother hca hcb]
      exact h.timeoutQueue.congr (hframe _ hca hcb)
  · exact hheld
  · exact h.partition.shift hab ha hb
  · intro q e hq he
    by_cases hcb : Loc.queue q = b
    · rw [hcb, shift_dst, hb.mem_iff, List.mem_cons] at he
      rcases he with rfl | he
      · exact hhome q hcb hq
      · exact h.home q e hq (hcb ▸ he)
    by_cases hca : Loc.queue q = a
    · rw [hca, shift_src L hab] at he
      exact h.home q e hq (hca ▸ ha.mem_iff.2 (List.mem_cons_of_mem env he))
    · rw [shift_other L hca hcb] at he
      exact h.home q e hq he
  · intro p
    rw [howned, h.owned, owned_shift hab ha hb]

theorem Keeps.take {J : Ipc n} {l : List EnvPtr} (h : Keeps timer I L)
    (htake : Taken J queue env l I') (hJ : J.env = I.env ∧ J.queue = I.queue)
    (hl : L (.queue queue) = env :: l) {K : Ipc n} (hK : K.env = I'.env ∧ K.queue = I'.queue ∧
      K.timeoutQueue = I.timeoutQueue)
    (hheld : ∀ q, heldBy K.log q = if p = q then env :: heldBy I.log q else heldBy I.log q)
    (howned : ∀ q, K.envOwned q = I.envOwned q -
      (if (Loc.queue queue).owner timer = some q then 1 else 0) + if p = q then 1 else 0) :
    Keeps timer K (shift L (.queue queue) (.held p) l (env :: L (.held p))) := by
  have hmem : I'.env = setNext I.env env none := by rw [htake.env, ← hJ.1]
  refine h.transfer nofun (hl ▸ .rfl) .rfl (fun q => ⟨fun hq _ => ?_, fun hq => ?_, nofun⟩)
    ⟨fun _ _ => hK.2.2, nofun, nofun⟩ (fun x _ hx => ?_) (fun q => ?_) nofun (fun q => ?_)
  · rw [hK.2.1, htake.other q (fun hqq => hq (hqq ▸ rfl)), hJ.2]
  · obtain rfl := Loc.queue.inj hq
    rw [hK.1, hK.2.1]
    exact htake.rep
  · rw [hK.1, hmem, nextOf_setNext, Function.update_of_ne hx]
  · rw [hheld]
    by_cases hq : p = q
    · subst hq
      rw [shift_dst, if_pos rfl, h.held]
    · have hne : Loc.held q ≠ .held p := fun hq' => hq (Loc.held.inj hq').symm
      rw [shift_other L (by simp) hne, if_neg hq, h.held]
  · rw [howned]
    simp [Loc.owner]

theorem Keeps.enqueue {J : Ipc n} (h : Keeps timer I L)
    (hqueued : Queued J queue (L (.queue queue)) env I')
    (hJ : nextOf J.env = nextOf I.env ∧ J.queue = I.queue) (henv : env ∈ L (.held p))
    {K : Ipc n} (hK : K.env = I'.env ∧ K.queue = I'.queue ∧ K.timeoutQueue = I.timeoutQueue)
    (hhome : queue = .freeEnvQ ∨ queue = .sysFreeEnvQ → homeQueue env = queue)
    (hheld : ∀ q, heldBy K.log q = if p = q then (heldBy I.log q).erase env else heldBy I.log q)
    (howned : ∀ q, K.envOwned q = I.envOwned q - (if p = q then 1 else 0) +
      if (Loc.queue queue).owner timer = some q then 1 else 0) :
    Keeps timer K (shift L (.held p) (.queue queue) ((L (.held p)).erase env)
      (L (.queue queue) ++ [env])) := by
  refine h.transfer nofun (List.perm_cons_erase henv) (List.perm_append_singleton ..)
    (fun q => ⟨fun _ hq => ?_, nofun, fun hq => ?_⟩)
    ⟨fun _ _ => hK.2.2, nofun, nofun⟩ (fun x hxl hx => ?_) (fun q => ?_) (fun q hq hfree => ?_)
    (fun q => ?_)
  · rw [hK.2.1, hqueued.other q (fun hqq => hq (hqq ▸ rfl)), hJ.2]
  · obtain rfl := Loc.queue.inj hq
    rw [hK.1, hK.2.1]
    exact hqueued.rep
  · rw [hK.1, hqueued.next x hxl hx, hJ.1]
  · rw [hheld]
    by_cases hq : p = q
    · subst hq
      rw [shift_src L (by simp), if_pos rfl, h.held]
    · have hne : Loc.held q ≠ .held p := fun hq' => hq (Loc.held.inj hq').symm
      rw [shift_other L hne (by simp), if_neg hq, h.held]
  · obtain rfl := Loc.queue.inj hq
    exact hhome hfree
  · rw [howned]
    simp [Loc.owner]

@[simp] theorem envOwned_addOwned (I : Ipc n) (p q : Fin n) (k : ℤ) :
    (I.addOwned p k).envOwned q = I.envOwned q + if p = q then k else 0 := by
  by_cases hq : p = q
  · subst hq; simp [addOwned]
  · simp [addOwned, hq, Ne.symm hq]

theorem Keeps.send {sendPid destPid : ℤ} (h : Keeps timer I L) (henv : env ∈ heldBy I.log cur)
    (hmove : I.send cur dest env sendPid destPid = some I') :
    ∃ L', Transfer L (.send cur dest env sendPid destPid) L' ∧ Keeps timer I' L' := by
  rw [← h.held] at henv
  unfold Ipc.send at hmove
  simp only at hmove
  split at hmove
  · contradiction
  obtain ⟨J, henq, rfl⟩ := Option.map_eq_some_iff.1 hmove
  have hlinks := nextOf_setLetter I env (I.stamped env sendPid destPid)
  have hrep : QueueRep (I.setLetter env (I.stamped env sendPid destPid)).env
      (I.queue (.recvMsgs dest)) (L (.queue (.recvMsgs dest))) := by
    rw [QueueRep, hlinks]
    exact h.queue _
  have hqueued := enqueue_spec hrep (h.partition.not_mem henv nofun) henq
  refine ⟨_, .send henv, h.enqueue hqueued ⟨hlinks, rfl⟩ henv ⟨rfl, rfl, ?_⟩ nofun ?_ ?_⟩
  · exact hqueued.timeoutQueue
  · intro q
    change heldBy (_ :: J.log) q = _
    rw [heldBy_cons, hqueued.rest.log]
    rfl
  · intro q
    have hrest : J.envOwned = I.envOwned := hqueued.rest.envOwned
    simp only [emit, envOwned_addOwned, hrest, Loc.owner, Option.some.injEq]
    split <;> split <;> omega

theorem Keeps.receive (h : Keeps timer I L) (hmove : I.receive p env = some I') :
    ∃ L', Transfer L (.receive p env) L' ∧ Keeps timer I' L' := by
  obtain ⟨J, htake, rfl⟩ := Option.map_eq_some_iff.1 hmove
  obtain ⟨l, hl, htaken⟩ := take_spec (h.queue _) htake
  refine ⟨_, .receive hl, h.take htaken ⟨rfl, rfl⟩ hl ⟨rfl, rfl, ?_⟩ ?_ ?_⟩
  · exact htaken.timeoutQueue
  · intro q
    change heldBy (_ :: J.log) q = _
    rw [heldBy_cons, htaken.rest.log]
    rfl
  · intro q
    simp only [emit, htaken.rest.envOwned, Loc.owner, Option.some.injEq]
    omega

theorem Keeps.request (h : Keeps timer I L) (hqueue : queue = .freeEnvQ ∨ queue = .sysFreeEnvQ)
    (hmove : I.request p queue env = some I') :
    ∃ L', Transfer L (.request p queue env) L' ∧ Keeps timer I' L' := by
  obtain ⟨J, htake, rfl⟩ := Option.map_eq_some_iff.1 hmove
  have hrep : QueueRep (I.addOwned p 1).env ((I.addOwned p 1).queue queue) (L (.queue queue)) :=
    h.queue queue
  obtain ⟨l, hl, htaken⟩ := take_spec hrep htake
  refine ⟨_, .request hl, h.take htaken ⟨rfl, rfl⟩ hl ⟨rfl, rfl, ?_⟩ ?_ ?_⟩
  · exact htaken.timeoutQueue
  · intro q
    change heldBy (_ :: J.log) q = _
    rw [heldBy_cons, htaken.rest.log]
    rfl
  · intro q
    rcases hqueue with rfl | rfl <;> simp [emit, htaken.rest.envOwned, Loc.owner]

theorem Keeps.release (h : Keeps timer I L) (henv : env ∈ heldBy I.log p)
    (hqueue : queue = homeQueue env) (hmove : I.release p queue env = some I') :
    ∃ L', Transfer L (.release p queue env) L' ∧ Keeps timer I' L' := by
  rw [← h.held] at henv
  obtain ⟨J, henq, rfl⟩ := Option.map_eq_some_iff.1 hmove
  have hqueued := enqueue_spec (h.queue queue) (h.partition.not_mem henv nofun) henq
  refine ⟨_, .release henv, h.enqueue hqueued ⟨rfl, rfl⟩ henv ⟨rfl, rfl, ?_⟩ ?_ ?_ ?_⟩
  · exact hqueued.timeoutQueue
  · exact fun _ => hqueue.symm
  · intro q
    change heldBy (_ :: J.log) q = _
    rw [heldBy_cons, hqueued.rest.log]
    rfl
  · intro q
    have hfree : (Loc.queue queue).owner timer = none := by
      subst hqueue
      cases env <;> rfl
    simp only [emit, envOwned_addOwned, hqueued.rest.envOwned, hfree, reduceCtorEq, if_false]
    split <;> omega

theorem Keeps.insert {nullRead : Option ℤ} (h : Keeps timer I L) (henv : env ∈ heldBy I.log p)
    (hnext : (I.env env).next = none) (ht : timer = some p)
    (hmove : I.insert p nullRead env = some I') :
    ∃ L', Transfer L (.insert p nullRead env) L' ∧ Keeps timer I' L' := by
  rw [← h.held] at henv
  obtain ⟨delay, -, hmove⟩ := Option.bind_eq_some_iff.1 hmove
  obtain ⟨J, hins, hmove⟩ := Option.bind_eq_some_iff.1 hmove
  cases hmove
  obtain ⟨delay', l₁, l₂, -, hl, hJ⟩ :=
    timeoutQueueInsert_spec h.timeoutQueue (h.partition.not_mem henv nofun) hnext hins
  refine ⟨_, .insert henv hl, h.transfer nofun (List.perm_cons_erase henv) ?_
    (fun q => ⟨fun _ _ => ?_, nofun, nofun⟩)
    ⟨fun _ hne => absurd rfl hne, nofun, fun _ => hJ.chain⟩ ?_ ?_ nofun ?_⟩
  · rw [hl]
    exact List.perm_middle
  · rw [emit, hJ.queue]
  · intro x hx hxe
    exact hJ.next x (hl ▸ hx) hxe
  · intro q
    change _ = heldBy (_ :: J.log) q
    rw [heldBy_cons, hJ.rest.log, Event.held]
    by_cases hq : p = q
    · subst hq
      rw [shift_src L (by simp), if_pos rfl, h.held]
    · have hne : Loc.held q ≠ .held p := fun hq' => hq (Loc.held.inj hq').symm
      rw [shift_other L hne (by simp), if_neg hq, h.held]
  · intro q
    simp [emit, hJ.rest.envOwned, Loc.owner, ht]

theorem Keeps.expire (h : Keeps timer I L) (ht : timer = some p)
    (hmove : I.expire p env = some I') :
    ∃ L', Transfer L (.expire p env) L' ∧ Keeps timer I' L' := by
  obtain ⟨⟨found, J⟩, hcheck, hmove⟩ := Option.bind_eq_some_iff.1 hmove
  simp only [Option.ite_none_right_eq_some] at hmove
  obtain ⟨rfl, hmove⟩ := hmove
  cases hmove
  rcases checkTimeoutQueue_spec h.timeoutQueue hcheck with ⟨hnone, -⟩ |
    ⟨head, l, timeout, hhead, hl, -, -, rfl, hchain⟩
  · contradiction
  obtain rfl := Option.some.inj hhead
  refine ⟨_, .expire hl, h.transfer nofun (hl ▸ .rfl) .rfl
    (fun q => ⟨fun _ _ => rfl, nofun, nofun⟩)
    ⟨fun hne => absurd rfl hne, fun _ => hchain, nofun⟩ (fun _ _ _ => rfl) ?_ nofun ?_⟩
  · intro q
    change _ = heldBy (_ :: I.log) q
    rw [heldBy_cons, Event.held]
    by_cases hq : p = q
    · subst hq
      rw [shift_dst, if_pos rfl, h.held]
    · have hne : Loc.held q ≠ .held p := fun hq' => hq (Loc.held.inj hq').symm
      rw [shift_other L (by simp) hne, if_neg hq, h.held]
  · intro q
    simp [emit, Loc.owner, ht]

/-- A proper move keeps every envelope in one place and everything counted. -/
theorem Keeps.move {m : IpcMove n} (h : Keeps timer I L) (hm : m.Proper timer I)
    (hmove : I.move m = some I') : ∃ L', Transfer L m L' ∧ Keeps timer I' L' := by
  cases m with
  | setLetter env letter =>
    cases hmove
    refine ⟨L, .setLetter, h.of_links rfl rfl rfl rfl fun x c _ _ => ?_⟩
    rw [nextOf_setLetter]
  | write env content =>
    cases hmove
    obtain ⟨p, hp⟩ := hm
    refine ⟨L, .write, h.of_links rfl rfl rfl rfl fun x c hx hc => ?_⟩
    have hxe : x ≠ env := by
      rintro rfl
      exact h.partition.not_mem (h.held p ▸ hp) (hc p) hx
    simp [nextOf, hxe]
  | send cur dest env sendPid destPid => exact h.send hm hmove
  | receive p env => exact h.receive hmove
  | request p queue env => exact h.request hm hmove
  | release p queue env => exact h.release hm.1 hm.2 hmove
  | tick =>
    cases hmove
    exact ⟨L, .tick, h.of_links rfl rfl rfl rfl fun _ _ _ _ => rfl⟩
  | insert p nullRead env => exact h.insert hm.1 hm.2.1 hm.2.2 hmove
  | expire p env => exact h.expire hm hmove
  | copy env text =>
    cases hmove
    exact ⟨L, .copy, h.of_links rfl rfl rfl rfl fun _ _ _ _ => rfl⟩

/-! ## Boot -/

/-- `init_ipc` has put the envelopes `l` into their queues. -/
structure Filled (I : Ipc n) (l : List EnvPtr) : Prop where
  queue : ∀ q, QueueRep I.env (I.queue q) (l.filter fun e => homeQueue e = q)
  timeoutQueue : I.timeoutQueue = none
  envOwned : I.envOwned = fun _ => 0
  log : I.log = []
  clock : I.clock = 1

theorem Filled.step {l : List EnvPtr} (h : Filled I l) (henv : env ∉ l)
    (hinit : initEnv (homeQueue env) I env = some I') : Filled I' (l ++ [env]) := by
  -- The envelope's own fields are set first; no list has it yet.
  have hrep : ∀ q content, QueueRep (Function.update I.env env content) (I.queue q)
      (l.filter fun e => homeQueue e = q) := by
    intro q content
    refine (h.queue q).congr fun x hx => ?_
    have hxe : x ≠ env := by
      rintro rfl
      exact henv (List.mem_of_mem_filter hx)
    simp [nextOf, hxe]
  have hqueued := enqueue_spec (hrep (homeQueue env) _) (fun hx => henv (List.mem_of_mem_filter hx))
    hinit
  refine ⟨fun q => ?_, hqueued.timeoutQueue.trans h.timeoutQueue,
    hqueued.rest.envOwned.trans h.envOwned, hqueued.rest.log.trans h.log,
    hqueued.rest.clock.trans h.clock⟩
  rw [List.filter_append, List.filter_singleton]
  by_cases hq : homeQueue env = q
  · subst hq
    simp only [decide_true, cond_true]
    exact hqueued.rep
  · simp only [hq, decide_false, cond_false, List.append_nil]
    rw [hqueued.other q (Ne.symm hq)]
    refine (hrep q _).congr fun x hx => hqueued.next x (fun hx' => hq ?_) ?_
    · have h₁ := (List.mem_filter.1 hx).2
      have h₂ := (List.mem_filter.1 hx').2
      simp only [decide_eq_true_eq] at h₁ h₂
      exact h₂.symm.trans h₁
    · rintro rfl
      exact henv (List.mem_of_mem_filter hx)

theorem Filled.run {l l' : List EnvPtr} (h : Filled I l) (hqueue : ∀ e ∈ l', homeQueue e = queue)
    (hnd : (l ++ l').Nodup) (hinit : l'.foldlM (initEnv queue) I = some I') :
    Filled I' (l ++ l') := by
  induction l' generalizing I l with
  | nil =>
    cases hinit
    rwa [List.append_nil]
  | cons e l' ih =>
    obtain ⟨J, hJ, hinit⟩ := Option.bind_eq_some_iff.1 hinit
    have he : homeQueue e = queue := hqueue e List.mem_cons_self
    have hfilled := h.step (fun hel => (List.nodup_append.1 hnd).2.2 e hel e List.mem_cons_self rfl)
      (he ▸ hJ)
    have hall := ih hfilled (fun x hx => hqueue x (List.mem_cons_of_mem e hx))
      (by rwa [List.append_assoc]) hinit
    rwa [List.append_assoc] at hall

/-- Every envelope, in the order `init_ipc` queues them. -/
def allEnvs : List EnvPtr :=
  (List.finRange ipcNumFreeMsgEnvs).map .envPool ++
    (List.finRange ipcNumSysFreeMsgEnvs).map .sysEnvPool

theorem homeQueue_envPool {e : EnvPtr}
    (he : e ∈ (List.finRange ipcNumFreeMsgEnvs).map EnvPtr.envPool) :
    homeQueue e = (.freeEnvQ : QueuePtr n) := by
  obtain ⟨i, -, rfl⟩ := List.mem_map.1 he
  rfl

theorem homeQueue_sysEnvPool {e : EnvPtr}
    (he : e ∈ (List.finRange ipcNumSysFreeMsgEnvs).map EnvPtr.sysEnvPool) :
    homeQueue e = (.sysFreeEnvQ : QueuePtr n) := by
  obtain ⟨i, -, rfl⟩ := List.mem_map.1 he
  rfl

theorem mem_allEnvs (e : EnvPtr) : e ∈ allEnvs := by
  cases e <;> simp [allEnvs]

theorem nodup_allEnvs : allEnvs.Nodup := by
  refine List.Nodup.append ?_ ?_ ?_
  · exact (List.nodup_finRange _).map fun i j hij => EnvPtr.envPool.inj hij
  · exact (List.nodup_finRange _).map fun i j hij => EnvPtr.sysEnvPool.inj hij
  · intro e he he'
    obtain ⟨i, -, rfl⟩ := List.mem_map.1 he
    obtain ⟨j, -, hj⟩ := List.mem_map.1 he'
    exact absurd hj nofun

theorem length_lt_envFuel {l : List EnvPtr} (h : l.Nodup) : l.length < envFuel := by
  have hle := (List.subperm_of_subset h fun x _ => mem_allEnvs x).length_le
  rw [allEnvs, List.length_append, List.length_map, List.length_map, List.length_finRange,
    List.length_finRange] at hle
  rw [envFuel]
  omega

/-- Where the envelopes are at boot: in the two free queues. -/
def bootPlaces : Loc n → List EnvPtr
  | .queue q => allEnvs.filter fun e => homeQueue e = q
  | _ => []

theorem mem_bootPlaces {a : Loc n} {e : EnvPtr} :
    e ∈ bootPlaces a ↔ a = .queue (homeQueue e) := by
  cases a with
  | queue q =>
    simp only [bootPlaces, List.mem_filter, mem_allEnvs, true_and, decide_eq_true_eq,
      Loc.queue.injEq]
    exact eq_comm
  | timeoutQueue => simp [bootPlaces]
  | held p => simp [bootPlaces]

theorem bootPlaces_recvMsgs (p : Fin n) : bootPlaces (.queue (.recvMsgs p)) = [] := by
  refine List.filter_eq_nil_iff.2 fun e _ => ?_
  cases e <;> simp [homeQueue]

theorem initIpc_filled {memory : EnvPtr → MsgEnv EnvPtr} {traces : ℤ → IpcTrace}
    (h : initIpc memory traces = some I) : Filled I allEnvs := by
  unfold initIpc at h
  obtain ⟨J, hfree, hsys⟩ := Option.bind_eq_some_iff.1 h
  have hJ := Filled.run (l := []) ⟨fun _ => queueRep_create memory, rfl, rfl, rfl, rfl⟩
    (fun _ => homeQueue_envPool) (nodup_allEnvs.sublist (List.sublist_append_left _ _)) hfree
  exact hJ.run (fun _ => homeQueue_sysEnvPool) nodup_allEnvs hsys

theorem initIpc_keeps {memory : EnvPtr → MsgEnv EnvPtr} {traces : ℤ → IpcTrace}
    (h : initIpc memory traces = some I) : Keeps timer I bootPlaces := by
  have hI := initIpc_filled h
  constructor
  · exact hI.queue
  · exact hI.timeoutQueue
  · intro p
    rw [hI.log]
    rfl
  · constructor
    · exact fun e => ⟨.queue (homeQueue e), mem_bootPlaces.2 rfl⟩
    · exact fun ha hb => (mem_bootPlaces.1 ha).trans (mem_bootPlaces.1 hb).symm
    · intro a
      cases a with
      | queue q =>
        rw [bootPlaces]
        exact nodup_allEnvs.filter _
      | timeoutQueue => exact List.nodup_nil
      | held p => exact List.nodup_nil
  · exact fun q e _ he => (Loc.queue.inj (mem_bootPlaces.1 he)).symm
  · intro p
    rw [hI.envOwned, Coldfire.owned, bootPlaces_recvMsgs]
    simp [bootPlaces]

end Ipc

end Rtx.Coldfire
