import Rtx.Lib.Places
import Rtx.Unix.Ipc
import Rtx.Unix.TimeoutRuns

/-!
# Where the envelopes of the Unix port are

Every envelope is in one of the queues, in the timeout list, on the screen, or held by a process.
Who holds what is not in the kernel's data; where an envelope went last is read off the log
(`spotOf`).

`Keeps I L` says that `L` is where the envelopes are, and that each is in one place only. A move
takes at most one envelope from one place to another (`Transfer`), and keeps that as long as nobody
gives away what is not his (`Proper`).
-/

namespace Rtx.Unix

open Linked Places
open Coldfire (Body Letter MsgEnv nextOf)

variable {n : ℕ}

/-! ## Places -/

/-- A place for envelopes. -/
inductive Spot (n : ℕ)
  | queue (queue : QueuePtr n)
  | timeoutQueue
  /-- The text of the envelope is on the screen, and not acknowledged. -/
  | screen
  | held (p : Fin n)
  deriving DecidableEq

/-- The envelope of an event. -/
def Event.env : Event n → EnvPtr
  | .requested _ env | .released _ env | .sent _ _ env _ | .received _ env _ | .delayed _ env _ _
  | .expired _ env _ | .stored _ env | .shown _ env | .acked _ env => env

/-- Where the envelope of an event goes. -/
def Event.spot : Event n → Spot n
  | .requested p _ | .received p _ _ | .expired p _ _ | .acked p _ => .held p
  | .released .. => .queue .freeEnvQ
  | .sent _ q _ _ => .queue (.recvMsgs q)
  | .delayed .. => .timeoutQueue
  | .stored .. => .queue .displayQueue
  | .shown .. => .screen

/-- Where the last event about an envelope took it. -/
def spotOf (log : List (Event n)) : EnvPtr → Spot n :=
  log.foldr (fun ev spot => Function.update spot ev.env ev.spot) fun _ => .queue .freeEnvQ

@[simp] theorem spotOf_nil (env : EnvPtr) :
    spotOf ([] : List (Event n)) env = .queue .freeEnvQ := rfl

theorem spotOf_cons (ev : Event n) (log : List (Event n)) :
    spotOf (ev :: log) = Function.update (spotOf log) ev.env ev.spot := rfl

@[simp] theorem spotOf_cons_self (ev : Event n) (log : List (Event n)) :
    spotOf (ev :: log) ev.env = ev.spot := Function.update_self ..

theorem spotOf_cons_of_ne {ev : Event n} {env : EnvPtr} (log : List (Event n)) (h : env ≠ ev.env) :
    spotOf (ev :: log) env = spotOf log env := Function.update_of_ne h ..

/-! ## Moves -/

/-- One thing that happens to the envelopes, and who does it. -/
inductive MailMove (n : ℕ)
  /-- Set the header and the body. -/
  | fill (p : Fin n) (env : EnvPtr) (letter : Letter)
  /-- A process writes to an envelope. -/
  | write (p : Fin n) (env : EnvPtr) (content : MsgEnv EnvPtr)
  | send (p q : Fin n) (env : EnvPtr) (sendPid destPid : ℤ)
  | receive (p : Fin n) (env : EnvPtr)
  | request (p : Fin n) (env : EnvPtr)
  | release (p : Fin n) (env : EnvPtr)
  | tick
  | insert (p : Fin n) (env : EnvPtr)
  | expire (p : Fin n) (env : EnvPtr)
  | store (p : Fin n) (env : EnvPtr)
  | display (p : Fin n) (env : EnvPtr)
  | ack (p : Fin n) (env : EnvPtr)

namespace Ipc

/-- The letter, with the stamps of `k_send_message`. -/
def stamped (I : Ipc n) (env : EnvPtr) (sendPid destPid : ℤ) : Letter :=
  { I.letter env with sendPid := sendPid, destPid := destPid }

/-- Take this envelope out of a queue. -/
def take (I : Ipc n) (queue : QueuePtr n) (env : EnvPtr) : Option (Ipc n) :=
  if (I.dequeue queue).1 = some env then some (I.dequeue queue).2 else none

/-- One move, as the code makes it. -/
def move (I : Ipc n) : MailMove n → Option (Ipc n)
  | .fill _ env letter => some (I.setLetter env letter)
  | .write _ env content => some { I with mem := Function.update I.mem env content }
  | .send p q env sendPid destPid =>
    ((I.setLetter env (I.stamped env sendPid destPid)).enqueue (.recvMsgs q) env).map fun J =>
      (J.logSend env).emit (.sent p q env (I.stamped env sendPid destPid))
  | .receive p env =>
    (I.take (.recvMsgs p) env).map fun J => (J.logReceive env).emit (.received p env (J.letter env))
  | .request p env => (I.take .freeEnvQ env).map (·.emit (.requested p env))
  | .release p env => (I.enqueue .freeEnvQ env).map (·.emit (.released p env))
  | .tick => some { I with clock := I.clock + 1 }
  | .insert p env => do
    let delay ← I.timeouts.timeoutOf env
    let T ← I.timeouts.timeoutQueueInsert envFuel (some env)
    return (I.setTimeouts T).emit (.delayed p env delay I.clock)
  | .expire p env => do
    let (found, T) ← I.timeouts.checkTimeoutQueue
    if found = some env then return (I.setTimeouts T).emit (.expired p env I.clock) else none
  | .store p env => (I.enqueue .displayQueue env).map (·.emit (.stored p env))
  | .display p env =>
    (I.take .displayQueue env).map fun J => { J with prevMsg := some env }.emit (.shown p env)
  | .ack p env =>
    if I.prevMsg = some env then some ({ I with prevMsg := none }.emit (.acked p env)) else none

/-- The process has the envelope. -/
def HeldBy (I : Ipc n) (p : Fin n) (env : EnvPtr) : Prop := spotOf I.log env = .held p

instance (I : Ipc n) (p : Fin n) (env : EnvPtr) : Decidable (I.HeldBy p env) := by
  unfold HeldBy
  infer_instance

/-- The envelopes are where `L` says, each in one place, and there the log has it. -/
structure Keeps (I : Ipc n) (L : Spot n → List EnvPtr) : Prop where
  holds : I.toQueueMem.Holds fun queue => L (.queue queue)
  pending : ∃ due, I.timeouts.timeoutList.Pending due (L .timeoutQueue)
  screen : ∀ env ∈ I.prevMsg, env ∈ L .screen
  partition : Partition L
  spot : ∀ {env a}, env ∈ L a → spotOf I.log env = a

end Ipc

/-- The envelope is the mover's to work on and to give away. -/
def MailMove.Proper (I : Ipc n) : MailMove n → Prop
  | .fill p env _ | .write p env _ | .send p _ env _ _ | .release p env | .store p env =>
    I.HeldBy p env
  | .insert p env => I.HeldBy p env ∧ (I.mem env).next = none
  | .receive .. | .request .. | .tick | .expire .. | .display .. | .ack .. => True

/-- Where the envelopes are after a move. -/
inductive Transfer (L : Spot n → List EnvPtr) : MailMove n → (Spot n → List EnvPtr) → Prop
  | fill {p env letter} : Transfer L (.fill p env letter) L
  | write {p env content} : Transfer L (.write p env content) L
  | tick : Transfer L .tick L
  | send {p q env sendPid destPid} (henv : env ∈ L (.held p)) :
    Transfer L (.send p q env sendPid destPid)
      (shift L (.held p) (.queue (.recvMsgs q)) ((L (.held p)).erase env)
        (L (.queue (.recvMsgs q)) ++ [env]))
  | receive {p env l} (hl : L (.queue (.recvMsgs p)) = env :: l) :
    Transfer L (.receive p env) (shift L (.queue (.recvMsgs p)) (.held p) l (env :: L (.held p)))
  | request {p env l} (hl : L (.queue .freeEnvQ) = env :: l) :
    Transfer L (.request p env) (shift L (.queue .freeEnvQ) (.held p) l (env :: L (.held p)))
  | release {p env} (henv : env ∈ L (.held p)) :
    Transfer L (.release p env)
      (shift L (.held p) (.queue .freeEnvQ) ((L (.held p)).erase env)
        (L (.queue .freeEnvQ) ++ [env]))
  | insert {p env l} (henv : env ∈ L (.held p)) (hl : l.Perm (env :: L .timeoutQueue)) :
    Transfer L (.insert p env)
      (shift L (.held p) .timeoutQueue ((L (.held p)).erase env) l)
  | expire {p env l} (hl : L .timeoutQueue = env :: l) :
    Transfer L (.expire p env) (shift L .timeoutQueue (.held p) l (env :: L (.held p)))
  | store {p env} (henv : env ∈ L (.held p)) :
    Transfer L (.store p env)
      (shift L (.held p) (.queue .displayQueue) ((L (.held p)).erase env)
        (L (.queue .displayQueue) ++ [env]))
  | display {p env l} (hl : L (.queue .displayQueue) = env :: l) :
    Transfer L (.display p env) (shift L (.queue .displayQueue) .screen l (env :: L .screen))
  | ack {p env} (henv : env ∈ L .screen) :
    Transfer L (.ack p env)
      (shift L .screen (.held p) ((L .screen).erase env) (env :: L (.held p)))

/-! ## What the queues do -/

namespace Ipc

variable {I I' J : Ipc n} {L : Spot n → List EnvPtr} {p : Fin n} {env : EnvPtr}
  {queue : QueuePtr n} {m : MailMove n}

/-- Only links changed, in the queue and at the envelope, and what the queue points to. -/
structure Requeued (I : Ipc n) (queue : QueuePtr n) (l : List EnvPtr) (env : EnvPtr) (J : Ipc n) :
    Prop where
  rest : J = { I with mem := J.mem, queues := J.queues }
  letter : J.letter = I.letter
  next : ∀ x, x ∉ l → x ≠ env → nextOf J.mem x = nextOf I.mem x

theorem Requeued.timeoutQueue {l : List EnvPtr} (h : Requeued I queue l env J) :
    J.timeoutQueue = I.timeoutQueue := by
  rw [h.rest]

theorem Requeued.prevMsg {l : List EnvPtr} (h : Requeued I queue l env J) :
    J.prevMsg = I.prevMsg := by
  rw [h.rest]

theorem Requeued.log {l : List EnvPtr} (h : Requeued I queue l env J) : J.log = I.log := by
  rw [h.rest]

theorem Requeued.clock {l : List EnvPtr} (h : Requeued I queue l env J) : J.clock = I.clock := by
  rw [h.rest]

/-- An envelope that is in no queue goes to the end of one, without fail. -/
theorem enqueue_spec {l : QueuePtr n → List EnvPtr} (h : I.toQueueMem.Holds l)
    (henv : ∀ j, env ∉ l j) (queue : QueuePtr n) :
    ∃ J, I.enqueue queue env = some J ∧ Requeued I queue (l queue) env J ∧
      J.toQueueMem.Holds (Function.update l queue (l queue ++ [env])) := by
  obtain ⟨s, hcall, hholds⟩ := h.enqueue henv queue
  obtain ⟨mem, q, henq, -, hletter, hnext⟩ :=
    Coldfire.msgEnvQueueEnqueue_spec (h.rep queue) (henv queue)
  have henq' : Coldfire.msgEnvQueueEnqueue I.mem (I.queues queue) env = some (mem, q) := henq
  obtain rfl : ⟨mem, Function.update I.queues queue q⟩ = s := by
    have hcall' := hcall
    simp only [QueueMem.call, henq', Option.map_some, Option.some.injEq, Prod.mk.injEq] at hcall'
    exact hcall'.2
  refine ⟨{ I with mem := mem, queues := Function.update I.queues queue q }, ?_, ⟨rfl, ?_, hnext⟩,
    hholds⟩
  · rw [enqueue, hcall]
    rfl
  · exact funext hletter

/-- The first envelope of a queue is taken, and leaves without its link. -/
theorem dequeue_spec {l : QueuePtr n → List EnvPtr} (h : I.toQueueMem.Holds l)
    (queue : QueuePtr n) :
    ∃ J, I.dequeue queue = ((l queue).head?, J) ∧
      J.toQueueMem.Holds (Function.update l queue (l queue).tail) ∧
      ∀ env ∈ (l queue).head?, Requeued I queue [] env J ∧ (J.mem env).next = none := by
  obtain ⟨s, hcall, hholds⟩ := h.dequeue queue
  obtain ⟨⟨found, mem, q⟩, hdeq⟩ :
      ∃ r, Coldfire.msgEnvQueueDequeue I.mem (I.queues queue) = r := ⟨_, rfl⟩
  have hcall' := hcall
  simp only [QueueMem.call, hdeq, Option.some.injEq, Prod.mk.injEq, QueueResult.env.injEq] at hcall'
  obtain ⟨hfound, rfl⟩ := hcall'
  refine ⟨{ I with mem := mem, queues := Function.update I.queues queue q }, ?_, hholds, ?_⟩
  · rw [dequeue, hdeq, ← hfound]
  · intro env henv
    have hmem := Coldfire.msgEnvQueueDequeue_mem (a := env)
      (show (Coldfire.msgEnvQueueDequeue I.mem (I.queues queue)).1 = some env by
        rw [hdeq]
        exact hfound.trans henv)
    rw [hdeq] at hmem
    have hmem' : mem = Coldfire.setNext I.mem env none := hmem
    subst hmem'
    refine ⟨⟨rfl, ?_, fun x _ hx => ?_⟩, ?_⟩
    · funext x
      exact Coldfire.toLetter_setNext ..
    · show nextOf (Coldfire.setNext I.mem env none) x = _
      rw [Coldfire.nextOf_setNext, Function.update_of_ne hx]
    · show (Coldfire.setNext I.mem env none env).next = none
      simp [Coldfire.setNext]

theorem take_spec {l : QueuePtr n → List EnvPtr} (h : I.toQueueMem.Holds l)
    (htake : I.take queue env = some J) :
    ∃ l', l queue = env :: l' ∧ Requeued I queue [] env J ∧ (J.mem env).next = none ∧
      J.toQueueMem.Holds (Function.update l queue l') := by
  obtain ⟨hdeq, hJ⟩ := Option.ite_none_right_eq_some.1 htake
  obtain ⟨J', hdeq', hholds, hrest⟩ := dequeue_spec h queue
  rw [hdeq'] at hdeq hJ
  obtain rfl : J' = J := Option.some.inj hJ
  obtain ⟨l', hl'⟩ := List.head?_eq_some_iff.1 hdeq
  obtain ⟨hreq, hnext⟩ := hrest env hdeq
  rw [hl', List.tail_cons] at hholds
  exact ⟨l', hl', hreq, hnext, hholds⟩

/-- `msg_env_queue_is_empty` tells the truth. -/
theorem isEmpty_eq {l : QueuePtr n → List EnvPtr} (h : I.toQueueMem.Holds l)
    (queue : QueuePtr n) : I.isEmpty queue = some (if l queue = [] then 1 else 0) :=
  (h.agreesWith queue).isEmpty_unix

theorem letter_setLetter (I : Ipc n) (env : EnvPtr) (letter : Letter) :
    (I.setLetter env letter).letter = Function.update I.letter env letter := by
  funext x
  by_cases hx : x = env
  · subst hx; simp [Ipc.letter, setLetter]
  · simp [Ipc.letter, setLetter, hx]

end Ipc

end Rtx.Unix
