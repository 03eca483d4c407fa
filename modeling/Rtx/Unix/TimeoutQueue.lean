import Rtx.Coldfire.MsgEnvQueue

/-!
# The timeout list of the Unix port

`timeout_queue.c`, on a memory of envelopes that `α` points to. The file is that of the ColdFire
port but for an assertion. A null pointer that is read through raises `SIGSEGV`, and a failed
assertion `SIGABRT`: there is no result then.
-/

namespace Rtx.Unix

open Coldfire (Body MsgEnv setNext wrap32 byteOf toNat_byteOf)

/-- `*((int *) msg)`, on a little-endian machine. -/
def getInt (b : Body) : ℤ :=
  wrap32 ((b 0).toNat + (b 1).toNat * 2 ^ 8 + (b 2).toNat * 2 ^ 16 + (b 3).toNat * 2 ^ 24)

/-- `*((int *) msg) = x`. -/
def putInt (b : Body) (x : ℤ) : Body := fun i => if i < 4 then byteOf x i else b i

@[simp] theorem getInt_putInt (b : Body) (x : ℤ) : getInt (putInt b x) = wrap32 x := by
  have hbytes : ((byteOf x 0).toNat : ℤ) + (byteOf x 1).toNat * 2 ^ 8 +
      (byteOf x 2).toNat * 2 ^ 16 + (byteOf x 3).toNat * 2 ^ 24 = x % 2 ^ 32 := by
    simp only [toNat_byteOf]
    omega
  simp only [getInt, putInt, Nat.reduceLT, if_true]
  rw [hbytes, wrap32, wrap32]
  exact Int.emod_bmod x (2 ^ 32)

variable {α : Type}

/-- The envelopes, the timeout list and the clock of `k_clock.c`. -/
structure TimeoutMem (α : Type) where
  env : α → MsgEnv α
  timeoutQueue : Option α
  clock : ℕ

namespace TimeoutMem

/-- `*((int *) env->msg)`; nothing where `msg` is null. -/
def timeoutOf (T : TimeoutMem α) (env : α) : Option ℤ := (T.env env).msg.map getInt

/-- Overwrite the body of an envelope. -/
def setMsg [DecidableEq α] (T : TimeoutMem α) (env : α) (body : Body) : TimeoutMem α :=
  { T with env := Function.update T.env env { T.env env with msg := some body } }

/-- The search loop of `timeout_queue_insert`: the final `prev_node` and `node`. With more fuel
than there are nodes it only runs out on a cyclic list, where the source loops for ever. -/
def insertionPoint (T : TimeoutMem α) (timeout : ℤ) :
    ℕ → α → Option α → ℤ → Option (α × Option α)
  | 0, _, _, _ => none
  | fuel + 1, prevNode, node, timeoutSoFar =>
    if timeoutSoFar < timeout then
      match node with
      | none => some (prevNode, none)
      | some node => do
        let timeoutSoFar ← (T.env node).next.bind T.timeoutOf
        T.insertionPoint timeout fuel node (T.env node).next timeoutSoFar
    else some (prevNode, node)

/-- `timeout_queue_insert`. The clock is a `uint64_t`, and so is its sum with the delay, until
`timeout` takes the low 32 bits. -/
def timeoutQueueInsert [DecidableEq α] (T : TimeoutMem α) (fuel : ℕ) (newMsgEnv : Option α) :
    Option (TimeoutMem α) := do
  let newMsgEnv ← newMsgEnv
  let body ← (T.env newMsgEnv).msg
  let timeout := wrap32 (T.clock + getInt body)
  let T := T.setMsg newMsgEnv (putInt body timeout)
  match T.timeoutQueue with
  | none => return { T with timeoutQueue := some newMsgEnv }
  | some node =>
    let timeoutSoFar ← T.timeoutOf node
    if timeout ≤ timeoutSoFar then
      return { T with env := setNext T.env newMsgEnv (some node), timeoutQueue := some newMsgEnv }
    else
      let prevNode := node
      let node := (T.env node).next
      let (prevNode, node) ←
        match node with
        | none => some (prevNode, none)
        | some next => do T.insertionPoint timeout fuel prevNode (some next) (← T.timeoutOf next)
      return { T with env := setNext (setNext T.env prevNode (some newMsgEnv)) newMsgEnv node }

/-- `check_timeout_queue`: what it returns. The clock is a `uint64_t`, so the integer is converted
to one before they are compared. -/
def checkTimeoutQueue (T : TimeoutMem α) : Option (Option α × TimeoutMem α) :=
  match T.timeoutQueue with
  | none => some (none, T)
  | some msgEnv => do
    let timeout ← T.timeoutOf msgEnv
    if timeout % 2 ^ 64 ≤ T.clock then
      return (some msgEnv, { T with timeoutQueue := (T.env msgEnv).next })
    else return (none, T)

end TimeoutMem

end Rtx.Unix
