import Mathlib.Logic.Function.Basic
import Mathlib.Data.Int.Order.Basic
import Mathlib.Tactic.Ring

/-!
# ColdFire kernel: constants and records

The records of `rtx.h` and `k_structs.h`, and the constants of `k_globals.h`. A pointer to a PCB
is an index into `p_table`, a pointer to an envelope is an element of one of the two pools, and
`NULL` is `none`.

The header declares every fixed-width name, `uint32_t` included, as `signed long`; so all of
them are integers here, and the two places where arithmetic can leave the 32 bits (the clock
and the absolute timeouts) go through `wrap32`.
-/

namespace Rtx.Coldfire

/-! ## Constants -/

def nullPid : ℤ := 0
def cciPid : ℤ := -1
def uartIProcessPid : ℤ := -2
def timerIProcessPid : ℤ := -3
def pongPid : ℤ := 5

def numPriorities : ℕ := 3
def additionalNullPriority : ℕ := 1
def nullPriority : ℤ := 3

def ipcMessageTraceHistorySize : ℕ := 16
def ipcMsgEnvMsgSize : ℕ := 1024
abbrev ipcNumFreeMsgEnvs : ℕ := 32
abbrev ipcNumSysFreeMsgEnvs : ℕ := 2

def codeSuccess : ℤ := 0
def errorNullArg : ℤ := -1
def errorIllegalArg : ℤ := -2

def displayAck : ℤ := -1
def consoleOutput : ℤ := -2
def consoleOutputRequestAck : ℤ := -3
def consoleInput : ℤ := -4

/-- The sentinel time stamp: `(uint32_t) -1`, a signed `-1` under the header's typedef. -/
def maxUint32 : ℤ := -1

/-! ## 32-bit integers in message bodies -/

/-- The value a 32-bit signed integer keeps of `x`. -/
def wrap32 (x : ℤ) : ℤ := x.bmod (2 ^ 32)

theorem wrap32_of_range {x : ℤ} (h₁ : -2 ^ 31 ≤ x) (h₂ : x < 2 ^ 31) : wrap32 x = x := by
  unfold wrap32
  rw [Int.bmod_def]
  split <;> omega

theorem wrap32_range (x : ℤ) : -2 ^ 31 ≤ wrap32 x ∧ wrap32 x < 2 ^ 31 := by
  unfold wrap32
  rw [Int.bmod_def]
  split <;> omega

@[simp] theorem wrap32_wrap32 (x : ℤ) : wrap32 (wrap32 x) = wrap32 x :=
  wrap32_of_range (wrap32_range x).1 (wrap32_range x).2

/-- The bytes behind an envelope's `msg`; only the first `ipcMsgEnvMsgSize` belong to it. -/
abbrev Body := ℕ → UInt8

/-- Byte `k` of a 32-bit integer, counted from the low end. -/
def byteOf (x : ℤ) (k : ℕ) : UInt8 := UInt8.ofNat (x / 256 ^ k % 256).toNat

/-- `*((int *) (msg + off))`, on the big-endian ColdFire. -/
def getInt (b : Body) (off : ℕ) : ℤ :=
  wrap32 ((b off).toNat * 2 ^ 24 + (b (off + 1)).toNat * 2 ^ 16 + (b (off + 2)).toNat * 2 ^ 8 +
    (b (off + 3)).toNat)

/-- `*((int *) (msg + off)) = x`. -/
def putInt (b : Body) (off : ℕ) (x : ℤ) : Body := fun i =>
  if i = off then byteOf x 3
  else if i = off + 1 then byteOf x 2
  else if i = off + 2 then byteOf x 1
  else if i = off + 3 then byteOf x 0
  else b i

theorem toNat_byteOf (x : ℤ) (k : ℕ) : ((byteOf x k).toNat : ℤ) = x / 256 ^ k % 256 := by
  have h₀ : 0 ≤ x / 256 ^ k % 256 := Int.emod_nonneg _ (by decide)
  have h₁ : x / 256 ^ k % 256 < 256 := Int.emod_lt_of_pos _ (by decide)
  rw [byteOf, UInt8.toNat_ofNat']
  omega

/-- What is written as an integer is read back as one. -/
@[simp] theorem getInt_putInt (b : Body) (off : ℕ) (x : ℤ) :
    getInt (putInt b off x) off = wrap32 x := by
  have hbytes : ((byteOf x 3).toNat : ℤ) * 2 ^ 24 + (byteOf x 2).toNat * 2 ^ 16 +
      (byteOf x 1).toNat * 2 ^ 8 + (byteOf x 0).toNat = x % 2 ^ 32 := by
    simp only [toNat_byteOf]
    omega
  simp only [getInt, putInt, if_true, Nat.add_eq_left, Nat.add_right_inj, OfNat.ofNat_ne_zero,
    one_ne_zero, if_false, Nat.reduceEqDiff]
  rw [hbytes, wrap32, wrap32]
  exact Int.emod_bmod x (2 ^ 32)

theorem getInt_putInt_of_ne (b : Body) {off off' : ℕ} (x : ℤ)
    (h : off + 4 ≤ off' ∨ off' + 4 ≤ off) : getInt (putInt b off x) off' = getInt b off' := by
  have hput : ∀ i, off' ≤ i → i < off' + 4 → putInt b off x i = b i := fun i h₁ h₂ => by
    unfold putInt
    rw [if_neg (by omega), if_neg (by omega), if_neg (by omega), if_neg (by omega)]
  unfold getInt
  rw [hput off' (by omega) (by omega), hput (off' + 1) (by omega) (by omega),
    hput (off' + 2) (by omega) (by omega), hput (off' + 3) (by omega) (by omega)]

/-! ## Envelopes -/

/-- What an envelope carries, apart from the link: the header fields and the body. -/
structure Letter where
  destPid : ℤ
  sendPid : ℤ
  msgType : ℤ
  msg : Option Body

/-- `MsgEnv`, with envelopes pointed to by `ι`. -/
structure MsgEnv (ι : Type) extends Letter where
  next : Option ι

instance : NeZero ipcNumFreeMsgEnvs := ⟨by decide⟩

/-- A pointer to an envelope: an element of `env_pool` or of `sys_env_pool`. -/
inductive EnvPtr
  | envPool (i : Fin ipcNumFreeMsgEnvs)
  | sysEnvPool (i : Fin ipcNumSysFreeMsgEnvs)
  deriving DecidableEq

/-- `sizeof(MsgEnv)`: five 32-bit words. -/
def sizeofMsgEnv : ℕ := 20

/-- Start of `env_pool`, counted from `HEAP_START`: `init_ipc` first allocates two queues of two
pointers each, and `k_malloc` hands out consecutive addresses. -/
def envPool : ℕ := 2 * 8

/-- Start of `sys_env_pool`, counted from `HEAP_START`. -/
def sysEnvPool : ℕ := envPool + ipcNumFreeMsgEnvs * sizeofMsgEnv

/-- The address a pointer stands for, counted from `HEAP_START`. -/
def EnvPtr.addr : EnvPtr → ℕ
  | .envPool i => Coldfire.envPool + i * sizeofMsgEnv
  | .sysEnvPool i => Coldfire.sysEnvPool + i * sizeofMsgEnv

/-- `k_is_msg_env_sys_env`. -/
def kIsMsgEnvSysEnv (env : EnvPtr) : Bool :=
  if sysEnvPool ≤ env.addr ∧ env.addr < sysEnvPool + ipcNumSysFreeMsgEnvs * sizeofMsgEnv then
    let offset := env.addr - sysEnvPool
    offset % sizeofMsgEnv == 0
  else false

/-- The address test recognises exactly the elements of `sys_env_pool`. -/
@[simp] theorem kIsMsgEnvSysEnv_envPool (i : Fin ipcNumFreeMsgEnvs) :
    kIsMsgEnvSysEnv (.envPool i) = false := by
  have hi := i.isLt
  rw [kIsMsgEnvSysEnv, if_neg]
  simp only [EnvPtr.addr, sysEnvPool, envPool, sizeofMsgEnv]
  omega

@[simp] theorem kIsMsgEnvSysEnv_sysEnvPool (i : Fin ipcNumSysFreeMsgEnvs) :
    kIsMsgEnvSysEnv (.sysEnvPool i) = true := by
  have hi := i.isLt
  rw [kIsMsgEnvSysEnv, if_pos]
  · simp [EnvPtr.addr]
  · simp only [EnvPtr.addr, sysEnvPool, envPool, sizeofMsgEnv]
    omega

/-! ## Processes -/

/-- `enum process_state`. -/
inductive ProcessState
  | ready
  | executing
  | blockedOnEnvRequest
  | blockedOnReceive
  | interrupted
  deriving DecidableEq

/-- What the saved context of a process goes on with: the process's own code, or the statement
after `k_process_switch` in one of the three primitives that call it. -/
inductive Context
  | user
  | receiveMessage
  | requestMsgEnv
  | releaseProcessor
  deriving DecidableEq

/-- The fields of `pcb_t` the scheduler looks at, apart from the link. The other half of the
record, `recv_msgs` and `env_owned`, is kept with the envelopes. -/
structure ProcInfo where
  pid : ℤ
  priority : ℤ
  state : ProcessState
  context : Context
  isIProcess : Bool

/-- The scheduling half of `pcb_t`. -/
structure Pcb (n : ℕ) extends ProcInfo where
  next : Option (Fin n)

/-- The fields of `pcb_init_t` the kernel keeps. -/
structure PcbInit where
  pid : ℤ
  priority : ℤ
  isIProcess : Bool

end Rtx.Coldfire
