import Mathlib.Data.Finset.Insert
import Mathlib.Data.Finset.Lattice.Basic
import Rtx.Coldfire.Structs

/-!
# Signals and context switches of the Unix port

`atomic`, `handle_signal`, `k_i_process_enter` and `k_i_process_exit`, statement by statement,
with `k_process_switch` and what `k_process_init` leaves on the stacks. A process is an element of
`α`.

The stack of the running process is a list of frames, the innermost call first. `setjmp` keeps it
as it is, `longjmp` goes back to it, and neither touches the signal mask. A signal is masked while
its own handler runs; when the handler returns, the mask is again what it was at the delivery.
There is no step where an assertion fails, and none after `k_terminate`.
-/

namespace Rtx.Unix

open Coldfire (ProcessState)

/-- The kernel signals. -/
inductive Signal
  | sigalrm
  | sigint
  | sigusr1
  | sigusr2
  deriving DecidableEq

/-- The set that `atomic` blocks. -/
def newmask : Finset Signal := {.sigalrm, .sigint, .sigusr1, .sigusr2}

@[simp] theorem mem_newmask (sigNum : Signal) : sigNum ∈ newmask := by
  cases sigNum <;> decide

/-! ## Where the code stands -/

/-- The statements of `atomic(ON)`. -/
inductive On
  /-- `current_process->atomic_count++` -/
  | incr
  /-- `if (current_process->atomic_count == FIRST_ON)` -/
  | test
  /-- `sigprocmask(SIG_BLOCK, &newmask, &oldmask)` -/
  | block
  deriving DecidableEq

/-- The statements of `atomic(OFF)`. -/
inductive Off
  /-- `current_process->atomic_count--` -/
  | decr
  /-- `assert(current_process->atomic_count >= 0)` -/
  | check
  /-- `if (current_process->atomic_count == LAST_OFF)` -/
  | test
  /-- `sigprocmask(SIG_SETMASK, &oldmask, NULL)` -/
  | restore
  deriving DecidableEq

/-- The statements of `k_i_process_enter`. -/
inductive Enter
  /-- `assert(flag == 0)` -/
  | checkFlag
  /-- `flag = 1` -/
  | setFlag
  /-- `assert(i_process->is_i_process)` -/
  | checkIProcess
  /-- `interrupted_process = current_process` -/
  | save
  /-- `interrupted_process->status = P_INTERRUPTED` -/
  | interrupt
  /-- `current_process = i_process` -/
  | take
  /-- `current_process->status = P_EXECUTING` -/
  | execute
  /-- `assert(interrupted_process)` -/
  | checkInterrupted
  /-- `k_context_switch(&interrupted_process->context, &current_process->context)` -/
  | switch
  deriving DecidableEq

/-- The statements of `k_i_process_exit`, with the local `i_process`. -/
inductive Exit (α : Type)
  /-- `assert(flag == 1)` -/
  | checkFlag
  /-- `flag = 0` -/
  | clearFlag
  /-- `pcb_t* i_process = current_process` -/
  | take
  /-- `i_process->status = P_READY` -/
  | ready (iProcess : α)
  /-- `assert(interrupted_process)` -/
  | checkInterrupted (iProcess : α)
  /-- `current_process = interrupted_process` -/
  | giveBack (iProcess : α)
  /-- `interrupted_process = NULL` -/
  | forget (iProcess : α)
  /-- `current_process->status = P_EXECUTING` -/
  | execute (iProcess : α)
  /-- `k_context_switch(&i_process->context, &current_process->context)` -/
  | switch (iProcess : α)
  deriving DecidableEq

/-- Where a primitive or a handler stands: in `atomic(ON)`, in the kernel code of the primitive or
at the `switch` of the handler, in `k_i_process_enter`, in `atomic(OFF)`, or behind it. -/
inductive Pc
  | on (i : On)
  | body
  | enter (i : Enter)
  | off (i : Off)
  | ret
  deriving DecidableEq

/-- What calls `atomic`. -/
inductive Call
  | primitive
  /-- `handle_signal(sigNum)`, with the mask at the delivery. -/
  | handler (sigNum : Signal) (saved : Finset Signal)
  deriving DecidableEq

/-- A frame of a stack. -/
inductive Frame (α : Type)
  /-- A process's own code. -/
  | user
  /-- The `atomic(OFF)` with which a process starts. -/
  | start (i : Off)
  | call (call : Call) (pc : Pc)
  /-- The code of an i-process. -/
  | iProcess
  /-- `k_i_process_exit`. -/
  | exit (i : Exit α)
  deriving DecidableEq

/-- `init_table`, and the i-process each signal is for. -/
structure Table (α : Type) where
  isIProcess : α → Bool
  iProcess : Signal → α
  isIProcess_iProcess : ∀ sigNum, isIProcess (iProcess sigNum) = true

/-- `TOTAL_NUM_PROCESSES`. -/
abbrev totalNumProcesses : ℕ := 9

instance : NeZero totalNumProcesses := ⟨by decide⟩

/-- The processes of `k_init`; `SIGINT` is for none of them. -/
def initTable : Table (Fin totalNumProcesses) where
  isIProcess p := p.val < 3
  iProcess
    | .sigusr1 => 0
    | .sigusr2 => 1
    | _ => 2
  isIProcess_iProcess sigNum := by cases sigNum <;> decide

/-- The globals, the fields of the PCBs that matter here, the signal mask and the stack. -/
structure SigState (α : Type) where
  currentProcess : α
  interruptedProcess : Option α
  flag : Bool
  atomicCount : α → ℤ
  status : α → ProcessState
  mask : Finset Signal
  oldmask : Finset Signal
  stack : List (Frame α)
  context : α → List (Frame α)

/-- What happens next. -/
inductive SigLabel (α : Type)
  | deliver (sigNum : Signal)
  /-- The next statement. -/
  | run
  /-- The process calls a primitive. -/
  | call
  /-- A primitive blocks or releases the processor, and `next` is the next process. -/
  | switch (nextStatus : ProcessState) (next : α)
  deriving DecidableEq

namespace SigState

variable {α : Type} [DecidableEq α]

/-! ## The code -/

/-- A statement of `atomic(ON)`, with the frames that go on at a later one or behind it. -/
def atomicOn (s : SigState α) (goOn : Option On → List (Frame α)) : On → SigState α
  | .incr => { s with
      atomicCount := Function.update s.atomicCount s.currentProcess
        (s.atomicCount s.currentProcess + 1)
      stack := goOn (some .test) }
  | .test => { s with
      stack := goOn (if s.atomicCount s.currentProcess = 1 then some .block else none) }
  | .block => { s with oldmask := s.mask, mask := s.mask ∪ newmask, stack := goOn none }

/-- A statement of `atomic(OFF)`. -/
def atomicOff (s : SigState α) (goOn : Option Off → List (Frame α)) : Off → Option (SigState α)
  | .decr => some { s with
      atomicCount := Function.update s.atomicCount s.currentProcess
        (s.atomicCount s.currentProcess - 1)
      stack := goOn (some .check) }
  | .check =>
    if 0 ≤ s.atomicCount s.currentProcess then some { s with stack := goOn (some .test) }
    else none
  | .test => some { s with
      stack := goOn (if s.atomicCount s.currentProcess = 0 then some .restore else none) }
  | .restore => some { s with mask := s.oldmask, stack := goOn none }

/-- A statement of `k_i_process_enter(iProcess)`, with the frames that go on at a later one or
behind it. -/
def kIProcessEnter (T : Table α) (s : SigState α) (iProcess : α)
    (goOn : Option Enter → List (Frame α)) : Enter → Option (SigState α)
  | .checkFlag => if s.flag then none else some { s with stack := goOn (some .setFlag) }
  | .setFlag => some { s with flag := true, stack := goOn (some .checkIProcess) }
  | .checkIProcess =>
    if T.isIProcess iProcess then some { s with stack := goOn (some .save) } else none
  | .save => some { s with
      interruptedProcess := some s.currentProcess
      stack := goOn (some .interrupt) }
  | .interrupt => s.interruptedProcess.map fun p => { s with
      status := Function.update s.status p .interrupted
      stack := goOn (some .take) }
  | .take => some { s with currentProcess := iProcess, stack := goOn (some .execute) }
  | .execute => some { s with
      status := Function.update s.status s.currentProcess .executing
      stack := goOn (some .checkInterrupted) }
  | .checkInterrupted =>
    if s.interruptedProcess.isSome then some { s with stack := goOn (some .switch) } else none
  | .switch => s.interruptedProcess.map fun p =>
      let context := Function.update s.context p (goOn none)
      { s with context := context, stack := context s.currentProcess }

/-- A statement of `k_i_process_exit`, below which there are the frames `rest`. -/
def kIProcessExit (s : SigState α) (rest : List (Frame α)) : Exit α → Option (SigState α)
  | .checkFlag => if s.flag then some { s with stack := .exit .clearFlag :: rest } else none
  | .clearFlag => some { s with flag := false, stack := .exit .take :: rest }
  | .take => some { s with stack := .exit (.ready s.currentProcess) :: rest }
  | .ready iProcess => some { s with
      status := Function.update s.status iProcess .ready
      stack := .exit (.checkInterrupted iProcess) :: rest }
  | .checkInterrupted iProcess =>
    if s.interruptedProcess.isSome then some { s with stack := .exit (.giveBack iProcess) :: rest }
    else none
  | .giveBack iProcess => s.interruptedProcess.map fun p => { s with
      currentProcess := p
      stack := .exit (.forget iProcess) :: rest }
  | .forget iProcess => some { s with
      interruptedProcess := none
      stack := .exit (.execute iProcess) :: rest }
  | .execute iProcess => some { s with
      status := Function.update s.status s.currentProcess .executing
      stack := .exit (.switch iProcess) :: rest }
  | .switch iProcess =>
    let context := Function.update s.context iProcess rest
    some { s with context := context, stack := context s.currentProcess }

/-- The next statement of a primitive or of `handle_signal`. -/
def callStep (T : Table α) (s : SigState α) (rest : List (Frame α)) :
    Call → Pc → Option (SigState α)
  | call, .on i => some (s.atomicOn (fun j => .call call (j.elim .body .on) :: rest) i)
  | .primitive, .body => some { s with stack := .call .primitive (.off .decr) :: rest }
  | .handler sigNum saved, .body =>
    -- `SIGINT` terminates the RTX.
    if sigNum = .sigint then none
    else some { s with stack := .call (.handler sigNum saved) (.enter .checkFlag) :: rest }
  | .primitive, .enter _ => none
  | .handler sigNum saved, .enter i =>
    s.kIProcessEnter T (T.iProcess sigNum)
      (fun j => .call (.handler sigNum saved) (j.elim (.off .decr) .enter) :: rest) i
  | call, .off i => s.atomicOff (fun j => .call call (j.elim .ret .off) :: rest) i
  | .primitive, .ret => some { s with stack := rest }
  | .handler _ saved, .ret => some { s with mask := saved, stack := rest }

/-- The next statement. A process's own code does nothing here, the code of an i-process ends in
`k_i_process_exit`. -/
def runStep (T : Table α) (s : SigState α) : Option (SigState α) :=
  match s.stack with
  | [] => none
  | .user :: _ => some s
  | .start i :: rest => s.atomicOff (fun j => j.elim .user .start :: rest) i
  | .call call pc :: rest => s.callStep T rest call pc
  | .iProcess :: rest => some { s with stack := .exit .checkFlag :: .iProcess :: rest }
  | .exit i :: rest => s.kIProcessExit rest i

/-- `k_process_switch`. -/
def kProcessSwitch (s : SigState α) (nextStatus : ProcessState) (next : α) : SigState α :=
  let context := Function.update s.context s.currentProcess s.stack
  { s with
    status := Function.update (Function.update s.status s.currentProcess nextStatus) next .executing
    currentProcess := next
    context := context
    stack := context next }

def step (T : Table α) (s : SigState α) : SigLabel α → Option (SigState α)
  | .deliver sigNum =>
    if sigNum ∈ s.mask then none
    else some { s with
      stack := .call (.handler sigNum s.mask) (.on .incr) :: s.stack
      mask := insert sigNum s.mask }
  | .run => s.runStep T
  | .call =>
    match s.stack with
    | .user :: rest => some { s with stack := .call .primitive (.on .incr) :: .user :: rest }
    | _ => none
  | .switch nextStatus next =>
    match s.stack with
    | .call .primitive .body :: _ =>
      -- The ready queue holds no i-process.
      if T.isIProcess next then none else some (s.kProcessSwitch nextStatus next)
    | _ => none

/-- The stacks that `k_process_init` makes. -/
def initContext (T : Table α) (p : α) : List (Frame α) :=
  if T.isIProcess p then [.iProcess] else [.start .decr]

/-- `k_enter_scheduler` has entered the first process. -/
structure Entered (T : Table α) (s : SigState α) : Prop where
  current : T.isIProcess s.currentProcess = false
  interrupted : s.interruptedProcess = none
  flag : s.flag = false
  atomicCount : ∀ p, s.atomicCount p = if T.isIProcess p then 0 else 1
  mask : s.mask = ∅
  oldmask : s.oldmask = ∅
  stack : s.stack = initContext T s.currentProcess
  context : ∀ p, s.context p = initContext T p

end SigState

end Rtx.Unix
