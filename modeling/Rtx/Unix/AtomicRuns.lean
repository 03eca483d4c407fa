import Rtx.Lib.Run
import Rtx.Unix.Signals

/-!
# What `atomic` protects

The invariant of the signal mask. Handlers only nest where the outer ones have not begun their
`atomic(ON)` or have ended their `atomic(OFF)` (`Quiet`); between the two every kernel signal is
masked, and `oldmask` is what the mask was before (`Mode`). A process that does not run is inside
a primitive, or has not started yet (`Parked`).

What breaks it is a signal between `atomic_count++` and `sigprocmask`: its handler finds the count
positive and does not mask anything.
-/

namespace Rtx.Unix

open Transition
open Coldfire (ProcessState)

variable {α : Type}

/-! ## Stacks on which signals are delivered -/

/-- Before `atomic(ON)`, or behind `atomic(OFF)`. -/
def Pc.Idle (pc : Pc) : Prop := pc = .on .incr ∨ pc = .ret

/-- The frames run with the mask as it is: what the handlers among them mask, and what the process
below has masked, which meets `B`. -/
inductive Quiet (B : Finset Signal → Prop) : List (Frame α) → Finset Signal → Prop
  | user {mask : Finset Signal} (hmask : B mask) : Quiet B [.user] mask
  | primitive {mask : Finset Signal} {pc : Pc} (hmask : B mask) (hpc : pc.Idle) :
    Quiet B [.call .primitive pc, .user] mask
  | start {mask : Finset Signal} {i : Off} (hB : ∀ mask, B mask) (hi : i ≠ .decr) :
    Quiet B [.start i] mask
  | handler {stack : List (Frame α)} {mask : Finset Signal} {sigNum : Signal} {pc : Pc}
    (h : Quiet B stack mask) (hpc : pc.Idle) :
    Quiet B (.call (.handler sigNum mask) pc :: stack) (insert sigNum mask)

/-- The mask around a call of `atomic`. -/
def Over (B : Finset Signal → Prop) (call : Call) (rest : List (Frame α)) (mask : Finset Signal) :
    Prop :=
  ∀ pc : Pc, pc.Idle → Quiet B (.call call pc :: rest) mask

variable {B : Finset Signal → Prop} {call : Call} {rest : List (Frame α)} {mask : Finset Signal}
  {pc : Pc}

theorem Quiet.idle (h : Quiet B (.call call pc :: rest) mask) : pc.Idle := by
  cases h with
  | primitive hmask hpc => exact hpc
  | handler h hpc => exact hpc

theorem Over.primitive (h : Over B .primitive rest mask) : rest = [.user] ∧ B mask := by
  cases h .ret (.inr rfl) with
  | primitive hmask hpc => exact ⟨rfl, hmask⟩

theorem over_primitive (hmask : B mask) : Over B .primitive [(.user : Frame α)] mask :=
  fun _ hpc => .primitive hmask hpc

/-! ## The invariant -/

/-- The count at the end of a call of `atomic`. -/
def Off.count : Off → ℤ
  | .decr => 1
  | _ => 0

namespace Enter

/-- `flag` is set. -/
def flag : Enter → Bool
  | checkFlag | setFlag => false
  | _ => true

/-- `interrupted_process` is set. -/
def saved : Enter → Bool
  | checkFlag | setFlag | checkIProcess | save => false
  | _ => true

/-- `current_process` is the i-process. -/
def taken : Enter → Bool
  | execute | checkInterrupted | switch => true
  | _ => false

end Enter

namespace Exit

/-- `flag` is set. -/
def flag : Exit α → Bool
  | checkFlag | clearFlag => true
  | _ => false

/-- `current_process` is the interrupted process again. -/
def given : Exit α → Bool
  | forget _ | execute _ | switch _ => true
  | _ => false

/-- `interrupted_process` is `NULL` again. -/
def forgotten : Exit α → Bool
  | execute _ | switch _ => true
  | _ => false

/-- The local `i_process`. -/
def iProcess : Exit α → Option α
  | checkFlag | clearFlag | take => none
  | ready p | checkInterrupted p | giveBack p | forget p | execute p | switch p => some p

end Exit

/-- The processes that do not run are inside a primitive or have not started; the i-processes
start over. -/
structure Parked (T : Table α) (s : SigState α) (owner : α) : Prop where
  user : T.isIProcess owner = false
  iProcess : ∀ p, T.isIProcess p = true → s.context p = [.iProcess] ∧ s.atomicCount p = 0
  other : ∀ p, T.isIProcess p = false → p ≠ owner → s.atomicCount p = 1 ∧
    (s.context p = [.start .decr] ∨ s.context p = [.call .primitive .body, .user])

/-- An i-process runs for a handler of `owner`, which is to go on with `atomic(OFF)`. -/
structure Inside (B : Finset Signal → Prop) (s : SigState α) (owner : α) : Prop where
  context : ∃ sigNum saved rest,
    s.context owner = .call (.handler sigNum saved) (.off .decr) :: rest ∧
      Over B (.handler sigNum saved) rest s.oldmask
  mask : ∀ sigNum, sigNum ∈ s.mask
  count : s.atomicCount owner = 1

/-- Where the process `owner`, whose stack is in use, stands. -/
inductive Mode (B : Finset Signal → Prop) (T : Table α) (s : SigState α) (owner : α) : Prop
  | quiet (hstack : Quiet B s.stack s.mask) (hcount : s.atomicCount owner = 0)
    (hcurrent : s.currentProcess = owner) (hinterrupted : s.interruptedProcess = none)
    (hflag : s.flag = false)
  | on {call : Call} {i : On} {rest : List (Frame α)}
      (hstack : s.stack = .call call (.on i) :: rest)
    (hi : i ≠ .incr) (hover : Over B call rest s.mask) (hcount : s.atomicCount owner = 1)
    (hcurrent : s.currentProcess = owner) (hinterrupted : s.interruptedProcess = none)
    (hflag : s.flag = false)
  | body {call : Call} {rest : List (Frame α)} (hstack : s.stack = .call call .body :: rest)
    (hover : Over B call rest s.oldmask) (hmask : ∀ sigNum, sigNum ∈ s.mask)
    (hcount : s.atomicCount owner = 1) (hcurrent : s.currentProcess = owner)
    (hinterrupted : s.interruptedProcess = none) (hflag : s.flag = false)
  | off {call : Call} {i : Off} {rest : List (Frame α)}
    (hstack : s.stack = .call call (.off i) :: rest) (hover : Over B call rest s.oldmask)
    (hmask : ∀ sigNum, sigNum ∈ s.mask) (hcount : s.atomicCount owner = i.count)
    (hcurrent : s.currentProcess = owner) (hinterrupted : s.interruptedProcess = none)
    (hflag : s.flag = false)
  | enter {sigNum : Signal} {saved : Finset Signal} {i : Enter} {rest : List (Frame α)}
    (hstack : s.stack = .call (.handler sigNum saved) (.enter i) :: rest)
    (hover : Over B (.handler sigNum saved) rest s.oldmask) (hmask : ∀ sigNum, sigNum ∈ s.mask)
    (hcount : s.atomicCount owner = 1)
    (hcurrent : s.currentProcess = if i.taken then T.iProcess sigNum else owner)
    (hinterrupted : s.interruptedProcess = if i.saved then some owner else none)
    (hflag : s.flag = i.flag)
  | iProcess (hstack : s.stack = [.iProcess]) (hinside : Inside B s owner)
    (hcurrent : T.isIProcess s.currentProcess = true)
    (hinterrupted : s.interruptedProcess = some owner) (hflag : s.flag = true)
  | exit {i : Exit α} (hstack : s.stack = [.exit i, .iProcess]) (hinside : Inside B s owner)
    (hiProcess : ∀ p ∈ i.iProcess, T.isIProcess p = true)
    (hcurrent : if i.given then s.currentProcess = owner else T.isIProcess s.currentProcess = true)
    (hinterrupted : s.interruptedProcess = if i.forgotten then none else some owner)
    (hflag : s.flag = i.flag)
  | start {i : Off} (hstack : s.stack = [.start i]) (hold : B s.oldmask)
    (hcount : s.atomicCount owner = i.count) (hcurrent : s.currentProcess = owner)
    (hinterrupted : s.interruptedProcess = none) (hflag : s.flag = false)

variable {T : Table α} {s s' : SigState α} {owner : α}

/-- An i-process has no stack of its own to run on. -/
theorem Parked.ne_owner (h : Parked T s owner) {p : α} (hp : T.isIProcess p = true) :
    p ≠ owner := by
  rintro rfl
  rw [h.user] at hp
  contradiction

theorem Parked.congr (h : Parked T s owner)
    (hcontext : ∀ p, p ≠ owner → s'.context p = s.context p)
    (hcount : ∀ p, p ≠ owner → s'.atomicCount p = s.atomicCount p) : Parked T s' owner where
  user := h.user
  iProcess p hp := by
    have hne : p ≠ owner := h.ne_owner hp
    rw [hcontext p hne, hcount p hne]
    exact h.iProcess p hp
  other p hp hne := by
    rw [hcontext p hne, hcount p hne]
    exact h.other p hp hne

theorem Inside.congr (h : Inside B s owner) (hcontext : s'.context = s.context)
    (hcount : s'.atomicCount = s.atomicCount) (hmask : s'.mask = s.mask)
    (hold : s'.oldmask = s.oldmask) : Inside B s' owner where
  context := by rw [hcontext, hold]; exact h.context
  mask := by rw [hmask]; exact h.mask
  count := by rw [hcount]; exact h.count

/-- The invariant. -/
def Inv (B : Finset Signal → Prop) (T : Table α) (s : SigState α) : Prop :=
  ∃ owner, Parked T s owner ∧ Mode B T s owner

theorem Inv.same (h : Parked T s owner) (hcontext : s'.context = s.context)
    (hcount : ∀ p, p ≠ owner → s'.atomicCount p = s.atomicCount p) (hmode : Mode B T s' owner) :
    Inv B T s' :=
  ⟨owner, h.congr (fun p _ => congrFun hcontext p) hcount, hmode⟩

/-- Where a signal does no harm: not inside `atomic(ON)`, and not before the `atomic(OFF)` of a
process that starts. -/
structure Deliverable (B : Finset Signal → Prop) (s : SigState α) : Prop where
  on : ∀ call i rest, s.stack = .call call (.on i) :: rest → i = .incr
  start : ∀ i rest, s.stack = .start i :: rest → i ≠ .decr ∧ ∀ mask, B mask

/-! ## The statements -/

namespace SigState

variable [DecidableEq α]

theorem atomicOn_inv {i : On} (h : Parked T s owner) (hover : Over B call rest s.mask)
    (hcount : s.atomicCount owner = if i = .incr then 0 else 1)
    (hcurrent : s.currentProcess = owner)
    (hinterrupted : s.interruptedProcess = none) (hflag : s.flag = false) :
    Inv B T (s.atomicOn (fun j => .call call (j.elim .body .on) :: rest) i) := by
  subst hcurrent
  cases i with
  | incr =>
    refine .same h rfl (fun p hp => Function.update_of_ne hp _ _) ?_
    refine .on rfl (by decide) hover ?_ rfl hinterrupted hflag
    simp [atomicOn, hcount]
  | test =>
    refine .same h rfl (fun p _ => rfl) ?_
    simp only [atomicOn]
    rw [if_pos (by simpa using hcount)]
    exact .on rfl (by decide) hover hcount rfl hinterrupted hflag
  | block =>
    refine .same h rfl (fun p _ => rfl) ?_
    exact .body rfl hover (fun sigNum => by simp [atomicOn]) hcount rfl hinterrupted hflag

theorem atomicOff_inv {i : Off} (h : Parked T s owner) (hover : Over B call rest s.oldmask)
    (hmask : ∀ sigNum, sigNum ∈ s.mask) (hcount : s.atomicCount owner = i.count)
    (hcurrent : s.currentProcess = owner) (hinterrupted : s.interruptedProcess = none)
    (hflag : s.flag = false)
    (hstep : s.atomicOff (fun j => .call call (j.elim .ret .off) :: rest) i = some s') :
    Inv B T s' := by
  subst hcurrent
  cases i with
  | decr =>
    cases hstep
    refine .same h rfl (fun p hp => Function.update_of_ne hp _ _) ?_
    refine .off rfl hover hmask ?_ rfl hinterrupted hflag
    simp [hcount, Off.count]
  | check =>
    obtain ⟨-, hstep⟩ := Option.ite_none_right_eq_some.1 hstep
    cases hstep
    exact .same h rfl (fun p _ => rfl) (.off rfl hover hmask hcount rfl hinterrupted hflag)
  | test =>
    cases hstep
    refine .same h rfl (fun p _ => rfl) ?_
    rw [if_pos (show s.atomicCount s.currentProcess = 0 from hcount)]
    exact .off rfl hover hmask hcount rfl hinterrupted hflag
  | restore =>
    cases hstep
    refine .same h rfl (fun p _ => rfl) ?_
    exact .quiet (hover .ret (.inr rfl)) hcount rfl hinterrupted hflag

theorem start_inv {i : Off} (h : Parked T s owner) (hold : B s.oldmask)
    (hcount : s.atomicCount owner = i.count) (hcurrent : s.currentProcess = owner)
    (hinterrupted : s.interruptedProcess = none) (hflag : s.flag = false)
    (hstep : s.atomicOff (fun j => j.elim .user .start :: []) i = some s') : Inv B T s' := by
  subst hcurrent
  cases i with
  | decr =>
    cases hstep
    refine .same h rfl (fun p hp => Function.update_of_ne hp _ _) ?_
    refine .start rfl hold ?_ rfl hinterrupted hflag
    simp [hcount, Off.count]
  | check =>
    obtain ⟨-, hstep⟩ := Option.ite_none_right_eq_some.1 hstep
    cases hstep
    exact .same h rfl (fun p _ => rfl) (.start rfl hold hcount rfl hinterrupted hflag)
  | test =>
    cases hstep
    refine .same h rfl (fun p _ => rfl) ?_
    rw [if_pos (show s.atomicCount s.currentProcess = 0 from hcount)]
    exact .start rfl hold hcount rfl hinterrupted hflag
  | restore =>
    cases hstep
    refine .same h rfl (fun p _ => rfl) ?_
    exact .quiet (.user hold) hcount rfl hinterrupted hflag

theorem enter_inv {sigNum : Signal} {saved : Finset Signal} {i : Enter} (h : Parked T s owner)
    (hover : Over B (.handler sigNum saved) rest s.oldmask) (hmask : ∀ sigNum, sigNum ∈ s.mask)
    (hcount : s.atomicCount owner = 1)
    (hcurrent : s.currentProcess = if i.taken then T.iProcess sigNum else owner)
    (hinterrupted : s.interruptedProcess = if i.saved then some owner else none)
    (hflag : s.flag = i.flag)
    (hstep : s.kIProcessEnter T (T.iProcess sigNum)
      (fun j => .call (.handler sigNum saved) (j.elim (.off .decr) .enter) :: rest) i = some s') :
    Inv B T s' := by
  cases i with
  | checkFlag =>
    obtain ⟨-, hstep⟩ := Option.ite_none_left_eq_some.1 hstep
    cases hstep
    exact .same h rfl (fun _ _ => rfl) (.enter rfl hover hmask hcount hcurrent hinterrupted hflag)
  | setFlag =>
    cases hstep
    exact .same h rfl (fun _ _ => rfl) (.enter rfl hover hmask hcount hcurrent hinterrupted rfl)
  | checkIProcess =>
    obtain ⟨-, hstep⟩ := Option.ite_none_right_eq_some.1 hstep
    cases hstep
    exact .same h rfl (fun _ _ => rfl) (.enter rfl hover hmask hcount hcurrent hinterrupted hflag)
  | save =>
    cases hstep
    exact .same h rfl (fun _ _ => rfl)
      (.enter rfl hover hmask hcount hcurrent (congrArg some hcurrent) hflag)
  | interrupt =>
    obtain ⟨p, -, rfl⟩ := Option.map_eq_some_iff.1 hstep
    exact .same h rfl (fun _ _ => rfl) (.enter rfl hover hmask hcount hcurrent hinterrupted hflag)
  | take =>
    cases hstep
    exact .same h rfl (fun _ _ => rfl) (.enter rfl hover hmask hcount rfl hinterrupted hflag)
  | execute =>
    cases hstep
    exact .same h rfl (fun _ _ => rfl) (.enter rfl hover hmask hcount hcurrent hinterrupted hflag)
  | checkInterrupted =>
    obtain ⟨-, hstep⟩ := Option.ite_none_right_eq_some.1 hstep
    cases hstep
    exact .same h rfl (fun _ _ => rfl) (.enter rfl hover hmask hcount hcurrent hinterrupted hflag)
  | switch =>
    obtain ⟨p, hp, rfl⟩ := Option.map_eq_some_iff.1 hstep
    obtain rfl : owner = p := Option.some.inj (hinterrupted.symm.trans hp)
    have hi : T.isIProcess s.currentProcess = true := by
      rw [hcurrent]
      exact T.isIProcess_iProcess sigNum
    have hne : s.currentProcess ≠ owner := h.ne_owner hi
    refine ⟨owner, h.congr (fun q hq => Function.update_of_ne hq _ _) fun _ _ => rfl, ?_⟩
    refine .iProcess ?_ ⟨⟨sigNum, saved, rest, Function.update_self .., hover⟩, hmask, hcount⟩ hi
      hinterrupted hflag
    exact (Function.update_of_ne hne _ _).trans (h.iProcess _ hi).1

theorem exit_inv {i : Exit α} (h : Parked T s owner) (hinside : Inside B s owner)
    (hiProcess : ∀ p ∈ i.iProcess, T.isIProcess p = true)
    (hcurrent : if i.given then s.currentProcess = owner else T.isIProcess s.currentProcess = true)
    (hinterrupted : s.interruptedProcess = if i.forgotten then none else some owner)
    (hflag : s.flag = i.flag) (hstep : s.kIProcessExit [.iProcess] i = some s') : Inv B T s' := by
  cases i with
  | checkFlag =>
    obtain ⟨-, hstep⟩ := Option.ite_none_right_eq_some.1 hstep
    cases hstep
    exact .same h rfl (fun _ _ => rfl)
      (.exit rfl (hinside.congr rfl rfl rfl rfl) nofun hcurrent hinterrupted hflag)
  | clearFlag =>
    cases hstep
    exact .same h rfl (fun _ _ => rfl)
      (.exit rfl (hinside.congr rfl rfl rfl rfl) nofun hcurrent hinterrupted rfl)
  | take =>
    cases hstep
    refine .same h rfl (fun _ _ => rfl)
      (.exit rfl (hinside.congr rfl rfl rfl rfl) ?_ hcurrent hinterrupted hflag)
    intro p hp
    obtain rfl : s.currentProcess = p := Option.some.inj hp
    exact hcurrent
  | ready p =>
    cases hstep
    exact .same h rfl (fun _ _ => rfl)
      (.exit rfl (hinside.congr rfl rfl rfl rfl) hiProcess hcurrent hinterrupted hflag)
  | checkInterrupted p =>
    obtain ⟨-, hstep⟩ := Option.ite_none_right_eq_some.1 hstep
    cases hstep
    exact .same h rfl (fun _ _ => rfl)
      (.exit rfl (hinside.congr rfl rfl rfl rfl) hiProcess hcurrent hinterrupted hflag)
  | giveBack p =>
    obtain ⟨q, hq, rfl⟩ := Option.map_eq_some_iff.1 hstep
    obtain rfl : owner = q := Option.some.inj (hinterrupted.symm.trans hq)
    exact .same h rfl (fun _ _ => rfl)
      (.exit rfl (hinside.congr rfl rfl rfl rfl) hiProcess rfl hinterrupted hflag)
  | forget p =>
    cases hstep
    exact .same h rfl (fun _ _ => rfl)
      (.exit rfl (hinside.congr rfl rfl rfl rfl) hiProcess hcurrent rfl hflag)
  | execute p =>
    cases hstep
    exact .same h rfl (fun _ _ => rfl)
      (.exit rfl (hinside.congr rfl rfl rfl rfl) hiProcess hcurrent hinterrupted hflag)
  | switch p =>
    cases hstep
    have hp : T.isIProcess p = true := hiProcess p rfl
    have hcontext : Function.update s.context p [.iProcess] = s.context := by
      rw [← (h.iProcess p hp).1, Function.update_eq_self]
    obtain rfl : s.currentProcess = owner := hcurrent
    obtain ⟨sigNum, saved, rest, hstack, hover⟩ := hinside.context
    simp only [hcontext]
    exact .same h rfl (fun _ _ => rfl)
      (.off hstack hover hinside.mask hinside.count rfl hinterrupted hflag)

theorem run_inv (h : Inv B T s) (hstep : s.runStep T = some s') : Inv B T s' := by
  obtain ⟨owner, h, hmode⟩ := h
  cases hmode with
  | quiet hstack hcount hcurrent hinterrupted hflag =>
    generalize hs : s.stack = stack, hm : s.mask = mask at hstack
    cases hstack with
    | user hmask =>
      simp only [runStep, hs] at hstep
      cases hstep
      refine ⟨owner, h, .quiet ?_ hcount hcurrent hinterrupted hflag⟩
      rw [hs, hm]
      exact .user hmask
    | @primitive _ pc hmask hpc =>
      simp only [runStep, hs] at hstep
      obtain rfl | rfl := hpc
      · cases hstep
        refine atomicOn_inv h ?_ (by simpa using hcount) hcurrent hinterrupted hflag
        rw [hm]
        exact over_primitive hmask
      · cases hstep
        refine .same h rfl (fun _ _ => rfl) (.quiet ?_ hcount hcurrent hinterrupted hflag)
        exact .user (hm ▸ hmask)
    | @start _ i hB hi =>
      simp only [runStep, hs] at hstep
      refine start_inv h (hB _) ?_ hcurrent hinterrupted hflag hstep
      cases i <;> simp_all [Off.count]
    | @handler stack mask sigNum pc hquiet hpc =>
      simp only [runStep, hs] at hstep
      obtain rfl | rfl := hpc
      · cases hstep
        refine atomicOn_inv h ?_ (by simpa using hcount) hcurrent hinterrupted hflag
        rw [hm]
        exact fun pc hpc => .handler hquiet hpc
      · cases hstep
        exact .same h rfl (fun _ _ => rfl) (.quiet hquiet hcount hcurrent hinterrupted hflag)
  | on hstack hi hover hcount hcurrent hinterrupted hflag =>
    simp only [runStep, hstack] at hstep
    cases hstep
    exact atomicOn_inv h hover (by simpa [hi] using hcount) hcurrent hinterrupted hflag
  | @body call rest hstack hover hmask hcount hcurrent hinterrupted hflag =>
    simp only [runStep, hstack] at hstep
    cases call with
    | primitive =>
      cases hstep
      exact .same h rfl (fun _ _ => rfl)
        (.off rfl hover hmask hcount hcurrent hinterrupted hflag)
    | handler sigNum saved =>
      obtain ⟨-, hstep⟩ := Option.ite_none_left_eq_some.1 hstep
      cases hstep
      exact .same h rfl (fun _ _ => rfl)
        (.enter rfl hover hmask hcount hcurrent hinterrupted hflag)
  | off hstack hover hmask hcount hcurrent hinterrupted hflag =>
    simp only [runStep, hstack] at hstep
    exact atomicOff_inv h hover hmask hcount hcurrent hinterrupted hflag hstep
  | enter hstack hover hmask hcount hcurrent hinterrupted hflag =>
    simp only [runStep, hstack] at hstep
    exact enter_inv h hover hmask hcount hcurrent hinterrupted hflag hstep
  | iProcess hstack hinside hcurrent hinterrupted hflag =>
    simp only [runStep, hstack] at hstep
    cases hstep
    exact .same h rfl (fun _ _ => rfl)
      (.exit rfl ⟨hinside.context, hinside.mask, hinside.count⟩ nofun hcurrent hinterrupted hflag)
  | exit hstack hinside hiProcess hcurrent hinterrupted hflag =>
    simp only [runStep, hstack] at hstep
    exact exit_inv h hinside hiProcess hcurrent hinterrupted hflag hstep
  | start hstack hold hcount hcurrent hinterrupted hflag =>
    simp only [runStep, hstack] at hstep
    exact start_inv h hold hcount hcurrent hinterrupted hflag hstep

/-- A primitive is called from a process's own code. -/
theorem step_call (hstep : s.step T .call = some s') : ∃ rest, s.stack = .user :: rest ∧
    s' = { s with stack := .call .primitive (.on .incr) :: .user :: rest } := by
  simp only [step] at hstep
  split at hstep
  · next rest hs => exact ⟨rest, hs, (Option.some.inj hstep).symm⟩
  · contradiction

/-- A switch is done by a primitive, to a process that is no i-process. -/
theorem step_switch {nextStatus : ProcessState} {next : α}
    (hstep : s.step T (.switch nextStatus next) = some s') :
    ∃ rest, s.stack = .call .primitive .body :: rest ∧ T.isIProcess next = false ∧
      s' = s.kProcessSwitch nextStatus next := by
  simp only [step] at hstep
  split at hstep
  · next rest hs =>
    obtain ⟨hnext, hstep⟩ := Option.ite_none_left_eq_some.1 hstep
    exact ⟨rest, hs, by simpa using hnext, (Option.some.inj hstep).symm⟩
  · contradiction

theorem kProcessSwitch_context_self {nextStatus : ProcessState} {next : α} :
    (s.kProcessSwitch nextStatus next).context s.currentProcess = s.stack :=
  Function.update_self ..

theorem kProcessSwitch_context {p : α} (hp : p ≠ s.currentProcess) (nextStatus : ProcessState)
    (next : α) : (s.kProcessSwitch nextStatus next).context p = s.context p :=
  Function.update_of_ne hp ..

theorem call_inv (h : Inv B T s) (hstep : s.step T .call = some s') : Inv B T s' := by
  obtain ⟨owner, h, hmode⟩ := h
  obtain ⟨rest, hs, rfl⟩ := step_call hstep
  cases hmode with
  | quiet hstack hcount hcurrent hinterrupted hflag =>
    rw [hs] at hstack
    cases hstack with
    | user hmask =>
      refine .same h rfl (fun _ _ => rfl) (.quiet ?_ hcount hcurrent hinterrupted hflag)
      exact .primitive hmask (.inl rfl)
  | on hstack | body hstack | off hstack | enter hstack | iProcess hstack | exit hstack
  | start hstack =>
    simp [hs] at hstack

/-- What `oldmask` holds is what every process in a primitive has had around it, the one that is
switched to as well. -/
theorem switch_inv (h : Inv B T s) {nextStatus : ProcessState} {next : α}
    (hstep : s.step T (.switch nextStatus next) = some s') : Inv B T s' := by
  obtain ⟨owner, h, hmode⟩ := h
  obtain ⟨rest, hs, hnext, rfl⟩ := step_switch hstep
  cases hmode with
  | quiet hstack =>
    rw [hs] at hstack
    obtain h | h := hstack.idle <;> contradiction
  | on hstack | off hstack | enter hstack | iProcess hstack | exit hstack | start hstack =>
    simp [hs] at hstack
  | body hstack hover hmask hcount hcurrent hinterrupted hflag =>
    subst hcurrent
    obtain ⟨rfl, rfl⟩ : _ ∧ _ := by simpa [hs] using hstack
    obtain ⟨rfl, hold⟩ := hover.primitive
    have hparked : Parked T (s.kProcessSwitch nextStatus next) next := by
      refine ⟨hnext, fun p hp => ?_, fun p hp hne => ?_⟩
      · rw [kProcessSwitch_context (h.ne_owner hp)]
        exact h.iProcess p hp
      · by_cases heq : p = s.currentProcess
        · rw [heq, kProcessSwitch_context_self, hs]
          exact ⟨hcount, .inr rfl⟩
        · rw [kProcessSwitch_context heq]
          exact h.other p hp heq
    refine ⟨next, hparked, ?_⟩
    by_cases heq : next = s.currentProcess
    · refine .body ?_ (over_primitive hold) hmask (heq ▸ hcount) rfl hinterrupted hflag
      show (s.kProcessSwitch nextStatus next).context next = _
      rw [heq, kProcessSwitch_context_self, hs]
    · obtain ⟨hcount', hcontext⟩ := h.other next hnext heq
      rw [← kProcessSwitch_context heq nextStatus next] at hcontext
      obtain hcontext | hcontext := hcontext
      · exact .start hcontext hold hcount' rfl hinterrupted hflag
      · exact .body hcontext (over_primitive hold) hmask hcount' rfl hinterrupted hflag

theorem deliver_inv (h : Inv B T s) {sigNum : Signal} (hok : Deliverable B s)
    (hstep : s.step T (.deliver sigNum) = some s') : Inv B T s' := by
  obtain ⟨owner, h, hmode⟩ := h
  obtain ⟨hnot, hstep⟩ := Option.ite_none_left_eq_some.1 hstep
  obtain rfl := Option.some.inj hstep
  cases hmode with
  | quiet hstack hcount hcurrent hinterrupted hflag =>
    refine .same h rfl (fun _ _ => rfl) (.quiet ?_ hcount hcurrent hinterrupted hflag)
    exact .handler hstack (.inl rfl)
  | on hstack hi => exact absurd (hok.on _ _ _ hstack) hi
  | body _ _ hmask | off _ _ hmask | enter _ _ hmask => exact absurd (hmask sigNum) hnot
  | iProcess _ hinside | exit _ hinside => exact absurd (hinside.mask sigNum) hnot
  | @start i hstack hold hcount hcurrent hinterrupted hflag =>
    obtain ⟨hi, hB⟩ := hok.start i [] hstack
    refine .same h rfl (fun _ _ => rfl) (.quiet ?_ ?_ hcurrent hinterrupted hflag)
    · show Quiet B (_ :: s.stack) _
      rw [hstack]
      exact .handler (.start hB hi) (.inl rfl)
    · cases i <;> simp_all [Off.count]

/-- A step keeps the invariant, unless it is a signal that does harm. -/
theorem step_inv {l : SigLabel α} (h : Inv B T s)
    (hok : ∀ sigNum, l = .deliver sigNum → Deliverable B s) (hstep : s.step T l = some s') :
    Inv B T s' := by
  cases l with
  | run => exact run_inv h hstep
  | call => exact call_inv h hstep
  | switch nextStatus next => exact switch_inv h hstep
  | deliver sigNum => exact deliver_inv h (hok sigNum rfl) hstep

end SigState

open SigState

/-- The first process starts with its `atomic(OFF)` still to come. -/
theorem SigState.Entered.inv (h : Entered T s) (hB : B ∅) : Inv B T s := by
  refine ⟨s.currentProcess, ⟨h.current, fun p hp => ?_, fun p hp _ => ?_⟩, ?_⟩
  · rw [h.context, h.atomicCount, initContext, if_pos hp, if_pos hp]
    exact ⟨rfl, rfl⟩
  · have hp : ¬ T.isIProcess p = true := by simp [hp]
    rw [h.context, h.atomicCount, initContext, if_neg hp, if_neg hp]
    exact ⟨rfl, .inl rfl⟩
  · have hp : ¬ T.isIProcess s.currentProcess = true := by simp [h.current]
    refine .start (i := .decr) ?_ ?_ ?_ rfl h.interrupted h.flag
    · rw [h.stack, initContext, if_neg hp]
    · rw [h.oldmask]
      exact hB
    · rw [h.atomicCount, if_neg hp]
      rfl

theorem reach_inv [DecidableEq α] {ok : SigState α → SigLabel α → Prop}
    (h : Reach (step T) (Entered T) ok s) (hB : B ∅)
    (hok : ∀ s sigNum, Inv B T s → ok s (.deliver sigNum) → Deliverable B s) : Inv B T s := by
  apply h.invariant
  · intro s hs
    exact hs.inv hB
  · intro s l s' _ hinv hl hstep
    refine step_inv hinv (fun sigNum heq => ?_) hstep
    subst heq
    exact hok s sigNum hinv hl

/-! ## I-processes do not nest -/

/-- A handler that enters an i-process finds none running, and nothing in `interrupted_process`. -/
structure Unnested (T : Table α) (s : SigState α) : Prop where
  flag : ∀ sigNum saved rest,
    s.stack = .call (.handler sigNum saved) (.enter .checkFlag) :: rest → s.flag = false
  current : ∀ sigNum saved rest,
    s.stack = .call (.handler sigNum saved) (.enter .save) :: rest →
      T.isIProcess s.currentProcess = false
  interrupted : ∀ sigNum saved rest,
    s.stack = .call (.handler sigNum saved) (.enter .save) :: rest → s.interruptedProcess = none

/-- No kernel signal arrives while `atomic_count` of the current process is positive. -/
def Uncounted (s : SigState α) : SigLabel α → Prop
  | .deliver _ => s.atomicCount s.currentProcess = 0
  | _ => True

instance (s : SigState α) (l : SigLabel α) : Decidable (Uncounted s l) := by
  cases l <;> unfold Uncounted <;> infer_instance

theorem Inv.unnested (h : Inv B T s) : Unnested T s := by
  obtain ⟨owner, h, hmode⟩ := h
  have hmode {sigNum : Signal} {saved : Finset Signal} {i : Enter} {rest : List (Frame α)}
      (hs : s.stack = .call (.handler sigNum saved) (.enter i) :: rest) :
      s.currentProcess = (if i.taken then T.iProcess sigNum else owner) ∧
        s.interruptedProcess = (if i.saved then some owner else none) ∧ s.flag = i.flag := by
    cases hmode with
    | quiet hstack =>
      rw [hs] at hstack
      obtain h | h := hstack.idle <;> contradiction
    | enter hstack _ _ _ hcurrent hinterrupted hflag =>
      rw [hs] at hstack
      cases hstack
      exact ⟨hcurrent, hinterrupted, hflag⟩
    | on hstack | body hstack | off hstack | iProcess hstack | exit hstack | start hstack =>
      simp [hs] at hstack
  refine ⟨fun _ _ _ hs => (hmode hs).2.2, fun _ _ _ hs => ?_, fun _ _ _ hs => (hmode hs).2.1⟩
  rw [(hmode hs).1]
  exact h.user

/-- The count is positive inside `atomic(ON)` and before the first `atomic(OFF)`. -/
theorem Inv.deliverable (h : Inv (fun _ => True) T s)
    (hcount : s.atomicCount s.currentProcess = 0) : Deliverable (fun _ => True) s := by
  obtain ⟨owner, h, hmode⟩ := h
  refine ⟨fun call i rest hs => ?_, fun i rest hs => ⟨?_, fun _ => trivial⟩⟩
  · cases hmode with
    | quiet hstack =>
      rw [hs] at hstack
      simpa [Pc.Idle] using hstack.idle
    | on hstack hi hover hcount' hcurrent =>
      rw [hcurrent, hcount'] at hcount
      contradiction
    | body hstack | off hstack | enter hstack | iProcess hstack | exit hstack | start hstack =>
      simp [hs] at hstack
  · cases hmode with
    | quiet hstack =>
      rw [hs] at hstack
      cases hstack with
      | start hB hi => exact hi
    | start hstack hold hcount' hcurrent =>
      rw [hs] at hstack
      cases hstack
      rintro rfl
      rw [hcurrent, hcount'] at hcount
      contradiction
    | on hstack | body hstack | off hstack | enter hstack | iProcess hstack | exit hstack =>
      simp [hs] at hstack

/-- In a run where no signal arrives while `atomic_count` is positive, i-processes do not nest. -/
theorem i_processes_unnested [DecidableEq α] (h : Reach (step T) (Entered T) Uncounted s) :
    Unnested T s := by
  have hinv : Inv (fun _ => True) T s :=
    reach_inv h trivial fun s sigNum hinv hcount => hinv.deliverable hcount
  exact hinv.unnested

/-- The processes behind `k_init`, with process A first. -/
def entered : SigState (Fin totalNumProcesses) where
  currentProcess := 6
  interruptedProcess := none
  flag := false
  atomicCount p := if initTable.isIProcess p then 0 else 1
  status _ := .ready
  mask := ∅
  oldmask := ∅
  stack := initContext initTable 6
  context := initContext initTable

theorem entered_entered : Entered initTable entered :=
  ⟨by decide, rfl, rfl, fun _ => rfl, rfl, rfl, rfl, fun _ => rfl⟩

/-- `atomic(OFF)` of a starting process, the call of a primitive, and its `atomic_count++`. -/
def firstCall : List (SigLabel (Fin totalNumProcesses)) := [.run, .run, .run, .run, .call, .run]

/-- A handler up to its `k_i_process_enter`. -/
def handlerOn : List (SigLabel (Fin totalNumProcesses)) := [.run, .run, .run, .run]

theorem i_processes_unnested_initTable :
    ∃ s, Reach (step initTable) (Entered initTable) Uncounted s ∧
      s.stack.head? = some (.call (.handler .sigalrm ∅) (.enter .save)) ∧ Unnested initTable s := by
  have hrun : (exec (guarded (step initTable) Uncounted) entered
      (firstCall.take 4 ++ .deliver .sigalrm :: handlerOn ++ [.run, .run, .run])).any (fun s =>
        decide (s.stack.head? = some (.call (.handler .sigalrm ∅) (.enter .save)))) = true := by
    decide +kernel
  obtain ⟨s, hexec, hs⟩ := (Option.any_eq_true ..).1 hrun
  have hreach := (Reach.init entered_entered).guarded hexec
  exact ⟨s, hreach, of_decide_eq_true hs, i_processes_unnested hreach⟩

/-- A timer signal between `atomic_count++` and `sigprocmask`, and a keyboard signal while the
timeout i-process runs. -/
def betweenCountAndMask : List (SigLabel (Fin totalNumProcesses)) :=
  firstCall ++ .deliver .sigalrm :: handlerOn.tail ++ List.replicate 9 .run ++
    .deliver .sigusr1 :: handlerOn

theorem i_processes_nested :
    ¬ ∀ s, Reach (step initTable) (Entered initTable) (fun _ l => l ≠ .deliver .sigint) s →
      Unnested initTable s := by
  intro h
  have hrun : (exec (guarded (step initTable) fun _ l => l ≠ .deliver .sigint) entered
      betweenCountAndMask).any (fun s => decide (s.flag = true ∧
        s.stack.head? =
          some (.call (.handler .sigusr1 {.sigalrm}) (.enter .checkFlag)))) = true := by
    decide +kernel
  obtain ⟨s, hexec, hs⟩ := (Option.any_eq_true ..).1 hrun
  obtain ⟨hflag, hhead⟩ := of_decide_eq_true hs
  obtain ⟨rest, hstack⟩ := List.head?_eq_some_iff.1 hhead
  have hnone := (h s ((Reach.init entered_entered).guarded hexec)).flag _ _ _ hstack
  rw [hflag] at hnone
  contradiction

/-! ## Masks are balanced -/

/-- The code between `atomic(ON)` and the end of the `atomic(OFF)` that belongs to it. -/
def Frame.Atomic : Frame α → Prop
  | .call _ .body | .call _ (.enter _) | .call _ (.off _) | .iProcess | .exit _ => True
  | _ => False

/-- A process's own code runs with its count at zero and no signal masked, what `atomic` protects
with all signals masked, and no count is negative. -/
structure Balanced (s : SigState α) : Prop where
  user : ∀ rest, s.stack = .user :: rest →
    s.atomicCount s.currentProcess = 0 ∧ ∀ sigNum, sigNum ∉ s.mask
  atomic : ∀ frame rest, s.stack = frame :: rest → frame.Atomic → ∀ sigNum, sigNum ∈ s.mask
  count : ∀ p, 0 ≤ s.atomicCount p

/-- Not inside `atomic`, nor between the first dispatch of a process and the end of its
`atomic(OFF)`. -/
def Frame.isWhole : Frame α → Bool
  | .call _ (.on i) => i = .incr
  | .call _ (.off i) => i = .decr
  | .start _ => false
  | _ => true

/-- Signals arrive between the steps, not inside them. -/
def Whole (s : SigState α) : SigLabel α → Prop
  | .deliver _ => s.stack.head?.all Frame.isWhole = true
  | _ => True

instance (s : SigState α) (l : SigLabel α) : Decidable (Whole s l) := by
  cases l <;> unfold Whole <;> infer_instance

theorem Mode.count (h : Mode B T s owner) : 0 ≤ s.atomicCount owner := by
  cases h with
  | quiet _ hcount => exact hcount.ge
  | on _ _ _ hcount | body _ _ _ hcount | enter _ _ _ hcount => rw [hcount]; decide
  | iProcess _ hinside | exit _ hinside => rw [hinside.count]; decide
  | @off _ i _ _ _ _ hcount | @start i _ _ hcount => rw [hcount]; cases i <;> decide

theorem Mode.user (h : Mode (· = ∅) T s owner) (hs : s.stack = .user :: rest) :
    s.atomicCount s.currentProcess = 0 ∧ s.mask = ∅ := by
  cases h with
  | quiet hstack hcount hcurrent =>
    rw [hs] at hstack
    rw [hcurrent]
    cases hstack with
    | user hmask => exact ⟨hcount, hmask⟩
  | on hstack | body hstack | off hstack | enter hstack | iProcess hstack | exit hstack
  | start hstack =>
    simp [hs] at hstack

theorem Mode.atomic (h : Mode B T s owner) {frame : Frame α} (hs : s.stack = frame :: rest)
    (hframe : frame.Atomic) (sigNum : Signal) : sigNum ∈ s.mask := by
  cases h with
  | quiet hstack =>
    generalize s.mask = mask at hstack ⊢
    rw [hs] at hstack
    cases hstack with
    | user => exact hframe.elim
    | start => exact hframe.elim
    | primitive _ hpc | handler _ hpc => obtain rfl | rfl := hpc <;> exact hframe.elim
  | on hstack | start hstack =>
    rw [hs] at hstack
    cases hstack
    exact hframe.elim
  | body _ _ hmask | off _ _ hmask | enter _ _ hmask => exact hmask sigNum
  | iProcess _ hinside | exit _ hinside => exact hinside.mask sigNum

theorem Inv.balanced (h : Inv (· = ∅) T s) : Balanced s := by
  obtain ⟨owner, h, hmode⟩ := h
  refine ⟨fun rest hs => ?_, fun _ _ => hmode.atomic, fun p => ?_⟩
  · obtain ⟨hcount, hmask⟩ := hmode.user hs
    refine ⟨hcount, fun sigNum => ?_⟩
    rw [hmask]
    exact Finset.notMem_empty sigNum
  · by_cases hp : T.isIProcess p = true
    · exact (h.iProcess p hp).2.ge
    · by_cases heq : p = owner
      · exact heq ▸ hmode.count
      · rw [(h.other p (by simpa using hp) heq).1]
        decide

theorem Whole.deliverable {sigNum : Signal} (h : Whole s (.deliver sigNum)) : Deliverable B s where
  on call i rest hs := by simpa [Whole, Frame.isWhole, hs] using h
  start i rest hs := by simp [Whole, Frame.isWhole, hs] at h

/-- Where `atomic(ON)`, `atomic(OFF)` and the first dispatch of a process are one step each, the
masks are balanced in every run, whatever switches and handlers there are in it. -/
theorem masks_balanced [DecidableEq α] (h : Reach (step T) (Entered T) Whole s) : Balanced s := by
  have hinv : Inv (· = ∅) T s :=
    reach_inv h rfl fun s sigNum _ hwhole => hwhole.deliverable
  exact hinv.balanced

/-- Process A blocks in a primitive, B is dispatched for the first time, and a handler is
entered from the epilogue of another. -/
def blockAndInterrupt : List (SigLabel (Fin totalNumProcesses)) :=
  firstCall ++ [.run, .run, .switch .blockedOnReceive 7] ++ firstCall.take 4 ++
    .deliver .sigusr2 :: handlerOn ++ List.replicate 23 .run ++ .deliver .sigalrm :: handlerOn

theorem masks_balanced_initTable :
    ∃ s, Reach (step initTable) (Entered initTable) Whole s ∧ s.currentProcess = 7 ∧
      s.stack = [.call (.handler .sigalrm {.sigusr2}) (.enter .checkFlag),
        .call (.handler .sigusr2 ∅) .ret, .user] ∧ Balanced s := by
  have hrun : (exec (guarded (step initTable) Whole) entered blockAndInterrupt).any (fun s =>
      decide (s.currentProcess = 7 ∧
        s.stack = [.call (.handler .sigalrm {.sigusr2}) (.enter .checkFlag),
          .call (.handler .sigusr2 ∅) .ret, .user])) = true := by
    decide +kernel
  obtain ⟨s, hexec, hs⟩ := (Option.any_eq_true ..).1 hrun
  obtain ⟨hcurrent, hstack⟩ := of_decide_eq_true hs
  have hreach := (Reach.init entered_entered).guarded hexec
  exact ⟨s, hreach, hcurrent, hstack, masks_balanced hreach⟩

end Rtx.Unix
