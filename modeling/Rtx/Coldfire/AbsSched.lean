import Mathlib.Data.List.FinRange
import Rtx.Coldfire.SchedQueues

/-!
# The abstract scheduler

What the scheduler is for: every process that is not an i-process has one place, decided by its
state and its priority. It is in the ready queue, in the queue of processes waiting for an
envelope, or in neither. Everything the kernel does to a process is then one operation,
`AbsSched.place`: take the process out of wherever it is, change its record, and put it at the
end of the level where it now belongs.

`Sound` is the invariant: the queues hold the processes that belong there, each once, and the
executing process is the running one. A move of the scheduler keeps it (`Sound.move`).
-/

namespace Rtx.Coldfire

variable {n : ℕ}

/-! ## Places -/

/-- The level a process belongs in. -/
def ProcInfo.place (info : ProcInfo) : Option (PqPtr × ℕ) :=
  if info.isIProcess then none
  else
    match info.state with
    | .ready => PqPtr.levelOf .readyPq info.priority
    | .blockedOnEnvRequest => PqPtr.levelOf .blockedRequestEnvPq info.priority
    | _ => none

theorem PqPtr.levelOf_eq_some {pq pq' : PqPtr} {priority : ℤ} {i : ℕ} :
    pq.levelOf priority = some (pq', i) ↔ pq' = pq ∧ priority = i ∧ i < pq.levels := by
  unfold PqPtr.levelOf
  split
  · simp only [Option.some.injEq, Prod.mk.injEq]
    constructor
    · rintro ⟨rfl, rfl⟩
      exact ⟨rfl, by omega, by omega⟩
    · rintro ⟨rfl, h, -⟩
      exact ⟨rfl, by omega⟩
  · simp only [reduceCtorEq, false_iff]
    rintro ⟨rfl, h, h'⟩
    omega

theorem ProcInfo.place_ready {info : ProcInfo} {i : ℕ} :
    info.place = some (.readyPq, i) ↔ info.isIProcess = false ∧ info.state = .ready ∧
      info.priority = i ∧ i < PqPtr.levels .readyPq := by
  unfold ProcInfo.place
  split
  · simp_all
  · split <;> simp_all [PqPtr.levelOf_eq_some]

theorem ProcInfo.place_blocked {info : ProcInfo} {i : ℕ} :
    info.place = some (.blockedRequestEnvPq, i) ↔ info.isIProcess = false ∧
      info.state = .blockedOnEnvRequest ∧ info.priority = i ∧
      i < PqPtr.levels .blockedRequestEnvPq := by
  unfold ProcInfo.place
  split
  · simp_all
  · split <;> simp_all [PqPtr.levelOf_eq_some]

theorem ProcInfo.place_eq_none {info : ProcInfo} (h₁ : info.state ≠ .ready)
    (h₂ : info.state ≠ .blockedOnEnvRequest) : info.place = none := by
  unfold ProcInfo.place
  split
  · rfl
  · split <;> first | rfl | contradiction

/-- A process in the state of a queue belongs in the level of its priority, whatever that is. -/
theorem ProcInfo.place_of_state {info : ProcInfo} (pq : PqPtr) (hi : info.isIProcess = false)
    (hstate : info.state = pq.state) (priority : ℤ) :
    ({ info with priority := priority } : ProcInfo).place = pq.levelOf priority := by
  cases pq <;> simp [ProcInfo.place, hi, hstate, PqPtr.state]

theorem ProcInfo.place_isIProcess {info : ProcInfo} (h : info.isIProcess = true) :
    info.place = none := if_pos h

/-! ## Moves -/

/-- What one step of the kernel does to the scheduler. -/
inductive Move (n : ℕ)
  | wakeReceiver (p : Fin n)
  | wakeRequester
  | blockReceive (p : Fin n)
  | blockRequest (p : Fin n)
  | yield (p : Fin n)
  | changePriority (newPriority targetProcessId : ℤ)
  | toUser (p : Fin n)
  | enterIsr (pid : ℤ)
  | exitIsr

/-- The scheduler, with its queues as lists. -/
structure AbsSched (n : ℕ) where
  info : Fin n → ProcInfo
  queue : Levels n
  current : Option (Fin n)
  interrupted : Option (Fin n)
  readyLog : List (Fin n)

namespace AbsSched

/-- The process whose code the machine runs or has interrupted. -/
def running (A : AbsSched n) : Option (Fin n) := A.interrupted.or A.current

/-- The first process with this pid. -/
def getProcess (A : AbsSched n) (pid : ℤ) : Option (Fin n) :=
  (List.finRange n).find? fun p => (A.info p).pid == pid

/-- The queues without `p`. -/
def out (A : AbsSched n) (p : Fin n) : Levels n := fun pq i => (A.queue pq i).filter (· ≠ p)

/-- Change the record of a process, and put it where it now belongs. -/
def place (A : AbsSched n) (p : Fin n) (info : ProcInfo) : AbsSched n :=
  { A with
    info := Function.update A.info p info
    queue := (A.out p).append p info.place }

/-- Record that a process became ready. -/
def becameReady (A : AbsSched n) (p : Fin n) : AbsSched n := { A with readyLog := p :: A.readyLog }

/-- Make a waiting process ready. -/
def wake (A : AbsSched n) (p : Fin n) : AbsSched n :=
  (A.place p { A.info p with state := .ready }).becameReady p

/-- The oldest process of the first level that has one. -/
def first (A : AbsSched n) (pq : PqPtr) : Option (Fin n) :=
  ((List.range pq.levels).find? fun i => A.queue pq i ≠ []).bind fun i => (A.queue pq i).head?

/-- Run the first ready process. -/
def dispatch (A : AbsSched n) : Option (AbsSched n) :=
  (A.first .readyPq).map fun p =>
    { A.place p { A.info p with state := .executing } with current := some p }

/-- Put the running process somewhere else, to go on at `context` later. -/
def park (A : AbsSched n) (p : Fin n) (state : ProcessState) (context : Context) : AbsSched n :=
  A.place p { A.info p with state := state, context := context }

/-- Give a process another priority. -/
def reprioritise (A : AbsSched n) (p : Fin n) (newPriority : ℤ) : AbsSched n :=
  if (A.info p).isIProcess ∨ (A.info p).pid < 0 ∨ (A.info p).pid = nullPid ∨
    (A.info p).priority = newPriority then A
  else A.place p { A.info p with priority := newPriority }

/-- Give the process with this pid another priority, if it is a legal one. -/
def changePriority (A : AbsSched n) (newPriority targetProcessId : ℤ) : Option (AbsSched n) :=
  if newPriority < 0 ∨ newPriority ≥ numPriorities then some A
  else (A.getProcess targetProcessId).map fun p => A.reprioritise p newPriority

/-- `k_change_priority` with these arguments gives `p` another priority. -/
def Reprioritises (A : AbsSched n) (newPriority targetProcessId : ℤ) (p : Fin n) : Prop :=
  0 ≤ newPriority ∧ newPriority < numPriorities ∧ A.getProcess targetProcessId = some p ∧
    (A.info p).isIProcess = false ∧ 0 < (A.info p).pid ∧ (A.info p).priority ≠ newPriority

/-- One move. -/
def move (A : AbsSched n) : Move n → Option (AbsSched n)
  | .wakeReceiver p => some (if (A.info p).state = .blockedOnReceive then A.wake p else A)
  | .wakeRequester =>
    match A.first .blockedRequestEnvPq with
    | none => some A
    | some p => some (A.wake p)
  | .blockReceive p =>
    if A.current = some p ∧ A.interrupted = none then
      (A.park p .blockedOnReceive .receiveMessage).dispatch
    else none
  | .blockRequest p =>
    if A.current = some p ∧ A.interrupted = none then
      (A.park p .blockedOnEnvRequest .requestMsgEnv).dispatch
    else none
  | .yield p =>
    if A.current = some p ∧ A.interrupted = none then
      ((A.park p .ready .releaseProcessor).becameReady p).dispatch
    else none
  | .changePriority newPriority targetProcessId => A.changePriority newPriority targetProcessId
  | .toUser p =>
    if A.current = some p ∧ A.interrupted = none then
      some (A.place p { A.info p with context := .user })
    else none
  | .enterIsr pid =>
    if A.interrupted = none ∧ A.current.isSome then
      some { A with interrupted := A.current, current := A.getProcess pid }
    else none
  | .exitIsr =>
    if A.interrupted.isSome then some { A with current := A.interrupted, interrupted := none }
    else none

/-! ## The invariant -/

/-- The queues hold the processes that belong there, each once. -/
structure Placed (A : AbsSched n) : Prop where
  mem_queue : ∀ {p pq i}, p ∈ A.queue pq i ↔ (A.info p).place = some (pq, i)
  nodup : ∀ pq i, (A.queue pq i).Nodup
  iProcess : ∀ {p}, (A.info p).isIProcess = true → (A.info p).state = .ready

/-- The one executing process. -/
def Executing (A : AbsSched n) (r : Option (Fin n)) : Prop :=
  ∀ p, (A.info p).state = .executing ↔ r = some p

/-- The move takes no process out of the end of a level in which others stand before it. -/
def Safe (A : AbsSched n) : Move n → Prop
  | .changePriority newPriority targetProcessId =>
    ∀ p, A.Reprioritises newPriority targetProcessId p → ∀ pq i l, A.queue pq i = l ++ [p] → l = []
  | _ => True

/-- The queues are right, and so is the running process. -/
structure Sound (A : AbsSched n) : Prop extends Placed A where
  executing : A.Executing A.running

variable {A A' : AbsSched n} {p q : Fin n} {pq : PqPtr} {i : ℕ} {r : Option (Fin n)}
  {info : ProcInfo}

@[simp] theorem info_place_self (A : AbsSched n) (p : Fin n) (info : ProcInfo) :
    (A.place p info).info p = info := Function.update_self ..

theorem info_place_of_ne (A : AbsSched n) (info : ProcInfo) (h : q ≠ p) :
    (A.place p info).info q = A.info q := Function.update_of_ne h ..

theorem queue_place (A : AbsSched n) (p : Fin n) (info : ProcInfo) (pq : PqPtr) (i : ℕ) :
    (A.place p info).queue pq i =
      A.out p pq i ++ if info.place = some (pq, i) then [p] else [] :=
  Levels.append_apply ..

theorem queue_place_of_none (h : info.place = none) : (A.place p info).queue = A.out p := by
  rw [AbsSched.place, h]
  rfl

theorem filter_ne_of_notMem {l : List (Fin n)} (h : p ∉ l) : l.filter (· ≠ p) = l := by
  rw [List.filter_eq_self]
  intro q hq
  have hne : q ≠ p := by rintro rfl; exact h hq
  simpa using hne

theorem mem_out : q ∈ A.out p pq i ↔ q ∈ A.queue pq i ∧ q ≠ p := by simp [out]

theorem mem_queue_place : q ∈ (A.place p info).queue pq i ↔
    (q ∈ A.queue pq i ∧ q ≠ p) ∨ (info.place = some (pq, i) ∧ q = p) := by
  rw [queue_place, List.mem_append, mem_out]
  split <;> simp_all

theorem Placed.place (h : A.Placed)
    (hi : info.isIProcess = true → info.state = .ready) : (A.place p info).Placed where
  mem_queue {q pq i} := by
    rw [mem_queue_place]
    by_cases hq : q = p
    · subst hq; simp
    · rw [info_place_of_ne A info hq, h.mem_queue]
      simp [hq]
  nodup pq i := by
    have hout : (A.out p pq i).Nodup := (h.nodup pq i).filter _
    rw [queue_place]
    split
    · refine hout.append (List.nodup_singleton p) fun q hq hqp => ?_
      exact (mem_out.1 hq).2 (List.mem_singleton.1 hqp)
    · rwa [List.append_nil]
  iProcess {q} hq := by
    by_cases hqp : q = p
    · subst hqp
      rw [info_place_self] at hq ⊢
      exact hi hq
    · rw [info_place_of_ne A info hqp] at hq ⊢
      exact h.iProcess hq

/-- A process that is neither made nor unmade the executing one. -/
theorem Executing.place (h : A.Executing r) (hp : r ≠ some p) (hs : info.state ≠ .executing) :
    (A.place p info).Executing r := by
  intro q
  by_cases hq : q = p
  · subst hq
    rw [info_place_self]
    exact ⟨fun hx => absurd hx hs, fun hr => absurd hr hp⟩
  · rw [info_place_of_ne A info hq]
    exact h q

theorem Executing.stop (h : A.Executing (some p)) (hs : info.state ≠ .executing) :
    (A.place p info).Executing none := by
  intro q
  by_cases hq : q = p
  · subst hq
    rw [info_place_self]
    exact ⟨fun hx => absurd hx hs, nofun⟩
  · rw [info_place_of_ne A info hq, h q]
    exact ⟨fun hpq => absurd (Option.some.inj hpq).symm hq, nofun⟩

theorem Executing.start (h : A.Executing r) (hr : r = none ∨ r = some p)
    (hs : info.state = .executing) : (A.place p info).Executing (some p) := by
  intro q
  by_cases hq : q = p
  · subst hq
    rw [info_place_self]
    exact ⟨fun _ => rfl, fun _ => hs⟩
  · rw [info_place_of_ne A info hq, h q]
    rcases hr with rfl | rfl <;> simp [Ne.symm hq]

theorem first_eq_some (h : A.first pq = some p) :
    ∃ i l, i < pq.levels ∧ A.queue pq i = p :: l ∧ ∀ j < i, A.queue pq j = [] := by
  obtain ⟨i, hi, hhead⟩ := Option.bind_eq_some_iff.1 h
  obtain ⟨-, hlt, hbefore⟩ := List.find?_range_eq_some.1 hi
  obtain ⟨l, hl⟩ := List.head?_eq_some_iff.1 hhead
  exact ⟨i, l, List.mem_range.1 hlt, hl, fun j hj => by simpa using hbefore j hj⟩

theorem first_eq_none (h : A.first pq = none) : ∀ i < pq.levels, A.queue pq i = [] := by
  intro i hi
  unfold first at h
  cases hfind : (List.range pq.levels).find? fun i => A.queue pq i ≠ [] with
  | none => simpa using List.find?_range_eq_none.1 hfind i hi
  | some j =>
    rw [hfind, Option.bind_some, List.head?_eq_none_iff] at h
    have := (List.find?_range_eq_some.1 hfind).1
    simp [h] at this

/-! ## Moves keep the invariant -/

theorem Sound.isIProcess_of_executing (h : A.Sound) (hp : (A.info p).state = .executing) :
    (A.info p).isIProcess = false := by
  by_contra hi
  rw [h.iProcess (by simpa using hi)] at hp
  contradiction

/-- The running process has been put somewhere else, and the first ready one runs. -/
theorem Placed.dispatch (h : A.Placed) (hx : A.Executing none) (hint : A.interrupted = none)
    (hd : A.dispatch = some A') : A'.Sound := by
  obtain ⟨p, hp, rfl⟩ := Option.map_eq_some_iff.1 hd
  obtain ⟨i, l, -, hl, -⟩ := first_eq_some hp
  have hplace := h.mem_queue.1 (show p ∈ A.queue .readyPq i by rw [hl]; exact List.mem_cons_self)
  have hi : (A.info p).isIProcess = false := (ProcInfo.place_ready.1 hplace).1
  have hplaced : (A.place p { A.info p with state := .executing }).Placed := h.place fun hi' => by
    rw [hi] at hi'; contradiction
  have hrun : (A.place p { A.info p with state := .executing }).Executing (some p) :=
    hx.start (.inl rfl) rfl
  refine ⟨⟨hplaced.mem_queue, hplaced.nodup, hplaced.iProcess⟩, fun q => ?_⟩
  rw [running, show (A.place p _).interrupted = none from hint]
  exact hrun q

/-- A change of a record that neither starts nor stops the process. -/
theorem Sound.place (h : A.Sound) (hi : info.isIProcess = true → info.state = .ready)
    (hs : info.state = .executing ↔ (A.info p).state = .executing) : (A.place p info).Sound := by
  refine ⟨h.toPlaced.place hi, ?_⟩
  change (A.place p info).Executing A.running
  by_cases hx : (A.info p).state = .executing
  · have hr := (h.executing p).1 hx
    rw [hr]
    exact Executing.start h.executing (.inr hr) (hs.2 hx)
  · exact Executing.place h.executing (fun hr => hx ((h.executing p).2 hr)) fun hx' => hx (hs.1 hx')

theorem Sound.wake (h : A.Sound) (hp : (A.info p).state ≠ .executing) : (A.wake p).Sound := by
  have hs : (A.place p { A.info p with state := .ready }).Sound :=
    h.place (fun _ => rfl) ⟨fun hx => by contradiction, fun hx => absurd hx hp⟩
  exact ⟨⟨hs.mem_queue, hs.nodup, hs.iProcess⟩, hs.executing⟩

/-- The process that is woken up is waiting for an envelope. -/
theorem Placed.first_blocked (h : A.Placed) (hp : A.first .blockedRequestEnvPq = some p) :
    (A.info p).state = .blockedOnEnvRequest := by
  obtain ⟨i, l, -, hl, -⟩ := first_eq_some hp
  have hmem : p ∈ A.queue .blockedRequestEnvPq i := by rw [hl]; exact List.mem_cons_self
  exact (ProcInfo.place_blocked.1 (h.mem_queue.1 hmem)).2.1

/-- The running process stops in a state of its own, and the first ready one runs. -/
theorem Sound.park (h : A.Sound) (hcur : A.current = some p ∧ A.interrupted = none)
    (state : ProcessState) (context : Context) (hs : state ≠ .executing) :
    (A.park p state context).Placed ∧ (A.park p state context).Executing none := by
  have hr : A.running = some p := by rw [running, hcur.1, hcur.2]; rfl
  have hp := h.isIProcess_of_executing ((h.executing p).2 hr)
  exact ⟨h.toPlaced.place fun hi => absurd hi (by simp [hp]), Executing.stop (hr ▸ h.executing) hs⟩

theorem Sound.move (h : A.Sound) {m : Move n} (hm : A.move m = some A') : A'.Sound := by
  cases m with
  | wakeReceiver p =>
    simp only [AbsSched.move, Option.some.injEq] at hm
    subst hm
    split
    · rename_i hp
      exact h.wake (by simp [hp])
    · exact h
  | wakeRequester =>
    simp only [AbsSched.move] at hm
    split at hm
    · cases hm; exact h
    · rename_i p hp
      cases hm
      exact h.wake (by simp [h.first_blocked hp])
  | blockReceive p =>
    simp only [AbsSched.move, Option.ite_none_right_eq_some] at hm
    obtain ⟨hplaced, hx⟩ := h.park hm.1 .blockedOnReceive .receiveMessage nofun
    exact hplaced.dispatch hx hm.1.2 hm.2
  | blockRequest p =>
    simp only [AbsSched.move, Option.ite_none_right_eq_some] at hm
    obtain ⟨hplaced, hx⟩ := h.park hm.1 .blockedOnEnvRequest .requestMsgEnv nofun
    exact hplaced.dispatch hx hm.1.2 hm.2
  | yield p =>
    simp only [AbsSched.move, Option.ite_none_right_eq_some] at hm
    obtain ⟨hplaced, hx⟩ := h.park hm.1 .ready .releaseProcessor nofun
    have hplaced : ((A.park p .ready .releaseProcessor).becameReady p).Placed :=
      ⟨hplaced.mem_queue, hplaced.nodup, hplaced.iProcess⟩
    exact hplaced.dispatch hx hm.1.2 hm.2
  | changePriority newPriority targetProcessId =>
    simp only [AbsSched.move, changePriority] at hm
    split at hm
    · cases hm; exact h
    · obtain ⟨p, -, rfl⟩ := Option.map_eq_some_iff.1 hm
      unfold reprioritise
      split
      · exact h
      · exact h.place h.iProcess Iff.rfl
  | toUser p =>
    simp only [AbsSched.move, Option.ite_none_right_eq_some, Option.some.injEq] at hm
    obtain ⟨-, rfl⟩ := hm
    exact h.place h.iProcess Iff.rfl
  | enterIsr pid =>
    simp only [AbsSched.move, Option.ite_none_right_eq_some, Option.some.injEq] at hm
    obtain ⟨⟨hint, hcur⟩, rfl⟩ := hm
    obtain ⟨p, hp⟩ := Option.isSome_iff_exists.1 hcur
    refine ⟨⟨h.mem_queue, h.nodup, h.iProcess⟩, fun q => ?_⟩
    simpa [running, hint, hp] using h.executing q
  | exitIsr =>
    simp only [AbsSched.move, Option.ite_none_right_eq_some, Option.some.injEq] at hm
    obtain ⟨hint, rfl⟩ := hm
    obtain ⟨p, hp⟩ := Option.isSome_iff_exists.1 hint
    refine ⟨⟨h.mem_queue, h.nodup, h.iProcess⟩, fun q => ?_⟩
    simpa [running, hp] using h.executing q

end AbsSched

end Rtx.Coldfire
