import Rtx.Coldfire.SchedBoot
import Rtx.Coldfire.Steps

/-!
# Runs of the kernel, seen by the scheduler

A run of the kernel from `k_init` is a run of the abstract scheduler, as long as no change of
priority leaves a dangling tail behind (`TailSafe`). Two kinds of invariants follow: `Sound` from
the refinement, and any property of single process records that each move keeps (`Stable`).
-/

namespace Rtx.Coldfire

open Transition Linked

variable {n : ℕ}

/-! ## Safe changes of priority -/

namespace Sched

/-- `k_change_priority` with these arguments gives `p` another priority. -/
def Reprioritises (S : Sched n) (newPriority targetProcessId : ℤ) (p : Fin n) : Prop :=
  0 ≤ newPriority ∧ newPriority < numPriorities ∧ S.kGetProcess targetProcessId = some p ∧
    (S.pTable p).isIProcess = false ∧ 0 < (S.pTable p).pid ∧ (S.pTable p).priority ≠ newPriority

/-- The process stands last in its level, behind another process. -/
def LastBehind (S : Sched n) (p : Fin n) : Prop :=
  ∃ pq i l, i < pq.levels ∧ l ≠ [] ∧
    Chain (pcbNext S.pTable) ((S.pq pq).priorityQueues i).head (l ++ [p])

/-- `k_change_priority` does not take the last of several processes out of its level. -/
def TailSafe (S : Sched n) (newPriority targetProcessId : ℤ) : Prop :=
  ∀ p, S.Reprioritises newPriority targetProcessId p → ¬ S.LastBehind p

variable {S S' : Sched n} {A : AbsSched n}

theorem LastBehind.next {p : Fin n} (h : S.LastBehind p) : (S.pTable p).next = none := by
  obtain ⟨pq, i, l, -, -, hc⟩ := h
  obtain ⟨r, -, -, hnull⟩ := chain_append.1 hc
  exact hnull

/-- A process with another behind it can be given another priority. -/
theorem TailSafe.of_next {newPriority tid : ℤ} {p : Fin n} (hfound : S.kGetProcess tid = some p)
    (hnext : (S.pTable p).next ≠ none) : S.TailSafe newPriority tid := by
  rintro q ⟨-, -, hq, -⟩ hlast
  obtain rfl : p = q := Option.some.inj (hfound.symm.trans hq)
  exact hnext hlast.next

theorem Refines.reprioritises (h : Refines S A) {newPriority tid : ℤ} {p : Fin n} :
    S.Reprioritises newPriority tid p ↔ A.Reprioritises newPriority tid p := by
  have hinfo : (S.pTable p).toProcInfo = A.info p := congrFun h.info p
  rw [Reprioritises, AbsSched.Reprioritises, h.kGetProcess, hinfo]

theorem Refines.safe (h : Refines S A) (hA : A.Placed) {newPriority tid : ℤ}
    (hsafe : S.TailSafe newPriority tid) : A.Safe (.changePriority newPriority tid) := by
  intro p hp pq i l hl
  by_contra hne
  have hmem : p ∈ A.queue pq i := by simp [hl]
  have hi : i < pq.levels := by
    have hplace := hA.mem_queue.1 hmem
    cases pq with
    | readyPq => exact (ProcInfo.place_ready.1 hplace).2.2.2
    | blockedRequestEnvPq => exact (ProcInfo.place_blocked.1 hplace).2.2.2
  exact hsafe p (h.reprioritises.2 hp) ⟨pq, i, l, hi, hne, hl ▸ (h.queues.rep pq i).chain⟩

/-- Safe moves of the code are moves of the abstract scheduler. -/
theorem Refines.exec {ms : List (Move n)} (h : Refines S A) (hA : A.Sound)
    (hsafe : Along Sched.move (fun T m => ∀ newPriority tid, m = .changePriority newPriority tid →
      T.TailSafe newPriority tid) S ms)
    (hrun : Transition.exec Sched.move S ms = some S') :
    ∃ A', Transition.exec AbsSched.move A ms = some A' ∧ Refines S' A' ∧ A'.Sound := by
  refine exec_simulates (R := fun S A => Refines S A ∧ A.Sound) ?_ ⟨h, hA⟩ hsafe hrun
  intro S A m S' ⟨h, hA⟩ hsafe hm
  have hA' : A.Safe m := by
    cases m with
    | changePriority newPriority tid => exact h.safe hA.toPlaced (hsafe newPriority tid rfl)
    | _ => trivial
  obtain ⟨A', hm', h'⟩ := h.move hA hA' hm
  exact ⟨A', hm', h', hA.move hm'⟩

end Sched

/-! ## Properties of single records -/

namespace AbsSched

variable {A A' : AbsSched n} {P : Fin n → ProcInfo → Prop} {m : Move n}

/-- Whatever the move `m` does to the record of a process keeps `P`. -/
structure Stable (P : Fin n → ProcInfo → Prop) (m : Move n) : Prop where
  execute : ∀ {p i}, P p i → P p { i with state := .executing }
  wake : ∀ {p i}, P p i → P p { i with state := .ready }
  user : ∀ {p i}, P p i → P p { i with context := .user }
  yield : ∀ {p i}, P p i → P p { i with state := .ready, context := .releaseProcessor }
  blockReceive : ∀ {p i}, m = .blockReceive p → P p i →
    P p { i with state := .blockedOnReceive, context := .receiveMessage }
  blockRequest : ∀ {p i}, m = .blockRequest p → P p i →
    P p { i with state := .blockedOnEnvRequest, context := .requestMsgEnv }
  changePriority : ∀ {p i newPriority tid}, m = .changePriority newPriority tid →
    0 ≤ newPriority → newPriority < numPriorities → P p i → P p { i with priority := newPriority }

theorem forall_place {p : Fin n} {info : ProcInfo} (h : ∀ q, P q (A.info q)) (hp : P p info) :
    ∀ q, P q ((A.place p info).info q) := by
  intro q
  by_cases hq : q = p
  · subst hq
    rwa [info_place_self]
  · rw [info_place_of_ne A info hq]
    exact h q

theorem forall_dispatch (hP : Stable P m) (h : ∀ q, P q (A.info q)) (hd : A.dispatch = some A') :
    ∀ q, P q (A'.info q) := by
  obtain ⟨p, -, rfl⟩ := Option.map_eq_some_iff.1 hd
  exact forall_place h (hP.execute (h p))

theorem Stable.move (hP : Stable P m) (h : ∀ q, P q (A.info q)) (hm : A.move m = some A') :
    ∀ q, P q (A'.info q) := by
  cases m with
  | wakeReceiver p =>
    cases hm
    split
    · exact forall_place h (hP.wake (h p))
    · exact h
  | wakeRequester =>
    simp only [AbsSched.move] at hm
    split at hm
    · cases hm; exact h
    · cases hm; exact forall_place h (hP.wake (h _))
  | blockReceive p =>
    simp only [AbsSched.move, Option.ite_none_right_eq_some] at hm
    exact forall_dispatch hP (forall_place h (hP.blockReceive rfl (h p))) hm.2
  | blockRequest p =>
    simp only [AbsSched.move, Option.ite_none_right_eq_some] at hm
    exact forall_dispatch hP (forall_place h (hP.blockRequest rfl (h p))) hm.2
  | yield p =>
    simp only [AbsSched.move, Option.ite_none_right_eq_some] at hm
    exact forall_dispatch (A := (A.park p _ _).becameReady p) hP
      (forall_place h (hP.yield (h p))) hm.2
  | changePriority newPriority tid =>
    simp only [AbsSched.move, AbsSched.changePriority] at hm
    split at hm
    · cases hm; exact h
    · obtain ⟨p, -, rfl⟩ := Option.map_eq_some_iff.1 hm
      unfold reprioritise
      split
      · exact h
      · exact forall_place h (hP.changePriority rfl (by omega) (by omega) (h p))
  | toUser p =>
    simp only [AbsSched.move, Option.ite_none_right_eq_some, Option.some.injEq] at hm
    obtain ⟨-, rfl⟩ := hm
    exact forall_place h (hP.user (h p))
  | enterIsr pid =>
    simp only [AbsSched.move, Option.ite_none_right_eq_some, Option.some.injEq] at hm
    obtain ⟨-, rfl⟩ := hm
    exact h
  | exitIsr =>
    simp only [AbsSched.move, Option.ite_none_right_eq_some, Option.some.injEq] at hm
    obtain ⟨-, rfl⟩ := hm
    exact h

theorem Stable.exec {ms : List (Move n)} (hP : ∀ m ∈ ms, Stable P m) (h : ∀ q, P q (A.info q))
    (hrun : exec AbsSched.move A ms = some A') : ∀ q, P q (A'.info q) :=
  exec_invariant (I := fun A => ∀ q, P q (A.info q)) (C := fun _ => Stable P)
    (fun _ _ _ h hP hm => hP.move h hm) h (.of_forall fun m hm _ => hP m hm) hrun

end AbsSched

/-! ## Runs -/

namespace Kernel

variable {s s' : Kernel n} {A : AbsSched n} {l : Label}

/-- The step makes no unsafe change of priority. -/
def TailSafe (s : Kernel n) (l : Label) : Prop :=
  ∀ newPriority tid, l = .call (.changePriority newPriority tid) →
    s.sched.TailSafe newPriority tid

/-- The kernel's scheduler is a sound abstract one, with no interrupt being handled. -/
structure Models (s : Kernel n) (A : AbsSched n) : Prop where
  refines : s.sched.Refines A
  sound : A.Sound
  interrupted : s.sched.interruptedProcess = none

/-- A step is a run of the abstract scheduler, of permitted moves. -/
theorem Models.step (h : s.Models A) (hsafe : s.TailSafe l) (hstep : s.step l = some s') :
    ∃ ms A', (∀ m ∈ ms, l.Permits s m) ∧ exec AbsSched.move A ms = some A' ∧ s'.Models A' := by
  obtain ⟨ms, hms, hfirst, hrun, hint⟩ := step_sched h.interrupted hstep
  have hsafe' : Along Sched.move (fun T m => ∀ newPriority tid,
      m = .changePriority newPriority tid → T.TailSafe newPriority tid) s.sched ms := by
    refine hfirst.mono fun S m hm hS newPriority tid hchange => ?_
    subst hchange
    rw [hS trivial]
    exact hsafe newPriority tid (hms _ hm).1
  obtain ⟨A', hrun', href, hA'⟩ := h.refines.exec h.sound hsafe' hrun
  exact ⟨ms, A', hms, hrun', href, hA', hint⟩

theorem kInitBoot_refines {ram : Ram n} {table : Fin n → PcbInit}
    (h : kInitBoot ram table = some s) : s.sched.Refines (Sched.bootSched table) := by
  unfold kInitBoot at h
  obtain ⟨ipc, -, h⟩ := Option.bind_eq_some_iff.1 h
  obtain ⟨sched, hinit, h⟩ := Option.bind_eq_some_iff.1 h
  cases h
  exact Sched.initProcesses_refines hinit

theorem kInit_models {ram : Ram n} {table : Fin n → PcbInit} (h : kInit ram table = some s) :
    ∃ A, (Sched.bootSched table).dispatch = some A ∧ s.Models A := by
  unfold kInit at h
  obtain ⟨s₀, hboot, h⟩ := Option.bind_eq_some_iff.1 h
  obtain ⟨sched, hd, h⟩ := Option.bind_eq_some_iff.1 h
  cases h
  have hplaced := Sched.placed_bootSched table
  obtain ⟨A, hA, href⟩ := Sched.firstDispatch_refines (kInitBoot_refines hboot) hplaced hd
  have hsound : A.Sound := hplaced.dispatch
    (fun p => by simp [Sched.bootSched, PcbInit.info]) rfl hA
  refine ⟨A, hA, href, hsound, href.interrupted.trans ?_⟩
  obtain ⟨p, -, rfl⟩ := Option.map_eq_some_iff.1 hA
  rfl

end Kernel

end Rtx.Coldfire
