import Rtx.Unix.Boot

/-!
# Boot of the scheduler of the Unix port

On a table with priorities in range no assertion of `k_process_init` fails, whatever memory held,
and the scheduler is the abstract one the table describes. Each PCB loses its link before it is
queued, so what is in no queue is linked to nothing.
-/

namespace Rtx.Unix

open Coldfire (Pcb PcbInit ProcInfo PqPtr Sched AbsSched Levels pcbNext procRep_create codeSuccess)
open Coldfire.Sched (Queues Free Booting bootLevels bootSched)

variable {n : ℕ} {initTable : Fin n → PcbInit} {memory : Fin n → Pcb n} {S : Sched n} {L : Levels n}
  {p : Fin n} {l : List (Fin n)}

theorem queues_setPcb (h : S.Queues L) (hp : Free L p) (pcb : Pcb n) :
    ({ S with pTable := Function.update S.pTable p pcb } : Sched n).Queues L where
  levels := h.levels
  rep pq i := Linked.Rep.congr (h.rep pq i) fun q hq => by
    have hqp : q ≠ p := by
      rintro rfl
      exact hp pq i hq
    simp [pcbNext, hqp]
  disjoint := h.disjoint

/-- `k_process_init` after the processes in `l`. -/
structure Settled (initTable : Fin n → PcbInit) (l : List (Fin n)) (S : Sched n) : Prop
    extends Booting initTable l S where
  untied : ∀ p ∈ l, Free (bootLevels initTable l) p → pcbNext S.pTable p = none

theorem Settled.step (h : Settled initTable l S) (hp : p ∉ l)
    (hprio : (initTable p).isIProcess = false →
      0 ≤ (initTable p).priority ∧ (initTable p).priority < numPriorities + nullPriority) :
    ∃ S', initPcb initTable S p = some S' ∧ Settled initTable (l ++ [p]) S' := by
  have hfree : Free (bootLevels initTable l) p := fun pq i hmem => hp (List.mem_filter.1 hmem).1
  have hlevels := Coldfire.Sched.bootLevels_concat initTable l p
  let pcb : Pcb n := { toProcInfo := (initTable p).info, next := none }
  let S₀ : Sched n := { S with pTable := Function.update S.pTable p pcb }
  have hqueues : S₀.Queues (bootLevels initTable l) := queues_setPcb h.queues hfree pcb
  have hself : pcbNext S₀.pTable p = none := by simp [S₀, pcb, pcbNext]
  have hother : ∀ q, q ≠ p → pcbNext S₀.pTable q = pcbNext S.pTable q := fun q hq => by
    simp [S₀, pcbNext, hq]
  -- What the links are once `p` has been queued, if it is.
  have huntied : ∀ S' : Sched n, pcbNext S'.pTable = pcbNext S₀.pTable ∨
      (∀ q, Free (bootLevels initTable (l ++ [p])) q →
        pcbNext S'.pTable q = pcbNext S₀.pTable q) →
      ∀ q ∈ l ++ [p], Free (bootLevels initTable (l ++ [p])) q → pcbNext S'.pTable q = none := by
    intro S' hnext q hq hfreeq
    have hlink : pcbNext S'.pTable q = pcbNext S₀.pTable q := by
      rcases hnext with hsame | hfar
      · rw [hsame]
      · exact hfar q hfreeq
    rw [hlink]
    by_cases hqp : q = p
    · subst hqp
      exact hself
    · rw [hother q hqp]
      refine h.untied q ((List.mem_append.1 hq).resolve_right (by simpa using hqp)) ?_
      rw [hlevels] at hfreeq
      exact free_append hfreeq
  obtain ⟨S', hinit, hboot⟩ := h.toBooting.step hp
  cases hi : (initTable p).isIProcess with
  | true =>
    have hS₀ : initPcb initTable S p = some S₀ := by
      simp [initPcb, hi, S₀, pcb, PcbInit.info]
    obtain rfl : S₀ = S' := Option.some.inj ((initPcb_cold hS₀).symm.trans hinit)
    exact ⟨S₀, hS₀, hboot, huntied S₀ (.inl rfl)⟩
  | false =>
    have hrecord : ((S₀.becameReady p).pTable p).toProcInfo = (initTable p).info := by
      simp [Sched.becameReady, S₀, pcb]
    have hi' : ((S₀.becameReady p).pTable p).isIProcess = false := by
      rw [hrecord]
      exact hi
    obtain ⟨S₁, henq, -, -, hnext⟩ :=
      enqueueOn_spec (hqueues.becameReady p) hfree hself hi' .readyPq
    rw [hrecord] at henq hnext
    have hlevel : (PqPtr.levelOf .readyPq (initTable p).info.priority).isSome = true := by
      have hrange : 0 ≤ (initTable p).info.priority ∧
          (initTable p).info.priority < ((PqPtr.levels .readyPq : ℕ) : ℤ) := hprio hi
      rw [PqPtr.levelOf, if_pos hrange]
      rfl
    rw [if_pos hlevel] at henq
    have hS₁ : initPcb initTable S p = some S₁ := by
      have hpcb : initPcb initTable S p = (enqueueOn (S₀.becameReady p) .readyPq p).bind
          fun r => if r.1 = codeSuccess then some r.2 else none := by
        simp [initPcb, hi, S₀, pcb, PcbInit.info]
      rw [hpcb, henq]
      rfl
    obtain rfl : S₁ = S' := Option.some.inj ((initPcb_cold hS₁).symm.trans hinit)
    refine ⟨S₁, hS₁, hboot, huntied S₁ (.inr fun q hq => hnext q ?_)⟩
    have hplace : (initTable p).info.place =
        PqPtr.levelOf .readyPq (initTable p).info.priority := by
      simp [ProcInfo.place, PcbInit.info, hi]
    rw [hlevels, hplace] at hq
    exact hq

theorem Settled.run {l' : List (Fin n)} (h : Settled initTable l S) (hnd : (l ++ l').Nodup)
    (hprio : ∀ p, (initTable p).isIProcess = false →
      0 ≤ (initTable p).priority ∧ (initTable p).priority < numPriorities + nullPriority) :
    ∃ S', l'.foldlM (initPcb initTable) S = some S' ∧ Settled initTable (l ++ l') S' := by
  induction l' generalizing l S with
  | nil => exact ⟨S, rfl, by rwa [List.append_nil]⟩
  | cons p l' ih =>
    have hp : p ∉ l := fun hpl =>
      (List.nodup_append.1 hnd).2.2 p hpl p List.mem_cons_self rfl
    obtain ⟨S₁, hinit, h₁⟩ := h.step hp (hprio p)
    rw [List.append_cons] at hnd ⊢
    rw [List.foldlM_cons, hinit]
    exact ih h₁ hnd

theorem settled_nil (initTable : Fin n → PcbInit) (memory : Fin n → Pcb n) :
    Settled initTable [] ⟨memory, fun
      | .readyPq => Coldfire.procPqCreate (numPriorities + nullPriority)
      | .blockedRequestEnvPq => Coldfire.procPqCreate numPriorities, none, none, []⟩ := by
  refine ⟨⟨⟨?_, fun pq i => ?_, fun hp => by simp [bootLevels] at hp⟩, by simp, rfl, rfl, rfl⟩,
    by simp⟩
  · rintro (_ | _) <;> rfl
  · cases pq <;> exact procRep_create _

/-- `k_process_init` gets through, and refines the abstract boot. -/
theorem kProcessInit_spec (hprio : ∀ p, (initTable p).isIProcess = false →
      0 ≤ (initTable p).priority ∧ (initTable p).priority < numPriorities + nullPriority)
    (memory : Fin n → Pcb n) :
    ∃ S, kProcessInit memory initTable = some S ∧ SchedRefines S (bootSched initTable) := by
  obtain ⟨S, hinit, h⟩ := (settled_nil initTable memory).run (List.nodup_finRange n) hprio
  exact ⟨S, hinit, ⟨h.queues, funext fun p => h.info p (List.mem_finRange p), h.current,
    h.interrupted, h.readyLog⟩, fun p => h.untied p (List.mem_finRange p)⟩

theorem kEnterScheduler_refines {A : AbsSched n} (h : SchedRefines S A) (hA : A.Placed)
    (hfirst : A.first .readyPq = some p) :
    ∃ S' A', kEnterScheduler S = some S' ∧ A.dispatch = some A' ∧ SchedRefines S' A' := by
  obtain ⟨S', hS', -⟩ := Coldfire.Sched.firstDispatch_first h.refines hA hfirst
  obtain ⟨A', hA', href⟩ := Coldfire.Sched.firstDispatch_refines h.refines hA hS'
  refine ⟨S', A', by rw [kEnterScheduler_eq, hS'], hA', href, ?_⟩
  rw [AbsSched.dispatch, hfirst] at hA'
  cases hA'
  show Untied S' (A.place p { A.info p with state := .executing }).queue
  rw [AbsSched.queue_place_of_none (ProcInfo.place_eq_none (by simp) (by simp))]
  unfold Sched.firstDispatch at hS'
  cases hdeq : S.dequeue .readyPq with
  | mk found S₁ =>
    rw [hdeq] at hS'
    cases found with
    | none => contradiction
    | some q =>
      cases hS'
      obtain rfl : q = p := Option.some.inj href.current
      exact ((dequeue_untied h.untied hdeq).of_next rfl :
        Untied { S₁ with currentProcess := some q } _).setInfo q _

namespace Kernel

variable {s : Kernel n}

/-- The scheduler of the kernel is a sound abstract one. -/
structure Models (s : Kernel n) (A : AbsSched n) : Prop where
  refines : SchedRefines s.sched A
  sound : A.Sound

/-- With a table that is `Tabled`, `k_init` gets through, whatever memory held. -/
theorem kInit_spec (htab : Tabled initTable) (ram : Ram n) :
    ∃ s A, kInit ram initTable = some s ∧ (bootSched initTable).dispatch = some A ∧ s.Models A := by
  obtain ⟨ipc, hipc, -⟩ := Ipc.init_spec (n := n) ram.env
  obtain ⟨S₀, hproc, href⟩ := kProcessInit_spec (fun p _ => htab.priority p) ram.pTable
  have hplaced := Coldfire.Sched.placed_bootSched initTable
  -- The null process is there, so there is a first one to run.
  obtain ⟨z, hz⟩ := htab.null
  have hzi : (initTable z).isIProcess = false := by
    refine Bool.eq_false_iff.2 fun hi => ?_
    have hlt := (htab.isIProcess z).1 hi
    have hz' : ((z : ℕ) : ℤ) = 3 := hz
    omega
  obtain ⟨p, hfirst⟩ : ∃ p, (bootSched initTable).first .readyPq = some p := by
    refine Option.ne_none_iff_exists'.1 fun hnone => ?_
    have hrange : 0 ≤ (initTable z).priority ∧
        (initTable z).priority < ((PqPtr.levels .readyPq : ℕ) : ℤ) := htab.priority z
    have hmem : z ∈ (bootSched initTable).queue .readyPq (initTable z).priority.toNat :=
      hplaced.mem_queue.2 (ProcInfo.place_ready.2 ⟨hzi, rfl, (Int.toNat_of_nonneg hrange.1).symm,
        by omega⟩)
    rw [AbsSched.first_eq_none hnone _ (by omega)] at hmem
    exact List.not_mem_nil hmem
  obtain ⟨S, A, henter, hA, href'⟩ := kEnterScheduler_refines href hplaced hfirst
  have hinit : kInit ram initTable =
      some { sched := S, ipc := ipc, flag := false, crtBuf := ram.crtBuf } := by
    have hboot : kInitBoot ram initTable =
        some { sched := S₀, ipc := ipc, flag := false, crtBuf := ram.crtBuf } := by
      unfold kInitBoot
      rw [hipc, hproc]
      rfl
    show (kInitBoot ram initTable).bind _ = _
    rw [hboot]
    show (kEnterScheduler S₀).bind _ = _
    rw [henter]
    rfl
  exact ⟨_, A, hinit, hA, href', hplaced.dispatch (fun p => by simp [bootSched, PcbInit.info]) rfl
    hA⟩

theorem Booted.models (h : Booted initTable s) (htab : Tabled initTable) :
    ∃ A, (bootSched initTable).dispatch = some A ∧ s.Models A := by
  obtain ⟨ram, hinit⟩ := h
  obtain ⟨s', A, hinit', hA, hmodels⟩ := kInit_spec htab ram
  obtain rfl : s = s' := Option.some.inj (hinit.symm.trans hinit')
  exact ⟨A, hA, hmodels⟩

end Kernel

end Rtx.Unix
