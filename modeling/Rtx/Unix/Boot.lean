import Rtx.Coldfire.SchedBoot
import Rtx.Unix.Steps

/-!
# What `k_init` leaves

Whatever memory held before, `k_init` puts every envelope into the free queue, with a body of its
own, and every process of the table that is not an i-process into the ready queue. Then the first of
these runs.
-/

namespace Rtx.Unix

open Linked Places
open Coldfire (Body Letter MsgEnv Pcb PcbInit ProcInfo PqPtr Sched AbsSched nextOf pcbNext
  codeSuccess)
open Coldfire.Sched (bootLevels bootSched)

variable {n : ℕ}

/-! ## Envelopes -/

namespace Ipc

/-- Where the envelopes are after boot. -/
def bootSpots : Spot n → List EnvPtr
  | .queue .freeEnvQ => List.finRange ipcNumFreeMsgEnvs
  | _ => []

/-- `k_storage_init` after the envelopes in `l`. -/
structure Booting (l : List EnvPtr) (I : Ipc n) : Prop where
  holds : I.toQueueMem.Holds fun queue => if queue = .freeEnvQ then l else []
  msg : ∀ env ∈ l, (I.letter env).msg.isSome
  timeoutQueue : I.timeoutQueue = none
  prevMsg : I.prevMsg = none
  clock : I.clock = 0
  log : I.log = []

variable {I I' : Ipc n} {l : List EnvPtr} {env : EnvPtr}

theorem Booting.step (h : Booting l I) (henv : env ∉ l) :
    ∃ I', I.initEnv env = some I' ∧ Booting (l ++ [env]) I' := by
  have hout : ∀ j : QueuePtr n, env ∉ if j = .freeEnvQ then l else [] := by
    intro j
    split
    · exact henv
    · exact List.not_mem_nil
  obtain ⟨J, henq, hreq, hholds⟩ := enqueue_spec (I := { I with
    mem := Function.update I.mem env { I.mem env with
      next := none, msg := some ((I.mem env).msg.getD fun _ => 0) } })
    (h.holds.write hout _) hout .freeEnvQ
  refine ⟨J, henq, ?_, fun x hx => ?_, hreq.timeoutQueue.trans h.timeoutQueue,
    hreq.prevMsg.trans h.prevMsg, hreq.clock.trans h.clock, hreq.log.trans h.log⟩
  · rw [if_pos rfl] at hholds
    have hlists : (Function.update (fun j : QueuePtr n => if j = .freeEnvQ then l else [])
        .freeEnvQ (l ++ [env])) = fun j => if j = .freeEnvQ then l ++ [env] else [] := by
      funext j
      by_cases hj : j = .freeEnvQ
      · subst hj
        rw [Function.update_self, if_pos rfl]
      · rw [Function.update_of_ne hj, if_neg hj, if_neg hj]
    rwa [hlists] at hholds
  · rw [hreq.letter]
    by_cases hxe : x = env
    · subst hxe
      simp [Ipc.letter]
    · have hxl : x ∈ l := (List.mem_append.1 hx).resolve_right (by simpa using hxe)
      simpa [Ipc.letter, hxe] using h.msg x hxl

theorem Booting.run {l' : List EnvPtr} (h : Booting l I) (hnd : (l ++ l').Nodup) :
    ∃ I', l'.foldlM initEnv I = some I' ∧ Booting (l ++ l') I' := by
  induction l' generalizing l I with
  | nil => exact ⟨I, rfl, by rwa [List.append_nil]⟩
  | cons env l' ih =>
    have henv : env ∉ l := fun hl =>
      (List.nodup_append.1 hnd).2.2 env hl env List.mem_cons_self rfl
    obtain ⟨I₁, hinit, h₁⟩ := h.step henv
    rw [List.append_cons] at hnd ⊢
    rw [List.foldlM_cons, hinit]
    exact ih h₁ hnd

/-- `k_storage_init` gets through, and leaves every envelope free. -/
theorem init_spec (memory : EnvPtr → MsgEnv EnvPtr) :
    ∃ I : Ipc n, Ipc.init memory = some I ∧ Booting (List.finRange ipcNumFreeMsgEnvs) I := by
  refine Booting.run (l := []) ⟨?_, nofun, rfl, rfl, rfl, rfl⟩ (List.nodup_finRange _)
  have hempty : (fun queue : QueuePtr n => if queue = .freeEnvQ then ([] : List EnvPtr) else []) =
      fun _ => [] := by
    funext queue
    exact ite_self _
  rw [hempty]
  exact holds_create memory

theorem partition_bootSpots : Partition (bootSpots : Spot n → List EnvPtr) where
  exists_place e := ⟨.queue .freeEnvQ, List.mem_finRange e⟩
  unique {e a b} ha hb := by
    have hspot : ∀ c : Spot n, e ∈ bootSpots c → c = .queue .freeEnvQ := by
      intro c hc
      unfold bootSpots at hc
      split at hc
      · rfl
      · exact absurd hc List.not_mem_nil
    rw [hspot a ha, hspot b hb]
  nodup a := by
    unfold bootSpots
    split
    · exact List.nodup_finRange _
    · exact List.nodup_nil

theorem Booting.keeps (h : Booting (List.finRange ipcNumFreeMsgEnvs) I) : I.Keeps bootSpots where
  holds := by
    have hlists : (fun queue : QueuePtr n => bootSpots (.queue queue)) = fun queue =>
        if queue = .freeEnvQ then List.finRange ipcNumFreeMsgEnvs else [] := by
      funext queue
      cases queue <;> rfl
    rw [hlists]
    exact h.holds
  pending := ⟨fun _ => 0, h.timeoutQueue, by simp [bootSpots], List.Pairwise.nil⟩
  screen := by simp [h.prevMsg]
  partition := partition_bootSpots
  spot {env a} ha := by
    rw [h.log, spotOf_nil]
    exact partition_bootSpots.unique (List.mem_finRange env) ha

end Ipc

/-! ## Processes -/

variable {initTable : Fin n → PcbInit} {memory : Fin n → Pcb n} {S S' : Sched n} {A : AbsSched n}
  {p : Fin n} {l : List (Fin n)}

/-- Where no assertion fails, the table is set up as on the ColdFire. -/
theorem initPcb_cold (h : initPcb initTable S p = some S') :
    Sched.initProcess initTable S p = some S' := by
  unfold initPcb at h
  unfold Sched.initProcess
  simp only at h ⊢
  split at h
  · rename_i hi
    rw [if_pos hi]
    exact h
  · rename_i hi
    rw [if_neg hi]
    obtain ⟨⟨code, S₁⟩, henq, hcode⟩ := Option.bind_eq_some_iff.1 h
    obtain ⟨-, hS₁⟩ := Option.ite_none_right_eq_some.1 hcode
    cases hS₁
    exact enqueueOn_enqueue henq

theorem kProcessInit_cold (h : kProcessInit memory initTable = some S) :
    Sched.initProcesses memory initTable = some S := by
  unfold kProcessInit at h
  unfold Sched.initProcesses
  have hrun : ∀ (l : List (Fin n)) (S₀ : Sched n), l.foldlM (initPcb initTable) S₀ = some S →
      l.foldlM (Sched.initProcess initTable) S₀ = some S := by
    intro l
    induction l with
    | nil => exact fun _ => id
    | cons p l ih =>
      intro S₀ hl
      obtain ⟨S₁, hinit, hl⟩ := Option.bind_eq_some_iff.1 hl
      rw [List.foldlM_cons, initPcb_cold hinit]
      exact ih S₁ hl
  exact hrun _ _ h

theorem kEnterScheduler_eq (S : Sched n) : kEnterScheduler S = S.firstDispatch := rfl

namespace Kernel

variable {s : Kernel n}

theorem Booted.parts (h : Booted initTable s) :
    ∃ memory S₀, kProcessInit memory initTable = some S₀ ∧ S₀.firstDispatch = some s.sched ∧
      Ipc.Booting (List.finRange ipcNumFreeMsgEnvs) s.ipc ∧ s.flag = false := by
  obtain ⟨ram, hinit⟩ := h
  obtain ⟨ipc, hipc, hbooting⟩ := Ipc.init_spec (n := n) ram.env
  unfold kInit kInitBoot at hinit
  rw [hipc] at hinit
  obtain ⟨s₀, hboot, hrest⟩ := Option.bind_eq_some_iff.1 hinit
  rw [Option.bind_eq_bind, Option.bind_some] at hboot
  obtain ⟨S₀, hproc, hdone⟩ := Option.bind_eq_some_iff.1 hboot
  cases hdone
  obtain ⟨sched, hsched, hdone⟩ := Option.bind_eq_some_iff.1 hrest
  cases hdone
  exact ⟨ram.pTable, S₀, hproc, hsched, hbooting, rfl⟩

theorem Booted.rested (h : Booted initTable s) : s.Rested initTable := by
  obtain ⟨memory, S₀, hproc, hfirst, -, hflag⟩ := h.parts
  have hcold := kProcessInit_cold hproc
  obtain ⟨hregular, hids⟩ := Coldfire.Sched.regular_boot hcold hfirst
  obtain ⟨A, hA, href⟩ := Coldfire.Sched.firstDispatch_refines
    (Coldfire.Sched.initProcesses_refines hcold) (Coldfire.Sched.placed_bootSched initTable) hfirst
  obtain ⟨p, -, rfl⟩ := Option.map_eq_some_iff.1 hA
  refine ⟨hflag, href.interrupted, ?_, hregular, hids⟩
  rw [href.current]
  rfl

end Kernel

end Rtx.Unix
