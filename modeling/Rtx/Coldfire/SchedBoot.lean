import Rtx.Coldfire.SchedRefine

/-!
# Boot

`init_processes` puts every process that is not an i-process into the ready queue, in the order of
the table, whatever the freshly allocated PCBs held before.
-/

namespace Rtx.Coldfire

variable {n : ℕ}

/-- The record `init_processes` makes of an entry of the table. -/
def PcbInit.info (init : PcbInit) : ProcInfo where
  pid := init.pid
  priority := init.priority
  state := .ready
  context := .user
  isIProcess := init.isIProcess

namespace Sched

/-- The queues after the processes in `l` have been initialised. -/
def bootLevels (table : Fin n → PcbInit) (l : List (Fin n)) : Levels n := fun pq i =>
  l.filter fun p => (table p).info.place = some (pq, i)

/-- The processes in `l`, newest first, without the i-processes. -/
def bootLog (table : Fin n → PcbInit) (l : List (Fin n)) : List (Fin n) :=
  (l.filter fun p => (table p).isIProcess = false).reverse

/-- The abstract scheduler after `init_processes`. -/
def bootSched (table : Fin n → PcbInit) : AbsSched n where
  info p := (table p).info
  queue := bootLevels table (List.finRange n)
  current := none
  interrupted := none
  readyLog := bootLog table (List.finRange n)

/-- `init_processes` after the processes in `l`. -/
structure Booting (table : Fin n → PcbInit) (l : List (Fin n)) (S : Sched n) : Prop where
  queues : S.Queues (bootLevels table l)
  info : ∀ p ∈ l, S.view p = (table p).info
  current : S.currentProcess = none
  interrupted : S.interruptedProcess = none
  readyLog : S.readyLog = bootLog table l

variable {table : Fin n → PcbInit} {l : List (Fin n)} {S S' : Sched n} {p : Fin n}

theorem bootLevels_concat (table : Fin n → PcbInit) (l : List (Fin n)) (p : Fin n) :
    bootLevels table (l ++ [p]) = (bootLevels table l).append p (table p).info.place := by
  funext pq i
  rw [Levels.append_apply, bootLevels, List.filter_append]
  by_cases hp : (table p).info.place = some (pq, i) <;> simp [bootLevels, hp]

theorem Booting.step (h : Booting table l S) (hp : p ∉ l) :
    ∃ S', initProcess table S p = some S' ∧ Booting table (l ++ [p]) S' := by
  have hfree : Free (bootLevels table l) p := fun pq i hmem => hp (List.mem_filter.1 hmem).1
  let pcb : Pcb n := { toProcInfo := (table p).info, next := none }
  let S₀ : Sched n := { S with pTable := Function.update S.pTable p pcb }
  have hlink : ∀ q, q ≠ p → pcbNext S₀.pTable q = pcbNext S.pTable q := fun q hq => by
    simp [S₀, pcbNext, hq]
  have hqueues : S₀.Queues (bootLevels table l) :=
    ⟨h.queues.levels, fun pq i => Linked.Rep.congr (h.queues.rep pq i) fun q hq =>
      hlink q fun hqp => hfree pq i (hqp ▸ hq), h.queues.disjoint⟩
  have hview : ∀ q ∈ l ++ [p], S₀.view q = (table q).info := by
    intro q hq
    by_cases hqp : q = p
    · subst hqp; simp [S₀, Sched.view, pcb]
    · have hql : q ∈ l := (List.mem_append.1 hq).resolve_right (by simpa using hqp)
      rw [← h.info q hql]
      simp [S₀, Sched.view, hqp]
  cases hi : (table p).isIProcess with
  | true =>
    refine ⟨S₀, by simp [initProcess, hi, S₀, pcb, PcbInit.info], ?_, hview, h.current,
      h.interrupted, ?_⟩
    · rw [bootLevels_concat, ProcInfo.place_isIProcess hi]
      exact hqueues
    · rw [show S₀.readyLog = S.readyLog from rfl, h.readyLog]
      simp [bootLog, hi]
  | false =>
    obtain ⟨S₁, henq, hsame, hq⟩ := (hqueues.becameReady p).enqueue hfree .readyPq
    have hprio : ((S₀.becameReady p).pTable p).toProcInfo = (table p).info := by
      simp [becameReady, S₀, pcb]
    refine ⟨S₁, ?_, ?_, fun q hq => (congrFun hsame.view q).trans (hview q hq),
      hsame.current.trans h.current, hsame.interrupted.trans h.interrupted, ?_⟩
    · rw [← henq]
      simp [initProcess, hi, S₀, pcb, PcbInit.info]
    · rw [bootLevels_concat]
      rw [hprio] at hq
      simpa [ProcInfo.place, PcbInit.info, hi] using hq
    · rw [hsame.readyLog, show (S₀.becameReady p).readyLog = p :: S.readyLog from rfl, h.readyLog]
      simp [bootLog, hi]

theorem Booting.run {l₂ : List (Fin n)} (h : Booting table l S) (hnd : (l ++ l₂).Nodup)
    (hrun : l₂.foldlM (initProcess table) S = some S') : Booting table (l ++ l₂) S' := by
  induction l₂ generalizing l S with
  | nil =>
    obtain rfl : S = S' := Option.some.inj hrun
    rwa [List.append_nil]
  | cons p l₂ ih =>
    have hp : p ∉ l := fun hpl =>
      (List.nodup_append.1 hnd).2.2 p hpl p List.mem_cons_self rfl
    obtain ⟨S₁, hinit, h₁⟩ := h.step hp
    rw [List.foldlM_cons, hinit] at hrun
    rw [List.append_cons] at hnd ⊢
    exact ih h₁ hnd hrun

theorem initProcesses_refines {memory : Fin n → Pcb n}
    (h : initProcesses memory table = some S) : Refines S (bootSched table) := by
  have hb := Booting.run (l := []) ?_ (List.nodup_finRange n) h
  · exact ⟨hb.queues, funext fun p => hb.info p (List.mem_finRange p), hb.current, hb.interrupted,
      hb.readyLog⟩
  · refine ⟨⟨?_, fun pq i => ?_, fun hp => by simp [bootLevels] at hp⟩, by simp, rfl, rfl, rfl⟩
    · rintro (_ | _) <;> rfl
    · cases pq <;> exact procRep_create _

theorem placed_bootSched (table : Fin n → PcbInit) : (bootSched table).Placed where
  mem_queue := by simp [bootSched, bootLevels]
  nodup pq i := (List.nodup_finRange n).filter _
  iProcess _ := rfl

theorem firstDispatch_first {A : AbsSched n} (h : Refines S A) (hA : A.Placed)
    (hfirst : A.first .readyPq = some p) :
    ∃ S', S.firstDispatch = some S' ∧ S'.currentProcess = some p := by
  obtain ⟨S₁, hdeq, -, -⟩ := dequeue_out hA h.queues hfirst
  exact ⟨_, by rw [firstDispatch, hdeq], rfl⟩

theorem firstDispatch_refines {A : AbsSched n} (h : Refines S A) (hA : A.Placed)
    (h' : S.firstDispatch = some S') : ∃ A', A.dispatch = some A' ∧ Refines S' A' := by
  unfold firstDispatch at h'
  cases hfirst : A.first .readyPq with
  | none => rw [h.queues.dequeue_none (AbsSched.first_eq_none hfirst)] at h'; contradiction
  | some p =>
    obtain ⟨S₁, hdeq, hview, hq⟩ := dequeue_out hA h.queues hfirst
    rw [hdeq] at h'
    cases h'
    refine ⟨_, by rw [AbsSched.dispatch, hfirst]; rfl, ?_⟩
    refine ⟨?_, ?_, rfl, hview.interrupted.trans h.interrupted, hview.readyLog.trans h.readyLog⟩
    · refine Queues.setInfo ?_ ..
      rw [show AbsSched.queue _ = _ from
        AbsSched.queue_place_of_none (ProcInfo.place_eq_none (by simp) (by simp))]
      exact ⟨hq.levels, hq.rep, hq.disjoint⟩
    · rw [view_setState, show Sched.view { S₁ with currentProcess := some p } = S₁.view from rfl,
        hview.view, h.info]
      rfl

end Sched

end Rtx.Coldfire
