import Rtx.Coldfire.Location
import Rtx.Coldfire.SchedCases

/-!
# Changing a priority

The contract of `k_change_priority`: an illegal call changes nothing, and a legal one changes the
priority of its target and moves it to the end of its new level. It holds of every call unless
the pid names no process at all (`change_priority_iff`): the process `k_get_process` did not find is
asked for its `is_i_process` all the same.

A call that leaves a dangling tail behind meets the contract itself. It does not read that tail
again, so it is followed in a scheduler that has the tail right (`SameButTails`). Later calls do
read it (`change_priority_dangling`).
-/

namespace Rtx.Coldfire

open Transition Linked

variable {n : ℕ}

namespace Sched

/-- The priority is a legal one, and the pid names a process that may be given it. -/
def Eligible (S : Sched n) (newPriority targetProcessId : ℤ) (p : Fin n) : Prop :=
  0 ≤ newPriority ∧ newPriority < numPriorities ∧ S.kGetProcess targetProcessId = some p ∧
    (S.pTable p).isIProcess = false ∧ 0 ≤ (S.pTable p).pid ∧ (S.pTable p).pid ≠ nullPid

/-- The process stands in this level and in no other. -/
def StandsIn (L : Levels n) (pq : PqPtr) (i : ℕ) (p : Fin n) : Prop :=
  p ∈ L pq i ∧ ∀ pq' i', i' < pq'.levels → p ∈ L pq' i' → pq' = pq ∧ i' = i

/-- What a change of priority makes of the scheduler. -/
structure Reprioritised (S S' : Sched n) (newPriority : ℤ) (p : Fin n) : Prop where
  priority : (S'.pTable p).priority = newPriority
  state : (S'.pTable p).state = (S.pTable p).state
  others : ∀ q, q ≠ p → (S'.pTable q).toProcInfo = (S.pTable q).toProcInfo
  queues : ∃ L L', S.Visits L ∧ S'.Visits L' ∧
    (∀ pq i, i < pq.levels → (L' pq i).filter (· ≠ p) = (L pq i).filter (· ≠ p)) ∧
    ∀ pq, (S.pTable p).state = pq.state → ∃ i : ℕ, newPriority = i ∧ StandsIn L' pq i p ∧
      if (S.pTable p).priority = newPriority then L' pq i = L pq i else ∃ l, L' pq i = l ++ [p]

variable {S S' T T' : Sched n} {A : AbsSched n} {L : Levels n} {pq : PqPtr} {p : Fin n} {i : ℕ}
  {newPriority tid : ℤ}

/-! ## Up to tails -/

/-- The same scheduler, the tails of the levels apart, but with the same level `i` of `pq`. -/
structure SameButTails (pq : PqPtr) (i : ℕ) (S T : Sched n) : Prop where
  pTable : T.pTable = S.pTable
  numPriorities : ∀ pq', (T.pq pq').numPriorities = (S.pq pq').numPriorities
  head : ∀ pq' i', (T.level pq' i').head = (S.level pq' i').head
  level : T.level pq i = S.level pq i

theorem SameButTails.view (h : SameButTails pq i S T) : T.view = S.view := by
  unfold Sched.view
  rw [h.pTable]

theorem SameButTails.setInfo (h : SameButTails pq i S T) (info : ProcInfo) :
    SameButTails pq i (S.setInfo p info) (T.setInfo p info) where
  pTable := by
    rw [Sched.setInfo, Sched.setInfo, h.pTable]
  numPriorities := h.numPriorities
  head := h.head
  level := h.level

theorem SameButTails.visits (h : SameButTails pq i S T) (hq : T.Queues L) : S.Visits L := by
  intro pq' i' _
  have hc := (hq.rep pq' i').chain
  rwa [h.pTable, show ((T.pq pq').priorityQueues i').head = _ from h.head pq' i'] at hc

theorem SameButTails.setLevel (h : SameButTails pq i S T) (mem : Fin n → Pcb n)
    (queue : ProcQueue n) : SameButTails pq i (S.setLevel pq i mem queue)
      (T.setLevel pq i mem queue) where
  pTable := rfl
  numPriorities pq' := by
    rw [numPriorities_setLevel, numPriorities_setLevel]
    exact h.numPriorities pq'
  head pq' i' := by
    by_cases hpi : pq' = pq ∧ i' = i
    · obtain ⟨rfl, rfl⟩ := hpi
      rw [level_setLevel_self, level_setLevel_self]
    · rw [level_setLevel_of_ne hpi, level_setLevel_of_ne hpi]
      exact h.head pq' i'
  level := by
    rw [level_setLevel_self, level_setLevel_self]

theorem SameButTails.tail {pq' : PqPtr} {j : ℕ} (hne : ¬ (pq = pq' ∧ i = j)) (mem : Fin n → Pcb n)
    (queue : ProcQueue n) (t : Option (Fin n)) : SameButTails pq i (S.setLevel pq' j mem queue)
      (S.setLevel pq' j mem { queue with tail := t }) where
  pTable := rfl
  numPriorities pq₁ := by
    rw [numPriorities_setLevel, numPriorities_setLevel]
  head pq₁ i₁ := by
    by_cases hpi : pq₁ = pq' ∧ i₁ = j
    · obtain ⟨rfl, rfl⟩ := hpi
      rw [level_setLevel_self, level_setLevel_self]
    · rw [level_setLevel_of_ne hpi, level_setLevel_of_ne hpi]
  level := by
    rw [level_setLevel_of_ne hne, level_setLevel_of_ne hne]

/-- An enqueue reads the level it changes, and no other. -/
theorem SameButTails.enqueue (h : SameButTails pq i S T) (hprio : (S.pTable p).priority = i)
    (henq : T.enqueue pq p = some T') :
    ∃ S', S.enqueue pq p = some S' ∧ SameButTails pq i S' T' := by
  rcases enqueue_cases henq with ⟨rfl, hrange⟩ | ⟨j, mem, queue, hj, hlt, hlevel, rfl⟩
  · rw [h.pTable, h.numPriorities] at hrange
    refine ⟨S, ?_, h⟩
    rw [Sched.enqueue, procPqEnqueue, if_pos hrange]
    simp
  · obtain rfl : i = j := by
      rw [h.pTable, hprio] at hj
      exact_mod_cast hj
    rw [h.pTable, h.level] at hlevel
    rw [h.numPriorities] at hlt
    exact ⟨_, enqueue_level hprio hlt hlevel, h.setLevel mem queue⟩

/-- `proc_pq_remove` takes any process out, up to the tail of its level. -/
theorem remove_upToTails (href : Refines S A) (hA : A.Placed)
    (hplace : (A.info p).place = pq.levelOf (A.info p).priority)
    (hne : (A.info p).priority ≠ i) :
    ∃ S₁ T, S.remove pq p = some S₁ ∧ S₁.view = S.view ∧ SameButTails pq i S₁ T ∧
      T.Queues (A.out p) := by
  have hprio : (S.pTable p).priority = (A.info p).priority := by rw [← href.info]; rfl
  cases hlevel : (A.info p).place with
  | none =>
    rw [out_eq_self hA hlevel]
    exact ⟨S, S, href.queues.remove_none (by rw [hprio, ← hplace, hlevel]), rfl,
      ⟨rfl, fun _ => rfl, fun _ _ => rfl, rfl⟩, href.queues⟩
  | some place =>
    obtain ⟨pq', j⟩ := place
    rw [hlevel] at hplace
    obtain ⟨rfl, hj, hlt⟩ := PqPtr.levelOf_eq_some.1 hplace.symm
    have hij : ¬ (pq' = pq' ∧ i = j) := by
      rintro ⟨-, rfl⟩
      exact hne hj
    obtain ⟨l₁, l₂, hl⟩ := List.append_of_mem (hA.mem_queue.2 hlevel)
    have hrep := href.queues.rep pq' j
    rw [hl] at hrep
    obtain ⟨mem, queue, hrem, hc, hm⟩ := procQueueRemove_chain hrep
    -- `T` has the tail that the source forgets to move back.
    have hT : (S.setLevel pq' j mem { queue with tail := (l₁ ++ l₂).getLast? }).Queues
        (A.out p) := by
      rw [out_eq_set hA hl]
      refine href.queues.setLevel ⟨hc, fun a ha => ha⟩ hm (fun pq₁ i₁ hne' q hq hql => ?_)
        fun q hq => .inl ?_
      · exact hne' (href.queues.disjoint hq (by rw [hl]; exact hql))
      · rw [hl]
        exact ((List.sublist_cons_self p l₂).append_left l₁).subset hq
    refine ⟨_, _, remove_level (hprio.trans hj) ?_ hrem, funext hm.info, .tail hij mem queue _, hT⟩
    rw [href.queues.levels]
    exact hlt

/-! ## The call -/

/-- The target leaves its level and joins the one of its new priority. -/
theorem requeue_place (href : Refines S A) (hA : A.Placed)
    (hplace : (A.info p).place = pq.levelOf (A.info p).priority)
    (hplace' : ({ A.info p with priority := newPriority } : ProcInfo).place =
      pq.levelOf newPriority)
    (h₀ : 0 ≤ newPriority) (hne : (A.info p).priority ≠ newPriority) :
    ∃ S', ((S.remove pq p).bind fun S => (S.setPriority p newPriority).enqueue pq p) = some S' ∧
      S'.view = (A.place p { A.info p with priority := newPriority }).info ∧
      S'.Visits (A.place p { A.info p with priority := newPriority }).queue := by
  obtain ⟨S₁, T, hrem, hview₁, hT, hq⟩ :=
    remove_upToTails (i := newPriority.toNat) href hA hplace (by omega)
  have hT' : SameButTails pq newPriority.toNat (S₁.setPriority p newPriority)
      (T.setPriority p newPriority) := by
    rw [setPriority, setPriority, hT.pTable]
    exact hT.setInfo _
  have hprio : ∀ U : Sched n, ((U.setPriority p newPriority).pTable p).priority = newPriority :=
    fun U => by simp [setPriority, setInfo]
  obtain ⟨T₂, henq, hview₂, hq₂⟩ := enqueue_place { A.info p with priority := newPriority }
    (S := T.setPriority p newPriority) (hq.setInfo ..) (hprio T) hplace'
  obtain ⟨S₂, henq', hS₂⟩ := hT'.enqueue (by rw [hprio]; omega) henq
  refine ⟨S₂, by rw [hrem]; exact henq', ?_, hS₂.visits hq₂⟩
  have hS₁ : (S₁.pTable p).toProcInfo = A.info p :=
    congrFun (hview₁.trans href.info) p
  calc S₂.view = T₂.view := hS₂.view.symm
    _ = (T.setPriority p newPriority).view := hview₂.view
    _ = (S₁.setPriority p newPriority).view := hT'.view
    _ = Function.update A.info p { A.info p with priority := newPriority } := by
      rw [setPriority, view_setInfo, hS₁, hview₁, href.info]

theorem levelOf_legal (pq : PqPtr) (h₀ : 0 ≤ newPriority) (h₁ : newPriority < numPriorities) :
    pq.levelOf newPriority = some (pq, newPriority.toNat) := by
  refine if_pos ⟨h₀, ?_⟩
  cases pq <;> simp only [PqPtr.levels, numPriorities, additionalNullPriority] at h₁ ⊢ <;> omega

theorem Reprioritised.of_place (href : Refines S A)
    (hi : (A.info p).isIProcess = false) (h₀ : 0 ≤ newPriority) (h₁ : newPriority < numPriorities)
    (hne : (A.info p).priority ≠ newPriority)
    (hview : S'.view = (A.place p { A.info p with priority := newPriority }).info)
    (hvisits : S'.Visits (A.place p { A.info p with priority := newPriority }).queue) :
    Reprioritised S S' newPriority p := by
  have hinfo : ∀ q, (S.pTable q).toProcInfo = A.info q := congrFun href.info
  have hinfo' : ∀ q, (S'.pTable q).toProcInfo =
      (A.place p { A.info p with priority := newPriority }).info q := congrFun hview
  refine ⟨by simp [hinfo'], by simp [hinfo', hinfo], fun q hq => ?_, A.queue, _,
    href.queues.visits, hvisits, fun pq i _ => ?_, fun pq hstate => ?_⟩
  · rw [hinfo', hinfo, AbsSched.info_place_of_ne A _ hq]
  · rw [AbsSched.queue_place, List.filter_append]
    split <;> simp [AbsSched.out]
  rw [hinfo] at hstate
  have hplace : ({ A.info p with priority := newPriority } : ProcInfo).place =
      some (pq, newPriority.toNat) :=
    (ProcInfo.place_of_state pq hi hstate newPriority).trans (levelOf_legal pq h₀ h₁)
  have hmem : ∀ pq' i', p ∈ (A.place p { A.info p with priority := newPriority }).queue pq' i' ↔
      pq' = pq ∧ i' = newPriority.toNat := by
    intro pq' i'
    rw [AbsSched.mem_queue_place, hplace]
    simp [eq_comm]
  refine ⟨newPriority.toNat, by omega, ⟨(hmem pq _).2 ⟨rfl, rfl⟩, fun pq' i' _ h =>
    (hmem pq' i').1 h⟩, ?_⟩
  rw [if_neg (by rw [hinfo]; exact hne)]
  exact ⟨_, by rw [AbsSched.queue_place, if_pos hplace]⟩

theorem Reprioritised.of_same (href : Refines S A) (hA : A.Placed)
    (hi : (A.info p).isIProcess = false) (h₀ : 0 ≤ newPriority) (h₁ : newPriority < numPriorities)
    (hsame : (A.info p).priority = newPriority) : Reprioritised S S newPriority p := by
  have hinfo : (S.pTable p).toProcInfo = A.info p := congrFun href.info p
  refine ⟨by rw [hinfo]; exact hsame, rfl, fun _ _ => rfl, A.queue, A.queue, href.queues.visits,
    href.queues.visits, fun _ _ _ => rfl, fun pq hstate => ?_⟩
  rw [hinfo] at hstate
  have hplace : (A.info p).place = some (pq, newPriority.toNat) := by
    refine (ProcInfo.place_of_state pq hi hstate (A.info p).priority).trans ?_
    rw [hsame, levelOf_legal pq h₀ h₁]
  refine ⟨newPriority.toNat, by omega, ⟨hA.mem_queue.2 hplace, fun pq' i' _ h => ?_⟩, ?_⟩
  · rw [hA.mem_queue, hplace] at h
    cases h
    exact ⟨rfl, rfl⟩
  · rw [if_pos (by rw [hinfo]; exact hsame)]

theorem kChangePriority_eligible (href : Refines S A) (hA : A.Placed)
    (hp : S.Eligible newPriority tid p) :
    ∃ S', S.kChangePriority newPriority tid = some (codeSuccess, S') ∧
      Reprioritised S S' newPriority p := by
  obtain ⟨h₀, h₁, hget, hi, hpid, hnull⟩ := hp
  have hinfo : (S.pTable p).toProcInfo = A.info p := congrFun href.info p
  have hi' : (A.info p).isIProcess = false := by rw [← hinfo]; exact hi
  unfold kChangePriority
  rw [if_neg (by omega), hget]
  simp only
  rw [if_neg (by simp [hi, hnull]; omega)]
  by_cases hsame : (S.pTable p).priority = newPriority
  · rw [if_pos hsame]
    exact ⟨S, rfl, .of_same href hA hi' h₀ h₁ (by rw [← hinfo]; exact hsame)⟩
  rw [if_neg hsame]
  have hne : (A.info p).priority ≠ newPriority := by rw [← hinfo]; exact hsame
  have hqueued : ∀ pq : PqPtr, (S.pTable p).state = pq.state →
      ∃ S', (do
        let S ← S.remove pq p
        let S ← (S.setPriority p newPriority).enqueue pq p
        return (codeSuccess, S)) = some (codeSuccess, S') ∧ Reprioritised S S' newPriority p := by
    intro pq hstate
    rw [hinfo] at hstate
    have hplace := ProcInfo.place_of_state pq hi' hstate
    obtain ⟨S', hdo, hview, hvisits⟩ :=
      requeue_place href hA (hplace (A.info p).priority) (hplace newPriority) h₀ hne
    obtain ⟨S₁, hrem, henq⟩ := Option.bind_eq_some_iff.1 hdo
    refine ⟨S', ?_, .of_place href hi' h₀ h₁ hne hview hvisits⟩
    simp [hrem, henq]
  cases hstate : (S.pTable p).state with
  | ready => exact hqueued .readyPq hstate
  | blockedOnEnvRequest => exact hqueued .blockedRequestEnvPq hstate
  | executing | blockedOnReceive | interrupted =>
    rw [hinfo] at hstate
    have href' : Refines (S.setPriority p newPriority)
        (A.place p { A.info p with priority := newPriority }) :=
      href.setPriority hA (by simp [hstate]) (by simp [hstate])
    exact ⟨_, rfl, .of_place href hi' h₀ h₁ hne href'.info href'.queues.visits⟩

theorem kChangePriority_turned (hlegal : ∀ p, ¬ S.Eligible newPriority tid p)
    (hnamed : newPriority < 0 ∨ newPriority ≥ numPriorities ∨ (S.kGetProcess tid).isSome) :
    S.kChangePriority newPriority tid = some (errorIllegalArg, S) := by
  unfold kChangePriority
  by_cases hrange : newPriority < 0 ∨ newPriority ≥ numPriorities
  · rw [if_pos hrange]
  rw [if_neg hrange]
  have hsome : (S.kGetProcess tid).isSome := by
    rcases hnamed with h | h | h
    · exact absurd (.inl h) hrange
    · exact absurd (.inr h) hrange
    · exact h
  obtain ⟨p, hget⟩ := Option.isSome_iff_exists.1 hsome
  rw [hget]
  refine if_pos ?_
  by_contra hguard
  simp only [not_or, not_lt] at hguard hrange
  exact hlegal p ⟨hrange.1, by omega, hget, by simpa using hguard.1, hguard.2.1, hguard.2.2⟩

theorem not_eligible (hget : S.kGetProcess tid = none) (p : Fin n) :
    ¬ S.Eligible newPriority tid p := by
  rintro ⟨-, -, hp, -⟩
  rw [hget] at hp
  contradiction

end Sched

namespace Kernel

/-- The contract of `k_change_priority`. -/
structure ChangesPriority (s : Kernel n) (newPriority targetProcessId : ℤ) : Prop where
  illegal : (∀ p, ¬ s.sched.Eligible newPriority targetProcessId p) →
    s.kChangePriority newPriority targetProcessId = some (errorIllegalArg, s)
  legal : ∀ p, s.sched.Eligible newPriority targetProcessId p →
    ∃ S', s.kChangePriority newPriority targetProcessId =
      some (codeSuccess, { s with sched := S' }) ∧ s.sched.Reprioritised S' newPriority p

variable {s : Kernel n} {A : AbsSched n}

theorem Models.changesPriority_iff (h : s.Models A) {newPriority tid : ℤ} :
    s.ChangesPriority newPriority tid ↔ newPriority < 0 ∨ newPriority ≥ numPriorities ∨
      ∃ p, (s.sched.pTable p).pid = tid := by
  rw [← Sched.kGetProcess_isSome]
  constructor
  · intro hcontract
    by_contra hnot
    simp only [not_or, not_lt, Option.not_isSome_iff_eq_none] at hnot
    obtain ⟨h₀, h₁, hget⟩ := hnot
    -- The call reads through the null pointer that `k_get_process` returned.
    have hnone : s.kChangePriority newPriority tid = none := by
      rw [Kernel.kChangePriority, Sched.kChangePriority, if_neg (by omega), hget]
      rfl
    have hsome := hcontract.illegal (Sched.not_eligible hget)
    rw [hnone] at hsome
    contradiction
  · intro hnamed
    refine ⟨fun hillegal => ?_, fun p hp => ?_⟩
    · rw [Kernel.kChangePriority, Sched.kChangePriority_turned hillegal hnamed]
      rfl
    · obtain ⟨S', hcall, hmoved⟩ := Sched.kChangePriority_eligible h.refines h.sound.toPlaced hp
      exact ⟨S', by rw [Kernel.kChangePriority, hcall]; rfl, hmoved⟩

end Kernel

/-- Along every run in which no change of priority takes the last of several processes out of its
level, `k_change_priority` meets its contract, with whatever arguments it is called next, if and
only if the priority is out of range or the pid names a process. -/
theorem change_priority_iff {table : Fin n → PcbInit} {s : Kernel n}
    (hs : Reach Kernel.step (Kernel.Booted table) Kernel.TailSafe s)
    (newPriority targetProcessId : ℤ) :
    s.ChangesPriority newPriority targetProcessId ↔
      newPriority < 0 ∨ newPriority ≥ numPriorities ∨
        ∃ p, (s.sched.pTable p).pid = targetProcessId := by
  obtain ⟨A, hmodels⟩ : ∃ A, s.Models A := by
    refine hs.invariant (I := fun s => ∃ A, s.Models A) ?_ ?_
    · rintro s ⟨ram, hinit⟩
      obtain ⟨A, -, hmodels⟩ := Kernel.kInit_models hinit
      exact ⟨A, hmodels⟩
    · rintro s l s' - ⟨A, hmodels⟩ hsafe hstep
      obtain ⟨-, A', -, -, hmodels'⟩ := hmodels.step hsafe hstep
      exact ⟨A', hmodels'⟩
  exact hmodels.changesPriority_iff

/-- On the table of `main.c`, a change that leaves a tail dangling meets the contract itself. -/
theorem change_priority_itable :
    ∃ s, ((Kernel.kInit Kernel.Ram.zero itable).bind fun s =>
        s.step (.call .releaseProcessor)) = some s ∧
      s.ChangesPriority 1 pongPid := by
  have hrun : ((Kernel.kInit Kernel.Ram.zero itable).bind fun s =>
      s.step (.call .releaseProcessor)).any (fun s =>
        decide (∃ p, (s.sched.pTable p).pid = pongPid)) = true := by
    decide +kernel
  obtain ⟨s, hs, hpong⟩ := (Option.any_eq_true ..).1 hrun
  obtain ⟨s₀, hinit, hstep⟩ := Option.bind_eq_some_iff.1 hs
  have hreach : Reach Kernel.step (Kernel.Booted itable) Kernel.TailSafe s :=
    .step (.init ⟨_, hinit⟩) (fun _ _ hc => by cases hc) hstep
  exact ⟨s, hs, (change_priority_iff hreach 1 pongPid).2 (.inr (.inr (of_decide_eq_true hpong)))⟩

/-- There is no process with pid 99, and right after `k_init` a call that names it reads through
null. -/
theorem change_priority_fails :
    ¬ ∀ s, Reach Kernel.step (Kernel.Booted itable) (fun _ _ => True) s →
      ∀ newPriority targetProcessId, s.ChangesPriority newPriority targetProcessId := by
  have hrun : (Kernel.kInit Kernel.Ram.zero itable).any (fun s =>
      decide ((s.kChangePriority 1 99).isNone ∧ (s.sched.kGetProcess 99).isNone)) = true := by
    decide +kernel
  obtain ⟨s, hinit, hfacts⟩ := (Option.any_eq_true ..).1 hrun
  obtain ⟨hnone, hget⟩ := of_decide_eq_true hfacts
  rw [Option.isNone_iff_eq_none] at hnone hget
  intro hall
  have hcontract := hall s (.init ⟨_, hinit⟩) 1 99
  have hsome := hcontract.illegal (Sched.not_eligible hget)
  rw [hnone] at hsome
  cases hsome

/-- The condition on the run is needed: once pong has left level 0 from behind process C, the wall
clock is queued behind the dangling tail, on level 1, when it is given priority 0. -/
theorem change_priority_dangling :
    ∃ s, Reach Kernel.step (Kernel.Booted itable) (fun _ _ => True) s ∧
      (∃ p, (s.sched.pTable p).pid = 1) ∧ ¬ s.ChangesPriority 0 1 := by
  have hrun : ((Kernel.kInit Kernel.Ram.zero itable).bind fun s =>
      s.step (.call (.changePriority 1 pongPid))).any (fun s => decide (
        (s.sched.kGetProcess 1 = some 4 ∧ (s.sched.pTable 4).isIProcess = false ∧
          (s.sched.pTable 4).pid = 1 ∧ (s.sched.pTable 4).state = .ready) ∧
        (s.kChangePriority 0 1).any fun r => decide (
          ((r.2.sched.pq .readyPq).priorityQueues 0).head = some 7 ∧
          (r.2.sched.pTable 7).next = none))) = true := by
    decide +kernel
  obtain ⟨s, hs, hfacts⟩ := (Option.any_eq_true ..).1 hrun
  obtain ⟨s₀, hinit, hstep⟩ := Option.bind_eq_some_iff.1 hs
  obtain ⟨⟨hget, hi, hpid, hstate⟩, hcall⟩ := of_decide_eq_true hfacts
  refine ⟨s, .step (.init ⟨_, hinit⟩) trivial hstep, ⟨4, hpid⟩, fun hcontract => ?_⟩
  have hp : s.sched.Eligible 0 1 4 :=
    ⟨by decide, by decide, hget, hi, by rw [hpid]; decide, by rw [hpid]; decide⟩
  obtain ⟨S', hcall', hmoved⟩ := hcontract.legal 4 hp
  rw [hcall'] at hcall
  obtain ⟨hhead, hnext⟩ : ((S'.pq .readyPq).priorityQueues 0).head = some 7 ∧
      (S'.pTable 7).next = none := by simpa using hcall
  obtain ⟨L, L', -, hvisits, -, hstands⟩ := hmoved.queues
  obtain ⟨i, hi₀, ⟨hmem, -⟩, -⟩ := hstands .readyPq hstate
  obtain rfl : i = 0 := by omega
  have hlist : L' .readyPq 0 = [7] := by
    refine (hvisits .readyPq 0 (by decide)).unique ?_
    simp only [chain_cons, chain_nil, pcbNext]
    exact ⟨hhead, hnext⟩
  rw [hlist] at hmem
  exact absurd hmem (by decide)

end Rtx.Coldfire
