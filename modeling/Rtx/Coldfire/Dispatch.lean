import Rtx.Coldfire.SchedRuns

/-!
# Dispatch order

Every process the kernel chooses to run is ready, has the smallest priority number of all ready
processes, and among those of its priority became ready first (`dispatch_order`). The order in
which processes became ready is the ghost log of the scheduler.

The lists of the ready queue are the ready processes ordered by the log (`Ordered`); taking the
first process of the first level then takes the best one.
-/

namespace Rtx.Coldfire

open Transition

variable {n : ℕ}

/-- When `p` last became ready: its position in the log, counted from the oldest entry. -/
def readyAt : List (Fin n) → Fin n → ℕ
  | [], _ => 0
  | q :: log, p => if q = p then log.length + 1 else readyAt log p

theorem readyAt_le (log : List (Fin n)) (p : Fin n) : readyAt log p ≤ log.length := by
  induction log with
  | nil => exact le_rfl
  | cons q log ih =>
    rw [readyAt, List.length_cons]
    split <;> omega

/-- In the scheduler `S`, `p` is the process to run. -/
structure Sched.Best (S : Sched n) (p : Fin n) : Prop where
  ready : (S.pTable p).state = .ready
  isIProcess : (S.pTable p).isIProcess = false
  priority : ∀ q, (S.pTable q).isIProcess = false → (S.pTable q).state = .ready →
    (S.pTable p).priority ≤ (S.pTable q).priority
  earliest : ∀ q, (S.pTable q).isIProcess = false → (S.pTable q).state = .ready →
    (S.pTable q).priority = (S.pTable p).priority →
    readyAt S.readyLog p ≤ readyAt S.readyLog q

namespace AbsSched

variable {A A' : AbsSched n} {p q : Fin n} {info : ProcInfo}

/-- The levels of the ready queue are in the order of the log. -/
def Ordered (A : AbsSched n) : Prop :=
  ∀ i, (A.queue .readyPq i).Pairwise fun p q => readyAt A.readyLog p < readyAt A.readyLog q

/-- In the abstract scheduler, `p` is the process to run. -/
structure Best (A : AbsSched n) (p : Fin n) : Prop where
  ready : (A.info p).state = .ready
  isIProcess : (A.info p).isIProcess = false
  priority : ∀ q, (A.info q).isIProcess = false → (A.info q).state = .ready →
    (A.info p).priority ≤ (A.info q).priority
  earliest : ∀ q, (A.info q).isIProcess = false → (A.info q).state = .ready →
    (A.info q).priority = (A.info p).priority →
    readyAt A.readyLog p ≤ readyAt A.readyLog q

/-- All priorities are levels of the ready queue. -/
def InRange (A : AbsSched n) : Prop :=
  ∀ p, 0 ≤ (A.info p).priority ∧ (A.info p).priority < PqPtr.levels .readyPq

/-- The first process of the first level that has one is the best one. -/
theorem first_best (hA : A.Placed) (ho : A.Ordered) (hr : A.InRange)
    (hp : A.first .readyPq = some p) : A.Best p := by
  obtain ⟨i, l, hi, hl, hbefore⟩ := first_eq_some hp
  have hmem : p ∈ A.queue .readyPq i := by rw [hl]; exact List.mem_cons_self
  obtain ⟨hpi, hstate, hprio, -⟩ := ProcInfo.place_ready.1 (hA.mem_queue.1 hmem)
  have hqueue : ∀ q, (A.info q).isIProcess = false → (A.info q).state = .ready →
      q ∈ A.queue .readyPq (A.info q).priority.toNat := by
    intro q hqi hq
    obtain ⟨h₀, h₁⟩ := hr q
    exact hA.mem_queue.2 (ProcInfo.place_ready.2 ⟨hqi, hq, by omega, by omega⟩)
  refine ⟨hstate, hpi, fun q hqi hq => ?_, fun q hqi hq heq => ?_⟩
  · by_contra hlt
    have hlt' : (A.info q).priority.toNat < i := by
      have := (hr q).1
      omega
    have hmem' := hqueue q hqi hq
    rw [hbefore _ hlt'] at hmem'
    exact List.not_mem_nil hmem'
  · have hql := hqueue q hqi hq
    rw [heq, hprio, Int.toNat_natCast, hl] at hql
    have hpair := ho i
    rw [hl] at hpair
    rcases List.mem_cons.1 hql with rfl | hql
    · exact le_rfl
    · exact (List.rel_of_pairwise_cons hpair hql).le

/-! ## The order is kept -/

theorem Ordered.out (h : A.Ordered) (p : Fin n) (i : ℕ) :
    (A.out p .readyPq i).Pairwise fun p q => readyAt A.readyLog p < readyAt A.readyLog q :=
  (h i).filter _

theorem Ordered.leave (h : A.Ordered) (hinfo : ∀ i, info.place ≠ some (.readyPq, i)) :
    (A.place p info).Ordered := by
  intro i
  rw [queue_place, if_neg (hinfo i), List.append_nil]
  exact h.out p i

theorem Ordered.ready (h : A.Ordered) (p : Fin n) (info : ProcInfo) :
    ((A.place p info).becameReady p).Ordered := by
  intro i
  have hnew : ∀ {q}, q ∈ A.out p .readyPq i → readyAt (p :: A.readyLog) q = readyAt A.readyLog q :=
    fun hq => if_neg fun hpq => (mem_out.1 hq).2 hpq.symm
  have hout : (A.out p .readyPq i).Pairwise fun q r =>
      readyAt (p :: A.readyLog) q < readyAt (p :: A.readyLog) r :=
    (h.out p i).imp_of_mem fun hq hr hlt => by rwa [hnew hq, hnew hr]
  change ((A.place p info).queue .readyPq i).Pairwise _
  rw [queue_place]
  split
  · refine List.pairwise_append.2 ⟨hout, List.pairwise_singleton .., fun q hq r hr => ?_⟩
    obtain rfl := List.mem_singleton.1 hr
    have hlt := readyAt_le A.readyLog q
    show readyAt (r :: A.readyLog) q < readyAt (r :: A.readyLog) r
    rw [hnew hq, readyAt, if_pos rfl]
    omega
  · rwa [List.append_nil]

theorem Ordered.dispatch (h : A.Ordered) (hd : A.dispatch = some A') : A'.Ordered := by
  obtain ⟨p, -, rfl⟩ := Option.map_eq_some_iff.1 hd
  have hout : (A.place p { A.info p with state := .executing }).Ordered := h.leave fun i hi =>
    absurd (ProcInfo.place_ready.1 hi).2.1 nofun
  exact hout

theorem Ordered.wake (h : A.Ordered) (p : Fin n) : (A.wake p).Ordered := h.ready p _

theorem Ordered.move (h : A.Ordered) (hA : A.Sound) {m : Move n} (hchange : ¬ m.IsChange)
    (hm : A.move m = some A') : A'.Ordered := by
  cases m with
  | wakeReceiver p =>
    cases hm
    split
    · exact h.wake p
    · exact h
  | wakeRequester =>
    simp only [AbsSched.move] at hm
    split at hm
    · cases hm; exact h
    · cases hm; exact h.wake _
  | blockReceive p =>
    simp only [AbsSched.move, Option.ite_none_right_eq_some] at hm
    refine Ordered.dispatch (h.leave fun i hi => ?_) hm.2
    exact absurd (ProcInfo.place_ready.1 hi).2.1 (by simp)
  | blockRequest p =>
    simp only [AbsSched.move, Option.ite_none_right_eq_some] at hm
    refine Ordered.dispatch (h.leave fun i hi => ?_) hm.2
    exact absurd (ProcInfo.place_ready.1 hi).2.1 (by simp)
  | yield p =>
    simp only [AbsSched.move, Option.ite_none_right_eq_some] at hm
    exact (h.ready p _).dispatch hm.2
  | changePriority newPriority tid => exact absurd trivial hchange
  | toUser p =>
    simp only [AbsSched.move, Option.ite_none_right_eq_some, Option.some.injEq] at hm
    obtain ⟨hcur, rfl⟩ := hm
    refine h.leave fun i hi => ?_
    have hx := (Sched.out_running hA hcur).2.1
    have := (ProcInfo.place_ready.1 hi).2.1
    simp [hx] at this
  | enterIsr pid =>
    simp only [AbsSched.move, Option.ite_none_right_eq_some, Option.some.injEq] at hm
    obtain ⟨-, rfl⟩ := hm
    exact h
  | exitIsr =>
    simp only [AbsSched.move, Option.ite_none_right_eq_some, Option.some.injEq] at hm
    obtain ⟨-, rfl⟩ := hm
    exact h

end AbsSched

/-! ## Boot -/

/-- A log without repetitions tells its entries apart by their age. -/
theorem pairwise_readyAt_reverse {l : List (Fin n)} (hnd : l.Nodup) :
    l.Pairwise fun p q => readyAt l.reverse p < readyAt l.reverse q := by
  induction l using List.reverseRecOn with
  | nil => exact List.Pairwise.nil
  | append_singleton l p ih =>
    obtain ⟨hl, -, hdis⟩ := List.nodup_append.1 hnd
    have hne : ∀ {q}, q ∈ l → p ≠ q := fun hq => (hdis _ hq p List.mem_cons_self).symm
    rw [List.reverse_append, List.reverse_singleton, List.singleton_append]
    refine List.pairwise_append.2 ⟨?_, List.pairwise_singleton .., fun q hq r hr => ?_⟩
    · refine (ih hl).imp_of_mem fun hq hr hlt => ?_
      rwa [readyAt, readyAt, if_neg (hne hq), if_neg (hne hr)]
    · obtain rfl := List.mem_singleton.1 hr
      have hle := readyAt_le l.reverse q
      rw [readyAt, readyAt, if_neg (hne hq), if_pos rfl]
      omega

theorem Sched.ordered_bootSched (table : Fin n → PcbInit) : (bootSched table).Ordered := by
  intro i
  have hlevel : (bootSched table).queue .readyPq i =
      ((List.finRange n).filter fun p => (table p).isIProcess = false).filter fun p =>
        (table p).info.place = some (.readyPq, i) := by
    rw [List.filter_filter]
    refine List.filter_congr fun p _ => ?_
    rw [← Bool.decide_and, decide_eq_decide]
    exact ⟨fun h => ⟨h, (ProcInfo.place_ready.1 h).1⟩, And.left⟩
  rw [hlevel]
  exact (pairwise_readyAt_reverse ((List.nodup_finRange n).filter _)).filter _

/-! ## Every dispatch -/

namespace Kernel

variable {s t : Kernel n} {A B : AbsSched n} {l : Label} {p z : Fin n}

/-- The records keep their priorities in range, and `z` never waits for anything. -/
def Sleepless (z : Fin n) (p : Fin n) (info : ProcInfo) : Prop :=
  0 ≤ info.priority ∧ info.priority < PqPtr.levels .readyPq ∧
    (p = z → info.isIProcess = false ∧ (info.state = .ready ∨ info.state = .executing))

theorem sleepless_stable (hz : ¬ s.Blocks l z) {m : Move n} (hm : l.Permits s m)
    (hchange : ¬ m.IsChange) : AbsSched.Stable (Sleepless z) m where
  execute := fun ⟨h₀, h₁, h⟩ => ⟨h₀, h₁, fun hp => ⟨(h hp).1, .inr rfl⟩⟩
  wake := fun ⟨h₀, h₁, h⟩ => ⟨h₀, h₁, fun hp => ⟨(h hp).1, .inl rfl⟩⟩
  user := fun ⟨h₀, h₁, h⟩ => ⟨h₀, h₁, h⟩
  yield := fun ⟨h₀, h₁, h⟩ => ⟨h₀, h₁, fun hp => ⟨(h hp).1, .inl rfl⟩⟩
  blockReceive := by
    rintro p i rfl ⟨h₀, h₁, h⟩
    exact ⟨h₀, h₁, fun hp => absurd (hp ▸ hm.2 p rfl) hz⟩
  blockRequest := by
    rintro p i rfl ⟨h₀, h₁, h⟩
    exact ⟨h₀, h₁, fun hp => absurd (hp ▸ hm.2 p rfl) hz⟩
  changePriority := by
    rintro p i newPriority tid rfl
    exact absurd trivial hchange

/-- The invariant of a run. -/
structure InOrder (z : Fin n) (s : Kernel n) (A : AbsSched n) : Prop where
  models : s.Models A
  ordered : A.Ordered
  sleepless : ∀ p, Sleepless z p (A.info p)

/-- The step does not change a priority, and `z` does not block in it. -/
def Plain (z : Fin n) (s : Kernel n) (l : Label) : Prop :=
  (∀ newPriority tid, l ≠ .call (.changePriority newPriority tid)) ∧ ¬ s.Blocks l z

theorem InOrder.step {s' : Kernel n} (h : InOrder z s A) (hl : Plain z s l)
    (hstep : s.step l = some s') : ∃ A', InOrder z s' A' := by
  have hsafe : s.TailSafe l := fun newPriority tid hc => absurd hc (hl.1 newPriority tid)
  obtain ⟨ms, A', hms, hrun, hmodels⟩ := h.models.step hsafe hstep
  have hchange : ∀ m ∈ ms, ¬ m.IsChange := by
    intro m hm hc
    cases m with
    | changePriority newPriority tid => exact hl.1 newPriority tid (hms _ hm).1
    | _ => exact hc
  refine ⟨A', hmodels, ?_, ?_⟩
  · refine (exec_invariant (I := fun A => A.Sound ∧ A.Ordered)
      (C := fun _ m => ¬ m.IsChange) ?_ ⟨h.models.sound, h.ordered⟩
      (.of_forall fun m hm _ => hchange m hm) hrun).2
    exact fun A m A' hA hm hmove => ⟨hA.1.move hmove, hA.2.move hA.1 hm hmove⟩
  · exact AbsSched.Stable.exec (fun m hm => sleepless_stable hl.2 (hms m hm) (hchange m hm))
      h.sleepless hrun

/-- A process stopped in a primitive is parked, and the queues stay in order. -/
theorem InOrder.parked (h : InOrder z s A) {cur : Fin n} {state : ProcessState}
    {resumeAt : Context} {m : Move n} (hs : Switches s cur state resumeAt t m)
    (hcur : s.sched.currentProcess = some cur) :
    ∃ B, t.sched.Parked cur state resumeAt B ∧ B.Ordered ∧
      B.info = (A.park cur state resumeAt).info := by
  obtain ⟨href, hA, hint⟩ := h.models
  have hcur' : A.current = some cur ∧ A.interrupted = none :=
    ⟨href.current.symm.trans hcur, href.interrupted.symm.trans hint⟩
  cases hs with
  | blockReceive =>
    exact ⟨_, Sched.blockReceive_parked href hA hcur',
      h.ordered.leave fun i hi => absurd (ProcInfo.place_ready.1 hi).2.1 nofun, rfl⟩
  | blockRequest hempty henq =>
    exact ⟨_, Sched.blockRequest_parked href hA hcur' henq,
      h.ordered.leave fun i hi => absurd (ProcInfo.place_ready.1 hi).2.1 nofun, rfl⟩
  | yield hyield => exact ⟨_, Sched.yield_parked href hA hcur' hyield, h.ordered.ready _ _, rfl⟩

end Kernel

theorem AbsSched.Best.transfer {S : Sched n} {A : AbsSched n} {p : Fin n} (h : A.Best p)
    (hinfo : ∀ q, (A.info q).state = (S.pTable q).state ∧
      (A.info q).priority = (S.pTable q).priority ∧
      (A.info q).isIProcess = (S.pTable q).isIProcess)
    (hlog : A.readyLog = S.readyLog) : S.Best p := by
  obtain ⟨h₁, h₂, h₃, h₄⟩ := h
  simp only [(hinfo _).1, (hinfo _).2.1, (hinfo _).2.2, hlog] at h₁ h₂ h₃ h₄
  exact ⟨h₁, h₂, h₃, h₄⟩

theorem AbsSched.exists_first {A : AbsSched n} (hA : A.Placed) (hr : A.InRange) {z : Fin n}
    (hi : (A.info z).isIProcess = false) (hz : (A.info z).state = .ready) :
    ∃ p, A.first .readyPq = some p := by
  refine Option.ne_none_iff_exists'.1 fun hnone => ?_
  obtain ⟨h₀, h₁⟩ := hr z
  have hmem : z ∈ A.queue .readyPq (A.info z).priority.toNat :=
    hA.mem_queue.2 (ProcInfo.place_ready.2 ⟨hi, hz, by omega, by omega⟩)
  rw [first_eq_none hnone _ (by omega)] at hmem
  exact List.not_mem_nil hmem

namespace Kernel

variable {s t : Kernel n} {A B : AbsSched n} {l : Label} {z : Fin n} {table : Fin n → PcbInit}

/-- Every `k_process_switch` of a run chooses the best process. -/
theorem InOrder.switch_best (h : InOrder z s A) (hl : Plain z s l) {cur : Fin n}
    {context resumeAt : Context} {state : ProcessState} (hrun : s.running = some (cur, context))
    (htrap : s.trap context l = some (.switch state resumeAt t)) :
    ∃ p S, t.sched.kProcessSwitch state resumeAt = some S ∧ S.currentProcess = some p ∧
      (t.sched.setState cur state).Best p := by
  have hcur := (running_eq_some.1 hrun).1
  cases trap_acts hrun htrap with
  | switch hs hm =>
  obtain ⟨B, hparked, hordered, hinfo⟩ := h.parked hs hcur
  have hB : ∀ p, (p = cur → (B.info p).state = state) ∧
      (p ≠ cur → (B.info p).state = (A.info p).state) ∧
      (B.info p).priority = (A.info p).priority ∧
      (B.info p).isIProcess = (A.info p).isIProcess := by
    intro p
    rw [hinfo, AbsSched.park]
    by_cases hp : p = cur
    · subst hp
      simp
    · simp [AbsSched.info_place_of_ne A _ hp, hp]
  have hrange : B.InRange := fun p => by
    rw [(hB p).2.2.1]
    exact ⟨(h.sleepless p).1, (h.sleepless p).2.1⟩
  obtain ⟨hzi, hzs⟩ := (h.sleepless z).2.2 rfl
  have hz : (B.info z).state = .ready := by
    by_cases hzc : z = cur
    · rw [(hB z).1 hzc]
      by_contra hne
      exact hl.2 ⟨context, state, resumeAt, t, hzc ▸ hrun, htrap, hne⟩
    · rw [(hB z).2.1 hzc]
      refine hzs.resolve_right fun hx => hzc ?_
      have hr := (h.models.sound.executing z).1 hx
      rw [AbsSched.running, ← h.models.refines.current, ← h.models.refines.interrupted,
        h.models.interrupted, hcur] at hr
      exact (Option.some.inj hr).symm
  obtain ⟨p, hp⟩ := AbsSched.exists_first hparked.placed hrange ((hB z).2.2.2.trans hzi) hz
  obtain ⟨S, hswitch, href⟩ := hparked.first hp
  refine ⟨p, S, hswitch, href.current, ?_⟩
  refine (AbsSched.first_best hparked.placed hordered hrange hp).transfer (fun q => ?_)
    hparked.readyLog.symm
  have hview : ((t.sched.setState cur state).pTable q).toProcInfo =
      Function.update t.sched.view cur { t.sched.view cur with state := state } q :=
    congrFun (Sched.view_setState ..) q
  rw [hparked.info, hview]
  by_cases hq : q = cur
  · subst hq
    simp
  · simp [hq]

theorem kInit_inOrder {ram : Ram n} (h : kInit ram table = some s)
    (htable : ∀ p, Sleepless z p (table p).info) : ∃ A, InOrder z s A := by
  obtain ⟨A, hA, hmodels⟩ := kInit_models h
  refine ⟨A, hmodels, (Sched.ordered_bootSched table).dispatch hA, ?_⟩
  obtain ⟨p, -, rfl⟩ := Option.map_eq_some_iff.1 hA
  obtain ⟨h₀, h₁, h₂⟩ := htable p
  exact AbsSched.forall_place (A := Sched.bootSched table) htable
    ⟨h₀, h₁, fun hp => ⟨(h₂ hp).1, .inr rfl⟩⟩

end Kernel

/-- For every table with priorities in range, and every run in which no priority changes and the
process `z` never blocks: the first dispatch and every `k_process_switch` choose a ready process of
the smallest priority number, and of those the one that became ready first. -/
theorem dispatch_order {table : Fin n → PcbInit}
    (hprio : ∀ p, 0 ≤ (table p).priority ∧ (table p).priority < PqPtr.levels .readyPq)
    {z : Fin n} (hz : (table z).isIProcess = false) :
    (∀ ram s, Kernel.kInitBoot ram table = some s →
      ∃ p S, s.sched.firstDispatch = some S ∧ S.currentProcess = some p ∧ s.sched.Best p) ∧
    ∀ s, Reach Kernel.step (Kernel.Booted table) (Kernel.Plain z) s →
      ∀ l cur context state resumeAt t, Kernel.Plain z s l → s.running = some (cur, context) →
      s.trap context l = some (.switch state resumeAt t) →
      ∃ p S, t.sched.kProcessSwitch state resumeAt = some S ∧ S.currentProcess = some p ∧
        (t.sched.setState cur state).Best p := by
  have htable : ∀ p, Kernel.Sleepless z p (table p).info := fun p =>
    ⟨(hprio p).1, (hprio p).2, fun hp => ⟨hp ▸ hz, .inl rfl⟩⟩
  constructor
  · intro ram s hboot
    have href := Kernel.kInitBoot_refines hboot
    have hplaced := Sched.placed_bootSched table
    obtain ⟨p, hp⟩ := AbsSched.exists_first (z := z) hplaced hprio hz rfl
    obtain ⟨S, hfirst, hcur⟩ := Sched.firstDispatch_first href hplaced hp
    refine ⟨p, S, hfirst, hcur, ?_⟩
    refine (AbsSched.first_best hplaced (Sched.ordered_bootSched table) hprio hp).transfer
      (fun q => ?_) href.readyLog.symm
    rw [← href.info]
    exact ⟨rfl, rfl, rfl⟩
  · intro s hs l cur context state resumeAt t hl hrun htrap
    obtain ⟨A, h⟩ := hs.invariant (I := fun s => ∃ A, Kernel.InOrder z s A)
      (fun s ⟨ram, hinit⟩ => Kernel.kInit_inOrder hinit htable)
      fun s l s' _ ⟨A, h⟩ hl hstep => h.step hl hstep
    exact h.switch_best hl hrun htrap

/-- The CCI waits for a message, process C sends it one, and gives up the processor. -/
def wokenCci : List Label := [
  .call .receiveMessage,
  .call .requestMsgEnv,
  .call (.sendMessage cciPid (some (.envPool 0))),
  .call .releaseProcessor]

/-- Then pong, which was ready before the CCI, gives up the processor. -/
theorem dispatch_order_itable :
    ∃ s t,
      ((Kernel.kInit Kernel.Ram.zero itable).bind fun s => exec Kernel.step s wokenCci) = some s ∧
      s.running = some (8, .user) ∧ (s.sched.pTable 2).state = .ready ∧
      s.trap .user (.call .releaseProcessor) = some (.switch .ready .releaseProcessor t) ∧
      ∃ p S, t.sched.kProcessSwitch .ready .releaseProcessor = some S ∧
        S.currentProcess = some p ∧ (t.sched.setState 8 .ready).Best p := by
  have hrun : ((Kernel.kInit Kernel.Ram.zero itable).bind fun s =>
      exec (guarded Kernel.step fun s l =>
        s.running.map Prod.fst ≠ some 3 ∧
          l.call? ∈ wokenCci.map Label.call?) s wokenCci).any (fun s =>
            decide (s.running = some (8, .user) ∧ (s.sched.pTable 2).state = .ready ∧
              (s.sched.yield 8).isSome = true)) = true := by
    decide +kernel
  obtain ⟨s, hs, hfacts⟩ := (Option.any_eq_true ..).1 hrun
  obtain ⟨hrunning, hready, hyield⟩ := of_decide_eq_true hfacts
  obtain ⟨sched, hyield⟩ := Option.isSome_iff_exists.1 hyield
  obtain ⟨s₀, hinit, hexec⟩ := Option.bind_eq_some_iff.1 hs
  have htrap : s.trap .user (.call .releaseProcessor) =
      some (.switch .ready .releaseProcessor { s with sched := sched }) := by
    simp [Kernel.trap, Kernel.kernSwiHandler, Kernel.kReleaseProcessor,
      (Kernel.running_eq_some.1 hrunning).1, hyield, Outcome.map]
  have hprio : ∀ p, 0 ≤ (itable p).priority ∧ (itable p).priority < PqPtr.levels .readyPq := by
    decide
  -- The null process does not run, so it does not block.
  have hplain : ∀ (s : Kernel 9) (l : Label), s.running.map Prod.fst ≠ some 3 ∧
      l.call? ∈ wokenCci.map Label.call? → Kernel.Plain 3 s l := by
    rintro s l ⟨hnull, hcall⟩
    refine ⟨?_, ?_⟩
    · rintro newPriority tid rfl
      simp [wokenCci, Label.call?] at hcall
    · rintro ⟨context, state, resumeAt, t, hrunning, -, -⟩
      rw [hrunning] at hnull
      exact hnull rfl
  have hreach : Reach Kernel.step (Kernel.Booted itable) (Kernel.Plain 3) s :=
    ((Reach.init ⟨_, hinit⟩).guarded hexec).mono hplain
  refine ⟨s, _, ?_, hrunning, hready, htrap, (dispatch_order hprio (z := 3) rfl).2 s hreach
    (.call .releaseProcessor) 8 .user _ _ _ (hplain s _ ⟨?_, by decide⟩) hrunning htrap⟩
  · rw [hinit]
    exact exec_of_guarded hexec
  · rw [hrunning]
    decide

end Rtx.Coldfire
