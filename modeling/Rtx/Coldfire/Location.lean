import Rtx.Coldfire.SchedRuns

/-!
# Where the processes are

The location invariant: every process that is not an i-process is in exactly one place, the one
its state says. It holds along every run in which no change of priority takes the last of
several processes out of a level (`location_invariant`). One that does leaves the tail of that level
pointing at the moved process, and the next process that becomes ready at the level is linked in
behind it, on the wrong level (`location_invariant_fails`).
-/

namespace Rtx.Coldfire

open Transition Linked

variable {n : ℕ}

namespace Sched

/-- Walking the levels of the two priority queues visits `L`. -/
def Visits (S : Sched n) (L : Levels n) : Prop :=
  ∀ pq i, i < pq.levels → Chain (pcbNext S.pTable) ((S.pq pq).priorityQueues i).head (L pq i)

theorem Queues.visits {S : Sched n} {L : Levels n} (h : S.Queues L) : S.Visits L := fun pq i _ =>
  (h.rep pq i).chain

/-- The process is reachable exactly once in the queue, in the level of its priority. -/
def QueuedOnce (S : Sched n) (L : Levels n) (pq : PqPtr) (p : Fin n) : Prop :=
  ∃ i, i < pq.levels ∧ (S.pTable p).priority = i ∧ (L pq i).count p = 1 ∧
    ∀ j, j < pq.levels → j ≠ i → p ∉ L pq j

/-- The process is not reachable in the queue. -/
def NotQueued (L : Levels n) (pq : PqPtr) (p : Fin n) : Prop := ∀ i, i < pq.levels → p ∉ L pq i

/-- The process is where its state says, and nowhere else. -/
structure Located (S : Sched n) (L : Levels n) (p : Fin n) : Prop where
  executing : (S.pTable p).state = .executing ↔ S.running = some p
  executing_free : (S.pTable p).state = .executing →
    NotQueued L .readyPq p ∧ NotQueued L .blockedRequestEnvPq p
  ready : (S.pTable p).state = .ready ↔ QueuedOnce S L .readyPq p
  ready_free : (S.pTable p).state = .ready → NotQueued L .blockedRequestEnvPq p
  blockedOnEnvRequest :
    (S.pTable p).state = .blockedOnEnvRequest ↔ QueuedOnce S L .blockedRequestEnvPq p
  blockedOnEnvRequest_free : (S.pTable p).state = .blockedOnEnvRequest → NotQueued L .readyPq p
  blockedOnReceive : (S.pTable p).state = .blockedOnReceive ↔
    S.running ≠ some p ∧ NotQueued L .readyPq p ∧ NotQueued L .blockedRequestEnvPq p

/-- The location invariant. -/
def LocationInvariant (S : Sched n) : Prop :=
  ∃ L, S.Visits L ∧ ∀ p, (S.pTable p).isIProcess = false → S.Located L p

end Sched

/-! ## The assumptions -/

/-- Priorities are in range, and only a process with the null pid has the one beyond the levels of
`blocked_request_env_pq`. -/
def Prioritised (info : ProcInfo) : Prop :=
  info.isIProcess = false → 0 ≤ info.priority ∧ info.priority < PqPtr.levels .readyPq ∧
    (info.pid ≠ nullPid → info.priority < PqPtr.levels .blockedRequestEnvPq)

/-- The process neither waits nor will wait for anything. -/
def Idling (info : ProcInfo) : Prop :=
  (info.state = .ready ∨ info.state = .executing) ∧
    (info.context = .user ∨ info.context = .releaseProcessor)

/-- In this step, the null process only calls `release_processor`. -/
def NullReleases (s : Kernel n) (l : Label) : Prop :=
  ∀ p, s.running = some (p, .user) → (s.sched.pTable p).pid = nullPid →
    ∀ c ∈ l.call?, c = .releaseProcessor

instance (s : Kernel n) (l : Label) : Decidable (NullReleases s l) :=
  inferInstanceAs (Decidable (∀ p, s.running = some (p, .user) →
    (s.sched.pTable p).pid = nullPid → ∀ c ∈ l.call?, c = .releaseProcessor))

/-- What the run assumes of a process record. -/
structure Mannered (info : ProcInfo) : Prop where
  prioritised : Prioritised info
  null : info.isIProcess = false → info.pid = nullPid → Idling info
  interrupted : info.state ≠ .interrupted

theorem itable_prioritised : ∀ p, Prioritised (itable p).info := by
  unfold Prioritised
  decide

namespace Kernel

variable {s : Kernel n} {A : AbsSched n} {l : Label}

/-- The null process is not in the middle of a primitive that blocks. -/
theorem Models.null_not_waiting (h : s.Models A) (hA : ∀ p, Mannered (A.info p))
    (hnull : NullReleases s l) {p : Fin n} (hi : (A.info p).isIProcess = false)
    (hpid : (A.info p).pid = nullPid) :
    ¬ l.Allows s (.blockReceive p) ∧ ¬ l.Allows s (.blockRequest p) := by
  have hinfo : (s.sched.pTable p).toProcInfo = A.info p := congrFun h.refines.info p
  have hcall : ∀ c, s.running = some (p, .user) ∧ l = .call c → c = .releaseProcessor :=
    fun c hc => hnull p hc.1 (by rw [hinfo]; exact hpid) c (by rw [hc.2]; rfl)
  have hcontext : ∀ context, s.running = some (p, context) →
      context = .user ∨ context = .releaseProcessor := by
    intro context hrun
    have := ((hA p).null hi hpid).2
    rwa [← hinfo, (running_eq_some.1 hrun).2] at this
  constructor
  · rintro (hc | hc)
    · cases hcall _ hc
    · rcases hcontext _ hc with h | h <;> cases h
  · rintro (hc | hc)
    · cases hcall _ hc
    · rcases hcontext _ hc with h | h <;> cases h

theorem Models.mannered_stable (h : s.Models A) (hA : ∀ p, Mannered (A.info p))
    (hnull : NullReleases s l) {m : Move n} (hm : l.Permits s m) :
    AbsSched.Stable (fun p info => info.pid = (A.info p).pid ∧
      info.isIProcess = (A.info p).isIProcess ∧ Mannered info) m where
  execute := fun ⟨hpid, hi, h⟩ => ⟨hpid, hi, h.prioritised, fun hi hpid =>
    ⟨.inr rfl, (h.null hi hpid).2⟩, nofun⟩
  wake := fun ⟨hpid, hi, h⟩ => ⟨hpid, hi, h.prioritised, fun hi hpid =>
    ⟨.inl rfl, (h.null hi hpid).2⟩, nofun⟩
  user := fun ⟨hpid, hi, h⟩ => ⟨hpid, hi, h.prioritised, fun hi hpid =>
    ⟨(h.null hi hpid).1, .inl rfl⟩, h.interrupted⟩
  yield := fun ⟨hpid, hi, h⟩ => ⟨hpid, hi, h.prioritised, fun _ _ =>
    ⟨.inl rfl, .inr rfl⟩, nofun⟩
  blockReceive := by
    rintro p i rfl ⟨hpid, hi, hi'⟩
    exact ⟨hpid, hi, hi'.prioritised, fun hni hnull' => absurd hm.1
      (h.null_not_waiting hA hnull (hi ▸ hni) (hpid ▸ hnull')).1, nofun⟩
  blockRequest := by
    rintro p i rfl ⟨hpid, hi, hi'⟩
    exact ⟨hpid, hi, hi'.prioritised, fun hni hnull' => absurd hm.1
      (h.null_not_waiting hA hnull (hi ▸ hni) (hpid ▸ hnull')).2, nofun⟩
  changePriority := by
    rintro p i newPriority tid rfl h₀ h₁ ⟨hpid, hi, hi'⟩
    refine ⟨hpid, hi, fun _ => ⟨h₀, ?_, fun _ => h₁⟩, hi'.null, hi'.interrupted⟩
    exact lt_trans h₁ (by decide)

/-- The invariant of a run. -/
def Behaved (s : Kernel n) : Prop := ∃ A, s.Models A ∧ ∀ p, Mannered (A.info p)

theorem Behaved.step {s' : Kernel n} (h : s.Behaved) (hnull : NullReleases s l)
    (hsafe : s.TailSafe l) (hstep : s.step l = some s') : s'.Behaved := by
  obtain ⟨A, hmodels, hA⟩ := h
  obtain ⟨ms, A', hms, hrun, hmodels'⟩ := hmodels.step hsafe hstep
  refine ⟨A', hmodels', fun p => ?_⟩
  have hstable := fun m hm => hmodels.mannered_stable hA hnull (hms m hm)
  exact (AbsSched.Stable.exec hstable (fun p => ⟨rfl, rfl, hA p⟩) hrun p).2.2

theorem kInit_behaved {ram : Ram n} {table : Fin n → PcbInit}
    (htable : ∀ p, Prioritised (table p).info) (h : kInit ram table = some s) : s.Behaved := by
  obtain ⟨A, hA, hmodels⟩ := kInit_models h
  refine ⟨A, hmodels, ?_⟩
  obtain ⟨p, -, rfl⟩ := Option.map_eq_some_iff.1 hA
  have hboot : ∀ q, Mannered ((Sched.bootSched table).info q) := fun q =>
    ⟨htable q, fun _ _ => ⟨.inl rfl, .inl rfl⟩, nofun⟩
  exact AbsSched.forall_place (P := fun _ => Mannered) hboot
    ⟨(hboot p).prioritised, fun _ _ => ⟨.inr rfl, .inl rfl⟩, nofun⟩

/-! ## The invariant -/

theorem queuedOnce_iff {S : Sched n} {p : Fin n} {pq : PqPtr} (state : ProcessState)
    (hnd : ∀ i, (A.queue pq i).Nodup)
    (hmem : ∀ i, p ∈ A.queue pq i ↔
      (S.pTable p).state = state ∧ (S.pTable p).priority = i ∧ i < pq.levels)
    (hrange : (S.pTable p).state = state →
      0 ≤ (S.pTable p).priority ∧ (S.pTable p).priority < pq.levels) :
    ((S.pTable p).state = state ↔ S.QueuedOnce A.queue pq p) ∧
      ((S.pTable p).state ≠ state ↔ Sched.NotQueued A.queue pq p) := by
  have hlevel : (S.pTable p).state = state → ∃ i, i < pq.levels ∧ (S.pTable p).priority = i ∧
      p ∈ A.queue pq i := by
    intro hstate
    obtain ⟨h₀, h₁⟩ := hrange hstate
    refine ⟨(S.pTable p).priority.toNat, by omega, by omega, ?_⟩
    exact (hmem _).2 ⟨hstate, by omega, by omega⟩
  refine ⟨⟨fun hstate => ?_, ?_⟩, ⟨fun hstate i _ hp => hstate ((hmem i).1 hp).1, ?_⟩⟩
  · obtain ⟨i, hi, hprio, hp⟩ := hlevel hstate
    refine ⟨i, hi, hprio, List.count_eq_one_of_mem (hnd i) hp, fun j _ hj hpj => hj ?_⟩
    have := ((hmem j).1 hpj).2.1
    omega
  · rintro ⟨i, hi, -, hcount, -⟩
    exact ((hmem i).1 (List.count_pos_iff.1 (by omega))).1
  · intro hnot hstate
    obtain ⟨i, hi, -, hp⟩ := hlevel hstate
    exact hnot i hi hp

theorem Behaved.located (h : s.Behaved) : s.sched.LocationInvariant := by
  obtain ⟨A, ⟨href, hsound, -⟩, hA⟩ := h
  refine ⟨A.queue, href.queues.visits, fun p hp => ?_⟩
  have hinfo : (s.sched.pTable p).toProcInfo = A.info p := congrFun href.info p
  have hi : (A.info p).isIProcess = false := by rw [← hinfo]; exact hp
  have hrunning : s.sched.running = A.running := by
    rw [Sched.running, href.current, href.interrupted]
    rfl
  obtain ⟨hprio, hnull, hnot⟩ := hA p
  obtain ⟨h₀, h₁, h₂⟩ := hprio hi
  have hready := queuedOnce_iff (S := s.sched) .ready (hsound.nodup .readyPq)
    (fun i => by rw [hsound.mem_queue, ProcInfo.place_ready, ← hinfo]; simp [hp])
    (fun _ => by rw [hinfo]; exact ⟨h₀, h₁⟩)
  have hblocked := queuedOnce_iff (S := s.sched) .blockedOnEnvRequest
    (hsound.nodup .blockedRequestEnvPq)
    (fun i => by rw [hsound.mem_queue, ProcInfo.place_blocked, ← hinfo]; simp [hp])
    (fun hstate => by
      rw [hinfo] at hstate ⊢
      refine ⟨h₀, h₂ fun hpid => ?_⟩
      -- The null process, alone above the levels of the queue, is not blocked.
      rcases (hnull hi hpid).1 with hst | hst <;> simp [hst] at hstate)
  have hexec : (s.sched.pTable p).state = .executing ↔ s.sched.running = some p := by
    rw [hrunning, ← hsound.executing p, ← hinfo]
  refine ⟨hexec, fun hx => ⟨hready.2.1 (by simp [hx]), hblocked.2.1 (by simp [hx])⟩, hready.1,
    fun hx => hblocked.2.1 (by simp [hx]), hblocked.1, fun hx => hready.2.1 (by simp [hx]), ?_⟩
  rw [ne_eq, ← hexec, ← hready.2, ← hblocked.2]
  rw [← hinfo] at hnot
  cases hstate : (s.sched.pTable p).state <;> simp_all

end Kernel

/-- Along every run from `k_init`, with any legal changes of priority as long as none takes the last
of several processes out of its level, every process is in exactly one place, the one its state
says. -/
theorem location_invariant {table : Fin n → PcbInit} (htable : ∀ p, Prioritised (table p).info)
    {s : Kernel n} (hs : Reach Kernel.step (Kernel.Booted table)
      (fun s l => NullReleases s l ∧ s.TailSafe l) s) : s.sched.LocationInvariant := by
  refine Kernel.Behaved.located (hs.invariant ?_ ?_)
  · rintro s ⟨ram, hinit⟩
    exact Kernel.kInit_behaved htable hinit
  · intro s l s' _ h hok hstep
    exact h.step hok.1 hok.2 hstep

/-- The CCI lowers the priority of process C, which is ready in front of pong, and gives up the
processor. -/
theorem location_invariant_itable :
    ∃ s₀ s₁ s₂, Kernel.kInit Kernel.Ram.zero itable = some s₀ ∧
      (s₀.sched.pTable 7).next = some 8 ∧ s₀.step (.call (.changePriority 2 4)) = some s₁ ∧
      (s₁.sched.pTable 7).priority = 2 ∧ s₁.step (.call .releaseProcessor) = some s₂ ∧
      s₂.sched.LocationInvariant := by
  have hrun : (Kernel.kInit Kernel.Ram.zero itable).any (fun s₀ =>
      decide (s₀.running = some (2, .user) ∧ s₀.sched.kGetProcess 4 = some 7 ∧
        (s₀.sched.pTable 2).pid ≠ nullPid ∧ (s₀.sched.pTable 7).next = some 8) &&
      (s₀.step (.call (.changePriority 2 4))).any fun s₁ =>
        decide ((s₁.sched.pTable 7).priority = 2) &&
        (s₁.step (.call .releaseProcessor)).isSome) = true := by
    decide +kernel
  obtain ⟨s₀, hinit, hrun⟩ := (Option.any_eq_true ..).1 hrun
  obtain ⟨hfacts, hrun⟩ := Bool.and_eq_true_iff.1 hrun
  obtain ⟨hrunning, hfound, hpid, hnext⟩ := of_decide_eq_true hfacts
  obtain ⟨s₁, hchange, hrun⟩ := (Option.any_eq_true ..).1 hrun
  obtain ⟨hprio, hrun⟩ := Bool.and_eq_true_iff.1 hrun
  obtain ⟨s₂, hrelease⟩ := Option.isSome_iff_exists.1 hrun
  refine ⟨s₀, s₁, s₂, hinit, hnext, hchange, of_decide_eq_true hprio, hrelease, ?_⟩
  refine location_invariant itable_prioritised
    (.step (.step (.init ⟨_, hinit⟩) ?_ hchange) ?_ hrelease)
  · refine ⟨fun p hp hnull => ?_, fun newPriority tid hc => ?_⟩
    · rw [hrunning] at hp
      cases hp
      exact absurd hnull hpid
    · cases hc
      exact .of_next hfound (by rw [hnext]; exact Option.some_ne_none 8)
  · refine ⟨fun p _ _ c hc => ?_, nofun⟩
    cases hc
    rfl

/-- The CCI lowers the priority of pong, which stands behind process C, and then gives up the
processor. -/
def lowerPong : List Label := [.call (.changePriority 1 pongPid), .call .releaseProcessor]

/-- The CCI then waits in the level of priority 1, behind pong. -/
theorem location_invariant_fails :
    ∃ s, Reach Kernel.step (Kernel.Booted itable) NullReleases s ∧
      ¬ s.sched.LocationInvariant := by
  have hrun : ((Kernel.kInit Kernel.Ram.zero itable).bind fun s =>
      exec (guarded Kernel.step NullReleases) s lowerPong).any (fun s => decide (
        ((s.sched.pq .readyPq).priorityQueues 1).head = some 4 ∧
        (s.sched.pTable 4).next = some 6 ∧ (s.sched.pTable 6).next = some 8 ∧
        (s.sched.pTable 8).next = some 2 ∧ (s.sched.pTable 2).next = none ∧
        (s.sched.pTable 2).state = .ready ∧ (s.sched.pTable 2).priority = 0 ∧
        (s.sched.pTable 2).isIProcess = false)) = true := by
    decide +kernel
  obtain ⟨s, hs, hfacts⟩ := (Option.any_eq_true ..).1 hrun
  obtain ⟨s₀, hinit, hexec⟩ := Option.bind_eq_some_iff.1 hs
  obtain ⟨hhead, h₄, h₆, h₈, h₂, hstate, hprio, hi⟩ := of_decide_eq_true hfacts
  refine ⟨s, (Reach.init ⟨_, hinit⟩).guarded hexec, ?_⟩
  rintro ⟨L, hvisits, hlocated⟩
  have hlist : L .readyPq 1 = [4, 6, 8, 2] := by
    refine (hvisits .readyPq 1 (by decide)).unique ?_
    simp only [chain_cons, chain_nil, pcbNext]
    exact ⟨hhead, h₄, h₆, h₈, h₂⟩
  -- The CCI is ready with priority 0, so it should be in level 0 only.
  obtain ⟨i, -, hi', -, honly⟩ := (hlocated 2 hi).ready.1 hstate
  refine honly 1 (by decide) ?_ (by rw [hlist]; decide)
  rintro rfl
  rw [hprio] at hi'
  contradiction

end Rtx.Coldfire
