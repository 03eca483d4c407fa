import Rtx.Coldfire.Location
import Rtx.Unix.SchedSteps

/-!
# Runs of the Unix port, seen by the scheduler

A run from `k_init` is a run of the abstract scheduler, as long as no change of priority takes the
last of several processes out of its level (`scheduler_refines`). So every process is in exactly one
place, the one its state says (`processes_located`).
-/

namespace Rtx.Unix

open Transition Linked
open Coldfire (ProcInfo ProcessState PqPtr PcbInit Sched AbsSched Idling)
open Coldfire.AbsSched (Stable)
open Coldfire.Sched (bootSched)

variable {n : ℕ}

/-! ## Safe changes of priority -/

variable {S S' : Sched n} {A B : AbsSched n} {m : SchedMove n}

/-- `k_change_priority` does not take the last of several processes out of its level. -/
def TailSafe (S : Sched n) (newPriority targetProcessId : ℤ) : Prop :=
  ∀ p, Reprioritises S.view newPriority targetProcessId p → ¬ S.LastBehind p

theorem SchedRefines.safe (h : SchedRefines S A) (hA : A.Placed) {newPriority tid : ℤ}
    (hsafe : TailSafe S newPriority tid) : SafeMove A (.changePriority newPriority tid) := by
  intro p hp pq i l hl
  by_contra hne
  have hmem : p ∈ A.queue pq i := by simp [hl]
  have hi : i < pq.levels := by
    have hplace := hA.mem_queue.1 hmem
    cases pq with
    | readyPq => exact (ProcInfo.place_ready.1 hplace).2.2.2
    | blockedRequestEnvPq => exact (ProcInfo.place_blocked.1 hplace).2.2.2
  exact hsafe p (h.refines.info ▸ hp)
    ⟨pq, i, l, hi, hne, hl ▸ (h.refines.queues.rep pq i).chain⟩

/-! ## Properties of single records -/

theorem absMove_stable {P : Fin n → ProcInfo → Prop} (hP : ∀ m' ∈ m.move?, Stable P m')
    (hchange : ∀ newPriority tid p info, m = .changePriority newPriority tid → 0 ≤ newPriority →
      newPriority < numPriorities → P p info → P p { info with priority := newPriority })
    (h : ∀ q, P q (A.info q)) (hm : absMove A m = some B) : ∀ q, P q (B.info q) := by
  rcases absMove_cases hm with ⟨m', hm', hmove⟩ | ⟨newPriority, tid, rfl, rfl | ⟨p, hp, rfl⟩⟩
  · exact (hP m' hm').move h hmove
  · exact h
  · exact AbsSched.forall_place h (hchange newPriority tid p _ rfl hp.1 hp.2.1 (h p))

/-! ## Runs -/

namespace Kernel

variable {initTable : Fin n → PcbInit} {s s' : Kernel n} {l : RtxLabel}

/-- The step makes no unsafe change of priority. -/
def TailSafe (s : Kernel n) (l : RtxLabel) : Prop :=
  ∀ newPriority tid, l = .call (.changePriority newPriority tid) →
    Unix.TailSafe s.sched newPriority tid

theorem Models.executing (h : s.Models A) (hs : s.Rested initTable) (p : Fin n)
    (hp : s.sched.currentProcess = some p) : (s.sched.pTable p).state = .executing := by
  have hinfo : (s.sched.pTable p).toProcInfo = A.info p := congrFun h.refines.refines.info p
  rw [show (s.sched.pTable p).state = (A.info p).state from congrArg ProcInfo.state hinfo,
    h.sound.executing, AbsSched.running, ← h.refines.refines.interrupted, hs.interrupted,
    ← h.refines.refines.current, hp]
  rfl

theorem Models.step (h : s.Models A) (hs : s.Rested initTable) (hsafe : s.TailSafe l)
    (hstep : s.step l = some s') :
    s'.Rested initTable ∧
      ∃ A', s'.Models A' ∧ Reach absMove (· = A) (fun _ m => m.Permits s l) A' := by
  have hsched := hs.schedules (h.executing hs) hstep
  refine ⟨hsched.rested hs, ?_⟩
  suffices hinv : ∃ A', SchedRefines s'.sched A' ∧ A'.Sound ∧
      Reach absMove (· = A) (fun _ m => m.Permits s l) A' by
    obtain ⟨A', href, hsound, hreach⟩ := hinv
    exact ⟨A', ⟨href, hsound⟩, hreach⟩
  refine hsched.reach.invariant (I := fun S => ∃ A', SchedRefines S A' ∧ A'.Sound ∧
    Reach absMove (· = A) (fun _ m => m.Permits s l) A')
    (fun S hS => ⟨A, hS ▸ h.refines, h.sound, .init rfl⟩) ?_
  rintro S m S' - ⟨B, href, hsound, hreach⟩ ⟨hpermits, hfirst⟩ hm
  have hsafe' : SafeMove B m := by
    cases m with
    | changePriority newPriority tid =>
      obtain rfl := hfirst newPriority tid rfl
      exact href.safe hsound.toPlaced (hsafe newPriority tid hpermits)
    | _ => trivial
  have hrel := href.move hsound hsafe'
  rw [hm] at hrel
  cases hB : absMove B m with
  | none =>
    rw [hB] at hrel
    cases hrel
  | some B' =>
    rw [hB] at hrel
    cases hrel with
    | some href' => exact ⟨B', href', absMove_sound hsound hB, hreach.step hpermits hB⟩

/-- What holds of the abstract scheduler at boot, and is kept by the moves of every step, holds in
every reachable state. -/
theorem models_reach {ok : Kernel n → RtxLabel → Prop} {I : AbsSched n → Prop}
    (htab : Tabled initTable) (hs : Reach Kernel.step (Booted initTable) ok s)
    (hok : ∀ s l, ok s l → s.TailSafe l)
    (hboot : ∀ A, (bootSched initTable).dispatch = some A → I A)
    (hmove : ∀ s l A B, ok s l → s.Rested initTable → s.Models A → I A →
      Reach absMove (· = A) (fun _ m => m.Permits s l) B → I B) :
    s.Rested initTable ∧ ∃ A, s.Models A ∧ I A := by
  refine hs.invariant (I := fun s => s.Rested initTable ∧ ∃ A, s.Models A ∧ I A) ?_ ?_
  · intro s hs
    obtain ⟨A, hA, hmodels⟩ := hs.models htab
    exact ⟨hs.rested, A, hmodels, hboot A hA⟩
  · rintro s l s' - ⟨hrested, A, hmodels, hI⟩ hl hstep
    obtain ⟨hrested', A', hmodels', hreach⟩ := hmodels.step hrested (hok s l hl) hstep
    exact ⟨hrested', A', hmodels', hmove s l A A' hl hrested hmodels hI hreach⟩

end Kernel

/-- A state the abstract scheduler can reach from the boot of a table. -/
def AbsReachable (initTable : Fin n → PcbInit) : AbsSched n → Prop :=
  Reach absMove (fun A => (bootSched initTable).dispatch = some A) (fun _ _ => True)

/-! ## Where the processes are -/

/-- What a run assumes of a process record. -/
structure Mannered (info : ProcInfo) : Prop where
  priority : 0 ≤ info.priority ∧ info.priority < PqPtr.levels .readyPq
  level : info.isIProcess = false → info.pid ≠ processNullPid →
    info.priority < PqPtr.levels .blockedRequestEnvPq
  null : info.isIProcess = false → info.pid = processNullPid → Idling info
  interrupted : info.state ≠ .interrupted

/-- A move in which the null process does not block keeps the records as assumed. -/
theorem mannered_move (hA : ∀ p, Mannered (A.info p))
    (hnull : ∀ p, (A.info p).isIProcess = false → (A.info p).pid = processNullPid →
      m ≠ .blockReceive p ∧ m ≠ .blockRequest p) (hm : absMove A m = some B) :
    (∀ p, Mannered (B.info p)) ∧
      ∀ p, (B.info p).pid = (A.info p).pid ∧ (B.info p).isIProcess = (A.info p).isIProcess := by
  let P : Fin n → ProcInfo → Prop := fun p info => Mannered info ∧ info.pid = (A.info p).pid ∧
    info.isIProcess = (A.info p).isIProcess
  suffices hB : ∀ p, P p (B.info p) from ⟨fun p => (hB p).1, fun p => (hB p).2⟩
  refine absMove_stable (P := P) (fun m' hm' => ⟨?_, ?_, ?_, ?_, ?_, ?_, ?_⟩) ?_
    (fun p => ⟨hA p, rfl, rfl⟩) hm
  · exact fun ⟨h, hids⟩ => ⟨⟨h.priority, h.level, fun hi hpid =>
      ⟨.inr rfl, (h.null hi hpid).2⟩, nofun⟩, hids⟩
  · exact fun ⟨h, hids⟩ => ⟨⟨h.priority, h.level, fun hi hpid =>
      ⟨.inl rfl, (h.null hi hpid).2⟩, nofun⟩, hids⟩
  · exact fun ⟨h, hids⟩ => ⟨⟨h.priority, h.level, fun hi hpid =>
      ⟨(h.null hi hpid).1, .inl rfl⟩, h.interrupted⟩, hids⟩
  · exact fun ⟨h, hids⟩ => ⟨⟨h.priority, h.level, fun _ _ => ⟨.inl rfl, .inr rfl⟩, nofun⟩, hids⟩
  · rintro p i rfl ⟨h, hpid, hi⟩
    have hblocks : m = .blockReceive p := by
      cases m with
      | blockReceive q => cases hm'; rfl
      | _ => cases hm'
    exact ⟨⟨h.priority, h.level, fun hni hnull' => absurd hblocks
      (hnull p (hi ▸ hni) (hpid ▸ hnull')).1, nofun⟩, hpid, hi⟩
  · rintro p i rfl ⟨h, hpid, hi⟩
    have hblocks : m = .blockRequest p := by
      cases m with
      | blockRequest q => cases hm'; rfl
      | _ => cases hm'
    exact ⟨⟨h.priority, h.level, fun hni hnull' => absurd hblocks
      (hnull p (hi ▸ hni) (hpid ▸ hnull')).2, nofun⟩, hpid, hi⟩
  · rintro p i newPriority tid rfl
    cases m <;> cases hm'
  · rintro newPriority tid p info - h₀ h₁ ⟨h, hids⟩
    exact ⟨⟨⟨h₀, lt_trans h₁ (by decide)⟩, fun _ _ => h₁, h.null, h.interrupted⟩, hids⟩

/-- In this step, the null process only calls `release_processor`. -/
def NullReleases (s : Kernel n) (l : RtxLabel) : Prop :=
  ∀ p, s.running = some (p, .user) → (s.sched.pTable p).pid = processNullPid →
    ∀ c ∈ l.call?, c = .releaseProcessor

instance (s : Kernel n) (l : RtxLabel) : Decidable (NullReleases s l) :=
  inferInstanceAs (Decidable (∀ p, s.running = some (p, .user) →
    (s.sched.pTable p).pid = processNullPid → ∀ c ∈ l.call?, c = .releaseProcessor))

/-- The step changes no priority. -/
def RtxLabel.isChange : RtxLabel → Bool
  | .call (.changePriority ..) => true
  | _ => false

namespace Kernel

variable {initTable : Fin n → PcbInit} {s s' : Kernel n} {l : RtxLabel} {p : Fin n}

/-- The null process only releases the processor, and no priority changes. -/
def Plain (s : Kernel n) (l : RtxLabel) : Prop := NullReleases s l ∧ l.isChange = false

instance (s : Kernel n) (l : RtxLabel) : Decidable (s.Plain l) := by
  unfold Plain
  infer_instance

theorem Plain.tailSafe (h : s.Plain l) : s.TailSafe l := by
  rintro newPriority tid rfl
  exact absurd h.2 (by simp [RtxLabel.isChange])

/-- The null process is not in the middle of a primitive that blocks. -/
theorem Models.null_not_waiting (h : s.Models A) (hA : ∀ p, Mannered (A.info p))
    (hnull : NullReleases s l) (hi : (A.info p).isIProcess = false)
    (hpid : (A.info p).pid = processNullPid) :
    ¬ (SchedMove.blockReceive p).Permits s l ∧ ¬ (SchedMove.blockRequest p).Permits s l := by
  have hinfo : (s.sched.pTable p).toProcInfo = A.info p := congrFun h.refines.refines.info p
  have hpid' : (s.sched.pTable p).pid = processNullPid := by
    rw [← hinfo] at hpid
    exact hpid
  have hcontext : ∀ context, s.running = some (p, context) →
      context = .user ∨ context = .releaseProcessor := by
    intro context hrun
    have hidle := ((hA p).null hi hpid).2
    have hp : (s.sched.pTable p).context = context := (running_eq_some hrun).2
    rwa [← hinfo, hp] at hidle
  constructor
  · rintro (⟨hrun, rfl⟩ | ⟨hrun, -⟩)
    · cases hnull p hrun hpid' _ rfl
    · rcases hcontext _ hrun with hc | hc <;> cases hc
  · rintro (⟨hrun, rfl⟩ | ⟨hrun, -⟩)
    · cases hnull p hrun hpid' _ rfl
    · rcases hcontext _ hrun with hc | hc <;> cases hc

theorem Models.mannered (h : s.Models A) (hA : ∀ p, Mannered (A.info p))
    (hnull : NullReleases s l) (hreach : Reach absMove (· = A) (fun _ m => m.Permits s l) B) :
    ∀ p, Mannered (B.info p) := by
  suffices hB : (∀ p, Mannered (B.info p)) ∧ ∀ p, (B.info p).pid = (A.info p).pid ∧
      (B.info p).isIProcess = (A.info p).isIProcess from hB.1
  refine hreach.invariant (I := fun B => (∀ p, Mannered (B.info p)) ∧ ∀ p,
    (B.info p).pid = (A.info p).pid ∧ (B.info p).isIProcess = (A.info p).isIProcess) ?_
    fun B m B' _ ⟨hB, hids⟩ hm hmove => ?_
  · rintro B rfl
    exact ⟨hA, fun p => ⟨rfl, rfl⟩⟩
  have hblocks : ∀ p, (B.info p).isIProcess = false → (B.info p).pid = processNullPid →
      m ≠ .blockReceive p ∧ m ≠ .blockRequest p := by
    intro p hi hpid
    obtain ⟨hreceive, hrequest⟩ :=
      h.null_not_waiting hA hnull ((hids p).2 ▸ hi) ((hids p).1 ▸ hpid)
    exact ⟨fun hp => hreceive (hp ▸ hm), fun hp => hrequest (hp ▸ hm)⟩
  obtain ⟨hB', hids'⟩ := mannered_move hB hblocks hmove
  exact ⟨hB', fun p => ⟨(hids' p).1.trans (hids p).1, (hids' p).2.trans (hids p).2⟩⟩

theorem mannered_boot (htab : Tabled initTable) (hA : (bootSched initTable).dispatch = some A) :
    ∀ p, Mannered (A.info p) := by
  have hboot : ∀ q, Mannered ((bootSched initTable).info q) := fun q =>
    ⟨htab.priority q, htab.level q, fun _ _ => ⟨.inl rfl, .inl rfl⟩, nofun⟩
  obtain ⟨p, -, rfl⟩ := Option.map_eq_some_iff.1 hA
  exact AbsSched.forall_place (P := fun _ => Mannered) hboot
    ⟨(hboot p).priority, (hboot p).level, fun _ _ => ⟨.inr rfl, .inl rfl⟩, nofun⟩

/-- Where the null process only releases the processor, the records stay as assumed. -/
theorem mannered_reach (htab : Tabled initTable)
    (hs : Reach Kernel.step (Booted initTable) (fun s l => NullReleases s l ∧ s.TailSafe l) s) :
    s.Rested initTable ∧ ∃ A, s.Models A ∧ ∀ p, Mannered (A.info p) :=
  models_reach htab hs (fun _ _ => And.right) (fun _ => mannered_boot htab)
    fun _ _ _ _ hl _ hmodels hA hreach => hmodels.mannered hA hl.1 hreach

theorem Models.located (h : s.Models A) (hA : ∀ p, Mannered (A.info p)) :
    s.sched.LocationInvariant := by
  obtain ⟨⟨href, -⟩, hsound⟩ := h
  refine ⟨A.queue, href.queues.visits, fun p hp => ?_⟩
  have hinfo : (s.sched.pTable p).toProcInfo = A.info p := congrFun href.info p
  have hi : (A.info p).isIProcess = false := by rw [← hinfo]; exact hp
  have hrunning : s.sched.running = A.running := by
    rw [Sched.running, href.current, href.interrupted]
    rfl
  obtain ⟨hprio, hlevel, hnull, hnot⟩ := hA p
  have hready := Coldfire.Kernel.queuedOnce_iff (S := s.sched) .ready (hsound.nodup .readyPq)
    (fun i => by rw [hsound.mem_queue, ProcInfo.place_ready, ← hinfo]; simp [hp])
    (fun _ => by rw [hinfo]; exact hprio)
  have hblocked := Coldfire.Kernel.queuedOnce_iff (S := s.sched) .blockedOnEnvRequest
    (hsound.nodup .blockedRequestEnvPq)
    (fun i => by rw [hsound.mem_queue, ProcInfo.place_blocked, ← hinfo]; simp [hp])
    (fun hstate => by
      rw [hinfo] at hstate ⊢
      refine ⟨hprio.1, hlevel hi fun hpid => ?_⟩
      -- The null process, alone above the levels of the queue, is not blocked.
      rcases (hnull hi hpid).1 with hst | hst <;> simp [hst] at hstate)
  have hexec : (s.sched.pTable p).state = .executing ↔ s.sched.running = some p := by
    rw [hrunning, ← hsound.executing p, ← hinfo]
  refine ⟨hexec, fun hx => ⟨hready.2.1 (by simp [hx]), hblocked.2.1 (by simp [hx])⟩, hready.1,
    fun hx => hblocked.2.1 (by simp [hx]), hblocked.1, fun hx => hready.2.1 (by simp [hx]), ?_⟩
  rw [ne_eq, ← hexec, ← hready.2, ← hblocked.2]
  rw [← hinfo] at hnot
  cases hstate : (s.sched.pTable p).state <;> simp_all

end Kernel

/-- With a table that is `Tabled`, every run in which no change of priority takes the last of
several processes out of its level is a run of the abstract scheduler; and if the null process only
releases the processor, every process that is not an i-process is in exactly one place, the one its
state says. -/
theorem scheduler_refines {initTable : Fin n → PcbInit} {s : Kernel n} (htab : Tabled initTable) :
    (Reach Kernel.step (Kernel.Booted initTable) Kernel.TailSafe s →
      ∃ A, AbsReachable initTable A ∧ SchedRefines s.sched A ∧ A.Sound) ∧
    (Reach Kernel.step (Kernel.Booted initTable) (fun s l => NullReleases s l ∧ s.TailSafe l) s →
      s.sched.LocationInvariant) := by
  constructor
  · intro hs
    obtain ⟨-, A, hmodels, hreachable⟩ := Kernel.models_reach (I := AbsReachable initTable) htab hs
      (fun _ _ => id) (fun A hA => .init hA)
      fun s l A B _ _ _ hA hreach => hA.trans (hreach.mono fun _ _ _ => trivial)
    exact ⟨A, hreachable, hmodels.refines, hmodels.sound⟩
  · intro hs
    obtain ⟨-, A, hmodels, hA⟩ := Kernel.mannered_reach htab hs
    exact hmodels.located hA

/-- Process A waits for a message, process B sends it one, and goes on. -/
def handedOver : List RtxLabel := [
  .call .receiveMessage,
  .call .requestMsgEnv,
  .call (.sendMessage processAPid (some 0)),
  .sigalrm]

theorem scheduler_refines_procCfg :
    ∃ s, ((Kernel.kInit Kernel.Ram.zero procCfg).bind fun s =>
        exec (guarded Kernel.step Kernel.Plain) s handedOver) = some s ∧
      (∃ A, AbsReachable procCfg A ∧ SchedRefines s.sched A ∧ A.Sound) ∧
      s.sched.LocationInvariant := by
  have hrun : ((Kernel.kInit Kernel.Ram.zero procCfg).bind fun s =>
      exec (guarded Kernel.step Kernel.Plain) s handedOver).isSome = true := by
    decide +kernel
  obtain ⟨s, hs⟩ := Option.isSome_iff_exists.1 hrun
  obtain ⟨s₀, hinit, hexec⟩ := Option.bind_eq_some_iff.1 hs
  have hreach := (Reach.init (show Kernel.Booted procCfg s₀ from ⟨_, hinit⟩)).guarded hexec
  obtain ⟨hrefines, hlocated⟩ := scheduler_refines (s := s) procCfg_tabled
  exact ⟨s, hs, hrefines (hreach.mono fun s l hl => hl.tailSafe),
    hlocated (hreach.mono fun s l hl => ⟨hl.1, hl.tailSafe⟩)⟩

end Rtx.Unix
