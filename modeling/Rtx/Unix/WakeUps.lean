import Rtx.Coldfire.WakeUps
import Rtx.Unix.Conservation
import Rtx.Unix.Dispatch

/-!
# Wake-ups for envelopes in the Unix port

A process in `k_request_msg_env` looks at the free queue again whenever it is switched back in, and
a release wakes one of those that wait. So as long as a process waits, there is a woken process for
each free envelope (`wakeups_kept`). Here priorities may change, also of a process that waits.

What an act of a step does to the scheduler is a move of the abstract one (`Models.acting`).
-/

namespace Rtx.Unix

open Transition Linked Places
open Coldfire (ProcInfo PqPtr PcbInit Sched AbsSched SomeBlocked nextOf woken mem_woken)
open Coldfire.AbsSched (Requesters Calm)
open Coldfire.Sched (bootSched)

variable {n : ℕ}

/-! ## Acts of the abstract scheduler -/

/-- What an act does to the scheduler. -/
def Act.moves (S : Sched n) : Act n → Option (SchedMove n)
  | .mail m => m.brings S
  | .sched m => some m
  | .restore _ | .crt _ => none

/-- A move of the abstract scheduler that may be there. -/
def absFollow (A : AbsSched n) : Option (SchedMove n) → Option (AbsSched n)
  | none => some A
  | some m => absMove A m

variable {L L' : Spot n → List EnvPtr} {m : MailMove n} {w : SchedMove n} {A A' B : AbsSched n}
  {p : Fin n} {env : EnvPtr}

/-! ## Free envelopes -/

theorem Transfer.free_length (h : Transfer L m L') (hrequest : ∀ p env, m ≠ .request p env)
    (hrelease : ∀ p env, m ≠ .release p env) :
    (L' (.queue .freeEnvQ)).length = (L (.queue .freeEnvQ)).length := by
  cases h with
  | request => exact absurd rfl (hrequest _ _)
  | release => exact absurd rfl (hrelease _ _)
  | fill | write | tick => rfl
  | send | receive | insert | expire | store | display | ack =>
    rw [shift_other L (by simp) (by simp)]

theorem Transfer.request_free (h : Transfer L (.request p env) L') :
    (L (.queue .freeEnvQ)).length = (L' (.queue .freeEnvQ)).length + 1 := by
  cases h with
  | request hl => rw [shift_src L (by simp), hl, List.length_cons]

theorem Transfer.release_free (h : Transfer L (.release p env) L') :
    (L' (.queue .freeEnvQ)).length = (L (.queue .freeEnvQ)).length + 1 := by
  cases h with
  | release henv => rw [shift_dst, List.length_append, List.length_singleton]

/-- Another priority makes nobody wait, and wakes nobody up. -/
theorem reprioritise_calm {newPriority : ℤ} (h : A.Requesters) (h₀ : 0 ≤ newPriority)
    (h₁ : newPriority < numPriorities) :
    (A.place p { A.info p with priority := newPriority }).Requesters ∧
      woken (A.place p { A.info p with priority := newPriority }).info = woken A.info ∧
      (SomeBlocked (A.place p { A.info p with priority := newPriority }).info →
        SomeBlocked A.info) := by
  refine ⟨h.place (h.context p) fun _ => ⟨h₀, h₁⟩, Coldfire.woken_congr fun q => ?_, ?_⟩
  · by_cases hq : q = p
    · subst hq
      rw [AbsSched.info_place_self]
      rfl
    · rw [AbsSched.info_place_of_ne A _ hq]
  · rintro ⟨q, hq⟩
    refine ⟨q, ?_⟩
    by_cases hqp : q = p
    · subst hqp
      rwa [AbsSched.info_place_self] at hq
    · rwa [AbsSched.info_place_of_ne A _ hqp] at hq

namespace Kernel

variable {initTable : Fin n → PcbInit} {b s t t' : Kernel n} {l : RtxLabel} {a : Act n}

theorem Models.move (h : t.Models A) (hsafe : SafeMove A w)
    (hm : schedMove t.sched w = some t'.sched) : ∃ A', t'.Models A' ∧ absMove A w = some A' := by
  have hrel := h.refines.move h.sound hsafe
  rw [hm] at hrel
  cases hA : absMove A w with
  | none =>
    rw [hA] at hrel
    cases hrel
  | some A' =>
    rw [hA] at hrel
    cases hrel with
    | some href => exact ⟨A', ⟨href, absMove_sound h.sound hA⟩, rfl⟩

theorem Models.congr (h : t.Models A) (hsched : t'.sched = t.sched) : t'.Models A :=
  ⟨hsched ▸ h.refines, h.sound⟩

theorem Models.acting (h : t.Models A) (hsafe : b.TailSafe l)
    (hact : Acting initTable b l t a t' L L') :
    ∃ A', t'.Models A' ∧ absFollow A (a.moves t.sched) = some A' := by
  cases a with
  | mail m =>
    have hfollow := (act_mail hact.act).2
    show ∃ A', t'.Models A' ∧ absFollow A (m.brings t.sched) = some A'
    cases hw : m.brings t.sched with
    | none =>
      rw [hw] at hfollow
      exact ⟨A, h.congr (Option.some.inj hfollow).symm, rfl⟩
    | some w =>
      rw [hw] at hfollow
      refine h.move ?_ hfollow
      rcases MailMove.brings_cases hw with ⟨q, rfl⟩ | rfl | ⟨p, rfl⟩ <;> trivial
  | sched w =>
    obtain ⟨sched, hm, ht'⟩ := Option.map_eq_some_iff.1 hact.act
    have hsched : t'.sched = sched := (congrArg Kernel.sched ht').symm
    have hok : w.Ok b l t := hact.ok
    refine h.move ?_ (hsched ▸ hm)
    cases w with
    | changePriority newPriority tid =>
      obtain ⟨rfl, hpermits⟩ := hok
      exact h.refines.safe h.sound.toPlaced (hsafe newPriority tid hpermits)
    | _ => trivial
  | restore p =>
    have hx := h.executing hact.before p hact.ok
    have hsched : t'.sched = t.sched := by
      rw [← (congrArg Kernel.sched (Option.some.inj hact.act))]
      exact setState_executing hx
    exact ⟨A, h.congr hsched, rfl⟩
  | crt crtBuf =>
    exact ⟨A, h.congr (congrArg Kernel.sched (Option.some.inj hact.act)).symm, rfl⟩

theorem Models.mannered_acting (hnull : NullReleases b l) (h : t.Models A)
    (hA : ∀ p, Mannered (A.info p)) (hact : Acting initTable b l t a t' L L')
    (hm : absFollow A (a.moves t.sched) = some A') :
    ∀ p, Mannered (A'.info p) := by
  cases hw : a.moves t.sched with
  | none =>
    rw [hw] at hm
    cases hm
    exact hA
  | some w =>
    rw [hw] at hm
    refine (mannered_move hA (fun p hi hpid => ?_) hm).1
    cases a with
    | mail m =>
      rcases MailMove.brings_cases hw with ⟨q, rfl⟩ | rfl | ⟨p, rfl⟩ <;> exact ⟨nofun, nofun⟩
    | sched w' =>
      cases hw
      have hok : w.Ok b l t := hact.ok
      constructor
      · rintro rfl
        obtain ⟨rfl, -, hpermits⟩ := hok
        exact (h.null_not_waiting hA hnull hi hpid).1 hpermits
      · rintro rfl
        obtain ⟨rfl, -, hpermits⟩ := hok
        exact (h.null_not_waiting hA hnull hi hpid).2 hpermits
    | restore | crt => cases hw

/-! ## The invariant -/

/-- While a process waits, there is a woken process for each free envelope. -/
structure Awake (t : Kernel n) (L : Spot n → List EnvPtr) (A : AbsSched n) : Prop where
  models : t.Models A
  mannered : ∀ p, Mannered (A.info p)
  requesters : A.Requesters
  enough : SomeBlocked A.info → (L (.queue .freeEnvQ)).length ≤ (woken A.info).card

/-- The running process leaves the kernel. Inside `k_request_msg_env` it was woken. -/
theorem Models.woken_toUser (h : t.Models A) (hreq : A.Requesters)
    (hm : absMove A (.toUser p) = some A') : A'.Requesters ∧
      woken A'.info = (woken A.info).erase p ∧ (SomeBlocked A'.info → SomeBlocked A.info) ∧
      (t.sched.contexts p ≠ .requestMsgEnv → woken A'.info = woken A.info) := by
  obtain ⟨hreq', hwoken, hblocked⟩ := AbsSched.toUser_woken h.sound hreq hm
  refine ⟨hreq', hwoken, hblocked, fun hcontext => ?_⟩
  rw [hwoken, Finset.erase_eq_of_notMem]
  intro hp
  have hinfo : (t.sched.pTable p).toProcInfo = A.info p := congrFun h.refines.refines.info p
  apply hcontext
  show (t.sched.pTable p).context = _
  rw [hinfo]
  exact (mem_woken.1 hp).1

theorem Awake.mail (h : t.Awake L A) (hact : Acting initTable b l t (.mail m) t' L L')
    (hm : absFollow A (m.brings t.sched) = some A') :
    A'.Requesters ∧ (SomeBlocked A'.info →
      (L' (.queue .freeEnvQ)).length ≤ (woken A'.info).card) := by
  have htransfer := (hact.moves m rfl).transfer
  have hok : m.Ok b l t := hact.ok
  have huser : ∀ {p}, t.sched.currentProcess = some p →
      (if (t.sched.ids p).2 then none else some (SchedMove.toUser p)) = some (.toUser p) := by
    intro p hp
    rw [hact.before.not_iProcess hp]
    rfl
  cases m with
  | send p q env sendPid destPid =>
    have hcalm : A.Calm A' := AbsSched.wakeReceiver_calm hm
    rw [htransfer.free_length nofun nofun, hcalm.woken]
    exact ⟨hcalm.requesters h.requesters, fun hb => h.enough (hcalm.blocked hb)⟩
  | release p env =>
    obtain ⟨hreq, hwoken⟩ :=
      AbsSched.wakeRequester_woken h.models.sound.toPlaced h.requesters hm
    refine ⟨hreq, fun hb => ?_⟩
    obtain ⟨hb', hcard⟩ := hwoken hb
    rw [htransfer.release_free, hcard]
    exact Nat.succ_le_succ (h.enough hb')
  | request p env =>
    rw [show (MailMove.request p env).brings t.sched = some (.toUser p) from huser hok] at hm
    obtain ⟨hreq, hwoken, hblocked, -⟩ := h.models.woken_toUser h.requesters hm
    refine ⟨hreq, fun hb => ?_⟩
    have henough := h.enough (hblocked hb)
    have hfree := htransfer.request_free
    rw [hwoken]
    have herase := Finset.pred_card_le_card_erase (a := p) (s := woken A.info)
    omega
  | receive p env =>
    rw [htransfer.free_length nofun nofun]
    rcases hok with ⟨hcur, hcontext⟩ | ⟨hi, -⟩
    · rw [show (MailMove.receive p env).brings t.sched = some (.toUser p) from huser hcur] at hm
      obtain ⟨hreq, -, hblocked, hsame⟩ := h.models.woken_toUser h.requesters hm
      rw [hsame hcontext]
      exact ⟨hreq, fun hb => h.enough (hblocked hb)⟩
    · rw [show (MailMove.receive p env).brings t.sched = none from if_pos hi] at hm
      cases hm
      exact ⟨h.requesters, h.enough⟩
  | fill | write | tick | insert | expire | store | display | ack =>
    cases hm
    rw [htransfer.free_length nofun nofun]
    exact ⟨h.requesters, h.enough⟩

theorem Awake.sched (h : t.Awake L A) (hnull : NullReleases b l) (hok : w.Ok b l t)
    (hkeeps : t.ipc.Keeps L) (hm : absMove A w = some A') :
    A'.Requesters ∧ (SomeBlocked A'.info →
      (L (.queue .freeEnvQ)).length ≤ (woken A'.info).card) := by
  have hsound := h.models.sound
  have hinfo : ∀ p, (t.sched.pTable p).toProcInfo = A.info p :=
    congrFun h.models.refines.refines.info
  -- Where the running process is, at the start of the step.
  have hcontext : ∀ {p context}, t.running = some (p, context) →
      (A.info p).context = context := by
    intro p context hrun
    rw [← hinfo p]
    exact (running_eq_some hrun).2
  have hof_calm : A.Calm A' → A'.Requesters ∧ (SomeBlocked A'.info →
      (L (.queue .freeEnvQ)).length ≤ (woken A'.info).card) := by
    intro hcalm
    rw [hcalm.woken]
    exact ⟨hcalm.requesters h.requesters, fun hb => h.enough (hcalm.blocked hb)⟩
  cases w with
  | wakeReceiver p => exact hok.elim
  | wakeRequester => exact hok.elim
  | blockReceive p =>
    obtain ⟨rfl, -, hpermits⟩ := hok
    refine hof_calm (AbsSched.blockReceive_calm hsound ?_ hm)
    rcases hpermits with ⟨hrun, -⟩ | ⟨hrun, -⟩ <;> rw [hcontext hrun] <;> nofun
  | blockRequest p =>
    obtain ⟨rfl, hempty, hpermits⟩ := hok
    have hlevel : 0 ≤ (A.info p).priority ∧ (A.info p).priority < Coldfire.numPriorities := by
      -- Neither an i-process nor the null process gets here.
      have hi : (A.info p).isIProcess = false := by
        obtain ⟨hcur, -⟩ := Option.ite_none_right_eq_some.1 hm
        exact (Coldfire.Sched.out_running hsound hcur).1
      have hpid : (A.info p).pid ≠ processNullPid := fun hpid =>
        (h.models.null_not_waiting h.mannered hnull hi hpid).2 hpermits
      exact ⟨(h.mannered p).priority.1, (h.mannered p).level hi hpid⟩
    refine ⟨AbsSched.blockRequest_requesters hsound h.requesters hlevel hm, fun _ => ?_⟩
    rw [hkeeps.empty_iff.1 hempty]
    exact Nat.zero_le _
  | yield p =>
    obtain ⟨rfl, hrun, -⟩ := hok
    refine hof_calm (AbsSched.yield_calm hsound ?_ hm)
    rw [hcontext hrun]
    nofun
  | toUser p =>
    obtain ⟨hreq, -, hblocked, hsame⟩ := h.models.woken_toUser h.requesters hm
    have hnot : t.sched.contexts p ≠ .requestMsgEnv := by
      rcases hok with hc | hc <;> rw [hc] <;> nofun
    rw [hsame hnot]
    exact ⟨hreq, fun hb => h.enough (hblocked hb)⟩
  | changePriority newPriority tid =>
    rcases absMove_cases hm with ⟨m', hm', -⟩ | ⟨newPriority', tid', heq, rfl | ⟨p, hp, rfl⟩⟩
    · cases hm'
    · exact ⟨h.requesters, h.enough⟩
    · obtain ⟨hreq, hwoken, hblocked⟩ := reprioritise_calm (p := p) h.requesters hp.1 hp.2.1
      rw [hwoken]
      exact ⟨hreq, fun hb => h.enough (hblocked hb)⟩

theorem Awake.act (h : t.Awake L A) (hnull : NullReleases b l) (hsafe : b.TailSafe l)
    (hact : Acting initTable b l t a t' L L') : ∃ A', t'.Awake L' A' := by
  obtain ⟨A', hmodels, hm⟩ := h.models.acting hsafe hact
  have hmannered := h.models.mannered_acting hnull h.mannered hact hm
  suffices hawake : A'.Requesters ∧ (SomeBlocked A'.info →
      (L' (.queue .freeEnvQ)).length ≤ (woken A'.info).card) from
    ⟨A', hmodels, hmannered, hawake.1, hawake.2⟩
  cases a with
  | mail m => exact h.mail hact hm
  | sched w =>
    rw [(hact.same nofun).2]
    exact h.sched hnull hact.ok hact.keeps hm
  | restore | crt =>
    cases hm
    rw [(hact.same nofun).2]
    exact ⟨h.requesters, h.enough⟩

/-! ## Runs -/

/-- While a process waits for an envelope, there is a woken process for each free envelope. -/
def KeepsWakeUps (s : Kernel n) : Prop :=
  (∃ p, (s.sched.pTable p).state = .blockedOnEnvRequest) →
    ∃ l, Chain (nextOf s.ipc.mem) (s.ipc.queues .freeEnvQ).head l ∧
      l.length ≤ (woken s.sched.view).card

theorem Awake.keepsWakeUps (h : s.Awake L A) (hkeeps : s.ipc.Keeps L) : s.KeepsWakeUps := by
  intro hb
  refine ⟨L (.queue .freeEnvQ), (hkeeps.holds.rep _).chain, ?_⟩
  rw [h.models.refines.refines.info]
  refine h.enough ?_
  rw [← h.models.refines.refines.info]
  exact hb

/-- No process waits while an envelope is free and nobody is woken to take it. -/
theorem KeepsWakeUps.not_stuck (h : s.KeepsWakeUps) (hkeeps : s.ipc.Keeps L)
    (hfree : ¬ s.ipc.Empty .freeEnvQ) (hwoken : woken s.sched.view = ∅) (p : Fin n) :
    (s.sched.pTable p).state ≠ .blockedOnEnvRequest := by
  intro hp
  obtain ⟨l, hl, hlength⟩ := h ⟨p, hp⟩
  rw [hwoken, Finset.card_empty, Nat.le_zero, List.length_eq_zero_iff] at hlength
  subst hlength
  refine hfree (hkeeps.empty_iff.2 ?_)
  exact (hkeeps.holds.rep .freeEnvQ).chain.unique hl

theorem Booted.awake (htab : Tabled initTable) (h : Booted initTable s) :
    ∃ A, s.Awake Ipc.bootSpots A := by
  obtain ⟨A, hA, hmodels⟩ := h.models htab
  have hcalm := AbsSched.dispatch_calm (Coldfire.Sched.placed_bootSched initTable) hA
  have hboot : ¬ SomeBlocked (bootSched initTable).info := by
    rintro ⟨p, hp⟩
    simp [bootSched, PcbInit.info] at hp
  refine ⟨A, hmodels, mannered_boot htab hA, hcalm.requesters ⟨fun p hp => ?_, fun p hp => ?_⟩,
    fun hb => absurd (hcalm.blocked hb) hboot⟩
  · exact absurd ⟨p, hp⟩ hboot
  · simp [bootSched, PcbInit.info] at hp

end Kernel

/-- With a table that is `Tabled`, along every run in which processes only give away and write what
they have, the null process only releases the processor, and no change of priority takes the last of
several processes out of its level: while a process waits for an envelope, there is a
woken process for each free envelope. So none waits while an envelope is free and nobody is woken to
take it. -/
theorem wakeups_kept {initTable : Fin n → PcbInit} {s : Kernel n} (htab : Tabled initTable)
    (hs : Reach Kernel.step (Kernel.Booted initTable)
      (fun s l => s.Careful l ∧ NullReleases s l ∧ s.TailSafe l) s) :
    s.KeepsWakeUps ∧ (¬ s.ipc.Empty .freeEnvQ → woken s.sched.view = ∅ →
      ∀ p, (s.sched.pTable p).state ≠ .blockedOnEnvRequest) := by
  have hboot : ∀ s, Kernel.Booted initTable s → ∃ A, s.Awake Ipc.bootSpots A :=
    fun s h => h.awake htab
  obtain ⟨-, L, hkeeps, A, hawake⟩ := Kernel.tracks_reach (I := fun s L => ∃ A, s.Awake L A) hs
    (fun _ _ h => h.1) hboot
    fun s l t a t' L L' hl hact ⟨A, h⟩ => h.act hl.2.1 hl.2.2 hact
  have hkept := hawake.keepsWakeUps hkeeps
  exact ⟨hkept, hkept.not_stuck hkeeps⟩

/-- Process A takes all envelopes, and waits for one of them to come back from a delay. Two others
wait for an envelope, and then A gives the one back that it got. -/
def contended : List RtxLabel :=
  List.replicate ipcNumFreeMsgEnvs (.call .requestMsgEnv) ++ [
    .call (.requestDelay 1 7 (some 0)),
    .call .receiveMessage,
    .call .requestMsgEnv,
    .call .requestMsgEnv,
    .sigalrm,
    .sigalrm,
    .call .releaseProcessor,
    .resume,
    .call (.releaseMsgEnv (some 0))]

theorem wakeups_kept_procCfg :
    ∃ s, ((Kernel.kInit Kernel.Ram.zero procCfg).bind fun s =>
        exec (guarded Kernel.step fun s l => s.Careful l ∧ s.Plain l) s contended) = some s ∧
      ((s.sched.pTable 4).state = .blockedOnEnvRequest ∧ spotOf s.ipc.log 0 = .queue .freeEnvQ) ∧
      s.KeepsWakeUps ∧ (¬ s.ipc.Empty .freeEnvQ → woken s.sched.view = ∅ →
        ∀ p, (s.sched.pTable p).state ≠ .blockedOnEnvRequest) := by
  have hrun : ((Kernel.kInit Kernel.Ram.zero procCfg).bind fun s =>
      exec (guarded Kernel.step fun s l => s.Careful l ∧ s.Plain l) s contended).any (fun s =>
        decide ((s.sched.pTable 4).state = .blockedOnEnvRequest ∧
          spotOf s.ipc.log 0 = .queue .freeEnvQ)) = true := by
    decide +kernel
  obtain ⟨s, hs, hblocked⟩ := (Option.any_eq_true ..).1 hrun
  obtain ⟨s₀, hinit, hexec⟩ := Option.bind_eq_some_iff.1 hs
  have hreach := (Reach.init (show Kernel.Booted procCfg s₀ from ⟨_, hinit⟩)).guarded hexec
  exact ⟨s, hs, of_decide_eq_true hblocked, wakeups_kept procCfg_tabled
    (hreach.mono fun s l hl => ⟨hl.1, hl.2.1, hl.2.tailSafe⟩)⟩

end Rtx.Unix
