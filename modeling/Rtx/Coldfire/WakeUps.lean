import Mathlib.Data.Fintype.Card
import Rtx.Coldfire.Ownership

/-!
# Wake-ups for envelopes

A release wakes one process up that waits for an envelope, but does not hand the envelope over: the
process looks again when it runs, and may find that another one was faster. `woken` are the
processes that were woken up in this way and have not run since. As long as a process waits, there
is one of them for each free envelope (`no_lost_wakeup`): a release adds one of both, a request
takes an envelope, and a woken process that goes on has either taken one or found none.
-/

namespace Rtx.Coldfire

open Transition Linked Places

variable {n : ℕ}

/-! ## Woken processes -/

/-- The process was woken up inside `k_request_msg_env`, and has not run since. -/
def ProcInfo.Woken (info : ProcInfo) : Prop :=
  info.context = .requestMsgEnv ∧ info.state ≠ .blockedOnEnvRequest

instance (info : ProcInfo) : Decidable info.Woken := by
  unfold ProcInfo.Woken
  infer_instance

/-- The woken processes, of these records. -/
def woken (info : Fin n → ProcInfo) : Finset (Fin n) := Finset.univ.filter fun p => (info p).Woken

/-- A process waits for an envelope. -/
def SomeBlocked (info : Fin n → ProcInfo) : Prop := ∃ p, (info p).state = .blockedOnEnvRequest

@[simp] theorem mem_woken {info : Fin n → ProcInfo} {p : Fin n} :
    p ∈ woken info ↔ (info p).Woken := by
  simp [woken]

theorem woken_congr {info info' : Fin n → ProcInfo}
    (h : ∀ p, (info' p).Woken ↔ (info p).Woken) : woken info' = woken info := by
  ext p
  simp [h p]

namespace AbsSched

variable {A A' : AbsSched n} {p : Fin n} {info : ProcInfo} {m : Move n}

/-- A process that waits for an envelope is inside `k_request_msg_env`, and a process inside
`k_request_msg_env` has a level in the queue of those that wait. -/
structure Requesters (A : AbsSched n) : Prop where
  context : ∀ p, (A.info p).state = .blockedOnEnvRequest → (A.info p).context = .requestMsgEnv
  priority : ∀ p, (A.info p).context = .requestMsgEnv →
    0 ≤ (A.info p).priority ∧ (A.info p).priority < numPriorities

theorem Requesters.place (h : A.Requesters)
    (hcontext : info.state = .blockedOnEnvRequest → info.context = .requestMsgEnv)
    (hpriority : info.context = .requestMsgEnv → 0 ≤ info.priority ∧
      info.priority < numPriorities) :
    (A.place p info).Requesters := by
  refine ⟨fun q => ?_, fun q => ?_⟩ <;> by_cases hq : q = p
  · subst hq; rwa [info_place_self]
  · rw [info_place_of_ne A info hq]; exact h.context q
  · subst hq; rwa [info_place_self]
  · rw [info_place_of_ne A info hq]; exact h.priority q

/-- What a move leaves as it is, for the processes inside `k_request_msg_env`. -/
structure Calm (A A' : AbsSched n) : Prop where
  requesters : A.Requesters → A'.Requesters
  woken : woken A'.info = woken A.info
  blocked : SomeBlocked A'.info → SomeBlocked A.info

theorem Calm.refl (A : AbsSched n) : Calm A A := ⟨id, rfl, id⟩

theorem Calm.of_info (h : A'.info = A.info) : Calm A A' := by
  refine ⟨fun hA => ?_, by rw [h], by rw [h]; exact id⟩
  exact ⟨by rw [h]; exact hA.context, by rw [h]; exact hA.priority⟩

theorem Calm.trans {A'' : AbsSched n} (h : Calm A A') (h' : Calm A' A'') : Calm A A'' :=
  ⟨fun hA => h'.requesters (h.requesters hA), h'.woken.trans h.woken,
    fun hb => h.blocked (h'.blocked hb)⟩

/-- The process is woken afterwards just if it was before, and does not begin to wait. -/
theorem Calm.place (hstate : info.state ≠ .blockedOnEnvRequest)
    (hwoken : info.Woken ↔ (A.info p).Woken)
    (hpriority : info.priority = (A.info p).priority) : Calm A (A.place p info) := by
  refine ⟨fun hA => ?_, woken_congr fun q => ?_, fun ⟨q, hq⟩ => ⟨q, ?_⟩⟩
  · refine hA.place (fun hs => absurd hs hstate) fun hc => ?_
    rw [hpriority]
    exact hA.priority p (hwoken.1 ⟨hc, hstate⟩).1
  · by_cases hq : q = p
    · subst hq; rwa [info_place_self]
    · rw [info_place_of_ne A info hq]
  · by_cases hqp : q = p
    · subst hqp
      rw [info_place_self] at hq
      exact absurd hq hstate
    · rwa [info_place_of_ne A info hqp] at hq

/-! ## Moves -/

theorem wakeReceiver_calm (hm : A.move (.wakeReceiver p) = some A') : Calm A A' := by
  cases hm
  split
  · rename_i hp
    have hplace : Calm A (A.place p { A.info p with state := .ready }) :=
      .place nofun (by simp [ProcInfo.Woken, hp]) rfl
    exact hplace.trans (.of_info rfl)
  · exact .refl A

theorem dispatch_calm (h : A.Placed) (hd : A.dispatch = some A') : Calm A A' := by
  obtain ⟨p, hp, rfl⟩ := Option.map_eq_some_iff.1 hd
  obtain ⟨i, l, -, hl, -⟩ := first_eq_some hp
  have hmem : p ∈ A.queue .readyPq i := by rw [hl]; exact List.mem_cons_self
  have hready := (ProcInfo.place_ready.1 (h.mem_queue.1 hmem)).2.1
  have hplace : Calm A (A.place p { A.info p with state := .executing }) :=
    .place nofun (by simp [ProcInfo.Woken, hready]) rfl
  exact hplace.trans (.of_info rfl)

theorem park_calm {state : ProcessState} {context : Context}
    (hstate : state ≠ .blockedOnEnvRequest) (hcontext : context ≠ .requestMsgEnv)
    (hp : (A.info p).context ≠ .requestMsgEnv) : Calm A (A.park p state context) := by
  refine Calm.place hstate ?_ rfl
  simp [ProcInfo.Woken, hcontext, hp]

/-- A release wakes one process up, if one waits. -/
theorem wakeRequester_woken (h : A.Placed) (hreq : A.Requesters)
    (hm : A.move .wakeRequester = some A') : A'.Requesters ∧ (SomeBlocked A'.info →
      SomeBlocked A.info ∧ (woken A'.info).card = (woken A.info).card + 1) := by
  simp only [AbsSched.move] at hm
  split at hm
  · -- Every process that waits stands in the queue.
    rename_i hnone
    cases hm
    refine ⟨hreq, ?_⟩
    rintro ⟨q, hq⟩
    obtain ⟨h₀, h₁⟩ := hreq.priority q (hreq.context q hq)
    obtain ⟨i, hi⟩ := Int.eq_ofNat_of_zero_le h₀
    have hlt : i < PqPtr.levels .blockedRequestEnvPq := by
      rw [hi] at h₁
      exact_mod_cast h₁
    have hmem : q ∈ A.queue .blockedRequestEnvPq i := by
      refine h.mem_queue.2 (ProcInfo.place_blocked.2 ⟨?_, hq, hi, hlt⟩)
      by_contra hne
      rw [h.iProcess (by simpa using hne)] at hq
      contradiction
    rw [first_eq_none hnone i hlt] at hmem
    contradiction
  · rename_i p hfirst
    cases hm
    have hp := h.first_blocked hfirst
    have hctx := hreq.context p hp
    have hwoken : woken (A.wake p).info = insert p (woken A.info) := by
      ext q
      rw [mem_woken, Finset.mem_insert, mem_woken]
      by_cases hq : q = p
      · subst hq
        simp [wake, AbsSched.becameReady, ProcInfo.Woken, hctx]
      · simp [wake, AbsSched.becameReady, info_place_of_ne A _ hq, hq]
    refine ⟨?_, fun _ => ⟨⟨p, hp⟩, ?_⟩⟩
    · have hplace : (A.place p { A.info p with state := .ready }).Requesters :=
        hreq.place (by simp) fun _ => hreq.priority p hctx
      exact ⟨hplace.context, hplace.priority⟩
    · rw [hwoken, Finset.card_insert_of_notMem]
      simp [ProcInfo.Woken, hp]

theorem blockRequest_requesters (h : A.Sound) (hreq : A.Requesters)
    (hp : 0 ≤ (A.info p).priority ∧ (A.info p).priority < numPriorities)
    (hm : A.move (.blockRequest p) = some A') : A'.Requesters := by
  simp only [AbsSched.move, Option.ite_none_right_eq_some] at hm
  obtain ⟨hplaced, -⟩ := h.park hm.1 .blockedOnEnvRequest .requestMsgEnv (by simp)
  exact (dispatch_calm hplaced hm.2).requesters (hreq.place (fun _ => rfl) fun _ => hp)

/-- The running process leaves the kernel, and with it the woken ones. -/
theorem toUser_woken (h : A.Sound) (hreq : A.Requesters)
    (hm : A.move (.toUser p) = some A') : A'.Requesters ∧
      woken A'.info = (woken A.info).erase p ∧ (SomeBlocked A'.info → SomeBlocked A.info) := by
  simp only [AbsSched.move, Option.ite_none_right_eq_some, Option.some.injEq] at hm
  obtain ⟨⟨hcur, hint⟩, rfl⟩ := hm
  have hp : (A.info p).state = .executing := by
    rw [h.executing p, running, hcur, hint]
    rfl
  refine ⟨hreq.place (by simp [hp]) (by simp), ?_, ?_⟩
  · ext q
    rw [mem_woken, Finset.mem_erase, mem_woken]
    by_cases hq : q = p
    · subst hq; simp [ProcInfo.Woken]
    · simp [info_place_of_ne A _ hq, hq]
  · rintro ⟨q, hq⟩
    refine ⟨q, ?_⟩
    by_cases hqp : q = p
    · subst hqp
      simp [hp] at hq
    · rwa [info_place_of_ne A _ hqp] at hq

theorem blockReceive_calm (h : A.Sound) (hp : (A.info p).context ≠ .requestMsgEnv)
    (hm : A.move (.blockReceive p) = some A') : Calm A A' := by
  simp only [AbsSched.move, Option.ite_none_right_eq_some] at hm
  obtain ⟨hplaced, -⟩ := h.park hm.1 .blockedOnReceive .receiveMessage (by simp)
  have hpark : Calm A (A.park p .blockedOnReceive .receiveMessage) :=
    park_calm (by simp) (by simp) hp
  exact hpark.trans (dispatch_calm hplaced hm.2)

theorem yield_calm (h : A.Sound) (hp : (A.info p).context ≠ .requestMsgEnv)
    (hm : A.move (.yield p) = some A') : Calm A A' := by
  simp only [AbsSched.move, Option.ite_none_right_eq_some] at hm
  obtain ⟨hplaced, -⟩ := h.park hm.1 .ready .releaseProcessor (by simp)
  have hpark : Calm A (A.park p .ready .releaseProcessor) :=
    park_calm (by simp) (by simp) hp
  have hlog : Calm (A.park p .ready .releaseProcessor)
      ((A.park p .ready .releaseProcessor).becameReady p) := .of_info rfl
  exact (hpark.trans hlog).trans
    (dispatch_calm ⟨hplaced.mem_queue, hplaced.nodup, hplaced.iProcess⟩ hm.2)

theorem enterIsr_calm {pid : ℤ} (hm : A.move (.enterIsr pid) = some A') : Calm A A' := by
  simp only [AbsSched.move, Option.ite_none_right_eq_some, Option.some.injEq] at hm
  exact .of_info (hm.2 ▸ rfl)

theorem exitIsr_calm (hm : A.move .exitIsr = some A') : Calm A A' := by
  simp only [AbsSched.move, Option.ite_none_right_eq_some, Option.some.injEq] at hm
  exact .of_info (hm.2 ▸ rfl)

end AbsSched

/-! ## Free envelopes -/

section Free

variable {L L' : Loc n → List EnvPtr} {m : IpcMove n} {p : Fin n} {env : EnvPtr}

theorem Transfer.free_length (h : Transfer L m L')
    (hrequest : ∀ p env, m ≠ .request p .freeEnvQ env)
    (hrelease : ∀ p env, m ≠ .release p .freeEnvQ env) :
    (L' (.queue .freeEnvQ)).length = (L (.queue .freeEnvQ)).length := by
  cases h with
  | send => rw [shift_other L (by simp) (by simp)]
  | receive => rw [shift_other L (by simp) (by simp)]
  | @request p queue env l hl =>
    rw [shift_other L ?_ (by simp)]
    intro hqueue
    cases hqueue
    exact hrequest p env rfl
  | @release p queue env henv =>
    rw [shift_other L (by simp) ?_]
    intro hqueue
    cases hqueue
    exact hrelease p env rfl
  | insert => rw [shift_other L (by simp) (by simp)]
  | expire => rw [shift_other L (by simp) (by simp)]
  | _ => rfl

theorem Transfer.request_free (h : Transfer L (.request p .freeEnvQ env) L') :
    (L (.queue .freeEnvQ)).length = (L' (.queue .freeEnvQ)).length + 1 := by
  cases h with
  | request hl => rw [shift_src L (by simp), hl, List.length_cons]

theorem Transfer.release_free (h : Transfer L (.release p .freeEnvQ env) L') :
    (L' (.queue .freeEnvQ)).length = (L (.queue .freeEnvQ)).length + 1 := by
  cases h with
  | release henv => rw [shift_dst, List.length_append, List.length_singleton]

end Free

/-! ## Acts -/

/-- The call changes a priority. -/
def Call.isChange : Call → Bool
  | .changePriority .. => true
  | _ => false

/-- No priority changes, and a process that requests an envelope has a level in the queue of those
that wait for one. -/
def Steady (s : Kernel n) (l : Label) : Prop :=
  (∀ c ∈ l.call?, c.isChange = false) ∧ (l.call? = some .requestMsgEnv →
    ∀ p ∈ s.sched.currentProcess,
      0 ≤ (s.sched.pTable p).priority ∧ (s.sched.pTable p).priority < numPriorities)

instance (s : Kernel n) (l : Label) : Decidable (Steady s l) := by
  unfold Steady
  infer_instance

namespace Kernel

variable {table : Fin n → PcbInit} {s s' t t' : Kernel n} {l : Label} {a : Act n}
  {L L' : Loc n → List EnvPtr} {A A' : AbsSched n}

/-- In `t`, reached within a step from `s`: while a process waits, there is a woken process for each
free envelope, and one more if the running process has just taken one. -/
structure Awake (s t : Kernel n) (L : Loc n → List EnvPtr) (A : AbsSched n) : Prop where
  refines : t.sched.Refines A
  sound : A.Sound
  requesters : A.Requesters
  enough : SomeBlocked A.info → (L (.queue .freeEnvQ)).length ≤ (woken A.info).card
  taken : SomeBlocked A.info → ∀ p env, s.sched.currentProcess = some p → p ∈ woken A.info →
    t.ipc.log = .requested p env :: s.ipc.log →
    (L (.queue .freeEnvQ)).length + 1 ≤ (woken A.info).card

/-- An act that changes neither the free envelopes nor the woken processes. -/
theorem Awake.calm (h : s.Awake t L A) (hrefines : t'.sched.Refines A') (hsound : A'.Sound)
    (hcalm : A.Calm A')
    (hfree : (L' (.queue .freeEnvQ)).length = (L (.queue .freeEnvQ)).length)
    (hlog : ∀ p env, t'.ipc.log = .requested p env :: s.ipc.log →
      t.ipc.log = .requested p env :: s.ipc.log) : s.Awake t' L' A' := by
  refine ⟨hrefines, hsound, hcalm.requesters h.requesters, fun hb => ?_,
    fun hb p env hp hw he => ?_⟩
  · rw [hfree, hcalm.woken]
    exact h.enough (hcalm.blocked hb)
  · rw [hcalm.woken] at hw ⊢
    rw [hfree]
    exact h.taken (hcalm.blocked hb) p env hp hw (hlog p env he)

theorem Awake.ipc {m : IpcMove n} (h : s.Awake t L A)
    (hrun : ∀ p, s.sched.currentProcess = some p → (s.sched.ids p).2 = false)
    (hact : Acting table s l t (.ipc m) t' L L') : ∃ A', s.Awake t' L' A' := by
  obtain ⟨-, hwake, -⟩ := act_ipc hact.act
  have hlog := hact.effect.log
  have htransfer : Transfer L m L' := hact.transfer
  -- What is not a request cannot be mistaken for one.
  have hother : (∀ p env, some (.requested p env) ≠ m.event? t.ipc) → ∀ p env,
      t'.ipc.log = .requested p env :: s.ipc.log → t.ipc.log = .requested p env :: s.ipc.log := by
    intro hne p env he
    cases hev : m.event? t.ipc with
    | none =>
      rw [hev] at hlog
      exact hlog.symm.trans he
    | some ev =>
      rw [hev, he] at hlog
      exact absurd (congrArg some (List.cons.inj hlog).1) (hev ▸ hne p env)
  -- A move that wakes nobody up.
  have hasleep : m.wakeUp = none → t'.sched = t.sched := by
    intro hm
    rw [hm] at hwake
    exact (Option.some.inj hwake).symm
  cases m with
  | send cur dest env sendPid destPid =>
    obtain ⟨A', hm, hrefines⟩ := h.refines.move h.sound (m := .wakeReceiver dest) trivial hwake
    exact ⟨A', h.calm hrefines (h.sound.move hm) (AbsSched.wakeReceiver_calm hm)
      (htransfer.free_length nofun nofun) (hother nofun)⟩
  | release p queue env =>
    cases queue with
    | freeEnvQ =>
      obtain ⟨A', hm, hrefines⟩ := h.refines.move h.sound (m := .wakeRequester) trivial hwake
      obtain ⟨hreq, hwoken⟩ :=
        AbsSched.wakeRequester_woken h.sound.toPlaced h.requesters hm
      refine ⟨A', hrefines, h.sound.move hm, hreq, fun hb => ?_, fun hb q env' _ _ he => ?_⟩
      · obtain ⟨hb', hcard⟩ := hwoken hb
        rw [htransfer.release_free, hcard]
        exact Nat.succ_le_succ (h.enough hb')
      · rw [hlog] at he
        cases (List.cons.inj he).1
    | sysFreeEnvQ =>
      exact ⟨A, h.calm (hasleep rfl ▸ h.refines) h.sound (.refl A)
        (htransfer.free_length nofun nofun) (hother nofun)⟩
    | recvMsgs q =>
      exact ⟨A, h.calm (hasleep rfl ▸ h.refines) h.sound (.refl A)
        (htransfer.free_length nofun nofun) (hother nofun)⟩
  | request p queue env =>
    obtain ⟨p', -, ⟨rfl, hqueue⟩, -⟩ := hact.does
    rcases hqueue with rfl | ⟨rfl, hi⟩
    · have hfree := htransfer.request_free
      refine ⟨A, hasleep rfl ▸ h.refines, h.sound, h.requesters, fun hb => ?_,
        fun hb _ _ _ _ _ => ?_⟩
      · have := h.enough hb
        omega
      · rw [← hfree]
        exact h.enough hb
    · refine ⟨A, hasleep rfl ▸ h.refines, h.sound, h.requesters, fun hb => ?_,
        fun _ q env' hq _ he => ?_⟩
      · rw [htransfer.free_length nofun nofun]
        exact h.enough hb
      · -- The running process is not an i-process.
        rw [hlog] at he
        obtain ⟨rfl, -⟩ := Event.requested.inj (List.cons.inj he).1
        have hids := congrFun (hact.before.ids.trans hact.ids.symm) p
        have hi' : (t.sched.ids p).2 = true := hi
        rw [hids, hrun p hq] at hi'
        contradiction
  | insert p nullRead env =>
    refine ⟨A, h.calm (hasleep rfl ▸ h.refines) h.sound (.refl A)
      (htransfer.free_length nofun nofun) (hother fun p env hev => ?_)⟩
    obtain ⟨delay, -, hev⟩ := Option.map_eq_some_iff.1 hev.symm
    contradiction
  | _ =>
    exact ⟨A, h.calm (hasleep rfl ▸ h.refines) h.sound (.refl A)
      (htransfer.free_length nofun nofun) (hother nofun)⟩

theorem Awake.sched {m : Move n} (h : s.Awake t L A) (hint : s.sched.interruptedProcess = none)
    (hsteady : Steady s l) (hact : Acting table s l t (.sched m) t' L L') :
    ∃ A', s.Awake t' L' A' := by
  obtain ⟨hwake, hpermits, hfirst, hwaits, hleaves⟩ := hact.does
  obtain ⟨hipc, rfl⟩ := hact.ipc_eq nofun
  obtain ⟨S, hmove, ht'⟩ := Option.map_eq_some_iff.1 hact.act
  have hsched : t'.sched = S := (congrArg Kernel.sched ht').symm
  have hsafe : A.Safe m := by
    cases m with
    | changePriority newPriority tid =>
      have hl : l = .call (.changePriority newPriority tid) := hpermits.1
      have := hsteady.1 _ (congrArg Label.call? hl)
      contradiction
    | _ => trivial
  obtain ⟨A', hm, hrefines⟩ := h.refines.move h.sound hsafe hmove
  rw [← hsched] at hrefines
  have hsound := h.sound.move hm
  have hlog : ∀ p env, t'.ipc.log = .requested p env :: s.ipc.log →
      t.ipc.log = .requested p env :: s.ipc.log := fun p env he => hipc ▸ he
  -- Where the running process is, at the start of the step.
  have hcontext : ∀ {p context}, t = s → s.running = some (p, context) →
      (A.info p).context = context := by
    intro p context hts hrun
    subst hts
    rw [← (running_eq_some.1 hrun).2]
    exact congrArg ProcInfo.context (congrFun h.refines.info p).symm
  cases m with
  | wakeReceiver p => exact (hwake trivial).elim
  | wakeRequester => exact (hwake trivial).elim
  | blockReceive p =>
    have hp : (A.info p).context ≠ .requestMsgEnv := by
      rcases hpermits.1 with ⟨hrun, -⟩ | hrun
      · rw [hcontext (hfirst trivial) hrun]; nofun
      · rw [hcontext (hfirst trivial) hrun]; nofun
    exact ⟨A', h.calm hrefines hsound (AbsSched.blockReceive_calm h.sound hp hm) rfl hlog⟩
  | blockRequest p =>
    have hp : 0 ≤ (A.info p).priority ∧ (A.info p).priority < numPriorities := by
      rcases hpermits.1 with ⟨hrun, rfl⟩ | hrun
      · have hprio := hsteady.2 rfl p (running_eq_some.1 hrun).1
        obtain rfl := hfirst trivial
        rwa [show (t.sched.pTable p).priority = (A.info p).priority from
          congrArg ProcInfo.priority (congrFun h.refines.info p)] at hprio
      · exact h.requesters.priority p (hcontext (hfirst trivial) hrun)
    have hempty : L' (.queue .freeEnvQ) = [] :=
      (hact.before.keeps.queue _).isEmpty.1 hwaits
    refine ⟨A', hrefines, hsound, AbsSched.blockRequest_requesters h.sound h.requesters hp hm,
      fun _ => ?_, fun _ q env _ hq _ => ?_⟩
    · simp [hempty]
    · rw [hempty]
      exact Finset.card_pos.2 ⟨q, hq⟩
  | yield p =>
    have hp : (A.info p).context ≠ .requestMsgEnv := by
      rw [hcontext (hfirst trivial) hpermits.1.1]; nofun
    exact ⟨A', h.calm hrefines hsound (AbsSched.yield_calm h.sound hp hm) rfl hlog⟩
  | changePriority newPriority tid =>
    have hl : l = .call (.changePriority newPriority tid) := hpermits.1
    have := hsteady.1 _ (congrArg Label.call? hl)
    contradiction
  | toUser p =>
    obtain ⟨hreq, hwoken, hblocked⟩ := AbsSched.toUser_woken h.sound h.requesters hm
    obtain ⟨context, hrun⟩ := hpermits.1
    have hcur := (running_eq_some.1 hrun).1
    refine ⟨A', hrefines, hsound, hreq, fun hb => ?_, fun hb q env hq hw he => ?_⟩
    · rw [hwoken]
      by_cases hp : p ∈ woken A.info
      · -- It leaves with the envelope it has just taken.
        have hctx : (t.sched.pTable p).context = .requestMsgEnv := by
          rw [← (mem_woken.1 hp).1]
          exact congrArg ProcInfo.context (congrFun h.refines.info p)
        obtain ⟨env, he⟩ := hleaves hctx
        have := h.taken (hblocked hb) p env hcur hp he
        rw [Finset.card_erase_of_mem hp]
        omega
      · rw [Finset.erase_eq_of_notMem hp]
        exact h.enough (hblocked hb)
    · obtain rfl : q = p := Option.some.inj (hq.symm.trans hcur)
      rw [hwoken] at hw
      exact absurd hw (Finset.notMem_erase q _)
  | enterIsr pid =>
    exact ⟨A', h.calm hrefines hsound (AbsSched.enterIsr_calm hm) rfl hlog⟩
  | exitIsr => exact ⟨A', h.calm hrefines hsound (AbsSched.exitIsr_calm hm) rfl hlog⟩

theorem Awake.act (h : s.Awake t L A) (hint : s.sched.interruptedProcess = none)
    (hregular : s.sched.Regular) (hsteady : Steady s l)
    (hact : Acting table s l t a t' L L') : ∃ A', s.Awake t' L' A' := by
  cases a with
  | ipc m =>
    refine h.ipc (fun p hp => hregular.running p ?_) hact
    rw [Sched.running, hint, hp]
    rfl
  | sched m => exact h.sched hint hsteady hact
  | uart uart =>
    obtain ⟨hipc, rfl⟩ := hact.ipc_eq (by simp)
    have hsched : t'.sched = t.sched := (congrArg Kernel.sched (Option.some.inj hact.act)).symm
    exact ⟨A, h.calm (hsched ▸ h.refines) h.sound (.refl A) rfl fun p env he => hipc ▸ he⟩

/-! ## Runs -/

/-- While a process waits for an envelope, there is a woken process for each free envelope. -/
def NoLostWakeUp (s : Kernel n) : Prop :=
  (∃ p, (s.sched.pTable p).state = .blockedOnEnvRequest) →
    ∃ l, Chain (nextOf s.ipc.env) (s.ipc.queue .freeEnvQ).head l ∧
      l.length ≤ (woken s.sched.view).card

theorem Awake.noLostWakeUp (h : s.Awake t L A) (ht : t.Accounts table L) : t.NoLostWakeUp := by
  intro hb
  refine ⟨L (.queue .freeEnvQ), (ht.keeps.queue _).chain, ?_⟩
  rw [h.refines.info]
  refine h.enough ?_
  rw [← h.refines.info]
  exact hb

/-- No process waits while an envelope is free and nobody is woken to take it. -/
theorem NoLostWakeUp.not_stuck (h : s.NoLostWakeUp) (hfree : s.ipc.isEmpty .freeEnvQ = false)
    (hwoken : woken s.sched.view = ∅) (p : Fin n) :
    (s.sched.pTable p).state ≠ .blockedOnEnvRequest := by
  intro hp
  obtain ⟨l, hl, hlength⟩ := h ⟨p, hp⟩
  rw [hwoken, Finset.card_empty, Nat.le_zero, List.length_eq_zero_iff] at hlength
  subst hlength
  have hempty : s.ipc.isEmpty .freeEnvQ = true := by
    rw [Ipc.isEmpty, msgEnvQueueIsEmpty, chain_nil.1 hl]
    rfl
  rw [hempty] at hfree
  contradiction

theorem Awake.start (h : s.Awake t L A) : t.Awake t L A := by
  refine ⟨h.refines, h.sound, h.requesters, h.enough, fun _ p env _ _ he => ?_⟩
  exact absurd (congrArg List.length he) (by simp)

theorem Booted.awake (h : Booted table s) : ∃ A, s.Awake s Ipc.bootPlaces A := by
  obtain ⟨ram, hinit⟩ := h
  obtain ⟨A, hdispatch, hmodels⟩ := kInit_models hinit
  have hcalm := AbsSched.dispatch_calm (Sched.placed_bootSched table) hdispatch
  have hboot : ¬ SomeBlocked (Sched.bootSched table).info := by
    rintro ⟨p, hp⟩
    simp [Sched.bootSched, PcbInit.info] at hp
  refine ⟨A, hmodels.refines, hmodels.sound, hcalm.requesters ⟨fun p hp => ?_, fun p hp => ?_⟩,
    fun hb => absurd (hcalm.blocked hb) hboot, fun hb => absurd (hcalm.blocked hb) hboot⟩
  · exact absurd ⟨p, hp⟩ hboot
  · simp [Sched.bootSched, PcbInit.info] at hp

end Kernel

/-- Along every run in which processes only give away what they hold, no priority changes and the
processes that request envelopes have priorities 0 to 2: while a process waits for an envelope,
there is a woken process for each free envelope. So none waits while an envelope is free and
nobody is woken to take it. -/
theorem no_lost_wakeup {table : Fin n → PcbInit} {s : Kernel n}
    (hs : Reach Kernel.step (Kernel.Booted table) (fun s l => Owning s l ∧ Steady s l) s) :
    s.NoLostWakeUp ∧ (s.ipc.isEmpty .freeEnvQ = false → woken s.sched.view = ∅ →
      ∀ p, (s.sched.pTable p).state ≠ .blockedOnEnvRequest) := by
  suffices h : s.NoLostWakeUp from ⟨h, h.not_stuck⟩
  obtain ⟨-, L, haccounts, A, hawake⟩ :=
    hs.invariant (I := fun s => s.sched.interruptedProcess = none ∧
      ∃ L, s.Accounts table L ∧ ∃ A, s.Awake s L A)
      (fun s hs => ⟨hs.accounts.1, _, hs.accounts.2, hs.awake⟩)
      fun s l s' _ ⟨hint, L, haccounts, A, hawake⟩ ⟨hown, hsteady⟩ hstep => by
        obtain ⟨hint', L', haccounts', A', hawake'⟩ := haccounts.step
          (I := fun t L => ∃ A, s.Awake t L A) ⟨A, hawake⟩ hint hown
          (fun t a t' L L' hact ⟨A, h⟩ => h.act hint haccounts.regular hsteady hact) hstep
        exact ⟨hint', L', haccounts', A', hawake'.start⟩
  exact hawake.noLostWakeUp haccounts

/-- The CCI takes all free envelopes, so process C and pong wait for one; then the CCI gives one
back. -/
def contention : List Label :=
  List.replicate ipcNumFreeMsgEnvs (.call .requestMsgEnv) ++ [
    .call .releaseProcessor,
    .call .requestMsgEnv,
    .call .requestMsgEnv,
    .resume,
    .call (.releaseMsgEnv (some (.envPool 0)))]

theorem no_lost_wakeup_itable :
    ∃ s, ((Kernel.kInit Kernel.Ram.zero itable).bind fun s =>
        exec (guarded Kernel.step fun s l => Owning s l ∧ Steady s l) s contention) = some s ∧
      (s.sched.pTable 8).state = .blockedOnEnvRequest ∧ s.ipc.isEmpty .freeEnvQ = false ∧
      s.NoLostWakeUp := by
  have hrun : ((Kernel.kInit Kernel.Ram.zero itable).bind fun s =>
      exec (guarded Kernel.step fun s l => Owning s l ∧ Steady s l) s contention).any (fun s =>
        decide ((s.sched.pTable 8).state = .blockedOnEnvRequest ∧
          s.ipc.isEmpty .freeEnvQ = false)) = true := by
    decide +kernel
  obtain ⟨s, hs, hfacts⟩ := (Option.any_eq_true ..).1 hrun
  obtain ⟨hblocked, hfree⟩ := of_decide_eq_true hfacts
  obtain ⟨s₀, hinit, hexec⟩ := Option.bind_eq_some_iff.1 hs
  exact ⟨s, hs, hblocked, hfree, (no_lost_wakeup ((Reach.init ⟨_, hinit⟩).guarded hexec)).1⟩

/-- The CCI gives an envelope back that it has sent to the wall clock, and then sends it another
one. That is linked behind the first, which is free by now. -/
def giveTwice : List Label :=
  List.replicate ipcNumFreeMsgEnvs (.call .requestMsgEnv) ++ [
    .call (.sendMessage 1 (some (.envPool 0))),
    .call .releaseProcessor,
    .call .requestMsgEnv,
    .call .requestMsgEnv,
    .resume,
    .call (.releaseMsgEnv (some (.envPool 0))),
    .call (.sendMessage 1 (some (.envPool 1)))]

/-- Where processes give away what they do not hold, two envelopes are free and one process is
woken, while another waits. -/
theorem no_lost_wakeup_fails :
    ∃ s, Reach Kernel.step (Kernel.Booted itable) Steady s ∧ ¬ s.NoLostWakeUp := by
  have hrun : ((Kernel.kInit Kernel.Ram.zero itable).bind fun s =>
      exec (guarded Kernel.step Steady) s giveTwice).any (fun s => decide (
        (s.sched.pTable 8).state = .blockedOnEnvRequest ∧
        (s.ipc.queue .freeEnvQ).head = some (.envPool 0) ∧
        (s.ipc.env (.envPool 0)).next = some (.envPool 1) ∧
        (s.ipc.env (.envPool 1)).next = none ∧ (woken s.sched.view).card = 1)) = true := by
    decide +kernel
  obtain ⟨s, hs, hfacts⟩ := (Option.any_eq_true ..).1 hrun
  obtain ⟨hblocked, hhead, h₀, h₁, hcard⟩ := of_decide_eq_true hfacts
  obtain ⟨s₀, hinit, hexec⟩ := Option.bind_eq_some_iff.1 hs
  refine ⟨s, (Reach.init ⟨_, hinit⟩).guarded hexec, fun h => ?_⟩
  obtain ⟨l, hl, hlength⟩ := h ⟨8, hblocked⟩
  have hfree : l = [.envPool 0, .envPool 1] := by
    refine hl.unique ?_
    simp only [chain_cons, chain_nil, nextOf]
    exact ⟨hhead, h₀, h₁⟩
  rw [hcard, hfree] at hlength
  simp at hlength

end Rtx.Coldfire
