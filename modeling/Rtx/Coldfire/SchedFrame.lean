import Rtx.Coldfire.SchedBoot

/-!
# What the scheduler leaves alone

Facts that hold of the scheduler whatever state its queues are in, also after a change of
priority left a tail dangling: pids never change, no link ever leads to an i-process, so that an
i-process never runs outside an interrupt, nothing but `k_receive_message` makes a process
wait for a message, and only a switch or an interrupt changes the running process.
-/

namespace Rtx.Coldfire

variable {n : ℕ} {P : Fin n → Prop}

/-! ## The process pointers -/

namespace Sched

variable {S S' : Sched n} {p : Fin n} {pq : PqPtr}

/-- The two process pointers are the same. -/
def SamePointers (S S' : Sched n) : Prop :=
  S'.currentProcess = S.currentProcess ∧ S'.interruptedProcess = S.interruptedProcess

theorem enqueue_pointers (h : S.enqueue pq p = some S') : SamePointers S S' := by
  obtain ⟨r, -, rfl⟩ := Option.map_eq_some_iff.1 h
  exact ⟨rfl, rfl⟩

theorem wakeReceiver_pointers (h : S.wakeReceiver p = some S') : SamePointers S S' := by
  unfold wakeReceiver at h
  split at h
  · exact enqueue_pointers (S := (S.setState p .ready).becameReady p) h
  · cases h; exact ⟨rfl, rfl⟩

theorem wakeRequester_pointers (h : S.wakeRequester = some S') : SamePointers S S' := by
  unfold wakeRequester at h
  split at h
  · rename_i S₁ hdeq
    cases h
    obtain rfl := (Prod.mk.inj hdeq).2
    exact ⟨rfl, rfl⟩
  · rename_i p S₁ hdeq
    obtain rfl := (Prod.mk.inj hdeq).2
    have hp := enqueue_pointers h
    exact ⟨hp.1, hp.2⟩

theorem remove_pointers (h : S.remove pq p = some S') : SamePointers S S' := by
  obtain ⟨r, -, rfl⟩ := Option.map_eq_some_iff.1 h
  exact ⟨rfl, rfl⟩

theorem kChangePriority_pointers {newPriority targetProcessId r : ℤ}
    (h : S.kChangePriority newPriority targetProcessId = some (r, S')) : SamePointers S S' := by
  rcases kChangePriority_cases h with rfl | ⟨p, -, ⟨rfl, -⟩ | ⟨pq, S₁, -, hrem, henq⟩⟩
  · exact ⟨rfl, rfl⟩
  · exact ⟨rfl, rfl⟩
  · have h₁ := remove_pointers hrem
    have h₂ := enqueue_pointers henq
    exact ⟨h₂.1.trans h₁.1, h₂.2.trans h₁.2⟩

/-- A switch is never made in an interrupt. -/
theorem kProcessSwitch_interrupted {state : ProcessState} {resumeAt : Context}
    (h : S.kProcessSwitch state resumeAt = some S') :
    S'.interruptedProcess = S.interruptedProcess := by
  unfold kProcessSwitch dispatch at h
  split at h
  · contradiction
  split at h
  · contradiction
  · rename_i p S₁ hdeq
    cases h
    obtain rfl := (Prod.mk.inj hdeq).2
    rfl

end Sched

/-! ## Links -/

/-- Every link of a queue, and of the PCBs, leads to a process with `P`. -/
structure ProcQueue.LeadsTo (P : Fin n → Prop) (mem : Fin n → Pcb n) (queue : ProcQueue n) :
    Prop where
  next : ∀ q p, (mem q).next = some p → P p
  head : ∀ p, queue.head = some p → P p
  tail : ∀ p, queue.tail = some p → P p

theorem next_setPcbNext {mem : Fin n → Pcb n} {a : Fin n} {v : Option (Fin n)}
    (h : ∀ q p, (mem q).next = some p → P p) (hv : ∀ p, v = some p → P p) :
    ∀ q p, (setPcbNext mem a v q).next = some p → P p := by
  intro q p hq
  by_cases hqa : q = a
  · subst hqa
    rw [setPcbNext, Function.update_self] at hq
    exact hv p hq
  · rw [setPcbNext, Function.update_of_ne hqa] at hq
    exact h q p hq

theorem info_setPcbNext (mem : Fin n → Pcb n) (a : Fin n) (v : Option (Fin n)) :
    (fun q => (setPcbNext mem a v q).toProcInfo) = fun q => (mem q).toProcInfo :=
  funext fun _ => toProcInfo_setPcbNext ..

section Queue

variable {mem mem' : Fin n → Pcb n} {queue queue' : ProcQueue n} {pcb : Fin n}
  {r : Option (Fin n)}

/-- What an operation on a queue keeps: the records, and where links lead. -/
structure QueueFrame (P : Fin n → Prop) (mem : Fin n → Pcb n) (queue : ProcQueue n)
    (r : Option (Fin n)) (mem' : Fin n → Pcb n) (queue' : ProcQueue n) : Prop where
  info : (fun q => (mem' q).toProcInfo) = fun q => (mem q).toProcInfo
  leadsTo : queue.LeadsTo P mem → queue'.LeadsTo P mem' ∧ ∀ p ∈ r, P p

theorem procQueueDequeue_keeps (h : procQueueDequeue mem queue = (r, mem', queue')) :
    QueueFrame P mem queue r mem' queue' := by
  unfold procQueueDequeue at h
  split at h
  · cases h
    exact ⟨rfl, fun hl => ⟨hl, nofun⟩⟩
  · rename_i p hhead
    cases h
    refine ⟨info_setPcbNext .., fun hl => ⟨⟨?_, fun x hx => hl.next p x hx, hl.tail⟩, ?_⟩⟩
    · exact next_setPcbNext hl.next nofun
    · intro x hx
      exact Option.some.inj hx ▸ hl.head p hhead

/-- Every new link leads to the new process. -/
theorem procQueueEnqueue_links (h : procQueueEnqueue mem queue pcb = some (mem', queue')) :
    (fun q => (mem' q).toProcInfo) = (fun q => (mem q).toProcInfo) ∧
      (∀ q x, (mem' q).next = some x → (mem q).next = some x ∨ x = pcb) ∧
      (∀ x, queue'.head = some x → queue.head = some x ∨ x = pcb) ∧
      ∀ x, queue'.tail = some x → queue.tail = some x ∨ x = pcb := by
  have hpcb : ∀ x, some pcb = some x → x = pcb := fun x hx => (Option.some.inj hx).symm
  have hset : ∀ {mem : Fin n → Pcb n} {a v}, (∀ x, v = some x → x = pcb) →
      ∀ q x, (setPcbNext mem a v q).next = some x → (mem q).next = some x ∨ x = pcb := by
    intro mem a v hv q x hx
    by_cases hqa : q = a
    · subst hqa
      rw [setPcbNext, Function.update_self] at hx
      exact .inr (hv x hx)
    · rw [setPcbNext, Function.update_of_ne hqa] at hx
      exact .inl hx
  unfold procQueueEnqueue at h
  split at h
  · cases h
    exact ⟨info_setPcbNext .., hset (by simp), fun x hx => .inr (hpcb x hx),
      fun x hx => .inr (hpcb x hx)⟩
  · rename_i head hhead
    split at h
    · contradiction
    · cases h
      refine ⟨(info_setPcbNext ..).trans (info_setPcbNext ..), fun q x hx => ?_,
        fun x hx => .inl (hhead.trans hx), fun x hx => .inr (hpcb x hx)⟩
      exact (hset (by simp) q x hx).elim (hset hpcb q x) .inr

theorem procQueueRemoveLoop_keeps {fuel : ℕ} {prev : Fin n} {curr : Option (Fin n)}
    (h : procQueueRemoveLoop mem pcb fuel prev curr = some (r, mem')) :
    (fun q => (mem' q).toProcInfo) = (fun q => (mem q).toProcInfo) ∧
      ((∀ q p, (mem q).next = some p → P p) → ∀ q p, (mem' q).next = some p → P p) := by
  induction fuel generalizing prev curr with
  | zero => cases h
  | succ fuel ih =>
    cases curr with
    | none => cases h; exact ⟨rfl, id⟩
    | some curr =>
      simp only [procQueueRemoveLoop] at h
      split at h
      · cases h
        refine ⟨(info_setPcbNext ..).trans (info_setPcbNext ..), fun hl => ?_⟩
        exact next_setPcbNext (next_setPcbNext hl (hl curr)) (by simp)
      · exact ih h

theorem procQueueRemove_keeps (h : procQueueRemove mem queue pcb = some (r, mem', queue')) :
    (fun q => (mem' q).toProcInfo) = (fun q => (mem q).toProcInfo) ∧
      (queue.LeadsTo P mem → queue'.LeadsTo P mem') := by
  unfold procQueueRemove at h
  split at h
  · cases h; exact ⟨rfl, id⟩
  split at h
  · have hk := procQueueDequeue_keeps (P := P) (Option.some.inj h)
    exact ⟨hk.info, fun hl => (hk.leadsTo hl).1⟩
  · obtain ⟨⟨r', mem''⟩, hloop, hr⟩ := Option.map_eq_some_iff.1 h
    cases hr
    have hk := procQueueRemoveLoop_keeps (P := P) hloop
    exact ⟨hk.1, fun hl => ⟨hk.2 hl.next, hl.head, hl.tail⟩⟩

end Queue

namespace Sched

variable {S S' : Sched n} {p q : Fin n} {pq : PqPtr}

/-- Every link leads to a process with `P`. -/
def LeadsTo (P : Fin n → Prop) (S : Sched n) : Prop :=
  ∀ pq i, ((S.pq pq).priorityQueues i).LeadsTo P S.pTable

theorem LeadsTo.setLevel {mem : Fin n → Pcb n} {i : ℕ} {queue : ProcQueue n} (h : S.LeadsTo P)
    (hqueue : queue.LeadsTo P mem) :
    LeadsTo P { S with
      pTable := mem
      pq := Function.update S.pq pq ((S.pq pq).setLevel i queue) } := by
  intro pq' j
  by_cases hpq : pq' = pq
  · subst hpq
    by_cases hj : j = i
    · subst hj
      simpa [ProcPq.setLevel] using hqueue
    · simpa [ProcPq.setLevel, hj] using
        (⟨hqueue.next, (h pq' j).head, (h pq' j).tail⟩ : ProcQueue.LeadsTo P mem _)
  · simpa [hpq] using
      (⟨hqueue.next, (h pq' j).head, (h pq' j).tail⟩ : ProcQueue.LeadsTo P mem _)

theorem enqueue_links (h : S.enqueue pq p = some S') :
    S'.view = S.view ∧ (∀ q x, (S'.pTable q).next = some x → (S.pTable q).next = some x ∨ x = p) ∧
      (∀ pq i x, ((S'.pq pq).priorityQueues i).head = some x →
        ((S.pq pq).priorityQueues i).head = some x ∨ x = p) ∧
      ∀ pq i x, ((S'.pq pq).priorityQueues i).tail = some x →
        ((S.pq pq).priorityQueues i).tail = some x ∨ x = p := by
  obtain ⟨⟨r, mem, ppq⟩, henq, rfl⟩ := Option.map_eq_some_iff.1 h
  unfold procPqEnqueue at henq
  split at henq
  · cases henq
    refine ⟨rfl, fun _ _ => .inl, fun pq' i x hx => .inl ?_, fun pq' i x hx => .inl ?_⟩
    · simpa using hx
    · simpa using hx
  · obtain ⟨⟨mem', queue'⟩, hq, hr⟩ := Option.map_eq_some_iff.1 henq
    cases hr
    obtain ⟨hinfo, hnext, hhead, htail⟩ := procQueueEnqueue_links hq
    refine ⟨hinfo, hnext, fun pq' i x hx => ?_, fun pq' i x hx => ?_⟩
    · by_cases hpq : pq' = pq
      · subst hpq
        by_cases hi : i = (S.pTable p).priority.toNat
        · subst hi
          exact hhead x (by simpa [ProcPq.setLevel] using hx)
        · exact .inl (by simpa [ProcPq.setLevel, hi] using hx)
      · exact .inl (by simpa [hpq] using hx)
    · by_cases hpq : pq' = pq
      · subst hpq
        by_cases hi : i = (S.pTable p).priority.toNat
        · subst hi
          exact htail x (by simpa [ProcPq.setLevel] using hx)
        · exact .inl (by simpa [ProcPq.setLevel, hi] using hx)
      · exact .inl (by simpa [hpq] using hx)

theorem enqueue_keeps (h : S.enqueue pq p = some S') :
    S'.view = S.view ∧ (P p → S.LeadsTo P → S'.LeadsTo P) := by
  obtain ⟨hview, hnext, hhead, htail⟩ := enqueue_links h
  refine ⟨hview, fun hp hl pq' i => ⟨fun q x hx => ?_, fun x hx => ?_, fun x hx => ?_⟩⟩
  · exact (hnext q x hx).elim ((hl pq' i).next q x) (· ▸ hp)
  · exact (hhead pq' i x hx).elim ((hl pq' i).head x) (· ▸ hp)
  · exact (htail pq' i x hx).elim ((hl pq' i).tail x) (· ▸ hp)

theorem dequeue_keeps {r : Option (Fin n)} (h : S.dequeue pq = (r, S')) :
    S'.view = S.view ∧ (S.LeadsTo P → S'.LeadsTo P ∧ ∀ p ∈ r, P p) := by
  obtain ⟨pcb, hpcb⟩ : ∃ x, procPqDequeue S.pTable (S.pq pq) = x := ⟨_, rfl⟩
  have hloop : ∀ k i, procPqDequeueLoop S.pTable (S.pq pq) k i = pcb →
      (fun q => (pcb.2.1 q).toProcInfo) = (fun q => (S.pTable q).toProcInfo) ∧
        (S.LeadsTo P → LeadsTo P { S with
          pTable := pcb.2.1, pq := Function.update S.pq pq pcb.2.2 } ∧ ∀ p ∈ pcb.1, P p) := by
    intro k
    induction k with
    | zero =>
      rintro i rfl
      refine ⟨rfl, fun hl => ⟨?_, nofun⟩⟩
      simp only [procPqDequeueLoop, Function.update_eq_self]
      exact hl
    | succ k ih =>
      intro i hi
      rw [procPqDequeueLoop] at hi
      split at hi
      · exact ih (i + 1) hi
      · subst hi
        have hk := procQueueDequeue_keeps (P := P)
          (show procQueueDequeue S.pTable ((S.pq pq).priorityQueues i) = (_, _, _) from rfl)
        refine ⟨hk.info, fun hl => ?_⟩
        obtain ⟨hlead, hp⟩ := hk.leadsTo (hl pq i)
        exact ⟨hl.setLevel hlead, hp⟩
  obtain ⟨hinfo, hlead⟩ := hloop _ 0 hpcb
  have hS : S.dequeue pq = (pcb.1, { S with
      pTable := pcb.2.1, pq := Function.update S.pq pq pcb.2.2 }) := by
    rw [dequeue, hpcb]
  rw [hS] at h
  cases h
  exact ⟨hinfo, hlead⟩

theorem remove_keeps (h : S.remove pq p = some S') :
    S'.view = S.view ∧ (S.LeadsTo P → S'.LeadsTo P) := by
  obtain ⟨⟨r, mem, ppq⟩, hrem, rfl⟩ := Option.map_eq_some_iff.1 h
  unfold procPqRemove at hrem
  split at hrem
  · obtain ⟨⟨r', mem', queue'⟩, hq, hr⟩ := Option.map_eq_some_iff.1 hrem
    cases hr
    obtain ⟨hinfo, hlead⟩ := procQueueRemove_keeps (P := P) hq
    exact ⟨hinfo, fun hl => hl.setLevel (hlead (hl pq _))⟩
  · cases hrem
    refine ⟨rfl, fun hl => ?_⟩
    rwa [Function.update_eq_self]

theorem setInfo_leadsTo {info : ProcInfo} (h : S.LeadsTo P) : (S.setInfo p info).LeadsTo P := by
  intro pq i
  refine ⟨fun q x hx => (h pq i).next q x ?_, (h pq i).head, (h pq i).tail⟩
  by_cases hq : q = p
  · subst hq
    simpa [setInfo] using hx
  · simpa [setInfo, hq] using hx

/-! ## Moves -/

/-- What never changes about the processes. -/
def ids (S : Sched n) : Fin n → ℤ × Bool := fun p => ((S.view p).pid, (S.view p).isIProcess)

theorem ids_congr (h : S'.view = S.view) : S'.ids = S.ids := by
  unfold ids
  rw [h]

theorem pid_ids (h : S'.ids = S.ids) (p : Fin n) : (S'.pTable p).pid = (S.pTable p).pid :=
  congrArg Prod.fst (congrFun h p)

theorem kGetProcess_ids (h : S'.ids = S.ids) (pid : ℤ) :
    S'.kGetProcess pid = S.kGetProcess pid := by
  simp only [kGetProcess, pid_ids h]

theorem kGetProcess_isSome {pid : ℤ} :
    (S.kGetProcess pid).isSome ↔ ∃ p, (S.pTable p).pid = pid := by
  rw [kGetProcess, List.find?_isSome]
  simp

/-- No link leads to an i-process. -/
def Isolated (S : Sched n) : Prop := S.LeadsTo fun p => (S.ids p).2 = false

/-- I-processes are always ready. -/
def AlwaysReady (S : Sched n) : Prop := ∀ p, (S.ids p).2 = true → (S.pTable p).state = .ready

/-- What every part of a move keeps. Only processes with `B` may start to wait for a message. -/
structure Frame (B : Fin n → Prop) (S S' : Sched n) : Prop where
  ids : S'.ids = S.ids
  isolated : S.Isolated → S'.Isolated
  alwaysReady : S.AlwaysReady → S'.AlwaysReady
  blocked : ∀ p, (S'.pTable p).state = .blockedOnReceive →
    (S.pTable p).state = .blockedOnReceive ∨ B p

variable {B : Fin n → Prop}

theorem Frame.trans {S'' : Sched n} (h : Frame B S S') (h' : Frame B S' S'') : Frame B S S'' where
  ids := h'.ids.trans h.ids
  isolated hS := h'.isolated (h.isolated hS)
  alwaysReady hS := h'.alwaysReady (h.alwaysReady hS)
  blocked p hp := (h'.blocked p hp).elim (h.blocked p) .inr

theorem Frame.mono {B' : Fin n → Prop} (h : Frame B S S') (hB : ∀ p, B p → B' p) :
    Frame B' S S' :=
  ⟨h.ids, h.isolated, h.alwaysReady, fun p hp => (h.blocked p hp).imp_right (hB p)⟩

theorem Frame.of_view (hview : S'.view = S.view) (hlead : S.Isolated → S'.Isolated) :
    Frame B S S' := by
  have hinfo : ∀ p, (S'.pTable p).toProcInfo = (S.pTable p).toProcInfo := congrFun hview
  refine ⟨ids_congr hview, hlead, fun hr p hp => ?_, fun p hp => .inl ?_⟩
  · rw [hinfo]
    rw [ids_congr hview] at hp
    exact hr p hp
  · rwa [hinfo] at hp

theorem Frame.same (hpTable : S'.pTable = S.pTable) (hpq : S'.pq = S.pq) : Frame B S S' := by
  have hview : S'.view = S.view := by
    unfold view
    rw [hpTable]
  refine .of_view hview fun hS => ?_
  unfold Isolated LeadsTo
  rw [ids_congr hview, hpTable, hpq]
  exact hS

theorem Frame.enqueue (hp : (S.ids p).2 = false) (h : S.enqueue pq p = some S') :
    Frame B S S' := by
  obtain ⟨hview, -⟩ := enqueue_keeps (P := fun _ => True) h
  refine .of_view hview fun hS => ?_
  unfold Isolated
  rw [ids_congr hview]
  exact (enqueue_keeps h).2 hp hS

theorem Frame.dequeue {r : Option (Fin n)} (h : S.dequeue pq = (r, S')) : Frame B S S' := by
  obtain ⟨hview, -⟩ := dequeue_keeps (P := fun _ => True) h
  refine .of_view hview fun hS => ?_
  unfold Isolated
  rw [ids_congr hview]
  exact ((dequeue_keeps h).2 hS).1

theorem Frame.remove (h : S.remove pq p = some S') : Frame B S S' := by
  obtain ⟨hview, -⟩ := remove_keeps (P := fun _ => True) h
  refine .of_view hview fun hS => ?_
  unfold Isolated
  rw [ids_congr hview]
  exact (remove_keeps h).2 hS

theorem Frame.setInfo {info : ProcInfo} (hp : (S.ids p).2 = false)
    (hpid : info.pid = (S.pTable p).pid) (hi : info.isIProcess = (S.pTable p).isIProcess)
    (hB : info.state = .blockedOnReceive → (S.pTable p).state = .blockedOnReceive ∨ B p) :
    Frame B S (S.setInfo p info) := by
  have hids : (S.setInfo p info).ids = S.ids := by
    funext q
    unfold Sched.ids
    rw [view_setInfo]
    by_cases hq : q = p
    · subst hq; simp [hpid, hi, Sched.view]
    · simp [hq]
  refine ⟨hids, fun hS => ?_, fun hr q hq => ?_, fun q hq => ?_⟩
  · unfold Isolated
    rw [hids]
    exact setInfo_leadsTo hS
  · rw [hids] at hq
    have hqp : q ≠ p := by rintro rfl; simp [hp] at hq
    rw [info_setInfo, Function.update_of_ne hqp]
    exact hr q hq
  · rw [info_setInfo] at hq
    by_cases hqp : q = p
    · subst hqp
      rw [Function.update_self] at hq
      exact hB hq
    · rw [Function.update_of_ne hqp] at hq
      exact .inl hq

theorem Isolated.dequeue {r : Option (Fin n)} (hS : S.Isolated) (h : S.dequeue pq = (r, S')) :
    ∀ p ∈ r, (S.ids p).2 = false :=
  ((dequeue_keeps h).2 hS).2

theorem Frame.setState {state : ProcessState} (hp : (S.ids p).2 = false)
    (hB : state = .blockedOnReceive → B p) : Frame B S (S.setState p state) :=
  .setInfo hp rfl rfl fun h => .inr (hB h)

theorem Frame.setContext {context : Context} (hp : (S.ids p).2 = false) :
    Frame B S (S.setContext p context) :=
  .setInfo hp rfl rfl .inl

theorem Frame.setPriority {priority : ℤ} (hp : (S.ids p).2 = false) :
    Frame B S (S.setPriority p priority) :=
  .setInfo hp rfl rfl .inl

theorem Frame.wake (hp : (S.ids p).2 = false)
    (h : ((S.setState p .ready).becameReady p).enqueue .readyPq p = some S') : Frame B S S' := by
  have hstate : Frame B S (S.setState p .ready) := .setState hp nofun
  have hlog : Frame B (S.setState p .ready) ((S.setState p .ready).becameReady p) := .same rfl rfl
  have hready := hstate.trans hlog
  exact hready.trans (.enqueue (by rw [hready.ids]; exact hp) h)

theorem Frame.switch {state : ProcessState} {resumeAt : Context} {cur : Fin n} (hS : S.Isolated)
    (hcur : S.currentProcess = some cur) (hp : (S.ids cur).2 = false)
    (hB : state = .blockedOnReceive → B cur) (h : S.kProcessSwitch state resumeAt = some S') :
    Frame B S S' ∧ ∀ q ∈ S'.currentProcess, (S.ids q).2 = false := by
  unfold kProcessSwitch dispatch at h
  rw [hcur] at h
  simp only at h
  split at h
  · contradiction
  · rename_i q S₁ hdeq
    cases h
    have hstate : Frame B S (S.setState cur state) := .setState hp hB
    have hS₁ := hstate.trans (.dequeue hdeq)
    have hq : (S.ids q).2 = false := by
      have := (hstate.isolated hS).dequeue hdeq q rfl
      rwa [hstate.ids] at this
    have hset : Frame B S { S₁ with currentProcess := some q } := hS₁.trans (.same rfl rfl)
    have hexec : Frame B S (Sched.setState { S₁ with currentProcess := some q } q .executing) :=
      hset.trans (.setState (by rw [hset.ids]; exact hq) nofun)
    refine ⟨hexec.trans (.setContext (by rw [hexec.ids]; exact hp)), fun x hx => ?_⟩
    obtain rfl : q = x := Option.some.inj hx
    exact hq

theorem Frame.changePriority {newPriority tid r : ℤ}
    (h : S.kChangePriority newPriority tid = some (r, S')) : Frame B S S' := by
  rcases kChangePriority_cases h with rfl | ⟨p, ⟨-, -, -, hi, -⟩, hmoved⟩
  · exact .same rfl rfl
  have hp : (S.ids p).2 = false := hi
  rcases hmoved with ⟨rfl, -⟩ | ⟨pq, S₁, -, hrem, henq⟩
  · exact .setPriority hp
  · have h₁ : Frame B S S₁ := .remove hrem
    have h₂ : Frame B S (S₁.setPriority p newPriority) :=
      h₁.trans (.setPriority (by rw [h₁.ids]; exact hp))
    exact h₂.trans (.enqueue (by rw [h₂.ids]; exact hp) henq)

/-- Where each process goes on. -/
def contexts (S : Sched n) : Fin n → Context := fun p => (S.view p).context

theorem contexts_congr (h : S'.view = S.view) : S'.contexts = S.contexts := by
  unfold contexts
  rw [h]

theorem contexts_setInfo {info : ProcInfo} (h : info.context = (S.pTable p).context) :
    (S.setInfo p info).contexts = S.contexts := by
  funext q
  unfold contexts
  rw [view_setInfo]
  by_cases hq : q = p
  · subst hq; simp [h, view]
  · simp [hq]

theorem wake_contexts
    (h : ((S.setState p .ready).becameReady p).enqueue .readyPq p = some S') :
    S'.contexts = S.contexts :=
  (contexts_congr (enqueue_keeps (P := fun _ => True) h).1).trans (contexts_setInfo rfl)

theorem wakeReceiver_contexts (h : S.wakeReceiver p = some S') : S'.contexts = S.contexts := by
  unfold wakeReceiver at h
  split at h
  · exact wake_contexts h
  · cases h; rfl

theorem wakeRequester_contexts (h : S.wakeRequester = some S') : S'.contexts = S.contexts := by
  unfold wakeRequester at h
  split at h
  · rename_i S₁ hdeq
    cases h
    exact contexts_congr (dequeue_keeps (P := fun _ => True) hdeq).1
  · rename_i p S₁ hdeq
    exact (wake_contexts h).trans (contexts_congr (dequeue_keeps (P := fun _ => True) hdeq).1)

theorem kChangePriority_contexts {newPriority tid r : ℤ}
    (h : S.kChangePriority newPriority tid = some (r, S')) : S'.contexts = S.contexts := by
  rcases kChangePriority_cases h with rfl | ⟨p, -, ⟨rfl, -⟩ | ⟨pq, S₁, -, hrem, henq⟩⟩
  · rfl
  · exact contexts_setInfo rfl
  · have h₁ := contexts_congr (remove_keeps (P := fun _ => True) hrem).1
    have h₂ : (S₁.setPriority p newPriority).contexts = S₁.contexts := contexts_setInfo rfl
    have h₃ := contexts_congr (enqueue_keeps (P := fun _ => True) henq).1
    exact h₃.trans (h₂.trans h₁)

/-- I-processes are out of the scheduler's reach: no link leads to one, they are always ready, and
none runs but in an interrupt. -/
structure Regular (S : Sched n) : Prop where
  isolated : S.Isolated
  alwaysReady : S.AlwaysReady
  running : ∀ p ∈ S.running, (S.ids p).2 = false

theorem Regular.of_frame (h : S.Regular) (hf : Frame B S S')
    (hrun : ∀ p ∈ S'.running, (S.ids p).2 = false) : S'.Regular := by
  refine ⟨hf.isolated h.isolated, hf.alwaysReady h.alwaysReady, fun p hp => ?_⟩
  rw [hf.ids]
  exact hrun p hp

theorem running_congr (h : SamePointers S S') : S'.running = S.running := by
  rw [Sched.running, Sched.running, h.1, h.2]

theorem Regular.of_blocked (h : S.Regular) (hp : (S.pTable p).state = .blockedOnReceive) :
    (S.ids p).2 = false := by
  by_contra hi
  rw [h.alwaysReady p (by simpa using hi)] at hp
  contradiction

/-- A move keeps every pid, and makes no process wait but the one it blocks. -/
theorem Regular.move {m : Move n} (h : S.Regular) (hm : S.move m = some S') :
    S'.Regular ∧ Frame (fun p => m = .blockReceive p) S S' := by
  -- A switch of the current process.
  have hswitch : ∀ {S₁ : Sched n} {state resumeAt} {cur : Fin n},
      Frame (fun p => m = .blockReceive p) S S₁ → SamePointers S S₁ →
      S.currentProcess = some cur ∧ S.interruptedProcess = none →
      S₁.kProcessSwitch state resumeAt = some S' →
      (state = .blockedOnReceive → m = .blockReceive cur) →
      S'.Regular ∧ Frame (fun p => m = .blockReceive p) S S' := by
    intro S₁ state resumeAt cur h₁ hsame hcur hsw hB
    have hp : (S.ids cur).2 = false := h.running cur (by rw [Sched.running, hcur.1, hcur.2]; rfl)
    obtain ⟨hf, hnew⟩ := Frame.switch (B := fun p => m = .blockReceive p)
      (h₁.isolated h.isolated) (hsame.1.trans hcur.1) (by rw [h₁.ids]; exact hp) hB hsw
    refine ⟨h.of_frame (h₁.trans hf) fun q hq => ?_, h₁.trans hf⟩
    have hint := (kProcessSwitch_interrupted hsw).trans (hsame.2.trans hcur.2)
    rw [Sched.running, hint, Option.none_or] at hq
    rw [← h₁.ids]
    exact hnew q hq
  have hsamePointers : SamePointers S S' → Frame (fun p => m = .blockReceive p) S S' →
      S'.Regular ∧ Frame (fun p => m = .blockReceive p) S S' := fun hsame hf =>
    ⟨h.of_frame hf (by rw [running_congr hsame]; exact h.running), hf⟩
  cases m with
  | wakeReceiver p =>
    refine hsamePointers (wakeReceiver_pointers hm) ?_
    simp only [Sched.move, wakeReceiver] at hm
    split at hm
    · rename_i hblocked
      exact .wake (h.of_blocked hblocked) hm
    · cases hm; exact .same rfl rfl
  | wakeRequester =>
    refine hsamePointers (wakeRequester_pointers hm) ?_
    simp only [Sched.move, wakeRequester] at hm
    split at hm
    · rename_i S₁ hdeq
      cases hm
      exact .dequeue hdeq
    · rename_i p S₁ hdeq
      have h₁ : Frame (fun q => Move.wakeRequester = .blockReceive q) S S₁ := .dequeue hdeq
      exact h₁.trans (.wake (by rw [h₁.ids]; exact h.isolated.dequeue hdeq p rfl) hm)
  | blockReceive p =>
    obtain ⟨hcur, hm⟩ := Option.ite_none_right_eq_some.1 hm
    exact hswitch (.same rfl rfl) ⟨rfl, rfl⟩ hcur hm fun _ => rfl
  | blockRequest p =>
    obtain ⟨hcur, hm⟩ := Option.ite_none_right_eq_some.1 hm
    obtain ⟨S₁, henq, hm⟩ := Option.bind_eq_some_iff.1 hm
    have hp : (S.ids p).2 = false := h.running p (by rw [Sched.running, hcur.1, hcur.2]; rfl)
    exact hswitch (.enqueue hp henq) (enqueue_pointers henq) hcur hm (by simp)
  | yield p =>
    obtain ⟨hcur, hm⟩ := Option.ite_none_right_eq_some.1 hm
    obtain ⟨S₁, henq, hm⟩ := Option.bind_eq_some_iff.1 hm
    have hp : (S.ids p).2 = false := h.running p (by rw [Sched.running, hcur.1, hcur.2]; rfl)
    have hlog : Frame (fun q => Move.yield p = .blockReceive q) S (S.becameReady p) :=
      .same rfl rfl
    have hsame := enqueue_pointers henq
    exact hswitch (hlog.trans (.enqueue hp henq)) ⟨hsame.1, hsame.2⟩ hcur hm (by simp)
  | changePriority newPriority tid =>
    obtain ⟨⟨r, S₁⟩, hchange, hS₁⟩ := Option.map_eq_some_iff.1 hm
    cases hS₁
    exact hsamePointers (kChangePriority_pointers hchange) (.changePriority hchange)
  | toUser p =>
    obtain ⟨hcur, hm⟩ := Option.ite_none_right_eq_some.1 hm
    cases hm
    have hp : (S.ids p).2 = false := h.running p (by rw [Sched.running, hcur.1, hcur.2]; rfl)
    exact hsamePointers ⟨rfl, rfl⟩ (.setContext hp)
  | enterIsr pid =>
    obtain ⟨⟨hint, hcur⟩, hm⟩ := Option.ite_none_right_eq_some.1 hm
    cases hm
    refine ⟨h.of_frame (B := fun _ => False) (.same rfl rfl) fun p hp => ?_, .same rfl rfl⟩
    refine h.running p ?_
    obtain ⟨cur, hcur⟩ := Option.isSome_iff_exists.1 hcur
    simpa [Sched.running, enterIsr, hint, hcur] using hp
  | exitIsr =>
    obtain ⟨hint, hm⟩ := Option.ite_none_right_eq_some.1 hm
    cases hm
    refine ⟨h.of_frame (B := fun _ => False) (.same rfl rfl) fun p hp => ?_, .same rfl rfl⟩
    refine h.running p ?_
    obtain ⟨q, hq⟩ := Option.isSome_iff_exists.1 hint
    simpa [Sched.running, exitIsr, hq] using hp

/-! ## Boot -/

/-- `init_processes` after the processes in `l`: no link of these leads to an i-process. -/
structure Linking (table : Fin n → PcbInit) (l : List (Fin n)) (S : Sched n) : Prop where
  next : ∀ q ∈ l, ∀ x, (S.pTable q).next = some x → (table x).isIProcess = false
  head : ∀ pq i x, ((S.pq pq).priorityQueues i).head = some x → (table x).isIProcess = false
  tail : ∀ pq i x, ((S.pq pq).priorityQueues i).tail = some x → (table x).isIProcess = false

variable {table : Fin n → PcbInit} {l : List (Fin n)}

theorem Linking.step (h : Linking table l S) (hinit : initProcess table S p = some S') :
    Linking table (l ++ [p]) S' := by
  unfold initProcess at hinit
  simp only at hinit
  set S₀ : Sched n := { S with pTable := Function.update S.pTable p _ } with hS₀
  have h₀ : Linking table (l ++ [p]) S₀ := by
    refine ⟨fun q hq x hx => ?_, h.head, h.tail⟩
    by_cases hqp : q = p
    · subst hqp
      simp [hS₀] at hx
    · have hql : q ∈ l := (List.mem_append.1 hq).resolve_right (by simpa using hqp)
      exact h.next q hql x (by simpa [hS₀, hqp] using hx)
  split at hinit
  · exact Option.some.inj hinit ▸ h₀
  · rename_i hi
    have hp : (table p).isIProcess = false := by simpa using hi
    obtain ⟨-, hnext, hhead, htail⟩ := enqueue_links hinit
    refine ⟨fun q hq x hx => ?_, fun pq i x hx => ?_, fun pq i x hx => ?_⟩
    · exact (hnext q x hx).elim (h₀.next q hq x) (· ▸ hp)
    · exact (hhead pq i x hx).elim (h₀.head pq i x) (· ▸ hp)
    · exact (htail pq i x hx).elim (h₀.tail pq i x) (· ▸ hp)

theorem Linking.run {l' : List (Fin n)} (h : Linking table l S)
    (hrun : l'.foldlM (initProcess table) S = some S') : Linking table (l ++ l') S' := by
  induction l' generalizing l S with
  | nil => cases hrun; rwa [List.append_nil]
  | cons p l' ih =>
    obtain ⟨S₁, hinit, hrun⟩ := Option.bind_eq_some_iff.1 hrun
    rw [List.append_cons]
    exact ih (h.step hinit) hrun

theorem regular_boot {memory : Fin n → Pcb n} {S₀ : Sched n}
    (hinit : initProcesses memory table = some S₀) (h : S₀.firstDispatch = some S) :
    S.Regular ∧ S.ids = fun p => ((table p).pid, (table p).isIProcess) := by
  have hboot := initProcesses_refines hinit
  have hids : S₀.ids = fun p => ((table p).pid, (table p).isIProcess) := by
    unfold Sched.ids
    rw [hboot.info]
    rfl
  have hlink : Linking table (List.finRange n) S₀ := by
    refine Linking.run (l := []) ⟨nofun, fun pq i x hx => ?_, fun pq i x hx => ?_⟩ hinit
    · cases pq <;> cases hx
    · cases pq <;> cases hx
  have hisolated : S₀.Isolated := by
    unfold Isolated
    rw [hids]
    exact fun pq i =>
      ⟨fun q => hlink.next q (List.mem_finRange q), hlink.head pq i, hlink.tail pq i⟩
  have hready : S₀.AlwaysReady := fun p _ => by
    rw [show (S₀.pTable p).state = (S₀.view p).state from rfl, hboot.info]
    rfl
  unfold firstDispatch at h
  split at h
  · contradiction
  · rename_i p S₁ hdeq
    cases h
    have hp := hisolated.dequeue hdeq p rfl
    have h₁ : Frame (fun _ => False) S₀ { S₁ with currentProcess := some p } :=
      (Frame.dequeue hdeq).trans (.same rfl rfl)
    have hf : Frame (fun _ => False) S₀
        (Sched.setState { S₁ with currentProcess := some p } p .executing) :=
      h₁.trans (.setState (by rw [h₁.ids]; exact hp) nofun)
    refine ⟨⟨hf.isolated hisolated, hf.alwaysReady hready, fun q hq => ?_⟩, hf.ids.trans hids⟩
    have hint : S₁.interruptedProcess = none := by
      obtain rfl := (Prod.mk.inj hdeq).2
      exact hboot.interrupted
    rw [hf.ids]
    rw [Sched.running] at hq
    simp only [setState, setInfo, hint, Option.none_or, Option.mem_some_iff] at hq
    exact hq ▸ hp

end Sched

end Rtx.Coldfire
