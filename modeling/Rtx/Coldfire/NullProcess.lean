import Rtx.Coldfire.SchedCases
import Rtx.Coldfire.Location
import Rtx.Coldfire.Ownership

/-!
# The null process

A stale tail can link processes into levels where they do not belong, but the null process stays
out of all that: no link leads to it, it is linked to nothing, and only the last ready level ever
has it at an end (`Apart`). So it is the running process or alone in that level (`Spare`), and
every dispatch finds a process (`always_dispatchable`).
-/

namespace Rtx.Coldfire

open Transition Linked

variable {n : ℕ} {table : Fin n → PcbInit} {z : Fin n}

/-- `z` is the null process of the table: it is alone with its priority. -/
structure NullIs (table : Fin n → PcbInit) (z : Fin n) : Prop where
  pid : (table z).pid = nullPid
  priority : (table z).priority = nullPriority
  isIProcess : (table z).isIProcess = false
  others : ∀ p, p ≠ z → (table p).priority ≠ nullPriority

namespace Sched

/-- The ready level of the null process. -/
def lastLevel (S : Sched n) : ProcQueue n := S.level .readyPq numPriorities

/-! ## Links -/

/-- No link of the processes with `known` leads to `z`, which is linked to nothing, and only the
last ready level has `z` at an end, and nothing else. -/
structure Apart (z : Fin n) (known : Fin n → Prop) (S : Sched n) : Prop where
  levels : ∀ pq, (S.pq pq).numPriorities = pq.levels
  next : ∀ q, known q → (S.pTable q).next ≠ some z
  last : known z → (S.pTable z).next = none
  head : ∀ pq i, (S.level pq i).head = some z → pq = .readyPq ∧ i = numPriorities
  tail : ∀ pq i, (S.level pq i).tail = some z → pq = .readyPq ∧ i = numPriorities
  sole : ∀ p, S.lastLevel.head = some p → p = z

variable {S S' : Sched n} {pq : PqPtr} {p : Fin n} {r : Option (Fin n)} {known : Fin n → Prop}

theorem Apart.congr (h : Apart z known S) (hpq : S'.pq = S.pq)
    (hnext : ∀ q, known q → (S'.pTable q).next = (S.pTable q).next) : Apart z known S' := by
  have hlevel : ∀ pq i, S'.level pq i = S.level pq i := fun pq i => by rw [level, hpq]; rfl
  refine ⟨fun pq => hpq ▸ h.levels pq, fun q hq => hnext q hq ▸ h.next q hq,
    fun hz => (hnext z hz).trans (h.last hz), fun pq i => ?_, fun pq i => ?_, fun x => ?_⟩
  · rw [hlevel]
    exact h.head pq i
  · rw [hlevel]
    exact h.tail pq i
  · rw [lastLevel, hlevel]
    exact h.sole x

theorem Apart.setInfo (h : Apart z known S) (info : ProcInfo) : Apart z known (S.setInfo p info) :=
  h.congr rfl fun q _ => congrFun (pcbNext_setInfo S p info) q

theorem Apart.setLevel {mem : Fin n → Pcb n} {queue : ProcQueue n} {i : ℕ} (h : Apart z known S)
    (hi : ¬ (pq = .readyPq ∧ i = numPriorities))
    (hnext : ∀ q, known q → (mem q).next ≠ some z) (hlast : known z → (mem z).next = none)
    (hhead : queue.head ≠ some z) (htail : queue.tail ≠ some z) :
    Apart z known (S.setLevel pq i mem queue) ∧
      (S.setLevel pq i mem queue).lastLevel = S.lastLevel := by
  have hsame : (S.setLevel pq i mem queue).lastLevel = S.lastLevel := by
    refine level_setLevel_of_ne ?_
    rintro ⟨rfl, rfl⟩
    exact hi ⟨rfl, rfl⟩
  refine ⟨⟨fun pq' => ?_, hnext, hlast, fun pq' j hz => ?_, fun pq' j hz => ?_, ?_⟩, hsame⟩
  · rw [numPriorities_setLevel]
    exact h.levels pq'
  · by_cases hpq : pq' = pq ∧ j = i
    · obtain ⟨rfl, rfl⟩ := hpq
      rw [level_setLevel_self] at hz
      exact absurd hz hhead
    · rw [level_setLevel_of_ne hpq] at hz
      exact h.head pq' j hz
  · by_cases hpq : pq' = pq ∧ j = i
    · obtain ⟨rfl, rfl⟩ := hpq
      rw [level_setLevel_self] at hz
      exact absurd hz htail
    · rw [level_setLevel_of_ne hpq] at hz
      exact h.tail pq' j hz
  · rw [hsame]
    exact h.sole

/-- A link of a process that is not `z` is overwritten, but does not lead to `z`. -/
theorem next_apart {mem : Fin n → Pcb n} {a : Fin n} {v : Option (Fin n)} (ha : a ≠ z)
    (hv : v ≠ some z) (hnext : ∀ q, known q → (mem q).next ≠ some z)
    (hlast : known z → (mem z).next = none) :
    (∀ q, known q → (setPcbNext mem a v q).next ≠ some z) ∧
      (known z → (setPcbNext mem a v z).next = none) := by
  constructor
  · intro q hq
    by_cases hqa : q = a
    · subst hqa
      simpa [setPcbNext] using hv
    · simpa [setPcbNext, hqa] using hnext q hq
  · intro hz
    simpa [setPcbNext, Ne.symm ha] using hlast hz

theorem Apart.enqueue (h : Apart z known S) (hp : p ≠ z)
    (hprio : (S.pTable p).priority ≠ nullPriority) (henq : S.enqueue pq p = some S') :
    Apart z known S' ∧ S'.lastLevel = S.lastLevel := by
  rcases enqueue_cases henq with ⟨rfl, -⟩ | ⟨i, mem, queue, hi, -, hqueue, rfl⟩
  · exact ⟨h, rfl⟩
  have hlevel : ¬ (pq = .readyPq ∧ i = numPriorities) := by
    rintro ⟨-, rfl⟩
    exact hprio hi
  have hpz : some p ≠ some z := by simpa using hp
  unfold procQueueEnqueue at hqueue
  split at hqueue
  · cases hqueue
    obtain ⟨hnext, hlast⟩ := next_apart (v := none) hp nofun h.next h.last
    exact h.setLevel hlevel hnext hlast hpz hpz
  · rename_i head hhead
    split at hqueue
    · contradiction
    · rename_i tail htail
      cases hqueue
      have hne : ∀ {x}, (S.level pq i).head = some x ∨ (S.level pq i).tail = some x → x ≠ z := by
        rintro x hx rfl
        exact hlevel (hx.elim (h.head pq i) (h.tail pq i))
      obtain ⟨hnext, hlast⟩ := next_apart (hne (.inr htail)) hpz h.next h.last
      obtain ⟨hnext, hlast⟩ := next_apart (v := none) hp nofun hnext hlast
      exact h.setLevel hlevel hnext hlast (by simpa using hne (.inl hhead)) hpz

theorem Apart.enqueue_null (h : Apart z known S) (hprio : (S.pTable z).priority = nullPriority)
    (hempty : S.lastLevel.head = none) (henq : S.enqueue .readyPq z = some S') :
    Apart z known S' ∧ S'.lastLevel.head = some z := by
  rcases enqueue_cases henq with ⟨-, hrange⟩ | ⟨i, mem, queue, hi, -, hqueue, rfl⟩
  · rw [hprio, h.levels] at hrange
    rcases hrange with hrange | hrange <;> contradiction
  obtain rfl : i = numPriorities := by
    rw [hprio] at hi
    exact (Int.natCast_inj.1 hi).symm
  unfold procQueueEnqueue at hqueue
  rw [show (S.level .readyPq numPriorities).head = none from hempty] at hqueue
  cases hqueue
  have hself : (S.setLevel .readyPq numPriorities (setPcbNext S.pTable z none)
      ⟨some z, some z⟩).lastLevel = ⟨some z, some z⟩ := level_setLevel_self
  refine ⟨⟨fun pq' => ?_, fun q hq => ?_, fun _ => ?_, fun pq' j hz => ?_, fun pq' j hz => ?_,
    fun x hx => ?_⟩, by rw [hself]⟩
  · rw [numPriorities_setLevel]
    exact h.levels pq'
  · by_cases hqz : q = z
    · subst hqz
      simp [setPcbNext]
    · simpa [setPcbNext, hqz] using h.next q hq
  · simp [setPcbNext]
  · by_cases hpq : pq' = .readyPq ∧ j = numPriorities
    · exact hpq
    · rw [level_setLevel_of_ne hpq] at hz
      exact h.head pq' j hz
  · by_cases hpq : pq' = .readyPq ∧ j = numPriorities
    · exact hpq
    · rw [level_setLevel_of_ne hpq] at hz
      exact h.tail pq' j hz
  · rw [hself] at hx
    exact (Option.some.inj hx).symm

/-- What a dequeue takes: `z` from its level, or another process from another one. -/
inductive Takes (z : Fin n) (S S' : Sched n) : Option (Fin n) → Prop
  | nothing (hS : S' = S) (hempty : S.lastLevel.head = none) : Takes z S S' none
  | null (hfound : S.lastLevel.head = some z) (hempty : S'.lastLevel.head = none) :
      Takes z S S' (some z)
  | other {p : Fin n} (hp : p ≠ z) (hlast : S'.lastLevel = S.lastLevel) : Takes z S S' (some p)

theorem Apart.dequeue (h : Apart z (fun _ => True) S) (hdeq : S.dequeue pq = (r, S')) :
    Apart z (fun _ => True) S' ∧ (pq = .readyPq → Takes z S S' r) ∧
      (pq ≠ .readyPq → S'.lastLevel = S.lastLevel ∧ r ≠ some z) := by
  rcases dequeue_cases hdeq with ⟨rfl, rfl, hempty⟩ | ⟨i, p, hi, hhead, rfl, rfl⟩
  · refine ⟨h, fun hpq => ?_, fun _ => ⟨rfl, nofun⟩⟩
    subst hpq
    refine .nothing rfl (hempty numPriorities ?_)
    rw [h.levels]
    decide
  by_cases hp : p = z
  · subst hp
    obtain ⟨rfl, rfl⟩ := h.head pq i hhead
    have hempty : (S.setLevel .readyPq numPriorities (setPcbNext S.pTable p none)
        { S.level .readyPq numPriorities with head := (S.pTable p).next }).lastLevel.head =
        none := by
      rw [lastLevel, level_setLevel_self]
      exact h.last trivial
    refine ⟨⟨fun pq' => ?_, fun q _ => ?_, fun _ => ?_, fun pq' j hz => ?_, fun pq' j hz => ?_,
      fun x hx => ?_⟩, fun _ => .null hhead hempty, fun hpq => absurd rfl hpq⟩
    · rw [numPriorities_setLevel]
      exact h.levels pq'
    · by_cases hqp : q = p
      · subst hqp
        simp [setPcbNext]
      · simpa [setPcbNext, hqp] using h.next q trivial
    · simp [setPcbNext]
    · by_cases hpq : pq' = .readyPq ∧ j = numPriorities
      · exact hpq
      · rw [level_setLevel_of_ne hpq] at hz
        exact h.head pq' j hz
    · by_cases hpq : pq' = .readyPq ∧ j = numPriorities
      · exact hpq
      · rw [level_setLevel_of_ne hpq] at hz
        exact h.tail pq' j hz
    · rw [hempty] at hx
      contradiction
  · have hlevel : ¬ (pq = .readyPq ∧ i = numPriorities) := by
      rintro ⟨rfl, rfl⟩
      exact hp (h.sole p hhead)
    obtain ⟨hnext, hlast⟩ := next_apart (v := none) hp nofun h.next h.last
    have hset : Apart z (fun _ => True) (S.setLevel pq i (setPcbNext S.pTable p none)
        { S.level pq i with head := (S.pTable p).next }) ∧ _ :=
      h.setLevel hlevel hnext hlast (h.next p trivial) fun hz => hlevel (h.tail pq i hz)
    obtain ⟨happart, hsame⟩ := hset
    exact ⟨happart, fun _ => .other hp hsame, fun _ => ⟨hsame, by simpa using hp⟩⟩

theorem removeLoop_apart {mem mem' : Fin n → Pcb n} {fuel : ℕ} {prev : Fin n}
    {curr : Option (Fin n)} (hp : p ≠ z) (hprev : prev ≠ z) (hnext : ∀ q, (mem q).next ≠ some z)
    (hlast : (mem z).next = none)
    (h : procQueueRemoveLoop mem p fuel prev curr = some (r, mem')) :
    (∀ q, (mem' q).next ≠ some z) ∧ (mem' z).next = none := by
  induction fuel generalizing prev curr with
  | zero => contradiction
  | succ fuel ih =>
    cases curr with
    | none =>
      cases h
      exact ⟨hnext, hlast⟩
    | some curr =>
      simp only [procQueueRemoveLoop] at h
      split at h
      · rename_i hcurr
        cases h
        subst hcurr
        have hall : ∀ q, True → (mem q).next ≠ some z := fun q _ => hnext q
        obtain ⟨hnext₁, hlast₁⟩ := next_apart hprev (hnext curr) hall fun _ => hlast
        obtain ⟨hnext₂, hlast₂⟩ := next_apart (v := none) hp (by simp) hnext₁ hlast₁
        exact ⟨fun q => hnext₂ q trivial, hlast₂ trivial⟩
      · by_cases hcurr : curr = z
        · -- The search would end at `z`, which is linked to nothing.
          subst hcurr
          rw [hlast] at h
          cases fuel with
          | zero => contradiction
          | succ fuel =>
            cases h
            exact ⟨hnext, hlast⟩
        · exact ih hcurr h

theorem Apart.remove (h : Apart z (fun _ => True) S) (hp : p ≠ z)
    (hprio : (S.pTable p).priority ≠ nullPriority) (hrem : S.remove pq p = some S') :
    Apart z (fun _ => True) S' ∧ S'.lastLevel = S.lastLevel := by
  rcases remove_cases hrem with rfl | ⟨i, head, hi, hhead, hcases⟩
  · exact ⟨h, rfl⟩
  have hlevel : ¬ (pq = .readyPq ∧ i = numPriorities) := by
    rintro ⟨-, rfl⟩
    exact hprio hi
  have htail : (S.level pq i).tail ≠ some z := fun hz => hlevel (h.tail pq i hz)
  have hne : head ≠ z := by
    rintro rfl
    exact hlevel (h.head pq i hhead)
  rcases hcases with ⟨rfl, rfl⟩ | ⟨r, mem, -, hloop, rfl⟩
  · obtain ⟨hnext, hlast⟩ := next_apart (v := none) hp nofun h.next h.last
    exact h.setLevel hlevel hnext hlast (h.next head trivial) htail
  · obtain ⟨hnext, hlast⟩ := removeLoop_apart hp hne (fun q => h.next q trivial) (h.last trivial)
      hloop
    exact h.setLevel hlevel (fun q _ => hnext q) (fun _ => hlast) (by simpa [hhead] using hne) htail

/-! ## Records -/

/-- The record of the null process, which waits for nothing. -/
structure Resting (info : ProcInfo) : Prop where
  pid : info.pid = nullPid
  priority : info.priority = nullPriority
  state : info.state ≠ .blockedOnReceive
  context : info.context = .user ∨ info.context = .releaseProcessor

/-- `z` has the record of the null process, and nobody else has its priority. -/
structure Records (z : Fin n) (view : Fin n → ProcInfo) : Prop where
  null : Resting (view z)
  others : ∀ p, p ≠ z → (view p).priority ≠ nullPriority

theorem Records.setInfo {info : ProcInfo} (h : Records z S.view) (hz : p = z → Resting info)
    (hp : p ≠ z → info.priority ≠ nullPriority) : Records z (S.setInfo p info).view := by
  rw [view_setInfo]
  constructor
  · by_cases hpz : p = z
    · subst hpz
      simpa using hz rfl
    · rw [Function.update_of_ne (Ne.symm hpz)]
      exact h.null
  · intro q hq
    by_cases hqp : q = p
    · subst hqp
      simpa using hp hq
    · rw [Function.update_of_ne hqp]
      exact h.others q hq

theorem Records.setState {state : ProcessState} (h : Records z S.view)
    (hz : p = z → state ≠ .blockedOnReceive) : Records z (S.setState p state).view := by
  refine h.setInfo (fun hp => ?_) fun hp => h.others p hp
  subst hp
  exact ⟨h.null.pid, h.null.priority, hz rfl, h.null.context⟩

theorem Records.setContext {context : Context} (h : Records z S.view)
    (hz : p = z → context = .user ∨ context = .releaseProcessor) :
    Records z (S.setContext p context).view := by
  refine h.setInfo (fun hp => ?_) fun hp => h.others p hp
  subst hp
  exact ⟨h.null.pid, h.null.priority, h.null.state, hz rfl⟩

/-! ## Moves -/

/-- The null process is the running one, or alone in its level. -/
structure Spare (z : Fin n) (S : Sched n) : Prop where
  apart : Apart z (fun _ => True) S
  records : Records z S.view
  place : S.running = some z ∧ S.lastLevel.head = none ∨
    S.running ≠ some z ∧ S.lastLevel.head = some z

/-- The null process stands by for a dispatch. -/
structure StandsBy (z : Fin n) (S : Sched n) : Prop where
  apart : Apart z (fun _ => True) S
  records : Records z S.view
  ready : S.lastLevel.head = some z

theorem StandsBy.dequeue (h : StandsBy z S) (hdeq : S.dequeue .readyPq = (r, S')) :
    ∃ p, r = some p ∧ Apart z (fun _ => True) S' ∧ Records z S'.view ∧
      (p = z ∧ S'.lastLevel.head = none ∨ p ≠ z ∧ S'.lastLevel.head = some z) := by
  obtain ⟨happart, htakes, -⟩ := h.apart.dequeue hdeq
  have hview : S'.view = S.view := (dequeue_keeps (P := fun _ => True) hdeq).1
  have hrecords : Records z S'.view := hview ▸ h.records
  cases htakes rfl with
  | nothing hS hempty =>
    rw [h.ready] at hempty
    contradiction
  | null hfound hempty => exact ⟨z, rfl, happart, hrecords, .inl ⟨rfl, hempty⟩⟩
  | other hp hlast => exact ⟨_, rfl, happart, hrecords, .inr ⟨hp, hlast ▸ h.ready⟩⟩

theorem StandsBy.setState {state : ProcessState} (h : StandsBy z S)
    (hz : p = z → state ≠ .blockedOnReceive) : StandsBy z (S.setState p state) :=
  ⟨h.apart.setInfo _, h.records.setState hz, h.ready⟩

theorem StandsBy.switch {state : ProcessState} {resumeAt : Context} {cur : Fin n}
    (h : StandsBy z S) (hcur : S.currentProcess = some cur) (hint : S.interruptedProcess = none)
    (hz : cur = z → state ≠ .blockedOnReceive ∧
      (resumeAt = .user ∨ resumeAt = .releaseProcessor))
    (hsw : S.kProcessSwitch state resumeAt = some S') : Spare z S' := by
  unfold kProcessSwitch dispatch at hsw
  rw [hcur] at hsw
  simp only at hsw
  split at hsw
  · contradiction
  · rename_i p S₁ hdeq
    cases hsw
    have hparked : StandsBy z (S.setState cur state) := h.setState fun hc => (hz hc).1
    obtain ⟨q, hq, happart, hrecords, hplace⟩ := hparked.dequeue hdeq
    obtain rfl := Option.some.inj hq
    have hint₁ : S₁.interruptedProcess = none := by
      obtain rfl := (Prod.mk.inj hdeq).2
      exact hint
    have hrun : ∀ {S₂ : Sched n}, S₂.interruptedProcess = none → S₂.currentProcess = some p →
        S₂.running = some p := by
      intro S₂ hint₂ hcur₂
      rw [running, hint₂, hcur₂]
      rfl
    refine ⟨?_, ?_, ?_⟩
    · refine Apart.setInfo (Apart.setInfo ?_ _) _
      exact happart.congr rfl fun _ _ => rfl
    · refine Records.setContext (Records.setState ?_ fun _ => (by simp)) fun hc => (hz hc).2
      exact hrecords
    · rcases hplace with ⟨rfl, hempty⟩ | ⟨hp, hready⟩
      · exact .inl ⟨hrun hint₁ rfl, hempty⟩
      · refine .inr ⟨?_, hready⟩
        rw [hrun (by exact hint₁) (by exact rfl)]
        simpa using hp

theorem Spare.wake (h : Spare z S) (hp : p ≠ z)
    (hwake : ((S.setState p .ready).becameReady p).enqueue .readyPq p = some S') : Spare z S' := by
  have happart : Apart z (fun _ => True) ((S.setState p .ready).becameReady p) :=
    Apart.congr (h.apart.setInfo _) rfl fun _ _ => rfl
  have hrecords : Records z ((S.setState p .ready).becameReady p).view :=
    h.records.setState fun _ => nofun
  obtain ⟨happart', hlast⟩ := happart.enqueue hp (hrecords.others p hp) hwake
  refine ⟨happart', ?_, ?_⟩
  · rw [(enqueue_keeps (P := fun _ => True) hwake).1]
    exact hrecords
  · rw [running_congr (enqueue_pointers hwake), hlast]
    exact h.place

theorem Spare.changePriority {newPriority tid code : ℤ} (h : Spare z S)
    (hchange : S.kChangePriority newPriority tid = some (code, S')) : Spare z S' := by
  have hpointers := running_congr (kChangePriority_pointers hchange)
  rcases kChangePriority_cases hchange with rfl | ⟨p, ⟨-, hlegal, -, -, hpid, -⟩, hmoved⟩
  · exact h
  have hnew : newPriority ≠ nullPriority := by
    rintro rfl
    exact absurd hlegal (by decide)
  have hp : p ≠ z := by
    rintro rfl
    rw [show (S.pTable p).pid = nullPid from h.records.null.pid] at hpid
    exact absurd hpid (by decide)
  rcases hmoved with ⟨rfl, -⟩ | ⟨pq, S₁, -, hrem, henq⟩
  · exact ⟨h.apart.setInfo _, h.records.setInfo (fun hz => absurd hz hp) fun _ => hnew, h.place⟩
  · obtain ⟨happart₁, hlast₁⟩ := h.apart.remove hp (h.records.others p hp) hrem
    have hrecords₁ : Records z S₁.view := by
      rw [(remove_keeps (P := fun _ => True) hrem).1]
      exact h.records
    have hrecords₂ : Records z (S₁.setPriority p newPriority).view :=
      hrecords₁.setInfo (fun hz => absurd hz hp) fun _ => hnew
    obtain ⟨happart₂, hlast₂⟩ :=
      Apart.enqueue (happart₁.setInfo _) hp (hrecords₂.others p hp) henq
    have hlast : S'.lastLevel = S.lastLevel := hlast₂.trans hlast₁
    refine ⟨happart₂, ?_, ?_⟩
    · rw [(enqueue_keeps (P := fun _ => True) henq).1]
      exact hrecords₂
    · rw [hpointers, hlast]
      exact h.place

/-- While another process runs, the null process stands by. -/
theorem Spare.standsBy (h : Spare z S) (hcur : S.currentProcess = some p)
    (hint : S.interruptedProcess = none) (hp : p ≠ z) : StandsBy z S := by
  refine ⟨h.apart, h.records, ?_⟩
  rcases h.place with ⟨hrun, -⟩ | ⟨-, hready⟩
  · rw [running, hint, Option.none_or, hcur] at hrun
    exact absurd (Option.some.inj hrun) hp
  · exact hready

/-- So it does while another process gives up the processor, and when it does so itself. -/
theorem Spare.standsBy_yield (h : Spare z S) (hcur : S.currentProcess = some p)
    (hint : S.interruptedProcess = none) (hyield : S.yield p = some S') : StandsBy z S' := by
  have happart : Apart z (fun _ => True) (S.becameReady p) := h.apart.congr rfl fun _ _ => rfl
  have hview : S'.view = S.view := (enqueue_keeps (P := fun _ => True) hyield).1
  by_cases hp : p = z
  · subst hp
    have hempty : S.lastLevel.head = none := by
      rcases h.place with ⟨-, hempty⟩ | ⟨hrun, -⟩
      · exact hempty
      · rw [running, hint, Option.none_or] at hrun
        exact absurd hcur hrun
    obtain ⟨happart', hready⟩ := happart.enqueue_null h.records.null.priority hempty hyield
    exact ⟨happart', hview ▸ h.records, hready⟩
  · obtain ⟨happart', hlast⟩ := happart.enqueue hp (h.records.others p hp) hyield
    exact ⟨happart', hview ▸ h.records, hlast ▸ (h.standsBy hcur hint hp).ready⟩

theorem Spare.standsBy_blockRequest (h : Spare z S) (hcur : S.currentProcess = some p)
    (hint : S.interruptedProcess = none) (hp : p ≠ z)
    (henq : S.enqueue .blockedRequestEnvPq p = some S') : StandsBy z S' := by
  obtain ⟨happart, hlast⟩ := h.apart.enqueue hp (h.records.others p hp) henq
  have hview : S'.view = S.view := (enqueue_keeps (P := fun _ => True) henq).1
  exact ⟨happart, hview ▸ h.records, hlast ▸ (h.standsBy hcur hint hp).ready⟩

/-- A move that does not make the null process wait. -/
theorem Spare.move {m : Move n} (h : Spare z S) (hz : z ∉ m.blocked?)
    (hm : S.move m = some S') : Spare z S' := by
  cases m with
  | wakeReceiver p =>
    simp only [Sched.move, wakeReceiver] at hm
    split at hm
    · rename_i hstate
      refine h.wake ?_ hm
      rintro rfl
      exact h.records.null.state hstate
    · cases hm; exact h
  | wakeRequester =>
    simp only [Sched.move, wakeRequester] at hm
    split at hm
    · rename_i S₁ hdeq
      cases hm
      obtain ⟨happart, -, hother⟩ := h.apart.dequeue hdeq
      obtain rfl := (Prod.mk.inj hdeq).2
      refine ⟨happart, ?_, (hother (by simp)).1 ▸ h.place⟩
      rw [(dequeue_keeps (P := fun _ => True) hdeq).1]
      exact h.records
    · rename_i p S₁ hdeq
      obtain ⟨happart, -, hother⟩ := h.apart.dequeue hdeq
      obtain ⟨hlast, hp⟩ := hother (by simp)
      have hspare : Spare z S₁ := by
        obtain rfl := (Prod.mk.inj hdeq).2
        refine ⟨happart, ?_, hlast ▸ h.place⟩
        rw [(dequeue_keeps (P := fun _ => True) hdeq).1]
        exact h.records
      exact hspare.wake (by simpa using hp) hm
  | blockReceive p =>
    obtain ⟨⟨hcur, hint⟩, hm⟩ := Option.ite_none_right_eq_some.1 hm
    have hp : p ≠ z := by
      rintro rfl
      exact hz rfl
    exact (h.standsBy hcur hint hp).switch hcur hint (fun hc => absurd hc hp) hm
  | blockRequest p =>
    obtain ⟨⟨hcur, hint⟩, hm⟩ := Option.ite_none_right_eq_some.1 hm
    obtain ⟨S₁, henq, hm⟩ := Option.bind_eq_some_iff.1 hm
    have hp : p ≠ z := by
      rintro rfl
      exact hz rfl
    obtain ⟨hcur₁, hint₁⟩ := enqueue_pointers henq
    exact (h.standsBy_blockRequest hcur hint hp henq).switch (hcur₁.trans hcur) (hint₁.trans hint)
      (fun hc => absurd hc hp) hm
  | yield p =>
    obtain ⟨⟨hcur, hint⟩, hm⟩ := Option.ite_none_right_eq_some.1 hm
    obtain ⟨S₁, hyield, hm⟩ := Option.bind_eq_some_iff.1 hm
    obtain ⟨hcur₁, hint₁⟩ := enqueue_pointers hyield
    exact (h.standsBy_yield hcur hint hyield).switch (hcur₁.trans hcur) (hint₁.trans hint)
      (fun _ => ⟨by simp, .inr rfl⟩) hm
  | changePriority newPriority tid =>
    obtain ⟨⟨code, S₁⟩, hchange, hS₁⟩ := Option.map_eq_some_iff.1 hm
    cases hS₁
    exact h.changePriority hchange
  | toUser p =>
    obtain ⟨-, hm⟩ := Option.ite_none_right_eq_some.1 hm
    cases hm
    exact ⟨h.apart.setInfo _, h.records.setContext fun _ => .inl rfl, h.place⟩
  | enterIsr pid =>
    obtain ⟨⟨hint, hcur⟩, hm⟩ := Option.ite_none_right_eq_some.1 hm
    cases hm
    obtain ⟨p, hp⟩ := Option.isSome_iff_exists.1 hcur
    have hrun : (S.enterIsr pid).running = S.running := by
      simp [running, enterIsr, hint, hp]
    exact ⟨h.apart.congr rfl fun _ _ => rfl, h.records, hrun ▸ h.place⟩
  | exitIsr =>
    obtain ⟨hint, hm⟩ := Option.ite_none_right_eq_some.1 hm
    cases hm
    obtain ⟨p, hp⟩ := Option.isSome_iff_exists.1 hint
    have hrun : S.exitIsr.running = S.running := by
      simp [running, exitIsr, hp]
    exact ⟨h.apart.congr rfl fun _ _ => rfl, h.records, hrun ▸ h.place⟩

/-! ## Boot -/

/-- `init_processes` after the processes in `l`. -/
structure Sparing (z : Fin n) (l : List (Fin n)) (S : Sched n) : Prop where
  apart : Apart z (· ∈ l) S
  before : z ∉ l → S.lastLevel.head = none
  after : z ∈ l → S.lastLevel.head = some z

theorem Sparing.step {l : List (Fin n)} (h : Sparing z l S) (hz : NullIs table z) (hp : p ∉ l)
    (hinit : initProcess table S p = some S') : Sparing z (l ++ [p]) S' := by
  unfold initProcess at hinit
  simp only at hinit
  set S₀ : Sched n := { S with pTable := Function.update S.pTable p _ } with hS₀
  have hpriority : (S₀.pTable p).priority = (table p).priority := by simp [hS₀]
  have happart : Apart z (· ∈ l ++ [p]) S₀ := by
    have hnext : ∀ q ∈ l ++ [p], (S₀.pTable q).next = none ∨
        q ∈ l ∧ (S₀.pTable q).next = (S.pTable q).next := by
      intro q hq
      by_cases hqp : q = p
      · subst hqp
        exact .inl (by simp [hS₀])
      · have hql : q ∈ l := (List.mem_append.1 hq).resolve_right (by simpa using hqp)
        exact .inr ⟨hql, by simp [hS₀, hqp]⟩
    refine ⟨h.apart.levels, fun q hq => ?_, fun hzl => ?_, h.apart.head, h.apart.tail,
      h.apart.sole⟩
    · rcases hnext q hq with hnone | ⟨hql, hsame⟩
      · rw [hnone]
        nofun
      · rw [hsame]
        exact h.apart.next q hql
    · rcases hnext z hzl with hnone | ⟨hzl', hsame⟩
      · exact hnone
      · exact hsame.trans (h.apart.last hzl')
  have hmem : z ≠ p → (z ∈ l ++ [p] ↔ z ∈ l) := by
    intro hzp
    simp [hzp]
  split at hinit
  · -- An i-process is not queued.
    rename_i hi
    obtain rfl := Option.some.inj hinit
    have hzp : z ≠ p := by
      rintro rfl
      rw [hz.isIProcess] at hi
      contradiction
    exact ⟨happart, fun hzl => h.before ((hmem hzp).not.1 hzl),
      fun hzl => h.after ((hmem hzp).1 hzl)⟩
  · have happart' : Apart z (· ∈ l ++ [p]) (S₀.becameReady p) := happart.congr rfl fun _ _ => rfl
    by_cases hzp : p = z
    · subst hzp
      obtain ⟨hqueued, hready⟩ := happart'.enqueue_null (hpriority.trans hz.priority)
        (h.before hp) hinit
      exact ⟨hqueued, fun hzl => absurd (List.mem_append_right l List.mem_cons_self) hzl,
        fun _ => hready⟩
    · have hprio : ((S₀.becameReady p).pTable p).priority ≠ nullPriority := by
        rw [show ((S₀.becameReady p).pTable p).priority = _ from hpriority]
        exact hz.others p hzp
      obtain ⟨hqueued, hlast⟩ := happart'.enqueue hzp hprio hinit
      have hlast : S'.lastLevel = S.lastLevel := hlast
      rw [← Ne.eq_1, ne_comm] at hzp
      refine ⟨hqueued, fun hzl => ?_, fun hzl => ?_⟩
      · rw [hlast]
        exact h.before ((hmem hzp).not.1 hzl)
      · rw [hlast]
        exact h.after ((hmem hzp).1 hzl)

theorem Sparing.run {l l' : List (Fin n)} (h : Sparing z l S) (hz : NullIs table z)
    (hnodup : (l ++ l').Nodup) (hrun : l'.foldlM (initProcess table) S = some S') :
    Sparing z (l ++ l') S' := by
  induction l' generalizing l S with
  | nil => cases hrun; rwa [List.append_nil]
  | cons p l' ih =>
    obtain ⟨S₁, hinit, hrun⟩ := Option.bind_eq_some_iff.1 hrun
    have hp : p ∉ l := by
      intro hp
      exact (List.nodup_append.1 hnodup).2.2 p hp p List.mem_cons_self rfl
    rw [List.append_cons] at hnodup ⊢
    exact ih (h.step hz hp hinit) hnodup hrun

theorem spare_boot {memory : Fin n → Pcb n} {S₀ : Sched n} (hz : NullIs table z)
    (hinit : initProcesses memory table = some S₀) (h : S₀.firstDispatch = some S) :
    Spare z S := by
  have hboot := initProcesses_refines hinit
  have hsparing : Sparing z ([] ++ List.finRange n) S₀ := by
    refine Sparing.run (l := []) ⟨⟨fun pq => ?_, nofun, nofun, fun pq i hi => ?_, fun pq i hi => ?_,
      fun p hp => ?_⟩, fun _ => rfl, nofun⟩ hz (List.nodup_finRange n) hinit
    · cases pq <;> rfl
    · cases pq <;> cases hi
    · cases pq <;> cases hi
    · cases hp
  have happart : Apart z (fun _ => True) S₀ :=
    ⟨hsparing.apart.levels, fun q _ => hsparing.apart.next q (List.mem_finRange q),
      fun _ => hsparing.apart.last (List.mem_finRange z), hsparing.apart.head,
      hsparing.apart.tail, hsparing.apart.sole⟩
  have hrecords : Records z S₀.view := by
    rw [hboot.info]
    exact ⟨⟨hz.pid, hz.priority, nofun, .inl rfl⟩, hz.others⟩
  have hstandsBy : StandsBy z S₀ := ⟨happart, hrecords, hsparing.after (List.mem_finRange z)⟩
  unfold firstDispatch at h
  split at h
  · contradiction
  · rename_i p S₁ hdeq
    cases h
    obtain ⟨q, hq, happart₁, hrecords₁, hplace⟩ := hstandsBy.dequeue hdeq
    obtain rfl := Option.some.inj hq
    have hint : S₁.interruptedProcess = none := by
      obtain rfl := (Prod.mk.inj hdeq).2
      exact hboot.interrupted
    have hrun : running (setState { S₁ with currentProcess := some p } p .executing) = some p := by
      change S₁.interruptedProcess.or (some p) = some p
      rw [hint]
      rfl
    refine ⟨Apart.setInfo ?_ _, ?_, ?_⟩
    · exact happart₁.congr rfl fun _ _ => rfl
    · exact Records.setState (S := { S₁ with currentProcess := some p }) hrecords₁ fun _ => nofun
    · rw [hrun]
      rcases hplace with ⟨rfl, hempty⟩ | ⟨hp, hready⟩
      · exact .inl ⟨rfl, hempty⟩
      · exact .inr ⟨by simpa using hp, hready⟩

end Sched

/-! ## Runs -/

namespace Kernel

variable {s s' t : Kernel n} {l : Label}

theorem null_not_blocked {m : Move n} (h : s.sched.Spare z) (hnull : NullReleases s l)
    (hm : l.Permits s m) : z ∉ m.blocked? := by
  have hcall : ∀ c, s.running = some (z, .user) → l = .call c → c = .releaseProcessor :=
    fun c hrun hl => hnull z hrun h.records.null.pid c (by rw [hl]; rfl)
  have hcontext : ∀ context, s.running = some (z, context) →
      context = .user ∨ context = .releaseProcessor := by
    intro context hrun
    rw [← (running_eq_some.1 hrun).2]
    exact h.records.null.context
  intro hz
  cases m with
  | blockReceive p =>
    cases hz
    rcases hm.1 with ⟨hrun, hl⟩ | hrun
    · cases hcall _ hrun hl
    · rcases hcontext _ hrun with hc | hc <;> cases hc
  | blockRequest p =>
    cases hz
    rcases hm.1 with ⟨hrun, hl⟩ | hrun
    · cases hcall _ hrun hl
    · rcases hcontext _ hrun with hc | hc <;> cases hc
  | _ => contradiction

/-- What holds between two steps. -/
structure Spared (z : Fin n) (s : Kernel n) : Prop where
  interrupted : s.sched.interruptedProcess = none
  spare : s.sched.Spare z
  running : s.sched.running.isSome = true

theorem Spared.step (h : s.Spared z) (hnull : NullReleases s l) (hstep : s.step l = some s') :
    s'.Spared z := by
  obtain ⟨ms, hms, -, hexec, hint⟩ := step_sched h.interrupted hstep
  have hok : Along Sched.move (fun _ m => z ∉ m.blocked?) s.sched ms :=
    .of_forall fun m hm _ => null_not_blocked h.spare hnull (hms m hm)
  obtain ⟨hspare, hrunning⟩ := exec_invariant
    (I := fun S => Sched.Spare z S ∧ S.running.isSome = true)
    (fun S m S' hS hm hmove => ⟨hS.1.move hm hmove, Sched.move_running hS.2 hmove⟩)
    ⟨h.spare, h.running⟩ hok hexec
  exact ⟨hint, hspare, hrunning⟩

theorem Booted.spared (hz : NullIs table z) (h : Booted table s) : s.Spared z := by
  obtain ⟨ram, sched₀, -, hsched, hfirst, -⟩ := h.parts
  have hint := h.accounts.1
  refine ⟨hint, Sched.spare_boot hz hsched hfirst, ?_⟩
  rw [Sched.running, hint, Option.none_or]
  unfold Sched.firstDispatch at hfirst
  split at hfirst
  · contradiction
  · rw [← Option.some.inj hfirst]
    rfl

/-- Where a primitive switches, the null process stands by. -/
theorem Switches.standsBy {cur : Fin n} {state : ProcessState} {resumeAt : Context} {m : Move n}
    (hs : Switches s cur state resumeAt t m) (h : s.sched.Spare z)
    (hint : s.sched.interruptedProcess = none) (hcur : s.sched.currentProcess = some cur)
    (hz : z ∉ m.blocked?) : (t.sched.setState cur state).StandsBy z := by
  have hne : m.blocked? = some cur → cur ≠ z := by
    rintro hm rfl
    exact hz hm
  cases hs with
  | blockReceive =>
    exact (h.standsBy hcur hint (hne rfl)).setState fun hc => absurd hc (hne rfl)
  | blockRequest hempty henq =>
    exact (h.standsBy_blockRequest hcur hint (hne rfl) henq).setState
      fun hc => absurd hc (hne rfl)
  | yield hyield => exact (h.standsBy_yield hcur hint hyield).setState fun _ => nofun

end Kernel

/-- Along every run in which the null process only releases the processor, whatever the others do:
a process is running; the null process is, or it is alone in the last level of `ready_pq`; and
where a primitive calls `k_process_switch`, that finds a process. -/
theorem always_dispatchable {table : Fin n → PcbInit} {z : Fin n} {s : Kernel n}
    (hz : NullIs table z) (hs : Reach Kernel.step (Kernel.Booted table) NullReleases s) :
    s.sched.currentProcess.isSome = true ∧
      (s.sched.currentProcess = some z ∨
        Chain (pcbNext s.sched.pTable) (s.sched.level .readyPq numPriorities).head [z]) ∧
      ∀ l cur context state resumeAt t, NullReleases s l → s.running = some (cur, context) →
        s.trap context l = some (.switch state resumeAt t) →
        ((t.sched.setState cur state).dequeue .readyPq).1.isSome = true := by
  obtain ⟨hint, hspare, hsome⟩ : s.Spared z :=
    hs.invariant (fun s hs => Kernel.Booted.spared hz hs)
      fun s l s' _ h hnull hstep => h.step hnull hstep
  have hrunning : s.sched.running = s.sched.currentProcess := by
    rw [Sched.running, hint, Option.none_or]
  refine ⟨hrunning ▸ hsome, ?_, ?_⟩
  · rw [← hrunning]
    rcases hspare.place with ⟨hrun, -⟩ | ⟨-, hready⟩
    · exact .inl hrun
    · exact .inr ⟨hready, hspare.apart.last trivial⟩
  · intro l cur context state resumeAt t hnull hrun htrap
    obtain ⟨hcur, -⟩ := Kernel.running_eq_some.1 hrun
    cases Kernel.trap_acts hrun htrap with
    | switch hswitches hallows =>
      have hpermits := hswitches.permits hrun htrap hallows
      have hstands := hswitches.standsBy hspare hint hcur
        (Kernel.null_not_blocked hspare hnull hpermits)
      obtain ⟨p, hp, -⟩ := hstands.dequeue
        (r := ((t.sched.setState cur state).dequeue .readyPq).1) rfl
      rw [hp]
      rfl

theorem itable_null : NullIs itable 3 := ⟨rfl, rfl, rfl, by decide⟩

/-- A stale tail links the CCI into the wrong level. -/
theorem always_dispatchable_itable :
    ∃ s, ((Kernel.kInit Kernel.Ram.zero itable).bind fun s =>
        exec (guarded Kernel.step NullReleases) s lowerPong) = some s ∧
      s.sched.currentProcess.isSome = true ∧
      (s.sched.currentProcess = some 3 ∨
        Chain (pcbNext s.sched.pTable) (s.sched.level .readyPq numPriorities).head [3]) := by
  have hrun : ((Kernel.kInit Kernel.Ram.zero itable).bind fun s =>
      exec (guarded Kernel.step NullReleases) s lowerPong).isSome = true := by
    decide +kernel
  obtain ⟨s, hs⟩ := Option.isSome_iff_exists.1 hrun
  obtain ⟨s₀, hinit, hexec⟩ := Option.bind_eq_some_iff.1 hs
  obtain ⟨hcur, hplace, -⟩ :=
    always_dispatchable itable_null ((Reach.init ⟨_, hinit⟩).guarded hexec)
  exact ⟨s, hs, hcur, hplace⟩

end Rtx.Coldfire
