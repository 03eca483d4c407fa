import Rtx.Lib.Run
import Rtx.TimeoutOrder

/-!
# Expired delays on Unix

`timeout_queue_insert` sorts the absolute timeouts as signed integers, `check_timeout_queue`
compares the first of them with the clock as unsigned ones. The two orders agree unless a timeout is
negative: it comes first in the list then, and never expires, and no timeout behind it does
(`expired_delay_hidden_iff`).
-/

namespace Rtx

open Linked Transition Coldfire

variable {α : Type}

/-! ## Insertions that go well -/

namespace TimeoutList

variable {L L' : TimeoutList α} {due : α → ℤ} {l : List α} {env a : α} {timeout : ℤ} {fuel : ℕ}
  {node : Option α}

theorem insertionPoint_eq (hc : Chain L.next node (a :: l))
    (hstored : ∀ x ∈ a :: l, L.stored x = some (due x)) {prevNode last : α} {stop : Option α}
    (h : L.insertionPoint none timeout fuel prevNode node (due a) = some (last, stop)) :
    ∃ l₁ l₂, a :: l = l₁ ++ l₂ ∧ stop = l₂.head? ∧ (∀ x ∈ l₁, due x < timeout) ∧
      (∀ x ∈ l₂.head?, timeout ≤ due x) ∧ (prevNode :: l₁).getLast? = some last := by
  induction fuel generalizing a l node prevNode with
  | zero => contradiction
  | succ fuel ih =>
    obtain ⟨rfl, hc⟩ := hc
    by_cases ha : due a < timeout
    · simp only [insertionPoint, if_pos ha] at h
      cases l with
      | nil =>
        have hnone : L.next a = none := hc
        rw [hnone] at h
        contradiction
      | cons b l =>
        have hb : L.next a = some b := hc.1
        rw [hb] at hc h
        simp only [Option.elim_some, hstored b (by simp), Option.bind_eq_bind,
          Option.bind_some] at h
        obtain ⟨l₁, l₂, hlist, hstop, hearly, hlate, hlast⟩ :=
          ih hc (fun x hx => hstored x (List.mem_cons_of_mem a hx)) h
        refine ⟨a :: l₁, l₂, by rw [hlist]; rfl, hstop, List.forall_mem_cons.2 ⟨ha, hearly⟩, hlate,
          ?_⟩
        rw [List.getLast?_cons_cons]
        exact hlast
    · simp only [insertionPoint, if_neg ha, Option.some.injEq, Prod.mk.injEq] at h
      obtain ⟨rfl, rfl⟩ := h
      exact ⟨[], a :: l, rfl, rfl, by simp, by simpa using not_lt.1 ha, rfl⟩

variable [DecidableEq α]

theorem Pending.link (h : L.Pending due (a :: l)) (henv : env ∉ a :: l)
    (hself : L.stored env = some timeout) (hlink : L.link none fuel env timeout a = some L') :
    L'.Joined due (a :: l) env timeout := by
  have ha := h.stored a List.mem_cons_self
  simp only [TimeoutList.link, ha, Option.bind_eq_bind, Option.bind_some] at hlink
  by_cases hle : timeout ≤ due a
  · rw [if_pos hle] at hlink
    cases hlink
    refine Pending.between [] (a :: l) h henv ?_ rfl hself (by simp) (by simpa using hle)
    have hc := h.chain
    rw [hc.1] at hc
    exact hc.push henv
  rw [if_neg hle] at hlink
  have hearly : due a < timeout := not_le.1 hle
  cases l with
  | nil =>
    have hnext : L.next a = none := h.chain.2
    rw [hnext] at hlink
    cases hlink
    exact Pending.behind [a] [] h henv hself rfl (by simpa using hearly) (by simp)
  | cons b l =>
    have hnext : L.next a = some b := h.chain.2.1
    have hcb : Chain L.next (some b) (b :: l) := hnext ▸ h.chain.2
    have hstored : ∀ x ∈ b :: l, L.stored x = some (due x) := fun x hx =>
      h.stored x (List.mem_cons_of_mem a hx)
    simp only [hnext, hstored b List.mem_cons_self, Option.bind_some] at hlink
    obtain ⟨⟨last, stop⟩, hpoint, hlink⟩ := Option.bind_eq_some_iff.1 hlink
    cases hlink
    obtain ⟨l₁, l₂, hlist, rfl, hearly', hlate, hlast⟩ := insertionPoint_eq hcb hstored hpoint
    rw [hlist] at h henv ⊢
    exact Pending.behind (a :: l₁) l₂ h henv hself hlast
      (List.forall_mem_cons.2 ⟨hearly, hearly'⟩) hlate

/-- Whatever the delay: an envelope that is inserted joins the sorted list. -/
theorem Pending.insert {delay : ℤ} (h : L.Pending due l) (henv : env ∉ l)
    (hnext : L.next env = none) (hdelay : L.stored env = some delay)
    (hins : L.insert none fuel env = some L') :
    L'.Joined due l env (wrap32 (L.clock + delay)) := by
  set timeout := wrap32 (L.clock + delay) with htimeout
  have hJ : (L.store env timeout).Pending due l := by
    refine ⟨h.chain, fun x hx => ?_, h.sorted⟩
    rw [← h.stored x hx]
    apply Function.update_of_ne
    rintro rfl
    exact henv hx
  have hself : (L.store env timeout).stored env = some timeout := Function.update_self ..
  simp only [TimeoutList.insert, hdelay, Option.bind_eq_bind, Option.bind_some] at hins
  rw [← htimeout] at hins
  have hhead : (L.store env timeout).head = L.head := rfl
  rw [hhead] at hins
  cases l with
  | nil =>
    have hnone : L.head = none := h.chain
    rw [hnone] at hins
    cases hins
    refine ⟨[env], .refl _, ⟨rfl, hnext⟩, ?_, List.pairwise_singleton ..⟩
    intro x hx
    obtain rfl := List.mem_singleton.1 hx
    rw [Function.update_self]
    exact hself
  | cons a l =>
    have hsome : L.head = some a := h.chain.1
    rw [hsome] at hins
    exact hJ.link henv hself hins

end TimeoutList

namespace Unix

/-! ## Runs -/

/-- What happens to the timeout list, between changes of the clock. -/
inductive TimeoutLabel (α : Type)
  /-- The envelope of a delay request comes to `timeout_queue_insert`. -/
  | request (env : α) (delay : ℤ)
  /-- `k_clock_incr_system_time` and `k_set_system_time`. -/
  | setTime (time : ℕ)
  /-- `check_timeout_queue`. -/
  | check

namespace TimeoutMem

variable {T T' : TimeoutMem α} {env : α} {due : α → ℤ} {l : List α} {fuel : ℕ}

/-- The envelope is in the timeout list. -/
def Queued (T : TimeoutMem α) (env : α) : Prop :=
  ∃ l, Chain (nextOf T.env) T.timeoutQueue l ∧ env ∈ l

variable [DecidableEq α]

/-- The envelope as `k_receive_message` hands it to the timeout i-process: without a successor, and
with the delay that `k_request_delay` wrote to its body. -/
def received (T : TimeoutMem α) (env : α) (body : Body) (delay : ℤ) : TimeoutMem α :=
  { T with env :=
      Function.update T.env env { T.env env with next := none, msg := some (putInt body delay) } }

/-- One step. -/
def step (fuel : ℕ) (T : TimeoutMem α) : TimeoutLabel α → Option (TimeoutMem α)
  | .request env delay => do
    let body ← (T.env env).msg
    (T.received env body delay).timeoutQueueInsert fuel (some env)
  | .setTime time => some { T with clock := time }
  | .check => T.checkTimeoutQueue.map Prod.snd

omit [DecidableEq α] in
/-- Nothing is pending, and the clock is at 0. -/
def Started (T : TimeoutMem α) : Prop := T.timeoutQueue = none ∧ T.clock = 0

omit [DecidableEq α] in
/-- The requests come with envelopes that are not pending, and with any delays. -/
def Asked (T : TimeoutMem α) : TimeoutLabel α → Prop
  | .request env delay => ¬ T.Queued env ∧ -2 ^ 31 ≤ delay ∧ delay < 2 ^ 31
  | .setTime time => time < 2 ^ 64
  | .check => True

omit [DecidableEq α] in
/-- The absolute timeout of the request is not negative. -/
def Timely (T : TimeoutMem α) : TimeoutLabel α → Prop
  | .request _ delay => 0 ≤ wrap32 (T.clock + delay)
  | _ => True

omit [DecidableEq α] in
/-- If an absolute timeout is not later than the clock, `check_timeout_queue` returns an
envelope. -/
def NeverHidden (T : TimeoutMem α) : Prop :=
  (∃ env timeout, T.Queued env ∧ T.timeoutOf env = some timeout ∧ timeout ≤ T.clock) →
    ∃ env T', T.checkTimeoutQueue = some (some env, T')

/-! ## The list stays sorted -/

/-- The pending envelopes are sorted, and their absolute timeouts meet a condition. -/
def Ordered (good : ℤ → Prop) (T : TimeoutMem α) : Prop :=
  ∃ due l, T.timeoutList.Pending due l ∧ ∀ x ∈ l, good (due x)

omit [DecidableEq α] in
theorem Started.ordered (h : T.Started) (good : ℤ → Prop) : T.Ordered good :=
  ⟨fun _ => 0, [], ⟨h.1, by simp, List.Pairwise.nil⟩, by simp⟩

/-- The new envelope is behind nothing and holds its delay; the list does not see it. -/
theorem Pending.received (h : T.timeoutList.Pending due l) (henv : env ∉ l) (body : Body)
    (delay : ℤ) : (T.received env body delay).timeoutList.Pending due l := by
  have hsame : ∀ x ∈ l, (T.received env body delay).env x = T.env x := by
    intro x hx
    apply Function.update_of_ne
    rintro rfl
    exact henv hx
  refine ⟨h.chain.congr fun x hx => ?_, fun x hx => ?_, h.sorted⟩
  · exact congrArg MsgEnv.next (hsame x hx)
  · rw [← h.stored x hx]
    exact timeoutOf_congr (congrArg MsgEnv.toLetter (hsame x hx))

theorem Ordered.request {good : ℤ → Prop} {delay : ℤ} (h : T.Ordered good) (henv : ¬ T.Queued env)
    (hgood : good (wrap32 (T.clock + delay)))
    (hstep : T.step fuel (.request env delay) = some T') : T'.Ordered good := by
  obtain ⟨due, l, hpending, hall⟩ := h
  have hmem : env ∉ l := fun hl => henv ⟨l, hpending.chain, hl⟩
  obtain ⟨body, -, hins⟩ := Option.bind_eq_some_iff.1 hstep
  set R := T.received env body delay with hR
  have hlist : R.timeoutList.insert none fuel env = some T'.timeoutList := by
    rw [← timeoutList_insert fuel, hins, Option.map_some]
  have hnext : R.timeoutList.next env = none := by
    simp [hR, received, timeoutList, nextOf]
  have hstored : R.timeoutList.stored env = some (wrap32 delay) := by
    simp [hR, received, timeoutList, timeoutOf]
  have htimeout : wrap32 (R.timeoutList.clock + wrap32 delay) = wrap32 (T.clock + delay) := by
    simp only [wrap32, Int.add_bmod_bmod]
    rfl
  obtain ⟨l', hperm, hl'⟩ := (Pending.received hpending hmem body delay).insert hmem hnext
    hstored hlist
  rw [htimeout] at hl'
  refine ⟨_, l', hl', fun x hx => ?_⟩
  rcases List.mem_cons.1 (hperm.subset hx) with rfl | hx
  · rw [Function.update_self]
    exact hgood
  · rw [TimeoutList.update_due hmem x hx]
    exact hall x hx

omit [DecidableEq α] in
/-- `check_timeout_queue` takes nothing but the first envelope. -/
theorem Ordered.check {good : ℤ → Prop} {found : Option α} (h : T.Ordered good)
    (hcheck : T.checkTimeoutQueue = some (found, T')) : T'.Ordered good := by
  obtain ⟨due, l, hpending, hall⟩ := h
  have hhead : T.timeoutQueue = T.timeoutList.head := rfl
  cases l with
  | nil =>
    have hnone : T.timeoutQueue = none := hpending.chain
    simp only [checkTimeoutQueue, hnone, Option.some.injEq, Prod.mk.injEq] at hcheck
    obtain ⟨-, rfl⟩ := hcheck
    exact ⟨due, [], hpending, hall⟩
  | cons a l =>
    have hsome : T.timeoutQueue = some a := hpending.chain.1
    have ha : T.timeoutOf a = some (due a) := hpending.stored a List.mem_cons_self
    simp only [checkTimeoutQueue, hsome, ha, Option.bind_eq_bind, Option.bind_some] at hcheck
    split at hcheck
    · cases hcheck
      refine ⟨due, l, ⟨hpending.chain.2, fun x hx => ?_, (List.pairwise_cons.1 hpending.sorted).2⟩,
        fun x hx => hall x (List.mem_cons_of_mem a hx)⟩
      exact hpending.stored x (List.mem_cons_of_mem a hx)
    · cases hcheck
      exact ⟨due, a :: l, hpending, hall⟩

theorem Ordered.step {good : ℤ → Prop} {label : TimeoutLabel α} (h : T.Ordered good)
    (hasked : T.Asked label) (hgood : ∀ env delay, label = .request env delay →
      good (wrap32 (T.clock + delay))) (hstep : T.step fuel label = some T') : T'.Ordered good := by
  cases label with
  | request env delay => exact h.request hasked.1 (hgood env delay rfl) hstep
  | setTime time =>
    cases hstep
    obtain ⟨due, l, hpending, hall⟩ := h
    exact ⟨due, l, ⟨hpending.chain, hpending.stored, hpending.sorted⟩, hall⟩
  | check =>
    obtain ⟨⟨found, T''⟩, hcheck, rfl⟩ := Option.map_eq_some_iff.1 hstep
    exact h.check hcheck

theorem Ordered.reach {good : ℤ → Prop} {ok : TimeoutMem α → TimeoutLabel α → Prop}
    (hok : ∀ T label, ok T label → T.Asked label ∧ ∀ env delay, label = .request env delay →
      good (wrap32 (T.clock + delay)))
    (hT : Reach (TimeoutMem.step fuel) Started ok T) : T.Ordered good :=
  hT.invariant (fun _ h => h.ordered good) fun T label _ _ h hl hstep =>
    h.step (hok T label hl).1 (hok T label hl).2 hstep

/-! ## The head of the list -/

omit [DecidableEq α] in
theorem timeoutOf_range {timeout : ℤ} (h : T.timeoutOf env = some timeout) :
    -2 ^ 31 ≤ timeout ∧ timeout < 2 ^ 31 := by
  obtain ⟨body, -, rfl⟩ := Option.map_eq_some_iff.1 h
  exact wrap32_range _

omit [DecidableEq α] in
/-- In a sorted list an expired timeout is found unless the first one is negative. -/
theorem Ordered.neverHidden_iff {good : ℤ → Prop} (h : T.Ordered good) (hclock : T.clock < 2 ^ 31) :
    T.NeverHidden ↔ ∀ env timeout, T.Queued env → T.timeoutOf env = some timeout → 0 ≤ timeout := by
  obtain ⟨due, l, hpending, -⟩ := h
  have hqueued : ∀ env timeout, T.Queued env → T.timeoutOf env = some timeout →
      env ∈ l ∧ timeout = due env := by
    rintro env timeout ⟨l', hl', henv⟩ htimeout
    have hmem : env ∈ l := hl'.unique hpending.chain ▸ henv
    exact ⟨hmem, Option.some.inj (htimeout.symm.trans (hpending.stored env hmem))⟩
  cases l with
  | nil =>
    refine iff_of_true ?_ fun env timeout henv htimeout => ?_
    · rintro ⟨env, timeout, henv, htimeout, -⟩
      exact absurd (hqueued env timeout henv htimeout).1 List.not_mem_nil
    · exact absurd (hqueued env timeout henv htimeout).1 List.not_mem_nil
  | cons a l =>
    have hsome : T.timeoutQueue = some a := hpending.chain.1
    have ha : T.timeoutOf a = some (due a) := hpending.stored a List.mem_cons_self
    have hfirst : ∀ x ∈ a :: l, due a ≤ due x := by
      intro x hx
      rcases List.mem_cons.1 hx with rfl | hx
      · exact le_rfl
      · exact (List.pairwise_cons.1 hpending.sorted).1 x hx
    have hfound : (∃ env T', T.checkTimeoutQueue = some (some env, T')) ↔
        due a % 2 ^ 64 ≤ T.clock := by
      simp only [checkTimeoutQueue, hsome, ha, Option.bind_eq_bind, Option.bind_some]
      split
      · rename_i hle
        exact iff_of_true ⟨_, _, rfl⟩ hle
      · rename_i hle
        exact iff_of_false (by rintro ⟨env, T', hcheck⟩; cases hcheck) hle
    have hrange := timeoutOf_range ha
    unfold NeverHidden
    rw [hfound]
    constructor
    · intro hnever env timeout henv htimeout
      obtain ⟨hmem, rfl⟩ := hqueued env timeout henv htimeout
      by_contra hneg
      -- The first timeout is negative too, and so it is expired, but it is not found.
      have hle := hfirst env hmem
      have hhead := hnever ⟨a, due a, ⟨a :: l, hpending.chain, List.mem_cons_self⟩, ha, by omega⟩
      omega
    · rintro hpos ⟨env, timeout, henv, htimeout, hle⟩
      obtain ⟨hmem, rfl⟩ := hqueued env timeout henv htimeout
      have hzero := hpos a (due a) ⟨a :: l, hpending.chain, List.mem_cons_self⟩ ha
      have hfirst' := hfirst env hmem
      omega

end TimeoutMem

open TimeoutMem

variable [DecidableEq α] {T : TimeoutMem α} {fuel : ℕ}

/-- **At every time below `2 ^ 31` an expired delay is found, if and only if no pending envelope has
a negative absolute timeout.** So it is in every run whose requests are all for times that are not
negative. -/
theorem expired_delay_hidden_iff (hclock : T.clock < 2 ^ 31) :
    (Reach (step fuel) Started Asked T → (T.NeverHidden ↔
      ∀ env timeout, T.Queued env → T.timeoutOf env = some timeout → 0 ≤ timeout)) ∧
    (Reach (step fuel) Started (fun T label => T.Asked label ∧ T.Timely label) T →
      T.NeverHidden) := by
  constructor
  · intro hT
    have hordered : T.Ordered fun _ => True :=
      .reach (fun _ _ hasked => ⟨hasked, fun _ _ _ => trivial⟩) hT
    exact hordered.neverHidden_iff hclock
  · intro hT
    have hordered : T.Ordered (0 ≤ ·) := by
      refine .reach (fun T label hasked => ⟨hasked.1, ?_⟩) hT
      rintro env delay rfl
      exact hasked.2
    refine (hordered.neverHidden_iff hclock).2 fun env timeout hqueued htimeout => ?_
    obtain ⟨due, l, hpending, hall⟩ := hordered
    obtain ⟨l', hl', henv⟩ := hqueued
    have hmem : env ∈ l := hl'.unique hpending.chain ▸ henv
    have hdue : timeout = due env :=
      Option.some.inj (htimeout.symm.trans (hpending.stored env hmem))
    rw [hdue]
    exact hall env hmem

/-! ## Two requests -/

/-- Envelopes with empty bodies; nothing is pending. -/
def blankEnvs : TimeoutMem ℕ where
  env _ := { destPid := 0, sendPid := 0, msgType := 0, msg := some fun _ => 0, next := none }
  timeoutQueue := none
  clock := 0

/-- Two delays are requested, and time passes. -/
def TwoRequests (delay₀ delay₁ : ℤ) (T : TimeoutMem ℕ) : Prop :=
  ∃ T₁ T₂, blankEnvs.step 2 (.request 0 delay₀) = some T₁ ∧
    T₁.step 2 (.request 1 delay₁) = some T₂ ∧
    T₂.step 2 (.setTime 500) = some T ∧ T₁.timeoutQueue = some 0 ∧ (T₁.env 0).next = none ∧
    T₁.clock = 0

theorem TwoRequests.reach {delay₀ delay₁ : ℤ} {T : TimeoutMem ℕ} (h : TwoRequests delay₀ delay₁ T)
    {ok : TimeoutMem ℕ → TimeoutLabel ℕ → Prop} (hok₀ : ok blankEnvs (.request 0 delay₀))
    (hok₁ : ∀ T₁ : TimeoutMem ℕ, ¬ T₁.Queued 1 → T₁.clock = 0 → ok T₁ (.request 1 delay₁))
    (htime : ∀ T₂ : TimeoutMem ℕ, ok T₂ (.setTime 500)) : Reach (step 2) Started ok T := by
  obtain ⟨T₁, T₂, hfirst, hsecond, hlast, hhead, hnext, hclock⟩ := h
  have hqueued : ¬ T₁.Queued 1 := by
    rintro ⟨l, hl, hmem⟩
    have hone : Chain (nextOf T₁.env) T₁.timeoutQueue [0] := ⟨hhead, hnext⟩
    rw [hl.unique hone] at hmem
    exact absurd hmem (by decide)
  exact ((Reach.init ⟨rfl, rfl⟩).step hok₀ hfirst |>.step (hok₁ T₁ hqueued hclock) hsecond).step
    (htime T₂) hlast

theorem not_queued_blankEnvs (env : ℕ) : ¬ blankEnvs.Queued env := by
  rintro ⟨l, hl, hmem⟩
  rw [hl.unique (show Chain (nextOf blankEnvs.env) blankEnvs.timeoutQueue [] from rfl)] at hmem
  contradiction

/-- The run goes through, with the first envelope ahead of the second. -/
def RunsThrough (delay₀ delay₁ : ℤ) : Bool :=
  (blankEnvs.step 2 (.request 0 delay₀)).any fun T₁ =>
    decide (T₁.timeoutQueue = some 0 ∧ (T₁.env 0).next = none ∧ T₁.clock = 0) &&
    (T₁.step 2 (.request 1 delay₁)).any fun T₂ => (T₂.step 2 (.setTime 500)).any fun T =>
      decide (T.clock = 500 ∧ T.timeoutQueue = some 0 ∧ (T.env 0).next = some 1 ∧
        (T.env 1).next = none ∧ T.timeoutOf 0 = some delay₀ ∧ T.timeoutOf 1 = some delay₁)

theorem exists_twoRequests {delay₀ delay₁ : ℤ} (h : RunsThrough delay₀ delay₁ = true) :
    ∃ T, TwoRequests delay₀ delay₁ T ∧ T.clock = 500 ∧
      (T.Queued 0 ∧ T.timeoutOf 0 = some delay₀) ∧ T.Queued 1 ∧ T.timeoutOf 1 = some delay₁ := by
  obtain ⟨T₁, hfirst, h⟩ := (Option.any_eq_true ..).1 h
  obtain ⟨hfacts, h⟩ := Bool.and_eq_true_iff.1 h
  obtain ⟨T₂, hsecond, h⟩ := (Option.any_eq_true ..).1 h
  obtain ⟨T, hlast, h⟩ := (Option.any_eq_true ..).1 h
  obtain ⟨hhead, hnext, hclock₁⟩ := of_decide_eq_true hfacts
  obtain ⟨hclock, hqueue, hnext₀, hnext₁, htimeout₀, htimeout₁⟩ := of_decide_eq_true h
  have hchain : Chain (nextOf T.env) T.timeoutQueue [0, 1] := ⟨hqueue, hnext₀, hnext₁⟩
  exact ⟨T, ⟨T₁, T₂, hfirst, hsecond, hlast, hhead, hnext, hclock₁⟩, hclock,
    ⟨⟨_, hchain, by decide⟩, htimeout₀⟩, ⟨_, hchain, by decide⟩, htimeout₁⟩

/-- Delays of 10 and 100 ticks are found at 500. -/
theorem expired_delay_found_two_requests :
    ∃ T : TimeoutMem ℕ, TwoRequests 10 100 T ∧ T.clock = 500 ∧ T.Queued 1 ∧
      T.timeoutOf 1 = some 100 ∧ T.NeverHidden ∧
      ∀ env timeout, T.Queued env → T.timeoutOf env = some timeout → 0 ≤ timeout := by
  obtain ⟨T, hrun, hclock, -, hqueued, htimeout⟩ :=
    exists_twoRequests (show RunsThrough 10 100 = true by decide +kernel)
  have hlt : T.clock < 2 ^ 31 := by rw [hclock]; decide
  have hfound : T.NeverHidden := by
    refine (expired_delay_hidden_iff hlt).2 (hrun.reach ?_ ?_ ?_)
    · have htimely : 0 ≤ wrap32 (blankEnvs.clock + 10) := by decide +kernel
      exact ⟨⟨not_queued_blankEnvs 0, by decide⟩, htimely⟩
    · intro T₁ hfresh hzero
      have htimely : 0 ≤ wrap32 (T₁.clock + 100) := by
        rw [hzero]
        decide +kernel
      exact ⟨⟨hfresh, by decide⟩, htimely⟩
    · exact fun T₂ => ⟨by simp [Asked], trivial⟩
  refine ⟨T, hrun, hclock, hqueued, htimeout, hfound, ?_⟩
  refine ((expired_delay_hidden_iff hlt).1 (hrun.reach ?_ ?_ ?_)).1 hfound
  · exact ⟨not_queued_blankEnvs 0, by decide⟩
  · exact fun T₁ hfresh _ => ⟨hfresh, by decide⟩
  · exact fun T₂ => by simp [Asked]

/-- A delay of -10 ticks hides one of 100: at 500 both are expired, and `check_timeout_queue`
returns null. -/
theorem expired_delay_hidden :
    ∃ T : TimeoutMem ℕ, Reach (step 2) Started Asked T ∧ T.clock = 500 ∧ T.Queued 1 ∧
      T.timeoutOf 1 = some 100 ∧ ¬ T.NeverHidden := by
  obtain ⟨T, hrun, hclock, ⟨hqueued₀, htimeout₀⟩, hqueued, htimeout⟩ :=
    exists_twoRequests (show RunsThrough (-10) 100 = true by decide +kernel)
  have hreach : Reach (step 2) Started Asked T := by
    refine hrun.reach ?_ ?_ ?_
    · exact ⟨not_queued_blankEnvs 0, by decide⟩
    · exact fun T₁ hfresh _ => ⟨hfresh, by decide⟩
    · exact fun T₂ => by simp [Asked]
  have hlt : T.clock < 2 ^ 31 := by rw [hclock]; decide
  have hordered : T.Ordered fun _ => True :=
    .reach (fun _ _ hasked => ⟨hasked, fun _ _ _ => trivial⟩) hreach
  refine ⟨T, hreach, hclock, hqueued, htimeout, fun hnever => ?_⟩
  exact absurd ((hordered.neverHidden_iff hlt).1 hnever 0 (-10) hqueued₀ htimeout₀) (by decide)

end Unix

end Rtx
