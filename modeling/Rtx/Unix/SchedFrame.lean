import Rtx.Coldfire.SchedFrame
import Rtx.Unix.Interrupts

/-!
# What the scheduler of the Unix port leaves alone

Where no assertion fails, a move is one of the ColdFire port, and so keeps what those keep, also
after a change of priority left a tail dangling: pids never change, no link leads to an i-process,
and i-processes are always ready outside an interrupt.
-/

namespace Rtx.Unix

open Coldfire (ProcessState ProcInfo Context PqPtr Sched)
open Coldfire.Sched (SamePointers Frame Regular)

variable {n : ℕ} {S S' : Sched n} {p q : Fin n} {m : SchedMove n}

/-! ## Moves of the ColdFire port -/

theorem wakeReceiver_cold (h : wakeReceiver S p = some S') : S.wakeReceiver p = some S' := by
  unfold wakeReceiver at h
  unfold Sched.wakeReceiver
  split at h
  · rename_i hp
    rw [if_pos hp]
    obtain ⟨⟨code, S₁⟩, henq, rfl⟩ := Option.map_eq_some_iff.1 h
    exact enqueueOn_enqueue henq
  · rename_i hp
    rw [if_neg hp]
    exact h

theorem wakeRequester_cold (h : wakeRequester S = some S') : S.wakeRequester = some S' := by
  unfold wakeRequester at h
  unfold Sched.wakeRequester
  obtain ⟨found, S₁, hdeq⟩ : ∃ found S₁, S.dequeue .blockedRequestEnvPq = (found, S₁) :=
    ⟨_, _, rfl⟩
  rw [hdeq] at h ⊢
  cases found with
  | none => exact h
  | some p =>
    obtain ⟨⟨code, S₂⟩, henq, h⟩ := Option.bind_eq_some_iff.1 h
    obtain ⟨-, h⟩ := Option.ite_none_right_eq_some.1 h
    cases h
    exact enqueueOn_enqueue henq

theorem schedMove_cold {m' : Coldfire.Move n} (hm : m.move? = some m')
    (h : schedMove S m = some S') : S.move m' = some S' := by
  cases m with
  | wakeReceiver p => cases hm; exact wakeReceiver_cold h
  | wakeRequester => cases hm; exact wakeRequester_cold h
  | blockReceive p => cases hm; exact h
  | toUser p => cases hm; exact h
  | changePriority newPriority targetProcessId => contradiction
  | blockRequest p =>
    cases hm
    obtain ⟨hcur, h⟩ := Option.ite_none_right_eq_some.1 h
    obtain ⟨S₁, hS₁, h⟩ := Option.bind_eq_some_iff.1 h
    obtain ⟨⟨code, S₂⟩, henq, rfl⟩ := Option.map_eq_some_iff.1 hS₁
    have hcur' : S.currentProcess = some p ∧ S.interruptedProcess = none := hcur
    show (if S.currentProcess = some p ∧ S.interruptedProcess = none then _ else _) = _
    rw [if_pos hcur', enqueueOn_enqueue henq]
    exact h
  | yield p =>
    cases hm
    obtain ⟨hcur, h⟩ := Option.ite_none_right_eq_some.1 h
    obtain ⟨S₁, hS₁, h⟩ := Option.bind_eq_some_iff.1 h
    obtain ⟨⟨code, S₂⟩, henq, rfl⟩ := Option.map_eq_some_iff.1 hS₁
    have hcur' : S.currentProcess = some p ∧ S.interruptedProcess = none := hcur
    show (if S.currentProcess = some p ∧ S.interruptedProcess = none then _ else _) = _
    rw [if_pos hcur', show S.yield p = some S₂ from enqueueOn_enqueue henq]
    exact h

/-- What `k_change_priority` can do: nothing at all, or give a legal target another priority, and
with it another place if it is in a queue. -/
theorem kChangePriority_cases {newPriority tid code : ℤ}
    (h : kChangePriority S newPriority tid = some (code, S')) :
    S' = S ∨ ∃ p, Reprioritises S.view newPriority tid p ∧
      (S' = S.setPriority p newPriority ∨ ∃ (pq : PqPtr) (S₁ : Sched n),
        S.remove pq p = some S₁ ∧ (S₁.setPriority p newPriority).enqueue pq p = some S') := by
  unfold kChangePriority at h
  split at h
  · cases h
    exact .inl rfl
  rename_i hrange
  split at h
  · cases h
    exact .inl rfl
  rename_i p hpcb
  split at h
  · cases h
    exact .inl rfl
  rename_i hturned
  split at h
  · cases h
    exact .inl rfl
  rename_i hsame
  have hi : (S.pTable p).isIProcess = false := by simpa using fun hi => hturned (.inl hi)
  refine .inr ⟨p, ⟨by omega, by omega, hpcb, hi, fun hpid => hturned (.inr hpid), hsame⟩, ?_⟩
  split at h
  · obtain ⟨S₁, hrem, h⟩ := Option.bind_eq_some_iff.1 h
    obtain ⟨⟨code', S₂⟩, henq, h⟩ := Option.bind_eq_some_iff.1 h
    cases h
    exact .inr ⟨.readyPq, S₁, hrem, enqueueOn_enqueue henq⟩
  · obtain ⟨S₁, hrem, h⟩ := Option.bind_eq_some_iff.1 h
    obtain ⟨⟨code', S₂⟩, henq, h⟩ := Option.bind_eq_some_iff.1 h
    cases h
    exact .inr ⟨.blockedRequestEnvPq, S₁, hrem, enqueueOn_enqueue henq⟩
  · cases h
    exact .inl rfl

/-! ## What every move keeps -/

theorem ids_setState (S : Sched n) (p : Fin n) (state : ProcessState) :
    (S.setState p state).ids = S.ids := by
  funext q
  by_cases hq : q = p
  · subst hq; simp [Sched.ids, Sched.view, Sched.setState, Sched.setInfo]
  · simp [Sched.ids, Sched.view, Sched.setState, Sched.setInfo, hq]

theorem wakeReceiver_ids (h : wakeReceiver S p = some S') : S'.ids = S.ids := by
  unfold wakeReceiver at h
  split at h
  · obtain ⟨⟨code, S₁⟩, henq, rfl⟩ := Option.map_eq_some_iff.1 h
    have hview := (Coldfire.Sched.enqueue_keeps (P := fun _ => True) (enqueueOn_enqueue henq)).1
    exact (Coldfire.Sched.ids_congr hview).trans (ids_setState ..)
  · cases h
    rfl

theorem kChangePriority_pointers {newPriority tid code : ℤ}
    (h : kChangePriority S newPriority tid = some (code, S')) : SamePointers S S' := by
  rcases kChangePriority_cases h with rfl | ⟨p, -, rfl | ⟨pq, S₁, hrem, henq⟩⟩
  · exact ⟨rfl, rfl⟩
  · exact ⟨rfl, rfl⟩
  · have h₁ := Coldfire.Sched.remove_pointers hrem
    have h₂ := Coldfire.Sched.enqueue_pointers henq
    exact ⟨h₂.1.trans h₁.1, h₂.2.trans h₁.2⟩

theorem kChangePriority_contexts {newPriority tid code : ℤ}
    (h : kChangePriority S newPriority tid = some (code, S')) : S'.contexts = S.contexts := by
  rcases kChangePriority_cases h with rfl | ⟨p, -, rfl | ⟨pq, S₁, hrem, henq⟩⟩
  · rfl
  · exact Coldfire.Sched.contexts_setInfo rfl
  · have h₁ := Coldfire.Sched.contexts_congr
      (Coldfire.Sched.remove_keeps (P := fun _ => True) hrem).1
    have h₂ : (S₁.setPriority p newPriority).contexts = S₁.contexts :=
      Coldfire.Sched.contexts_setInfo rfl
    have h₃ := Coldfire.Sched.contexts_congr
      (Coldfire.Sched.enqueue_keeps (P := fun _ => True) henq).1
    exact h₃.trans (h₂.trans h₁)

theorem frame_changePriority {B : Fin n → Prop} {newPriority tid code : ℤ}
    (h : kChangePriority S newPriority tid = some (code, S')) : Frame B S S' := by
  rcases kChangePriority_cases h with rfl | ⟨p, ⟨-, -, -, hi, -⟩, hmoved⟩
  · exact .same rfl rfl
  have hp : (S.ids p).2 = false := hi
  rcases hmoved with rfl | ⟨pq, S₁, hrem, henq⟩
  · exact .setPriority hp
  · have h₁ : Frame B S S₁ := .remove hrem
    have h₂ : Frame B S (S₁.setPriority p newPriority) :=
      h₁.trans (.setPriority (by rw [h₁.ids]; exact hp))
    exact h₂.trans (.enqueue (by rw [h₂.ids]; exact hp) henq)

/-- A move keeps the i-processes out of the scheduler's reach and every pid, and makes no process
wait for a message but the one it blocks. -/
theorem regular_move (h : S.Regular) (hm : schedMove S m = some S') :
    S'.Regular ∧ Frame (fun p => m = .blockReceive p) S S' := by
  cases hcold : m.move? with
  | some m' =>
    obtain ⟨hregular, hframe⟩ := h.move (schedMove_cold hcold hm)
    refine ⟨hregular, hframe.mono fun p hp => ?_⟩
    subst hp
    cases m with
    | blockReceive q => cases hcold; rfl
    | _ => cases hcold
  | none =>
    cases m with
    | changePriority newPriority tid =>
      obtain ⟨⟨code, S₁⟩, hchange, rfl⟩ := Option.map_eq_some_iff.1 hm
      have hframe := frame_changePriority (B := fun p =>
        SchedMove.changePriority newPriority tid = .blockReceive p) hchange
      refine ⟨h.of_frame hframe ?_, hframe⟩
      rw [Coldfire.Sched.running_congr (kChangePriority_pointers hchange)]
      exact h.running
    | _ => contradiction

/-- Outside an interrupt, a move ends outside an interrupt, with some process running. -/
theorem schedMove_pointers (hint : S.interruptedProcess = none) (hcur : S.currentProcess.isSome)
    (hm : schedMove S m = some S') :
    S'.interruptedProcess = none ∧ S'.currentProcess.isSome := by
  have hsame : SamePointers S S' → S'.interruptedProcess = none ∧ S'.currentProcess.isSome := by
    rintro ⟨hc, hi⟩
    exact ⟨hi.trans hint, hc ▸ hcur⟩
  have hswitch : ∀ {S₁ : Sched n} {state context}, S₁.interruptedProcess = none →
      S₁.kProcessSwitch state context = some S' →
      S'.interruptedProcess = none ∧ S'.currentProcess.isSome := by
    intro S₁ state context hint₁ h
    refine ⟨(Coldfire.Sched.kProcessSwitch_interrupted h).trans hint₁, ?_⟩
    unfold Sched.kProcessSwitch Sched.dispatch at h
    split at h
    · contradiction
    split at h
    · contradiction
    · cases h
      rfl
  cases m with
  | wakeReceiver p => exact hsame (Coldfire.Sched.wakeReceiver_pointers (wakeReceiver_cold hm))
  | wakeRequester => exact hsame (Coldfire.Sched.wakeRequester_pointers (wakeRequester_cold hm))
  | blockReceive p => exact hswitch hint (Option.ite_none_right_eq_some.1 hm).2
  | blockRequest p =>
    obtain ⟨S₁, hS₁, h⟩ := Option.bind_eq_some_iff.1 (Option.ite_none_right_eq_some.1 hm).2
    obtain ⟨⟨code, S₂⟩, henq, rfl⟩ := Option.map_eq_some_iff.1 hS₁
    exact hswitch ((Coldfire.Sched.enqueue_pointers (enqueueOn_enqueue henq)).2.trans hint) h
  | yield p =>
    obtain ⟨S₁, hS₁, h⟩ := Option.bind_eq_some_iff.1 (Option.ite_none_right_eq_some.1 hm).2
    obtain ⟨⟨code, S₂⟩, henq, rfl⟩ := Option.map_eq_some_iff.1 hS₁
    exact hswitch ((Coldfire.Sched.enqueue_pointers (enqueueOn_enqueue henq)).2.trans hint) h
  | toUser p =>
    obtain ⟨-, h⟩ := Option.ite_none_right_eq_some.1 hm
    cases h
    exact hsame ⟨rfl, rfl⟩
  | changePriority newPriority tid =>
    obtain ⟨⟨code, S₁⟩, hchange, rfl⟩ := Option.map_eq_some_iff.1 hm
    exact hsame (kChangePriority_pointers hchange)

end Rtx.Unix
