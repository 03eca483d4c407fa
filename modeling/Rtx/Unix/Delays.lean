import Rtx.Lib.Deadlines
import Rtx.Unix.Delivery
import Rtx.Unix.Faults

/-!
# The delay service

A delay is what a process asks for, in ticks. The timeout i-process takes the requests over at the
first tick after they were sent, and returns one envelope at a tick, so that an envelope may come
late: as late as there are others that are due before it. It is never early.

What is due when is read off the log (`dueOf`). That the envelopes in the timeout list say the same
needs requests that are not for the past, and not for a time beyond the integers (`Sensible`).
-/

namespace Rtx.Unix

open Transition Places Deadlines
open Coldfire (PcbInit wrap32)

variable {n : ℕ}

/-! ## Delays, read off the log -/

/-- What is due when, after an event. -/
def Event.due (due : EnvPtr → ℤ) : Event n → EnvPtr → ℤ
  | .delayed _ env delay time => Function.update due env (time.toNat + delay)
  | _ => due

/-- When an envelope is due, by its last delay. -/
def dueOf (log : List (Event n)) : EnvPtr → ℤ := log.foldr (fun ev due => ev.due due) fun _ => 0

/-- The envelopes in the timeout list. -/
def waiting (log : List (Event n)) : Finset EnvPtr := {env | spotOf log env = .timeoutQueue}

/-- A delay is not negative, and does not end beyond the integers. -/
def Event.Sensible : Event n → Prop
  | .delayed _ _ delay time => 0 ≤ delay ∧ (time.toNat : ℤ) + delay < 2 ^ 31
  | _ => True

instance (ev : Event n) : Decidable ev.Sensible :=
  match ev with
  | .delayed _ _ delay time =>
    inferInstanceAs (Decidable (0 ≤ delay ∧ (time.toNat : ℤ) + delay < 2 ^ 31))
  | .requested .. | .released .. | .sent .. | .received .. | .expired .. | .stored .. | .shown ..
  | .acked .. => .isTrue trivial

/-- Every delay is sensible. -/
def Sensible (log : List (Event n)) : Prop := ∀ ev ∈ log, ev.Sensible

instance (log : List (Event n)) : Decidable (Sensible log) :=
  inferInstanceAs (Decidable (∀ ev ∈ log, ev.Sensible))

/-- A delay is the number in the request that has just come. An envelope is returned when it is due,
or up to 31 ticks later, and before all that are due later. -/
structure OnTime (log : List (Event n)) : Prop where
  delayed : ∀ {p env delay time old}, .delayed p env delay time :: old <:+ log →
    ∃ letter old', old = .received p env letter :: old' ∧ letter.msg.map getInt = some delay
  expired : ∀ {p env time old}, .expired p env time :: old <:+ log →
    env ∈ waiting old ∧ dueOf old env ≤ time.toNat ∧ time.toNat ≤ dueOf old env + 31 ∧
      ∀ x ∈ waiting old, dueOf old env ≤ dueOf old x

/-- The event starts or ends a delay. -/
def Event.isTimeout : Event n → Bool
  | .delayed .. | .expired .. => true
  | _ => false

/-- The move starts or ends a delay, or moves the clock. -/
def MailMove.isTimeout : MailMove n → Bool
  | .tick | .insert .. | .expire .. => true
  | _ => false

variable {log : List (Event n)} {ev : Event n} {env : EnvPtr}

@[simp] theorem mem_waiting : env ∈ waiting log ↔ spotOf log env = .timeoutQueue := by
  simp [waiting]

theorem dueOf_cons (ev : Event n) (log : List (Event n)) : dueOf (ev :: log) = ev.due (dueOf log) :=
  rfl

theorem Sensible.tail (h : Sensible (ev :: log)) : Sensible log :=
  fun ev' hlog => h ev' (List.mem_cons_of_mem ev hlog)

/-- Sensible delays end at times that the comparison with the clock gets right. -/
theorem Sensible.dueOf (h : Sensible log) (env : EnvPtr) :
    0 ≤ dueOf log env ∧ dueOf log env < 2 ^ 31 := by
  induction log with
  | nil => exact ⟨le_rfl, by simp [Unix.dueOf]⟩
  | cons ev log ih =>
    rw [dueOf_cons]
    cases ev with
    | delayed p x delay time =>
      obtain ⟨hpos, hlt⟩ : Event.Sensible (.delayed p x delay time) := h _ List.mem_cons_self
      by_cases hx : env = x
      · subst hx
        rw [Event.due, Function.update_self]
        exact ⟨by omega, hlt⟩
      · rw [Event.due, Function.update_of_ne hx]
        exact ih h.tail
    | _ => exact ih h.tail

theorem dueOf_cons_of_not (h : ev.isTimeout = false) : dueOf (ev :: log) = dueOf log := by
  cases ev with
  | delayed | expired => contradiction
  | _ => rfl

theorem OnTime.other (h : OnTime log) (hev : ev.isTimeout = false) : OnTime (ev :: log) := by
  constructor
  · intro p env delay time old hold
    rcases List.suffix_cons_iff.1 hold with heq | hold
    · obtain ⟨rfl, -⟩ := List.cons.inj heq
      contradiction
    · exact h.delayed hold
  · intro p env time old hold
    rcases List.suffix_cons_iff.1 hold with heq | hold
    · obtain ⟨rfl, -⟩ := List.cons.inj heq
      contradiction
    · exact h.expired hold

namespace Ipc

variable {I I' : Ipc n} {L L' : Spot n → List EnvPtr} {m : MailMove n} {p : Fin n} {bound : ℤ}

/-! ## The timeout list keeps the time -/

/-- The bodies in the timeout list say what the log says, everything has come back on time, and
nothing is more than `bound` ticks late. -/
structure Timed (bound : ℤ) (I : Ipc n) : Prop where
  stored : ∀ env ∈ waiting I.log, I.timeouts.timeoutOf env = some (dueOf I.log env)
  onTime : OnTime I.log
  within : Within bound (waiting I.log) (dueOf I.log) I.clock.toNat

/-- So it is, if the requests were sensible. -/
def Punctual (bound : ℤ) (I : Ipc n) : Prop := Sensible I.log → Timed bound I

theorem card_waiting_le (log : List (Event n)) : (waiting log).card ≤ 32 := by
  have hle := Finset.card_le_univ (waiting log)
  rwa [Fintype.card_fin] at hle

theorem Keeps.mem_waiting (h : I.Keeps L) : env ∈ waiting I.log ↔ env ∈ L .timeoutQueue := by
  rw [Unix.mem_waiting, h.mem_iff]

theorem Effect.sensible (h : Effect I m I') (hsensible : Sensible I'.log) : Sensible I.log := by
  rw [h.log] at hsensible
  cases hev : m.event? I with
  | none => rwa [hev] at hsensible
  | some ev =>
    rw [hev] at hsensible
    exact hsensible.tail

/-! ### Other moves -/

theorem Moves.waiting_eq (h : Moves I L m I' L') (hkeeps : I.Keeps L) (hm : m.isTimeout = false) :
    waiting I'.log = waiting I.log := by
  have hL : L' .timeoutQueue = L .timeoutQueue := by
    cases h.transfer with
    | fill | write => rfl
    | tick | insert | expire => contradiction
    | _ => exact shift_other L (by simp) (by simp) ..
  ext x
  rw [h.keeps.mem_waiting, hkeeps.mem_waiting, hL]

theorem event?_isTimeout (hm : m.isTimeout = false) : ∀ ev ∈ m.event? I, ev.isTimeout = false := by
  intro ev hev
  cases m with
  | tick | insert | expire => contradiction
  | fill | write => cases hev
  | _ => cases hev; rfl

theorem Timed.other (h : Timed bound I) (hkeeps : I.Keeps L) (hproper : m.Proper I)
    (hmoves : Moves I L m I' L') (hm : m.isTimeout = false) : Timed bound I' := by
  have hwaiting := hmoves.waiting_eq hkeeps hm
  have hclock : I'.clock = I.clock := by
    rw [hmoves.effect.clock]
    cases m with
    | tick => contradiction
    | _ => rfl
  obtain ⟨hdue, honTime⟩ : dueOf I'.log = dueOf I.log ∧ OnTime I'.log := by
    rw [hmoves.effect.log]
    cases hev : m.event? I with
    | none => exact ⟨rfl, h.onTime⟩
    | some ev =>
      have hother := event?_isTimeout hm ev hev
      exact ⟨dueOf_cons_of_not hother, h.onTime.other hother⟩
  refine ⟨fun x hx => ?_, honTime, ?_⟩
  · rw [hwaiting] at hx
    rw [hdue, ← h.stored x hx]
    apply TimeoutMem.timeoutOf_congr
    show I'.letter x = I.letter x
    rw [hmoves.effect.letter, hkeeps.letter_of_mem hproper (by simp) (hkeeps.mem_waiting.1 hx)]
  · rw [hwaiting, hdue, hclock]
    exact h.within

theorem Punctual.other (h : Punctual bound I) (hkeeps : I.Keeps L) (hproper : m.Proper I)
    (hmoves : Moves I L m I' L') (hm : m.isTimeout = false) : Punctual bound I' :=
  fun hsensible => (h (hmoves.effect.sensible hsensible)).other hkeeps hproper hmoves hm

/-! ### A tick -/

theorem Timed.tick (h : Timed 31 I) (hclock : I.clock.toNat + 1 < 2 ^ 64) :
    Timed 32 { I with clock := I.clock + 1 } := by
  refine ⟨h.stored, h.onTime, ?_⟩
  have hcard : ((waiting I.log).card : ℤ) ≤ 31 + 1 := by
    have hle := card_waiting_le I.log
    omega
  have hnext : (((I.clock + 1).toNat : ℕ) : ℤ) = I.clock.toNat + 1 := by
    rw [UInt64.toNat_add, show (1 : UInt64).toNat = 1 from rfl, Nat.mod_eq_of_lt hclock]
    rfl
  show Within 32 (waiting I.log) (dueOf I.log) ((I.clock + 1).toNat : ℕ)
  rw [hnext]
  exact h.within.tick hcard

/-! ### A request -/

/-- A request that has just come is taken over. It is not due before now. -/
theorem Timed.insert (h : Timed 32 I) (hkeeps : I.Keeps L) (henv : I.HeldBy p env)
    (hcome : ∃ old, I.log = .received p env (I.letter env) :: old)
    (hmove : I.move (.insert p env) = some I') (hmoves : Moves I L (.insert p env) I' L')
    (hsensible : Sensible I'.log) : Timed 32 I' := by
  obtain ⟨delay, hdelay, -⟩ := Option.bind_eq_some_iff.1 hmove
  have hlog : I'.log = .delayed p env delay I.clock :: I.log := by
    rw [hmoves.effect.log, MailMove.event?, hdelay]
    rfl
  obtain ⟨hpos, hlt⟩ : 0 ≤ delay ∧ (I.clock.toNat : ℤ) + delay < 2 ^ 31 := by
    have hev : Event.Sensible (.delayed p env delay I.clock) := by
      apply hsensible
      rw [hlog]
      exact List.mem_cons_self
    exact hev
  have hnot : env ∉ waiting I.log := by
    rw [hkeeps.mem_waiting]
    exact hkeeps.partition.not_mem (hkeeps.mem_held henv) (by simp)
  have hwaiting : waiting I'.log = waiting I.log ∪ {env} := by
    ext x
    rw [hmoves.keeps.mem_waiting, hmoves.transfer.insert_perm.mem_iff, List.mem_cons,
      Finset.mem_union, Finset.mem_singleton, hkeeps.mem_waiting, or_comm]
  have hdue : dueOf I'.log = Function.update (dueOf I.log) env (I.clock.toNat + delay) := by
    rw [hlog]
    rfl
  refine ⟨fun x hx => ?_, ?_, ?_⟩
  · rw [hdue, hmoves.timeoutOf_insert]
    by_cases hxe : x = env
    · subst hxe
      have hwrap : wrap32 (I.clock.toNat + delay) = I.clock.toNat + delay :=
        Coldfire.wrap32_of_range (by omega) hlt
      rw [Function.update_self, Function.update_self, hdelay, Option.map_some, hwrap]
    · rw [hwaiting, Finset.mem_union, Finset.mem_singleton] at hx
      rw [Function.update_of_ne hxe, Function.update_of_ne hxe]
      exact h.stored x (hx.resolve_right hxe)
  · rw [hlog]
    constructor
    · intro p' x delay' time old hold
      rcases List.suffix_cons_iff.1 hold with heq | hold
      · cases heq
        obtain ⟨old, hold⟩ := hcome
        exact ⟨_, old, hold, hdelay⟩
      · exact h.onTime.delayed hold
    · intro p' x time old hold
      rcases List.suffix_cons_iff.1 hold with heq | hold
      · cases heq
      · exact h.onTime.expired hold
  · rw [hwaiting, hdue, hmoves.effect.clock]
    have hcard := card_waiting_le I'.log
    rw [hwaiting] at hcard
    refine (h.within.congr fun x hx => ?_).join (fun x hx => ?_) (by exact_mod_cast hcard)
    · exact Function.update_of_ne (ne_of_mem_of_not_mem hx hnot) ..
    · rw [Finset.mem_singleton.1 hx, Function.update_self]
      omega

/-! ### The end of a turn -/

theorem Timed.first (h : Timed bound I) (hkeeps : I.Keeps L) {l : List EnvPtr}
    (hl : L .timeoutQueue = env :: l) : ∀ x ∈ waiting I.log, dueOf I.log env ≤ dueOf I.log x := by
  intro x hx
  obtain ⟨due, hpending⟩ := hkeeps.pending
  have hstored : ∀ y ∈ L .timeoutQueue, I.timeouts.timeoutOf y = some (dueOf I.log y) :=
    fun y hy => h.stored y (hkeeps.mem_waiting.2 hy)
  have hsorted := (hpending.of_stored hstored).sorted
  rw [hkeeps.mem_waiting, hl] at hx
  rw [hl, List.pairwise_cons] at hsorted
  rcases List.mem_cons.1 hx with rfl | hx
  · exact le_rfl
  · exact hsorted.1 x hx

theorem Timed.check (h : Timed bound I) (hkeeps : I.Keeps L) (hsensible : Sensible I.log)
    {l : List EnvPtr} (hl : L .timeoutQueue = env :: l) : I.timeouts.checkTimeoutQueue =
      some (if dueOf I.log env ≤ I.clock.toNat then
        (some env, { I.timeouts with timeoutQueue := (I.mem env).next }) else
        (none, I.timeouts)) := by
  have henv : env ∈ waiting I.log := by
    rw [hkeeps.mem_waiting, hl]
    exact List.mem_cons_self
  have hhead : I.timeouts.timeoutQueue = some env := by
    obtain ⟨due, hpending⟩ := hkeeps.pending
    rw [hl] at hpending
    exact hpending.chain.1
  obtain ⟨hpos, hlt⟩ := hsensible.dueOf env
  have hunsigned : dueOf I.log env % 2 ^ 64 = dueOf I.log env := Int.emod_eq_of_lt hpos (by omega)
  simp only [TimeoutMem.checkTimeoutQueue, hhead, h.stored env henv, Option.bind_eq_bind,
    Option.bind_some, hunsigned]
  show (if dueOf I.log env ≤ I.clock.toNat then some _ else some _) = _
  split <;> rfl

/-- The envelope that is returned is due, was due first, and is not too late. So the others will not
be either. -/
theorem Timed.expire (h : Timed 32 I) (hkeeps : I.Keeps L) (hsensible : Sensible I.log)
    (hmove : I.move (.expire p env) = some I') (hmoves : Moves I L (.expire p env) I' L') :
    Timed 31 I' := by
  have hlog : I'.log = .expired p env I.clock :: I.log := hmoves.effect.log
  obtain ⟨l, hl, hL'⟩ : ∃ l, L .timeoutQueue = env :: l ∧ L' .timeoutQueue = l := by
    cases hmoves.transfer with
    | expire hl => exact ⟨_, hl, shift_src L (by simp) ..⟩
  have hdue : dueOf I.log env ≤ I.clock.toNat := by
    obtain ⟨⟨found, T⟩, hcheck, hfound⟩ := Option.bind_eq_some_iff.1 hmove
    obtain ⟨rfl, -⟩ := Option.ite_none_right_eq_some.1 hfound
    rw [h.check hkeeps hsensible hl] at hcheck
    by_contra hnot
    rw [if_neg hnot] at hcheck
    cases hcheck
  have henv : env ∈ waiting I.log := by
    rw [hkeeps.mem_waiting, hl]
    exact List.mem_cons_self
  have hfirst := h.first hkeeps hl
  have hnodup := hkeeps.partition.nodup .timeoutQueue
  rw [hl, List.nodup_cons] at hnodup
  have hwaiting : waiting I'.log = (waiting I.log).erase env := by
    ext x
    rw [hmoves.keeps.mem_waiting, hL', Finset.mem_erase, hkeeps.mem_waiting, hl, List.mem_cons]
    constructor
    · exact fun hx => ⟨ne_of_mem_of_not_mem hx hnodup.1, .inr hx⟩
    · exact fun hx => hx.2.resolve_left hx.1
  have hsame : dueOf I'.log = dueOf I.log := by rw [hlog]; rfl
  refine ⟨fun x hx => ?_, ?_, ?_⟩
  · rw [hwaiting] at hx
    rw [hsame, ← h.stored x (Finset.mem_of_mem_erase hx)]
    apply TimeoutMem.timeoutOf_congr
    exact congrFun hmoves.effect.letter x
  · rw [hlog]
    constructor
    · intro p' x delay time old hold
      rcases List.suffix_cons_iff.1 hold with heq | hold
      · cases heq
      · exact h.onTime.delayed hold
    · intro p' x time old hold
      rcases List.suffix_cons_iff.1 hold with heq | hold
      · cases heq
        have hlate := h.within.late henv hdue
        exact ⟨henv, hdue, by omega, hfirst⟩
      · exact h.onTime.expired hold
  · rw [hwaiting, hsame, hmoves.effect.clock]
    have hwithin : Within (31 + 1) (waiting I.log) (dueOf I.log) I.clock.toNat := h.within
    exact hwithin.serve henv hfirst

/-- Where nothing is returned, nothing is due. -/
theorem Timed.idle (h : Timed 32 I) (hkeeps : I.Keeps L) (hsensible : Sensible I.log)
    {T : TimeoutMem EnvPtr} (hcheck : I.timeouts.checkTimeoutQueue = some (none, T)) :
    Timed 31 I := by
  refine ⟨h.stored, h.onTime, Within.idle fun x hx => ?_⟩
  cases hl : L .timeoutQueue with
  | nil =>
    rw [hkeeps.mem_waiting, hl] at hx
    exact absurd hx List.not_mem_nil
  | cons env l =>
    rw [h.check hkeeps hsensible hl] at hcheck
    have hfirst := h.first hkeeps hl x hx
    by_contra hnot
    rw [if_pos (by omega)] at hcheck
    cases hcheck

end Ipc

namespace Kernel

variable {initTable : Fin n → PcbInit} {b s s' t t' : Kernel n} {l : RtxLabel} {i p : Fin n}
  {m : MailMove n} {bound : ℤ}

/-! ## Turns -/

theorem Turning.punctual {ipc : Ipc n} (h : Turning b l i p t) (hb : b.Serving initTable)
    (ht : Ipc.Punctual bound t.ipc) (hproper : m.Proper t.ipc) (hm : m.isTimeout = false)
    (hmove : t.ipc.move m = some ipc) : Ipc.Punctual bound ipc := by
  obtain ⟨⟨L, hkeeps⟩, -⟩ := h.serving hb
  obtain ⟨L', hmoves⟩ := hkeeps.move hproper hmove
  exact ht.other hkeeps hproper hmoves hm

theorem Turning.punctual_replies (h : Turning b l i p t) (hb : b.Serving initTable)
    (ht : Ipc.Punctual bound t.ipc) (henv : t.ipc.HeldBy i env) (hreply : Replies t env t') :
    Ipc.Punctual bound t'.ipc := by
  obtain ⟨letter, code, hletter, hsend⟩ := hreply
  have h₁ := h.fill henv hletter
  have hfilled : Ipc.Punctual bound (t.ipc.setLetter env letter) :=
    h.punctual hb ht (m := .fill i env letter) henv rfl rfl
  rcases kSendMessage_cases hsend with ⟨-, -, rfl⟩ |
    ⟨cur, q, ipc, sched, -, hcur, -, hmove, -, rfl⟩
  · exact hfilled
  · obtain rfl : i = cur := Option.some.inj (h₁.current.symm.trans hcur)
    exact h₁.punctual hb hfilled (m := .send i q env _ _) henv rfl hmove

/-- What the i-process is about to take over has just come. -/
def Come (t : Kernel n) (i : Fin n) (env : EnvPtr) : Prop :=
  t.ipc.HeldBy i env ∧ (t.ipc.mem env).next = none ∧
    ∃ old, t.ipc.log = .received i env (t.ipc.letter env) :: old

theorem Turning.come {ipc : Ipc n} (h : Turning b l i p t) (hb : b.Serving initTable)
    (hmove : t.ipc.move (.receive i env) = some ipc) : Come { t with ipc := ipc } i env := by
  obtain ⟨⟨L, hkeeps⟩, -⟩ := h.serving hb
  obtain ⟨L', hmoves, hnext⟩ := hkeeps.move_receive hmove
  refine ⟨(Ipc.held_receive hmove).1, hnext, t.ipc.log, ?_⟩
  have hletter : ipc.letter = t.ipc.letter := hmoves.effect.letter
  show ipc.log = .received i env (ipc.letter env) :: t.ipc.log
  rw [hletter]
  exact hmoves.effect.log

theorem Turning.punctual_drainRequests {fuel : ℕ} {found : Option EnvPtr} (h : Turning b l i p t)
    (hb : b.Serving initTable) (hi : pcbOf n timeoutIProcessPid = some i) (hl : l = .sigalrm)
    (ht : Ipc.Punctual 32 t.ipc) (hfound : ∀ env ∈ found, t.Come i env)
    (hdrain : t.drainRequests fuel found = some t') : Ipc.Punctual 32 t'.ipc := by
  induction fuel generalizing found t with
  | zero => contradiction
  | succ fuel ih =>
    cases found with
    | none => cases hdrain; exact ht
    | some env =>
      obtain ⟨henv, hnext, hcome⟩ := hfound env rfl
      obtain ⟨t₁, hinsert, hrest⟩ := Option.bind_eq_some_iff.1 hdrain
      obtain ⟨⟨found, t₂⟩, hreceive, hagain⟩ := Option.bind_eq_some_iff.1 hrest
      obtain ⟨ipc, hmove, rfl⟩ := insertTimeout_eq h.current hinsert
      have h₁ := h.insert hi hl henv hnext hmove
      have ht₁ : Ipc.Punctual 32 ipc := by
        obtain ⟨⟨L, hkeeps⟩, -⟩ := h.serving hb
        obtain ⟨L', hmoves⟩ := hkeeps.move_insert henv hnext hmove
        intro hsensible
        exact (ht (hmoves.effect.sensible hsensible)).insert hkeeps henv hcome hmove hmoves
          hsensible
      rcases receiveNow_cases h₁.current h₁.iProcess hreceive with ⟨-, rfl, rfl⟩ |
        ⟨env', ipc', rfl, hmove', rfl⟩
      · exact ih h₁ ht₁ (by simp) hagain
      · refine ih (h₁.receive hmove') ?_ (fun x hx => ?_) hagain
        · exact h₁.punctual hb ht₁ (m := .receive i env') trivial rfl hmove'
        · obtain rfl := Option.some.inj hx
          exact h₁.come hb hmove'

/-- A turn makes up for its tick. -/
theorem Turning.punctual_startTimeoutIProcess (h : Turning b l i p t) (hb : b.Serving initTable)
    (hi : pcbOf n timeoutIProcessPid = some i) (hl : l = .sigalrm)
    (hclock : t.ipc.clock.toNat + 1 < 2 ^ 64) (ht : Ipc.Punctual 31 t.ipc)
    (hturn : t.startTimeoutIProcess = some t') : Ipc.Punctual 31 t'.ipc := by
  obtain ⟨found, t₁, t₂, hreceive, hdrain, hexpire⟩ :=
    startTimeoutIProcess_eq h.current h.iProcess hturn
  have htick := h.tick hl
  have ht₀ : Ipc.Punctual 32 t.ticked.ipc := fun hsensible => (ht hsensible).tick hclock
  obtain ⟨h₂, ht₂⟩ : Turning b l i p t₂ ∧ Ipc.Punctual 32 t₂.ipc := by
    rcases hreceive with ⟨-, rfl, rfl⟩ | ⟨env, ipc, rfl, hmove, rfl⟩
    · exact ⟨htick.drainRequests hi hl (by simp) hdrain,
        htick.punctual_drainRequests hb hi hl ht₀ (by simp) hdrain⟩
    · have h₁ := htick.receive hmove
      have ht₁ := htick.punctual hb ht₀ (m := .receive i env) trivial rfl hmove
      have hcome : ∀ x ∈ some env, Come { t.ticked with ipc := ipc } i x := by
        intro x hx
        obtain rfl := Option.some.inj hx
        exact htick.come hb hmove
      exact ⟨h₁.drainRequests hi hl (fun x hx => ⟨(hcome x hx).1, (hcome x hx).2.1⟩) hdrain,
        h₁.punctual_drainRequests hb hi hl ht₁ hcome hdrain⟩
  obtain ⟨⟨L, hkeeps⟩, -⟩ := h₂.serving hb
  rcases expireTimeout_cases h₂.current hexpire with ⟨⟨T, hcheck⟩, rfl⟩ |
    ⟨env, ipc, hmove, hreply⟩
  · exact fun hsensible => (ht₂ hsensible).idle hkeeps hsensible hcheck
  · obtain ⟨h₃, henv⟩ := h₂.expire hi hl hmove
    obtain ⟨L', hmoves⟩ := hkeeps.move_expire hmove
    refine h₃.punctual_replies hb (fun hsensible => ?_) henv hreply
    have hbefore := hmoves.effect.sensible hsensible
    exact (ht₂ hbefore).expire hkeeps hbefore hmove hmoves

theorem drainRequests_empty {fuel : ℕ} {found : Option EnvPtr}
    (hcur : t.sched.currentProcess = some i) (hi : (t.sched.ids i).2 = true)
    (hfound : found = none → t.ipc.Empty (.recvMsgs i))
    (hdrain : t.drainRequests fuel found = some t') : t'.ipc.Empty (.recvMsgs i) := by
  induction fuel generalizing found t with
  | zero => contradiction
  | succ fuel ih =>
    cases found with
    | none => cases hdrain; exact hfound rfl
    | some env =>
      obtain ⟨t₁, hinsert, hrest⟩ := Option.bind_eq_some_iff.1 hdrain
      obtain ⟨⟨found, t₂⟩, hreceive, hagain⟩ := Option.bind_eq_some_iff.1 hrest
      obtain ⟨ipc, -, rfl⟩ := insertTimeout_eq hcur hinsert
      rcases receiveNow_cases (t := { t with ipc := ipc }) hcur hi hreceive with
        ⟨hempty, rfl, rfl⟩ | ⟨env', ipc', rfl, -, rfl⟩
      · exact ih (t := { t with ipc := ipc }) hcur hi (fun _ => hempty) hagain
      · exact ih (t := { t with ipc := ipc' }) hcur hi (fun h => by cases h) hagain

/-- No request waits after a turn: what is returned goes to another mailbox. -/
theorem Turning.startTimeoutIProcess_empty (h : Turning b l i p t) (hb : b.Serving initTable)
    (hi : pcbOf n timeoutIProcessPid = some i) (hl : l = .sigalrm)
    (hturn : t.startTimeoutIProcess = some t') : t'.ipc.Empty (.recvMsgs i) := by
  obtain ⟨found, t₁, t₂, hreceive, hdrain, hexpire⟩ :=
    startTimeoutIProcess_eq h.current h.iProcess hturn
  have htick := h.tick hl
  obtain ⟨h₂, hempty⟩ : Turning b l i p t₂ ∧ t₂.ipc.Empty (.recvMsgs i) := by
    rcases hreceive with ⟨hempty, rfl, rfl⟩ | ⟨env, ipc, rfl, hmove, rfl⟩
    · exact ⟨htick.drainRequests hi hl (by simp) hdrain,
        drainRequests_empty htick.current htick.iProcess (fun _ => hempty) hdrain⟩
    · have h₁ := htick.receive hmove
      have hheld : ∀ x ∈ some env, ipc.HeldBy i x ∧ (ipc.mem x).next = none := by
        intro x hx
        obtain rfl := Option.some.inj hx
        exact Ipc.held_receive hmove
      exact ⟨h₁.drainRequests hi hl hheld hdrain,
        drainRequests_empty h₁.current h₁.iProcess (fun hnone => by cases hnone) hdrain⟩
  obtain ⟨⟨L, hkeeps⟩, -⟩ := h₂.serving hb
  have hmail := hkeeps.empty_iff.1 hempty
  rcases expireTimeout_cases h₂.current hexpire with ⟨-, rfl⟩ | ⟨env, ipc, hmove, hreply⟩
  · exact hempty
  · obtain ⟨h₃, henv⟩ := h₂.expire hi hl hmove
    obtain ⟨L₃, hmoves⟩ := hkeeps.move_expire hmove
    obtain ⟨letter, code, hletter, hsend⟩ := hreply
    obtain ⟨L', hkeeps', -, hsame, -⟩ := h₃.replies_places hb henv hmoves.keeps hletter hsend
    refine hkeeps'.empty_iff.2 (hsame.trans ?_)
    cases hmoves.transfer with
    | expire hl => rw [shift_other L (by simp) (by simp), hmail]

/-! ## Steps -/

/-- No tick makes the clock start again. -/
def Ticks (s : Kernel n) (l : RtxLabel) : Prop := l = .sigalrm → s.ipc.clock.toNat + 1 < 2 ^ 64

instance (s : Kernel n) (l : RtxLabel) : Decidable (s.Ticks l) :=
  match l with
  | .sigalrm => decidable_of_iff (s.ipc.clock.toNat + 1 < 2 ^ 64) ⟨fun h _ => h, fun h => h rfl⟩
  | .call _ | .resume | .sigusr1 .. | .sigusr2 .. | .write .. => .isTrue fun h => by cases h

/-- Only at a tick is there anything to do about delays. -/
theorem Acting.punctual {a : Act n} {L L' : Spot n → List EnvPtr}
    (h : Acting initTable b l t a t' L L') (hl : l ≠ .sigalrm) (ht : Ipc.Punctual bound t.ipc) :
    Ipc.Punctual bound t'.ipc := by
  cases a with
  | mail m =>
    have hok : m.Ok b l t := h.ok
    have hm : m.isTimeout = false := by
      cases m with
      | tick => exact absurd hok hl
      | insert => exact absurd hok.2.2.2 hl
      | expire => exact absurd hok.2 hl
      | _ => rfl
    exact ht.other h.keeps hok.proper (h.moves m rfl) hm
  | sched | restore | crt =>
    rw [(h.same (by simp)).1]
    exact ht

theorem Serving.punctual_step (h : s.Serving initTable) (hs : Ipc.Punctual 31 s.ipc)
    (hcareful : s.Careful l) (hticks : s.Ticks l) (hstep : s.step l = some s') :
    Ipc.Punctual 31 s'.ipc := by
  by_cases hl : l = .sigalrm
  · subst hl
    obtain ⟨hsignal, cur, hcur⟩ := between_of_step hstep rfl
    obtain ⟨i, t, t', hi, hturning, hipc, hturn, hexit⟩ :=
      h.rested.enter (l := .sigalrm) hcur rfl hsignal
    have ht : Ipc.Punctual 31 t'.ipc := by
      refine hturning.punctual_startTimeoutIProcess h hi rfl ?_ (hipc ▸ hs) hturn
      rw [hipc]
      exact hticks rfl
    have h' := hturning.startTimeoutIProcess hi rfl hturn
    rw [(h'.exit hexit).2]
    exact ht
  · obtain ⟨L, hkeeps⟩ := h.keeps
    obtain ⟨-, -, -, hs'⟩ := h.rested.tracks (I := fun t _ => Ipc.Punctual 31 t.ipc) hkeeps hs
      hcareful (fun t a t' L L' hact ht => hact.punctual hl ht) hstep
    exact hs'

theorem Serving.sigalrm_empty (h : s.Serving initTable) (hstep : s.step .sigalrm = some s') :
    ∃ i, pcbOf n timeoutIProcessPid = some i ∧ s'.ipc.Empty (.recvMsgs i) := by
  obtain ⟨hsignal, cur, hcur⟩ := between_of_step hstep rfl
  obtain ⟨i, t, t', hi, hturning, -, hturn, hexit⟩ :=
    h.rested.enter (l := .sigalrm) hcur rfl hsignal
  have h' := hturning.startTimeoutIProcess hi rfl hturn
  refine ⟨i, hi, ?_⟩
  rw [(h'.exit hexit).2]
  exact hturning.startTimeoutIProcess_empty h hi rfl hturn

theorem Booted.punctual (h : Booted initTable s) : Ipc.Punctual 31 s.ipc := by
  obtain ⟨memory, S₀, -, -, hbooting, -⟩ := h.parts
  refine fun _ => ⟨fun x hx => ?_, ⟨fun hold => ?_, fun hold => ?_⟩, fun x hx => ?_⟩
  · rw [hbooting.log] at hx
    simp at hx
  · rw [hbooting.log] at hold
    simp at hold
  · rw [hbooting.log] at hold
    simp at hold
  · rw [hbooting.log] at hx
    simp at hx

end Kernel

/-- With a table that is `Tabled`, along every run of processes that only give away and write what
they have, and ask for no delay that is negative or ends beyond the integers, as long as the clock
does not start again: a delay is the number in the request the timeout i-process has just received;
its envelope is returned no earlier than its delay ends and at most 31 ticks later, before all that
are due later, and one that has not been returned is less than 31 ticks late; and after a tick no
request waits. -/
theorem delays_on_time {initTable : Fin n → PcbInit} {s : Kernel n} (htab : Tabled initTable)
    (hs : Reach Kernel.step (Kernel.Booted initTable) (fun s l => s.Careful l ∧ s.Ticks l) s)
    (hsensible : Sensible s.ipc.log) :
    OnTime s.ipc.log ∧
      (∀ env ∈ waiting s.ipc.log, (s.ipc.clock.toNat : ℤ) < dueOf s.ipc.log env + 31) ∧
      ∀ s', s.step .sigalrm = some s' →
        ∃ i, pcbOf n timeoutIProcessPid = some i ∧ s'.ipc.Empty (.recvMsgs i) := by
  obtain ⟨hserving, hpunctual⟩ :=
    hs.invariant (I := fun s => s.Serving initTable ∧ Ipc.Punctual 31 s.ipc)
      (fun s hs => ⟨(hs.serving htab).1, hs.punctual⟩) fun s l s' _ ⟨h, hp⟩ hl hstep =>
        ⟨h.acts (h.rested.step hl.1 hstep).1, h.punctual_step hp hl.1 hl.2 hstep⟩
  have htimed := hpunctual hsensible
  refine ⟨htimed.onTime, fun env henv => ?_, fun s' => hserving.sigalrm_empty⟩
  by_cases hdue : dueOf s.ipc.log env ≤ s.ipc.clock.toNat
  · have hlate := htimed.within.late henv hdue
    omega
  · omega

/-- The envelopes that were returned, and when, newest first. -/
def returns (log : List (Event n)) : List (EnvPtr × UInt64) :=
  log.filterMap fun
    | .expired _ env time => some (env, time)
    | _ => none

/-- Process A asks for two delays that end with the same tick. -/
def delayedTwice : List RtxLabel := [
  .call .requestMsgEnv,
  .call .requestMsgEnv,
  .call (.requestDelay 1 7 (some 0)),
  .call (.requestDelay 1 8 (some 1)),
  .sigalrm,
  .sigalrm,
  .sigalrm]

theorem delays_on_time_procCfg :
    ∃ s, ((Kernel.kInit Kernel.Ram.zero procCfg).bind fun s =>
        exec (guarded Kernel.step fun s l => s.Careful l ∧ s.Ticks l) s delayedTwice) = some s ∧
      (returns s.ipc.log = [(0, 3), (1, 2)] ∧ Sensible s.ipc.log) ∧
      OnTime s.ipc.log ∧
      (∀ env ∈ waiting s.ipc.log, (s.ipc.clock.toNat : ℤ) < dueOf s.ipc.log env + 31) ∧
      ∀ s', s.step .sigalrm = some s' →
        ∃ i, pcbOf 9 timeoutIProcessPid = some i ∧ s'.ipc.Empty (.recvMsgs i) := by
  have hrun : ((Kernel.kInit Kernel.Ram.zero procCfg).bind fun s =>
      exec (guarded Kernel.step fun s l => s.Careful l ∧ s.Ticks l) s delayedTwice).any (fun s =>
        decide (returns s.ipc.log = [(0, 3), (1, 2)] ∧ Sensible s.ipc.log)) = true := by
    decide +kernel
  obtain ⟨s, hs, hreturned⟩ := (Option.any_eq_true ..).1 hrun
  obtain ⟨s₀, hinit, hexec⟩ := Option.bind_eq_some_iff.1 hs
  have hreturns := of_decide_eq_true hreturned
  exact ⟨s, hs, hreturns,
    delays_on_time procCfg_tabled ((Reach.init ⟨_, hinit⟩).guarded hexec) hreturns.2⟩

end Rtx.Unix
