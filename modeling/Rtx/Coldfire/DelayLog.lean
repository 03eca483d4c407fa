import Rtx.Coldfire.Ipc

/-!
# The delay service, read off the log

A delay is requested when its envelope is sent to the timer, accepted when the timer puts it into
the timeout list, and over when the timer sends the envelope back. `delays` reads this off the log:
the delays that are not over, by envelope. `Served` says of every event of the log that it is what
it should be, given the events before it; so it is the specification of the service.
-/

namespace Rtx.Coldfire

variable {n : ℕ}

/-! ## Delays -/

/-- A delay: who requested it, with what, and once it is accepted, how long it is and when that
was. -/
structure Delay (n : ℕ) where
  client : Fin n
  letter : Letter
  accepted : Option (ℤ × ℤ)

/-- The first word of the body. -/
def Letter.word (letter : Letter) : Option ℤ := letter.msg.map (getInt · 0)

/-- When an accepted delay expires. -/
def Delay.expiry (d : Delay n) : Option ℤ := d.accepted.map fun a => a.2 + a.1

/-- When an accepted delay expires, as the kernel computes it. -/
def Delay.deadline (d : Delay n) : Option ℤ := d.expiry.map wrap32

/-- What is in the envelope of an accepted delay: the deadline took the place of the delay. -/
def Delay.stored (d : Delay n) (deadline : ℤ) : Letter :=
  { d.letter with msg := d.letter.msg.map (putInt · 0 deadline) }

/-- The delays after an event. -/
def Event.track (timer : Fin n) (ds : EnvPtr → Option (Delay n)) :
    Event n → EnvPtr → Option (Delay n)
  | .sent p q env letter =>
    if q = timer then Function.update ds env (some ⟨p, letter, none⟩)
    else if p = timer then Function.update ds env none
    else ds
  | .delayed _ env delay time => Function.update ds env
    ((ds env).map fun d => { d with accepted := some (delay, time) })
  | _ => ds

/-- The delays that are not over. -/
def delays (timer : Fin n) (log : List (Event n)) : EnvPtr → Option (Delay n) :=
  log.foldr (fun ev ds => ev.track timer ds) fun _ => none

@[simp] theorem delays_nil (timer : Fin n) : delays timer [] = fun _ => none := rfl

@[simp] theorem delays_cons (timer : Fin n) (ev : Event n) (log : List (Event n)) :
    delays timer (ev :: log) = ev.track timer (delays timer log) := rfl

theorem Event.track_sent_of_ne {timer p q : Fin n} {ds : EnvPtr → Option (Delay n)}
    {env x : EnvPtr} {letter : Letter} (hx : env ≠ x) :
    (Event.sent p q x letter).track timer ds env = ds env := by
  rw [Event.track]
  split
  · exact Function.update_of_ne hx ..
  split
  · exact Function.update_of_ne hx ..
  · rfl

/-! ## The specification -/

/-- The event is right after `log`, if delays expire at `expiry`. The timer accepts a delay that was
requested, for as long as was requested. The one that expires is due, and no other is due earlier.
An envelope the timer sends is that of the delay that has just expired, and goes back to where it
came from, with the same type. No other process sends an envelope to the timer while it is that of
a delay. -/
def Event.Served (expiry : Delay n → Option ℤ) (timer : Fin n) (log : List (Event n)) :
    Event n → Prop
  | .delayed _ env delay _ => ∃ d, delays timer log env = some d ∧ d.accepted = none ∧
    d.letter.word = some delay
  | .expired _ env time => ∃ d deadline, delays timer log env = some d ∧
    expiry d = some deadline ∧ deadline ≤ time ∧ ∀ env' d' deadline',
      delays timer log env' = some d' → expiry d' = some deadline' → deadline ≤ deadline'
  | .sent p q env letter =>
    if p = timer then ∃ d, delays timer log env = some d ∧
      letter.destPid = d.letter.sendPid ∧ letter.msgType = d.letter.msgType ∧
      ∃ time log', log = .expired p env time :: log'
    else q = timer → delays timer log env = none
  | _ => True

/-- Every event of the log is right. -/
def Served (expiry : Delay n → Option ℤ) (timer : Fin n) : List (Event n) → Prop
  | [] => True
  | ev :: log => ev.Served expiry timer log ∧ Served expiry timer log

/-! ## What the delays come from -/

section Origin

variable {timer : Fin n} {log : List (Event n)} {env : EnvPtr} {d : Delay n} {delay time : ℤ}

/-- Where a delay comes from: it was there before, it is requested, or it is accepted. -/
theorem Event.track_cases {ev : Event n} {ds : EnvPtr → Option (Delay n)}
    (h : ev.track timer ds env = some d) :
    ds env = some d ∨ (∃ p letter, ev = .sent p timer env letter ∧ d = ⟨p, letter, none⟩) ∨
      ∃ p delay time d₀, ev = .delayed p env delay time ∧ ds env = some d₀ ∧
        d = { d₀ with accepted := some (delay, time) } := by
  cases ev with
  | sent p q x letter =>
    by_cases hx : env = x
    · subst hx
      simp only [Event.track] at h
      split at h
      · rename_i hq
        rw [Function.update_self] at h
        cases h
        exact .inr (.inl ⟨p, letter, by rw [hq], rfl⟩)
      split at h
      · rw [Function.update_self] at h; contradiction
      · exact .inl h
    · exact .inl ((Event.track_sent_of_ne hx).symm.trans h)
  | delayed p x delay time =>
    simp only [Event.track] at h
    by_cases hx : env = x
    · subst hx
      rw [Function.update_self] at h
      obtain ⟨d₀, hd₀, rfl⟩ := Option.map_eq_some_iff.1 h
      exact .inr (.inr ⟨p, delay, time, d₀, rfl, hd₀, rfl⟩)
    · rw [Function.update_of_ne hx] at h
      exact .inl h
  | _ => exact .inl h

theorem delays_sent (h : delays timer log env = some d) :
    .sent d.client timer env d.letter ∈ log := by
  induction log generalizing d with
  | nil => contradiction
  | cons ev log ih =>
    rcases Event.track_cases h with hd | ⟨p, letter, rfl, rfl⟩ |
      ⟨p, delay, time, d₀, -, hd, rfl⟩
    · exact List.mem_cons_of_mem ev (ih hd)
    · exact List.mem_cons_self
    · have hsent : .sent d₀.client timer env d₀.letter ∈ log := ih hd
      exact List.mem_cons_of_mem _ hsent

theorem delays_delayed (h : delays timer log env = some d) (ha : d.accepted = some (delay, time)) :
    ∃ p, .delayed p env delay time ∈ log := by
  induction log generalizing d with
  | nil => contradiction
  | cons ev log ih =>
    rcases Event.track_cases h with hd | ⟨p, letter, rfl, rfl⟩ |
      ⟨p, delay', time', d₀, rfl, -, rfl⟩
    · exact (ih hd ha).imp fun p hp => List.mem_cons_of_mem ev hp
    · contradiction
    · cases ha
      exact ⟨p, List.mem_cons_self⟩

end Origin

/-! ## At most one return -/

/-- The envelope is sent to the timer. -/
def Event.requests (timer : Fin n) (env : EnvPtr) : Event n → Bool
  | .sent _ q x _ => q = timer ∧ x = env
  | _ => false

/-- The timer sends the envelope back. -/
def Event.returns (timer : Fin n) (env : EnvPtr) : Event n → Bool
  | .sent p _ x _ => p = timer ∧ x = env
  | _ => false

/-- Each request of a delay is returned once, apart from one that is not over. -/
theorem Served.returned_once {expiry : Delay n → Option ℤ} {timer : Fin n} {log : List (Event n)}
    (h : Served expiry timer log) (env : EnvPtr) :
    log.countP (Event.returns timer env) + (delays timer log env).toList.length =
      log.countP (Event.requests timer env) := by
  induction log with
  | nil => rfl
  | cons ev log ih =>
    obtain ⟨hev, h⟩ := h
    have ih := ih h
    rw [List.countP_cons, List.countP_cons, delays_cons]
    cases ev with
    | sent p q x letter =>
      by_cases hx : x = env
      · subst hx
        simp only [Event.returns, Event.requests, Event.track, and_true, decide_eq_true_eq]
        by_cases hp : p = timer
        · -- The delay was there before.
          rw [Event.Served, if_pos hp] at hev
          obtain ⟨d, hd, -⟩ := hev
          rw [hd] at ih
          by_cases hq : q = timer
          · simp_all
          · simp_all
        · rw [Event.Served, if_neg hp] at hev
          by_cases hq : q = timer
          · rw [hev hq] at ih
            simp_all
          · simp_all
      · rw [Event.track_sent_of_ne (Ne.symm hx)]
        simpa [Event.returns, Event.requests, hx] using ih
    | delayed p x delay time =>
      by_cases hx : env = x
      · subst hx
        rw [Event.track, Function.update_self]
        cases hd : delays timer log env with
        | none => rw [hd] at ih; exact ih
        | some d => rw [hd] at ih; exact ih
      · rw [Event.track, Function.update_of_ne hx]
        exact ih
    | _ => exact ih

/-! ## Without overflow -/

/-- An accepted delay does not leave the 32 bits. -/
def Event.InRange : Event n → Prop
  | .delayed _ _ delay time => -2 ^ 31 ≤ time + delay ∧ time + delay < 2 ^ 31
  | _ => True

instance : (ev : Event n) → Decidable ev.InRange
  | .delayed _ _ delay time =>
    inferInstanceAs (Decidable (-2 ^ 31 ≤ time + delay ∧ time + delay < 2 ^ 31))
  | .requested .. | .released .. | .sent .. | .received .. | .expired .. | .copied .. =>
    isTrue trivial

theorem deadline_eq_expiry {timer : Fin n} {log : List (Event n)} {env : EnvPtr} {d : Delay n}
    (h : ∀ ev ∈ log, ev.InRange) (hd : delays timer log env = some d) :
    d.deadline = d.expiry := by
  rw [Delay.deadline]
  cases ha : d.accepted with
  | none => simp [Delay.expiry, ha]
  | some a =>
    obtain ⟨p, hp⟩ := delays_delayed hd ha
    obtain ⟨hlow, hhigh⟩ := h _ hp
    simp [Delay.expiry, ha, wrap32_of_range hlow hhigh]

/-- Without overflow the deadlines are what they should be. -/
theorem Served.exact {timer : Fin n} {log : List (Event n)}
    (h : Served Delay.deadline timer log) (hrange : ∀ ev ∈ log, ev.InRange) :
    Served Delay.expiry timer log := by
  induction log with
  | nil => trivial
  | cons ev log ih =>
    obtain ⟨hev, h⟩ := h
    have hrange : ∀ ev ∈ log, ev.InRange := fun ev hmem => hrange ev (List.mem_cons_of_mem _ hmem)
    refine ⟨?_, ih h hrange⟩
    have heq : ∀ {env d}, delays timer log env = some d → d.deadline = d.expiry := fun hd =>
      deadline_eq_expiry hrange hd
    cases ev with
    | expired p env time =>
      obtain ⟨d, deadline, hd, hdeadline, hdue, hfirst⟩ := hev
      refine ⟨d, deadline, hd, heq hd ▸ hdeadline, hdue, fun env' d' deadline' hd' he => ?_⟩
      exact hfirst env' d' deadline' hd' (by rw [heq hd', he])
    | _ => exact hev

/-! ## Deadlines ahead -/

/-- When the delay expires, if it is accepted at the latest at clock `time`. -/
def Delay.dueAt (time : ℤ) (d : Delay n) : Option ℤ :=
  match d.accepted with
  | some _ => d.deadline
  | none => d.letter.word.map fun delay => wrap32 (time + delay)

theorem Delay.dueAt_of_deadline {d : Delay n} {time deadline : ℤ} (h : d.deadline = some deadline) :
    d.dueAt time = some deadline := by
  rw [Delay.dueAt]
  cases ha : d.accepted with
  | none => rw [Delay.deadline, Delay.expiry, ha] at h; contradiction
  | some a => exact h

/-- The event is one of a timer that takes its requests at clock `time`. -/
def Event.IsIntake (time : ℤ) : Event n → Prop
  | .received .. => True
  | .delayed _ _ _ time' => time' = time
  | _ => False

theorem delays_intake {timer : Fin n} {log new : List (Event n)} {time : ℤ}
    (h : Served Delay.deadline timer (new ++ log)) (hnew : ∀ ev ∈ new, ev.IsIntake time)
    (env : EnvPtr) :
    (delays timer (new ++ log) env).bind (Delay.dueAt time) =
      (delays timer log env).bind (Delay.dueAt time) := by
  induction new with
  | nil => rfl
  | cons ev new ih =>
    obtain ⟨hev, h⟩ := h
    have ih := ih h fun ev hmem => hnew ev (List.mem_cons_of_mem _ hmem)
    rw [List.cons_append, delays_cons, ← ih]
    have hintake := hnew ev List.mem_cons_self
    cases ev with
    | received => rfl
    | delayed p x delay time' =>
      obtain rfl : time' = time := hintake
      obtain ⟨d, hd, haccepted, hword⟩ := hev
      by_cases hx : env = x
      · subst hx
        rw [Event.track, Function.update_self, show delays timer (new ++ log) env = some d from hd]
        simp [Delay.dueAt, haccepted, hword, Delay.deadline, Delay.expiry]
      · rw [Event.track, Function.update_of_ne hx]
    | _ => contradiction

end Rtx.Coldfire
