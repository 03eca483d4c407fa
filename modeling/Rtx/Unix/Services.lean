import Rtx.Unix.Conservation

/-!
# The services of the i-processes

An envelope that is sent to an i-process is a request, and what the i-process sends is its answer.
`lastSend` says who sent an envelope last, and to whom. As long as an i-process has an envelope, in
its mailbox, in its queues or in its hands, the envelope still says who sent it (`Serves`), so that
the answer goes there. Between two steps the i-processes hold nothing in their hands, so a request
that was not answered is in one of the queues of its i-process (`services_answer`).
-/

namespace Rtx.Unix

open Transition Places
open Coldfire (Body Letter MsgEnv PcbInit Sched codeSuccess)

variable {n : ℕ}

/-! ## Requests and answers -/

/-- Who sent the envelope last, and to whom. -/
def lastSend (log : List (Event n)) (env : EnvPtr) : Option (Fin n × Fin n) :=
  log.findSome? fun
    | .sent p q env' _ => if env' = env then some (p, q) else none
    | _ => none

/-- The process that looks after the envelopes of a place. -/
def Spot.keeper : Spot n → Option (Fin n)
  | .queue .freeEnvQ => none
  | .queue (.recvMsgs p) | .held p => some p
  | .queue .displayQueue | .screen => pcbOf n crtIProcessPid
  | .timeoutQueue => pcbOf n timeoutIProcessPid

/-- What an i-process sends, it sends to the process that had sent it that envelope. -/
def Answers (initTable : Fin n → PcbInit) (log : List (Event n)) : Prop :=
  ∀ l₁ l₂ i q env letter, log = l₁ ++ .sent i q env letter :: l₂ →
    (initTable i).isIProcess = true → lastSend l₂ env = some (q, i)

/-- The i-processes have what was sent to them last, and it says by whom. -/
structure Serves (initTable : Fin n → PcbInit) (I : Ipc n) : Prop where
  kept : ∀ {env q i}, (initTable i).isIProcess = true → lastSend I.log env = some (q, i) →
    (spotOf I.log env).keeper = some i
  asked : ∀ {env i}, (initTable i).isIProcess = true → (spotOf I.log env).keeper = some i →
    ∃ q, lastSend I.log env = some (q, i) ∧ (I.letter env).sendPid = (initTable q).pid
  answers : Answers initTable I.log

@[simp] theorem lastSend_sent (p q : Fin n) (env : EnvPtr) (letter : Letter)
    (log : List (Event n)) : lastSend (.sent p q env letter :: log) env = some (p, q) := by
  simp [lastSend]

theorem lastSend_cons_of_ne {ev : Event n} {env : EnvPtr} (log : List (Event n))
    (h : env ≠ ev.env) : lastSend (ev :: log) env = lastSend log env := by
  cases ev with
  | sent p q env' letter => simp [lastSend, show env' ≠ env from Ne.symm h]
  | _ => rfl

/-- The event is a send. -/
def Event.isSend : Event n → Bool
  | .sent .. => true
  | _ => false

theorem lastSend_silent {ev : Event n} (h : ev.isSend = false) (log : List (Event n)) :
    lastSend (ev :: log) = lastSend log := by
  funext env
  cases ev with
  | sent p q env' letter => contradiction
  | _ => rfl

theorem Answers.cons {initTable : Fin n → PcbInit} {log : List (Event n)} {ev : Event n}
    (h : Answers initTable log)
    (hev : ∀ i q env letter, ev = .sent i q env letter → (initTable i).isIProcess = true →
      lastSend log env = some (q, i)) : Answers initTable (ev :: log) := by
  intro l₁ l₂ i q env letter heq hi
  cases l₁ with
  | nil =>
    obtain ⟨rfl, rfl⟩ := List.cons.inj heq
    exact hev i q env letter rfl hi
  | cons ev' l₁ =>
    obtain ⟨-, rfl⟩ := List.cons.inj heq
    exact h l₁ l₂ i q env letter rfl hi

section Serves

variable {initTable : Fin n → PcbInit} {I I' : Ipc n} {p q : Fin n} {env : EnvPtr} {ev : Event n}
  {letter : Letter}

/-- Nothing was recorded, and nobody wrote to what an i-process has. -/
theorem Serves.same (h : Serves initTable I) (hlog : I'.log = I.log)
    (hletter : ∀ x i, (initTable i).isIProcess = true → (spotOf I.log x).keeper = some i →
      (I'.letter x).sendPid = (I.letter x).sendPid) : Serves initTable I' := by
  refine ⟨fun {x q i} => ?_, fun {x i} hi hx => ?_, ?_⟩
  · rw [hlog]
    exact h.kept
  · rw [hlog] at hx
    rw [hlog, hletter x i hi hx]
    exact h.asked hi hx
  · rw [hlog]
    exact h.answers

/-- An envelope goes elsewhere, and an i-process that had it keeps it. -/
theorem Serves.silent (h : Serves initTable I) (hev : ev.isSend = false)
    (hlog : I'.log = ev :: I.log)
    (hkeeper : ∀ i, (initTable i).isIProcess = true →
      (ev.spot.keeper = some i ↔ (spotOf I.log ev.env).keeper = some i))
    (hletter : ∀ x, (I'.letter x).sendPid = (I.letter x).sendPid) : Serves initTable I' := by
  have hspot : ∀ {x i}, (initTable i).isIProcess = true →
      ((spotOf I'.log x).keeper = some i ↔ (spotOf I.log x).keeper = some i) := by
    intro x i hi
    rw [hlog]
    by_cases hx : x = ev.env
    · subst hx
      rw [spotOf_cons_self]
      exact hkeeper i hi
    · rw [spotOf_cons_of_ne I.log hx]
  have hlast : lastSend I'.log = lastSend I.log := by rw [hlog, lastSend_silent hev]
  refine ⟨fun {x q i} hi hx => ?_, fun {x i} hi hx => ?_, ?_⟩
  · rw [hlast] at hx
    exact (hspot hi).2 (h.kept hi hx)
  · rw [hlast, hletter]
    exact h.asked hi ((hspot hi).1 hx)
  · rw [hlog]
    refine h.answers.cons fun i q env letter he _ => ?_
    rw [he] at hev
    contradiction

/-- An envelope is sent, by an i-process only as an answer. -/
theorem Serves.sent (h : Serves initTable I) (hlog : I'.log = .sent p q env letter :: I.log)
    (hanswer : (initTable p).isIProcess = true → lastSend I.log env = some (q, p))
    (hletter : (I'.letter env).sendPid = (initTable p).pid)
    (hother : ∀ x, x ≠ env → I'.letter x = I.letter x) : Serves initTable I' := by
  refine ⟨fun {x q' i} hi hx => ?_, fun {x i} hi hx => ?_, ?_⟩
  · rw [hlog] at hx ⊢
    by_cases hxe : x = env
    · subst hxe
      rw [lastSend_sent] at hx
      cases hx
      exact congrArg Spot.keeper (spotOf_cons_self (.sent p q x letter) I.log)
    · rw [lastSend_cons_of_ne I.log hxe] at hx
      rw [spotOf_cons_of_ne I.log hxe]
      exact h.kept hi hx
  · rw [hlog] at hx ⊢
    by_cases hxe : x = env
    · subst hxe
      have hq : (Spot.queue (.recvMsgs q)).keeper = some i :=
        (congrArg Spot.keeper (spotOf_cons_self (.sent p q x letter) I.log)).symm.trans hx
      cases hq
      exact ⟨p, lastSend_sent .., hletter⟩
    · rw [spotOf_cons_of_ne I.log hxe] at hx
      rw [lastSend_cons_of_ne I.log hxe, hother x hxe]
      exact h.asked hi hx
  · rw [hlog]
    refine h.answers.cons fun i q' env' letter' he hi => ?_
    cases he
    exact hanswer hi

end Serves

theorem Tabled.pcbOf {initTable : Fin n → PcbInit} (h : Tabled initTable) (p : Fin n) :
    Unix.pcbOf n (initTable p).pid = some p := by
  rw [h.pid, Unix.pcbOf, dif_pos ⟨by omega, by exact_mod_cast p.isLt⟩]
  simp

namespace Kernel

variable {initTable : Fin n → PcbInit} {b s s' t t' : Kernel n} {l : RtxLabel} {a : Act n}
  {L L' : Spot n → List EnvPtr} {i p : Fin n} {env : EnvPtr}

/-! ## Acts -/

theorem Rested.iProcess_iff (h : t.Rested initTable) (p : Fin n) :
    (t.sched.ids p).2 = true ↔ (initTable p).isIProcess = true := by
  rw [h.ids]

theorem Rested.user_current (h : t.Rested initTable) (hp : t.sched.currentProcess = some p) :
    (initTable p).isIProcess = false := by
  have hi := h.not_iProcess hp
  rw [h.ids] at hi
  exact hi

/-- What the running process holds, no i-process has. -/
theorem Acting.keeper_ne (hact : Acting initTable b l t a t' L L')
    (hp : t.sched.currentProcess = some p) (henv : t.ipc.HeldBy p env)
    (hi : (initTable i).isIProcess = true) : (spotOf t.ipc.log env).keeper ≠ some i := by
  intro hkeeper
  rw [henv] at hkeeper
  cases hkeeper
  rw [hact.before.user_current hp] at hi
  contradiction

theorem Serves.fill {letter : Letter} (h : Serves initTable t.ipc)
    (hact : Acting initTable b l t (.mail (.fill p env letter)) t' L L') :
    Serves initTable t'.ipc := by
  have he := (hact.moves _ rfl).effect
  obtain ⟨-, hheld, hsender⟩ : MailMove.Ok b l t (.fill p env letter) := hact.ok
  refine h.same he.log fun x i hi hx => ?_
  rw [he.letter, MailMove.letter]
  by_cases hxe : x = env
  · subst hxe
    rw [Function.update_self]
    rw [hheld] at hx
    cases hx
    exact hsender ((hact.before.iProcess_iff p).2 hi)
  · rw [Function.update_of_ne hxe]

theorem Serves.write {content : MsgEnv EnvPtr} (h : Serves initTable t.ipc)
    (hact : Acting initTable b l t (.mail (.write p env content)) t' L L') :
    Serves initTable t'.ipc := by
  have he := (hact.moves _ rfl).effect
  obtain ⟨hp, hheld⟩ : MailMove.Ok b l t (.write p env content) := hact.ok
  refine h.same he.log fun x i hi hx => ?_
  rw [he.letter, MailMove.letter]
  by_cases hxe : x = env
  · subst hxe
    exact absurd hx (hact.keeper_ne hp hheld hi)
  · rw [Function.update_of_ne hxe]

/-- An i-process sends to whoever is in the envelope's sender field. -/
theorem Serves.send {sendPid destPid : ℤ} (h : Serves initTable t.ipc) (htab : Tabled initTable)
    (hact : Acting initTable b l t (.mail (.send p q env sendPid destPid)) t' L L') :
    Serves initTable t'.ipc := by
  have he := (hact.moves _ rfl).effect
  obtain ⟨-, hheld, hsender, hq, hdest⟩ : MailMove.Ok b l t (.send p q env sendPid destPid) :=
    hact.ok
  have hids : (t.sched.ids p).1 = (initTable p).pid := by rw [hact.before.ids]
  refine h.sent he.log (fun hi => ?_) ?_ fun x hx => ?_
  · obtain ⟨q', hlast, hpid⟩ := h.asked hi (congrArg Spot.keeper hheld)
    rw [hdest ((hact.before.iProcess_iff p).2 hi), hpid, htab.pcbOf] at hq
    cases hq
    exact hlast
  · rw [he.letter, MailMove.letter, Function.update_self]
    exact hsender.trans hids
  · rw [he.letter, MailMove.letter, Function.update_of_ne hx]

theorem Serves.receive (h : Serves initTable t.ipc)
    (hact : Acting initTable b l t (.mail (.receive p env)) t' L L')
    (hspot : spotOf t.ipc.log env = .queue (.recvMsgs p)) : Serves initTable t'.ipc := by
  have he := (hact.moves _ rfl).effect
  refine h.silent rfl he.log (fun i _ => ?_) fun x => by rw [he.letter]; rfl
  rw [show spotOf t.ipc.log (Event.received p env (t.ipc.letter env)).env = _ from hspot]
  rfl

/-- Only the running process, no i-process, is given a free envelope. -/
theorem Serves.request (h : Serves initTable t.ipc)
    (hact : Acting initTable b l t (.mail (.request p env)) t' L L')
    (hspot : spotOf t.ipc.log env = .queue .freeEnvQ) : Serves initTable t'.ipc := by
  have he := (hact.moves _ rfl).effect
  have hp : MailMove.Ok b l t (.request p env) := hact.ok
  refine h.silent rfl he.log (fun i hi => ?_) fun x => by rw [he.letter]; rfl
  rw [show spotOf t.ipc.log (Event.requested p env).env = _ from hspot]
  refine ⟨fun hkeeper => ?_, fun hi => (by cases hi)⟩
  cases hkeeper
  rw [hact.before.user_current hp] at hi
  contradiction

theorem Serves.release (h : Serves initTable t.ipc)
    (hact : Acting initTable b l t (.mail (.release p env)) t' L L') :
    Serves initTable t'.ipc := by
  have he := (hact.moves _ rfl).effect
  obtain ⟨hp, hheld⟩ : MailMove.Ok b l t (.release p env) := hact.ok
  refine h.silent rfl he.log (fun i hi => ⟨fun hi => (by cases hi), fun hkeeper => ?_⟩)
    fun x => ?_
  · exact absurd hkeeper (hact.keeper_ne hp hheld hi)
  · rw [he.letter]
    rfl

/-- What is on the timeout list, the timeout process keeps. -/
theorem Serves.insert (h : Serves initTable t.ipc)
    (hact : Acting initTable b l t (.mail (.insert p env)) t' L L') :
    Serves initTable t'.ipc := by
  have he := (hact.moves _ rfl).effect
  obtain ⟨⟨hpid, -⟩, hheld, -⟩ : MailMove.Ok b l t (.insert p env) := hact.ok
  obtain ⟨delay, hdelay⟩ : ∃ delay, t.ipc.timeouts.timeoutOf env = some delay := by
    obtain ⟨delay, hdelay, -⟩ := Option.bind_eq_some_iff.1 (act_mail hact.act).1
    exact ⟨delay, hdelay⟩
  have hlog : t'.ipc.log = .delayed p env delay t.ipc.clock :: t.ipc.log := by
    rw [he.log, MailMove.event?, hdelay]
    rfl
  refine h.silent rfl hlog (fun i _ => ?_) fun x => ?_
  · rw [show spotOf t.ipc.log (Event.delayed p env delay t.ipc.clock).env = _ from hheld]
    show pcbOf n timeoutIProcessPid = some i ↔ some p = some i
    rw [hpid]
  · rw [he.letter, MailMove.letter]
    by_cases hx : x = env
    · subst hx
      rw [Function.update_self]
    · rw [Function.update_of_ne hx]

theorem Serves.expire (h : Serves initTable t.ipc)
    (hact : Acting initTable b l t (.mail (.expire p env)) t' L L')
    (hspot : spotOf t.ipc.log env = .timeoutQueue) : Serves initTable t'.ipc := by
  have he := (hact.moves _ rfl).effect
  obtain ⟨⟨hpid, -⟩, -⟩ : MailMove.Ok b l t (.expire p env) := hact.ok
  refine h.silent rfl he.log (fun i _ => ?_) fun x => by rw [he.letter]; rfl
  rw [show spotOf t.ipc.log (Event.expired p env t.ipc.clock).env = _ from hspot]
  show some p = some i ↔ pcbOf n timeoutIProcessPid = some i
  rw [hpid]

/-- What waits for the display, the CRT process keeps. -/
theorem Serves.store (h : Serves initTable t.ipc)
    (hact : Acting initTable b l t (.mail (.store p env)) t' L L') : Serves initTable t'.ipc := by
  have he := (hact.moves _ rfl).effect
  obtain ⟨⟨hpid, -⟩, hheld⟩ : MailMove.Ok b l t (.store p env) := hact.ok
  refine h.silent rfl he.log (fun i _ => ?_) fun x => by rw [he.letter]; rfl
  rw [show spotOf t.ipc.log (Event.stored p env).env = _ from hheld]
  show pcbOf n crtIProcessPid = some i ↔ some p = some i
  rw [hpid]

theorem Serves.display (h : Serves initTable t.ipc)
    (hact : Acting initTable b l t (.mail (.display p env)) t' L L')
    (hspot : spotOf t.ipc.log env = .queue .displayQueue) : Serves initTable t'.ipc := by
  have he := (hact.moves _ rfl).effect
  refine h.silent rfl he.log (fun i _ => ?_) fun x => by rw [he.letter]; rfl
  rw [show spotOf t.ipc.log (Event.shown p env).env = _ from hspot]
  rfl

theorem Serves.ack (h : Serves initTable t.ipc)
    (hact : Acting initTable b l t (.mail (.ack p env)) t' L L')
    (hspot : spotOf t.ipc.log env = .screen) : Serves initTable t'.ipc := by
  have he := (hact.moves _ rfl).effect
  obtain ⟨⟨hpid, -⟩, -⟩ : MailMove.Ok b l t (.ack p env) := hact.ok
  refine h.silent rfl he.log (fun i _ => ?_) fun x => by rw [he.letter]; rfl
  rw [show spotOf t.ipc.log (Event.acked p env).env = _ from hspot]
  show some p = some i ↔ pcbOf n crtIProcessPid = some i
  rw [hpid]

theorem Serves.move {m : MailMove n} (h : Serves initTable t.ipc) (htab : Tabled initTable)
    (hact : Acting initTable b l t (.mail m) t' L L') : Serves initTable t'.ipc := by
  have hmoves := hact.moves m rfl
  have hkeeps := hact.keeps
  -- A queue gives its first envelope.
  cases hmoves.transfer with
  | fill => exact Serves.fill h hact
  | write => exact Serves.write h hact
  | tick =>
    have he := hmoves.effect
    exact h.same he.log fun x i _ _ => by rw [he.letter]; rfl
  | send => exact Serves.send h htab hact
  | @receive p env l hl => exact Serves.receive h hact (hkeeps.spot (hl ▸ List.mem_cons_self))
  | @request p env l hl => exact Serves.request h hact (hkeeps.spot (hl ▸ List.mem_cons_self))
  | release => exact Serves.release h hact
  | insert => exact Serves.insert h hact
  | @expire p env l hl => exact Serves.expire h hact (hkeeps.spot (hl ▸ List.mem_cons_self))
  | store => exact Serves.store h hact
  | @display p env l hl => exact Serves.display h hact (hkeeps.spot (hl ▸ List.mem_cons_self))
  | @ack p env henv => exact Serves.ack h hact (hkeeps.spot henv)

theorem Serves.act (h : Serves initTable t.ipc) (htab : Tabled initTable)
    (hact : Acting initTable b l t a t' L L') : Serves initTable t'.ipc := by
  cases a with
  | mail m => exact Serves.move h htab hact
  | _ => rwa [(hact.same nofun).1]

end Kernel

/-! ## In hand -/

/-- The i-processes hold nothing but this envelope. -/
def InHand (initTable : Fin n → PcbInit) (I : Ipc n) (held : Option EnvPtr) : Prop :=
  ∀ i env, (initTable i).isIProcess = true → I.HeldBy i env → held = some env

section InHand

variable {initTable : Fin n → PcbInit} {I I' : Ipc n} {ev : Event n} {held : Option EnvPtr}

theorem InHand.congr (h : InHand initTable I held) (hlog : I'.log = I.log) :
    InHand initTable I' held := by
  intro i env hi henv
  rw [Ipc.HeldBy, hlog] at henv
  exact h i env hi henv

theorem InHand.take (h : InHand initTable I none) (hlog : I'.log = ev :: I.log) :
    InHand initTable I' (some ev.env) := by
  intro i env hi henv
  rw [Ipc.HeldBy, hlog] at henv
  by_cases hx : env = ev.env
  · rw [hx]
  · rw [spotOf_cons_of_ne I.log hx] at henv
    exact absurd (h i env hi henv) nofun

theorem InHand.give (h : InHand initTable I held) (hlog : I'.log = ev :: I.log)
    (hheld : ∀ env ∈ held, env = ev.env)
    (hspot : ∀ i, (initTable i).isIProcess = true → ev.spot ≠ .held i) :
    InHand initTable I' none := by
  intro i env hi henv
  rw [Ipc.HeldBy, hlog] at henv
  by_cases hx : env = ev.env
  · subst hx
    rw [spotOf_cons_self] at henv
    exact absurd henv (hspot i hi)
  · rw [spotOf_cons_of_ne I.log hx] at henv
    exact absurd (hheld env (h i env hi henv)) hx

end InHand

namespace Kernel

variable {initTable : Fin n → PcbInit} {b s s' t t' : Kernel n} {l : RtxLabel} {a : Act n}
  {L L' : Spot n → List EnvPtr} {i p : Fin n} {env : EnvPtr} {held : Option EnvPtr}

/-- Outside a signal nothing comes to an i-process. -/
theorem InHand.act (h : InHand initTable t.ipc none) (hl : l.isSignal = false)
    (hact : Acting initTable b l t a t' L L') : InHand initTable t'.ipc none := by
  cases a with
  | mail m =>
    have hlog := (hact.moves m rfl).effect.log
    have hok : m.Ok b l t := hact.ok
    have huser : ∀ {p}, t.sched.currentProcess = some p → ∀ i, (initTable i).isIProcess = true →
        Spot.held p ≠ .held i := by
      intro p hp i hi heq
      cases heq
      rw [hact.before.user_current hp] at hi
      contradiction
    cases m with
    | fill | write | tick => exact h.congr hlog
    | send | release | store | display => exact h.give hlog (by simp) (by simp [Event.spot])
    | insert p env =>
      obtain ⟨delay, hdelay, -⟩ := Option.bind_eq_some_iff.1 (act_mail hact.act).1
      rw [MailMove.event?, hdelay] at hlog
      exact h.give hlog (by simp) (by simp [Event.spot])
    | receive p env =>
      refine h.give hlog (by simp) (huser (hok.resolve_right fun hs => ?_).1)
      rw [hl] at hs
      exact absurd hs.2 (by simp)
    | request p env => exact h.give hlog (by simp) (huser hok)
    | expire p env =>
      rw [hok.2] at hl
      contradiction
    | ack p env =>
      obtain ⟨-, second, rfl⟩ := hok
      contradiction
  | _ => exact (hact.same (by simp)).1 ▸ h

/-! ## Turns -/

/-- What the turns of the i-processes rely on. -/
structure Serving (initTable : Fin n → PcbInit) (s : Kernel n) : Prop where
  tabled : Tabled initTable
  rested : s.Rested initTable
  keeps : ∃ L, s.ipc.Keeps L
  serves : Serves initTable s.ipc

theorem Serving.acts (h : b.Serving initTable)
    (hreach : Reach Kernel.act (· = b) (Act.Ok b l) t) : t.Serving initTable := by
  obtain ⟨L, hkeeps⟩ := h.keeps
  obtain ⟨hrested, L', hkeeps', hserves⟩ := h.rested.tracks_acts hkeeps
    (I := fun t _ => Serves initTable t.ipc) h.serves
    (fun t a t' L L' hact ht => Serves.act ht h.tabled hact) hreach
  exact ⟨h.tabled, hrested, ⟨L', hkeeps'⟩, hserves⟩

/-- In a turn, the i-process works on envelopes that are in their places. -/
theorem Turning.serving (h : Turning b l i p t) (hb : b.Serving initTable) :
    (∃ L, t.ipc.Keeps L) ∧ Serves initTable t.ipc ∧ (initTable i).isIProcess = true := by
  have hseen := hb.acts h.done
  refine ⟨by simpa using hseen.keeps, by simpa using hseen.serves, ?_⟩
  rw [← hseen.rested.iProcess_iff, ids_seen]
  exact h.iProcess

theorem Turning.hand_receive {ipc : Ipc n} (h : Turning b l i p t) (hb : b.Serving initTable)
    (hhand : InHand initTable t.ipc none) (hmove : t.ipc.move (.receive i env) = some ipc) :
    InHand initTable ipc (some env) := by
  obtain ⟨⟨L, hkeeps⟩, -⟩ := h.serving hb
  obtain ⟨L', hmoves, -⟩ := hkeeps.move_receive hmove
  exact hhand.take hmoves.effect.log

/-- The sender of the envelope is known, so an answer is sent. -/
theorem Turning.hand_replies (h : Turning b l i p t) (hb : b.Serving initTable)
    (hhand : InHand initTable t.ipc (some env)) (henv : t.ipc.HeldBy i env)
    (hreply : Replies t env t') : InHand initTable t'.ipc none := by
  obtain ⟨letter, code, hletter, hsend⟩ := hreply
  have h₁ := h.fill henv hletter
  obtain ⟨⟨L, hkeeps⟩, hserves, hi⟩ := h₁.serving hb
  rcases kSendMessage_cases hsend with ⟨-, hnone, -⟩ |
    ⟨cur, q, ipc, sched, -, hcur, hpcb, hmove, hwake, rfl⟩
  · have hkeeper : (spotOf t.ipc.log env).keeper = some i := by
      rw [show spotOf t.ipc.log env = .held i from henv]
      rfl
    obtain ⟨q, -, hpid⟩ := hserves.asked hi hkeeper
    rw [Ipc.letter_setLetter, Function.update_self] at hpid
    rw [hpid, hb.tabled.pcbOf] at hnone
    contradiction
  · obtain rfl : i = cur := Option.some.inj (h₁.current.symm.trans hcur)
    obtain ⟨L', hmoves⟩ := hkeeps.move (m := .send i q env _ _) henv hmove
    have hhand₁ : InHand initTable (t.ipc.setLetter env letter) (some env) := hhand.congr rfl
    exact hhand₁.give hmoves.effect.log (fun x hx => (Option.some.inj hx).symm) nofun

theorem Turning.hand_drainRequests {fuel : ℕ} {found : Option EnvPtr} (h : Turning b l i p t)
    (hb : b.Serving initTable) (hi : pcbOf n timeoutIProcessPid = some i) (hl : l = .sigalrm)
    (hhand : InHand initTable t.ipc found)
    (hfound : ∀ env ∈ found, t.ipc.HeldBy i env ∧ (t.ipc.mem env).next = none)
    (hdrain : t.drainRequests fuel found = some t') : InHand initTable t'.ipc none := by
  induction fuel generalizing found t with
  | zero => contradiction
  | succ fuel ih =>
    cases found with
    | none => cases hdrain; exact hhand
    | some env =>
      obtain ⟨henv, hnext⟩ := hfound env rfl
      obtain ⟨t₁, hinsert, hrest⟩ := Option.bind_eq_some_iff.1 hdrain
      obtain ⟨⟨found, t₂⟩, hreceive, hagain⟩ := Option.bind_eq_some_iff.1 hrest
      obtain ⟨ipc, hmove, rfl⟩ := insertTimeout_eq h.current hinsert
      have h₁ := h.insert hi hl henv hnext hmove
      have hhand₁ : InHand initTable ipc none := by
        obtain ⟨⟨L, hkeeps⟩, -⟩ := h.serving hb
        obtain ⟨L', hmoves⟩ := hkeeps.move_insert henv hnext hmove
        have hlog := hmoves.effect.log
        obtain ⟨delay, hdelay, -⟩ := Option.bind_eq_some_iff.1 hmove
        rw [MailMove.event?, hdelay] at hlog
        exact hhand.give hlog (fun x hx => (Option.some.inj hx).symm) (by simp [Event.spot])
      rcases receiveNow_cases h₁.current h₁.iProcess hreceive with ⟨-, rfl, rfl⟩ |
        ⟨env', ipc', rfl, hmove', rfl⟩
      · exact ih h₁ hhand₁ (by simp) hagain
      · refine ih (h₁.receive hmove') (h₁.hand_receive hb hhand₁ hmove') (fun x hx => ?_) hagain
        obtain rfl := Option.some.inj hx
        exact Ipc.held_receive hmove'

theorem Turning.hand_startTimeoutIProcess (h : Turning b l i p t) (hb : b.Serving initTable)
    (hi : pcbOf n timeoutIProcessPid = some i) (hl : l = .sigalrm)
    (hhand : InHand initTable t.ipc none) (hturn : t.startTimeoutIProcess = some t') :
    InHand initTable t'.ipc none := by
  obtain ⟨found, t₁, t₂, hreceive, hdrain, hexpire⟩ :=
    startTimeoutIProcess_eq h.current h.iProcess hturn
  have htick := h.tick hl
  have hhand₀ : InHand initTable t.ticked.ipc none := hhand.congr rfl
  obtain ⟨h₂, hhand₂⟩ : Turning b l i p t₂ ∧ InHand initTable t₂.ipc none := by
    rcases hreceive with ⟨-, rfl, rfl⟩ | ⟨env, ipc, rfl, hmove, rfl⟩
    · exact ⟨htick.drainRequests hi hl (by simp) hdrain,
        htick.hand_drainRequests hb hi hl hhand₀ (by simp) hdrain⟩
    · have hheld : ∀ x ∈ some env, ipc.HeldBy i x ∧ (ipc.mem x).next = none := by
        intro x hx
        obtain rfl := Option.some.inj hx
        exact Ipc.held_receive hmove
      have h₁ := htick.receive hmove
      exact ⟨h₁.drainRequests hi hl hheld hdrain,
        h₁.hand_drainRequests hb hi hl (htick.hand_receive hb hhand₀ hmove) hheld hdrain⟩
  rcases expireTimeout_cases h₂.current hexpire with ⟨-, rfl⟩ | ⟨env, ipc, hmove, hreply⟩
  · exact hhand₂
  · obtain ⟨h₃, henv⟩ := h₂.expire hi hl hmove
    obtain ⟨⟨L, hkeeps⟩, -⟩ := h₂.serving hb
    obtain ⟨L', hmoves⟩ := hkeeps.move_expire hmove
    exact h₃.hand_replies hb (hhand₂.take hmoves.effect.log) henv hreply

theorem Turning.hand_startKbIProcess {length : ℤ} {data : Body} (h : Turning b l i p t)
    (hb : b.Serving initTable) (hhand : InHand initTable t.ipc none)
    (hturn : t.startKbIProcess length data = some t') : InHand initTable t'.ipc none := by
  rcases startKbIProcess_cases h.current h.iProcess hturn with rfl | ⟨env, ipc, hmove, hreply⟩
  · exact hhand
  · exact (h.receive hmove).hand_replies hb (h.hand_receive hb hhand hmove)
      (Ipc.held_receive hmove).1 hreply

theorem Turning.hand_startCrtIProcess {first second : CrtFlag} (h : Turning b l i p t)
    (hb : b.Serving initTable) (hi : pcbOf n crtIProcessPid = some i)
    (hl : l = .sigusr2 first second) (hhand : InHand initTable t.ipc none)
    (hturn : t.startCrtIProcess first second = some t') : InHand initTable t'.ipc none := by
  obtain ⟨t₁, hack, hrest⟩ := Option.bind_eq_some_iff.1 hturn
  obtain ⟨t₂, hstore, hshow⟩ := Option.bind_eq_some_iff.1 hrest
  have h₁ := (h.crtAck hi hl hack).1
  have hhand₁ : InHand initTable t₁.ipc none := by
    rcases crtAck_cases h.current hack with ⟨rfl, -⟩ | ⟨rfl, -, env, ipc, hmove, hreply⟩
    · exact hhand
    · obtain ⟨⟨L, hkeeps⟩, -⟩ := h.serving hb
      obtain ⟨L', hmoves⟩ := hkeeps.move_ack hmove
      obtain ⟨h', henv⟩ := h.ack hi hl hmove
      exact h'.hand_replies hb (hhand.take hmoves.effect.log) henv hreply
  have h₂ := (h₁.crtStore hi hstore).1
  have hhand₂ : InHand initTable t₂.ipc none := by
    rcases crtStore_cases h₁.current h₁.iProcess hstore with ⟨-, rfl⟩ |
      ⟨env, I, J, hreceive, hput, rfl⟩
    · exact hhand₁
    · obtain ⟨⟨L, hkeeps⟩, -⟩ := (h₁.receive hreceive).serving hb
      obtain ⟨-, -, hlog, -⟩ := hkeeps.move_put (Ipc.held_receive hreceive).1 ⟨rfl, rfl⟩ hput
      exact (h₁.hand_receive hb hhand₁ hreceive).give hlog
        (fun x hx => (Option.some.inj hx).symm) nofun
  rcases crtShow_cases h₂.current hshow with ⟨rfl, -⟩ | ⟨-, env, I, crtBuf, hmove, rfl⟩
  · exact hhand₂
  · obtain ⟨⟨L, hkeeps⟩, -⟩ := h₂.serving hb
    obtain ⟨L', hmoves⟩ := hkeeps.move_display hmove
    exact hhand₂.give hmoves.effect.log nofun nofun

/-! ## Steps -/

theorem Serving.step (h : s.Serving initTable) (hhand : InHand initTable s.ipc none)
    (hcareful : s.Careful l) (hstep : s.step l = some s') :
    s'.Serving initTable ∧ InHand initTable s'.ipc none := by
  have hreach := (h.rested.step hcareful hstep).1
  refine ⟨h.acts hreach, ?_⟩
  by_cases hl : l.isSignal = true
  · obtain ⟨hbetween, cur, hcur⟩ := between_of_step hstep hl
    cases l with
    | call | resume | write => contradiction
    | sigalrm =>
      obtain ⟨i, t, t', hpcb, hstart, hipc, hturn, hexit⟩ := h.rested.enter hcur hl hbetween
      have hend := hstart.hand_startTimeoutIProcess h hpcb rfl (hipc ▸ hhand) hturn
      exact ((hstart.startTimeoutIProcess hpcb rfl hturn).exit hexit).2 ▸ hend
    | sigusr1 length data =>
      obtain ⟨i, t, t', hpcb, hstart, hipc, hturn, hexit⟩ := h.rested.enter hcur hl hbetween
      have hend := hstart.hand_startKbIProcess h (hipc ▸ hhand) hturn
      exact ((hstart.startKbIProcess hturn).exit hexit).2 ▸ hend
    | sigusr2 first second =>
      obtain ⟨i, t, t', hpcb, hstart, hipc, hturn, hexit⟩ := h.rested.enter hcur hl hbetween
      have hend := hstart.hand_startCrtIProcess h hpcb rfl (hipc ▸ hhand) hturn
      exact ((hstart.startCrtIProcess hpcb rfl hipc hturn).exit hexit).2 ▸ hend
  · obtain ⟨L, hkeeps⟩ := h.keeps
    obtain ⟨-, -, -, hhand'⟩ := h.rested.tracks_acts hkeeps
      (I := fun t _ => InHand initTable t.ipc none) hhand
      (fun t a t' L L' hact ht => InHand.act ht (by simpa using hl) hact) hreach
    exact hhand'

theorem Booted.serving (htab : Tabled initTable) (h : Booted initTable s) :
    s.Serving initTable ∧ InHand initTable s.ipc none := by
  obtain ⟨memory, S₀, -, -, hbooting, -⟩ := h.parts
  refine ⟨⟨htab, h.rested, ⟨_, h.keeps⟩, ⟨?_, ?_, ?_⟩⟩, ?_⟩
  · intro env q i _ hlast
    rw [hbooting.log] at hlast
    contradiction
  · intro env i _ hkeeper
    rw [hbooting.log] at hkeeper
    contradiction
  · intro l₁ l₂ i q env letter hlog
    rw [hbooting.log] at hlog
    simp at hlog
  · intro i env _ henv
    rw [Ipc.HeldBy, hbooting.log] at henv
    contradiction

end Kernel

/-- Along every run of processes that only give away and write what they have, with a table that is
`Tabled`, an i-process only sends an envelope back to the process that sent it last. If moreover no
text is shown over one that was not acknowledged, whatever was sent to an i-process, and not sent
back, is in a place of that i-process (on the screen: in `prev_msg`), and says who sent it. -/
theorem services_answer {initTable : Fin n → PcbInit} {s : Kernel n} (htab : Tabled initTable)
    (hs : Reach Kernel.step (Kernel.Booted initTable) Kernel.Careful s) :
    Answers initTable s.ipc.log ∧
      (Reach Kernel.step (Kernel.Booted initTable)
          (fun s l => s.Careful l ∧ ¬ s.Overwrites l) s →
        ∃ L, s.ipc.Conserves L ∧ ∀ env q i, (initTable i).isIProcess = true →
          lastSend s.ipc.log env = some (q, i) →
            (∃ a, env ∈ L a ∧ a.keeper = some i ∧ a ≠ .held i) ∧
              (s.ipc.letter env).sendPid = (initTable q).pid) := by
  obtain ⟨⟨-, -, -, hserves⟩, hhand⟩ :=
    hs.invariant (I := fun s => s.Serving initTable ∧ InHand initTable s.ipc none)
      (fun s hs => hs.serving htab) fun s l s' _ ⟨h, hhand⟩ hcareful hstep =>
        h.step hhand hcareful hstep
  refine ⟨hserves.answers, fun hclean => ?_⟩
  obtain ⟨L, hL⟩ := Kernel.conserves_reach hclean
  refine ⟨L, hL, fun env q i hi hlast => ?_⟩
  have hkeeper := hserves.kept hi hlast
  refine ⟨⟨_, hL.mem_iff.2 rfl, hkeeper, fun hheld => ?_⟩, ?_⟩
  · exact absurd (hhand i env hi hheld) nofun
  · obtain ⟨q', hlast', hpid⟩ := hserves.asked hi hkeeper
    rw [hlast] at hlast'
    cases hlast'
    exact hpid

/-- Process A asks for a delay and for a text to be shown. -/
def served : List RtxLabel := [
  .call .requestMsgEnv,
  .call .requestMsgEnv,
  .call (.requestDelay 5 7 (some 0)),
  .call (.sendConsoleChars (some 1)),
  .sigalrm,
  .sigusr2 .free .free]

theorem services_answer_procCfg :
    ∃ s, ((Kernel.kInit Kernel.Ram.zero procCfg).bind fun s =>
        exec (guarded Kernel.step fun s l => s.Careful l ∧ ¬ s.Overwrites l) s served) = some s ∧
      (lastSend s.ipc.log 0 = some (6, 2) ∧ lastSend s.ipc.log 1 = some (6, 1)) ∧
      Answers procCfg s.ipc.log ∧
      ∃ L, s.ipc.Conserves L ∧ ∀ env q i, (procCfg i).isIProcess = true →
        lastSend s.ipc.log env = some (q, i) →
          (∃ a, env ∈ L a ∧ a.keeper = some i ∧ a ≠ .held i) ∧
            (s.ipc.letter env).sendPid = (procCfg q).pid := by
  have hrun : ((Kernel.kInit Kernel.Ram.zero procCfg).bind fun s =>
      exec (guarded Kernel.step fun s l => s.Careful l ∧ ¬ s.Overwrites l) s served).any (fun s =>
        decide (lastSend s.ipc.log 0 = some (6, 2) ∧ lastSend s.ipc.log 1 = some (6, 1))) =
          true := by
    decide +kernel
  obtain ⟨s, hs, hsent⟩ := (Option.any_eq_true ..).1 hrun
  obtain ⟨s₀, hinit, hexec⟩ := Option.bind_eq_some_iff.1 hs
  have hclean : Reach Kernel.step (Kernel.Booted procCfg)
      (fun s l => s.Careful l ∧ ¬ s.Overwrites l) s := (Reach.init ⟨_, hinit⟩).guarded hexec
  have hanswer := services_answer procCfg_tabled (hclean.mono fun _ _ h => h.1)
  exact ⟨s, hs, of_decide_eq_true hsent, hanswer.1, hanswer.2 hclean⟩

end Rtx.Unix
