import Rtx.Coldfire.Envelopes

/-!
# What moves write

Next to where the envelopes are, a move changes what is in one envelope at most, it may add one
event to the log, and only a tick moves the clock (`Keeps.effect`). `letter` and `event?` say what,
for each move, so that later proofs need not look into the moves again.
-/

namespace Rtx.Coldfire

open Linked Places

variable {n : ℕ}

/-! ## Letters and events -/

/-- What is in an envelope, the link apart. -/
def Ipc.letter (I : Ipc n) (env : EnvPtr) : Letter := (I.env env).toLetter

/-- The event a move adds to the log. -/
def IpcMove.event? (I : Ipc n) : IpcMove n → Option (Event n)
  | .send cur dest env sendPid destPid => some (.sent cur dest env (I.stamped env sendPid destPid))
  | .receive p env => some (.received p env (I.letter env))
  | .request p _ env => some (.requested p env)
  | .release p _ env => some (.released p env)
  | .insert p _ env => (I.timeoutOf env).map fun delay => .delayed p env delay I.clock
  | .expire p env => some (.expired p env I.clock)
  | .copy env text => some (.copied env text)
  | .setLetter .. | .write .. | .tick => none

/-- What is in the envelopes after a move. -/
def IpcMove.letter (I : Ipc n) : IpcMove n → EnvPtr → Letter
  | .setLetter env letter => Function.update I.letter env letter
  | .write env content => Function.update I.letter env content.toLetter
  | .send _ _ env sendPid destPid =>
    Function.update I.letter env (I.stamped env sendPid destPid)
  | .insert _ _ env => Function.update I.letter env { I.letter env with
      msg := (I.letter env).msg.map fun body =>
        putInt body 0 (wrap32 (I.clock + getInt body 0)) }
  | _ => I.letter

/-- The clock after a move. -/
def IpcMove.clock (I : Ipc n) : IpcMove n → ℤ
  | .tick => wrap32 (I.clock + 1)
  | _ => I.clock

namespace Ipc

variable {timer : Option (Fin n)} {I I' J : Ipc n} {L : Loc n → List EnvPtr} {p cur dest : Fin n}
  {env : EnvPtr} {queue : QueuePtr n} {m : IpcMove n}

/-- What a move writes. -/
structure Effect (I : Ipc n) (m : IpcMove n) (I' : Ipc n) : Prop where
  log : I'.log = (m.event? I).toList ++ I.log
  letter : I'.letter = m.letter I
  clock : I'.clock = m.clock I

/-! ## The effect of each move -/

theorem Taken.letter {l : List EnvPtr} (h : Taken I queue env l I') : I'.letter = I.letter := by
  funext x
  rw [Ipc.letter, h.env]
  by_cases hx : x = env
  · subst hx; simp [setNext, Ipc.letter]
  · simp [setNext, Ipc.letter, hx]

theorem letter_setLetter (I : Ipc n) (env : EnvPtr) (letter : Letter) :
    (I.setLetter env letter).letter = Function.update I.letter env letter := by
  funext x
  by_cases hx : x = env
  · subst hx
    rw [Function.update_self]
    exact toLetter_setLetter_self ..
  · rw [Function.update_of_ne hx]
    exact toLetter_setLetter_of_ne I hx letter

theorem Keeps.effect_send {sendPid destPid : ℤ} (h : Keeps timer I L)
    (henv : env ∈ heldBy I.log cur) (hmove : I.send cur dest env sendPid destPid = some I') :
    Effect I (.send cur dest env sendPid destPid) I' := by
  rw [← h.held] at henv
  unfold Ipc.send at hmove
  simp only at hmove
  split at hmove
  · contradiction
  obtain ⟨J, henq, rfl⟩ := Option.map_eq_some_iff.1 hmove
  have hrep : QueueRep (I.setLetter env (I.stamped env sendPid destPid)).env
      (I.queue (.recvMsgs dest)) (L (.queue (.recvMsgs dest))) := by
    rw [QueueRep, nextOf_setLetter]
    exact h.queue _
  have hqueued := enqueue_spec hrep (h.partition.not_mem henv (by simp)) henq
  refine ⟨?_, ?_, hqueued.rest.clock⟩
  · exact congrArg (Event.sent cur dest env _ :: ·) hqueued.rest.log
  · exact (funext hqueued.letter).trans (letter_setLetter ..)

theorem Keeps.effect_release (h : Keeps timer I L) (henv : env ∈ heldBy I.log p)
    (hmove : I.release p queue env = some I') : Effect I (.release p queue env) I' := by
  rw [← h.held] at henv
  obtain ⟨J, henq, rfl⟩ := Option.map_eq_some_iff.1 hmove
  have hqueued := enqueue_spec (h.queue queue) (h.partition.not_mem henv nofun) henq
  exact ⟨congrArg (Event.released p env :: ·) hqueued.rest.log, funext hqueued.letter,
    hqueued.rest.clock⟩

theorem Keeps.effect_receive (h : Keeps timer I L) (hmove : I.receive p env = some I') :
    Effect I (.receive p env) I' := by
  obtain ⟨J, htake, rfl⟩ := Option.map_eq_some_iff.1 hmove
  obtain ⟨l, -, htaken⟩ := take_spec (h.queue _) htake
  refine ⟨?_, htaken.letter, htaken.rest.clock⟩
  change Event.received p env (J.letter env) :: J.log = _
  rw [htaken.letter, htaken.rest.log]
  rfl

theorem Keeps.effect_request (h : Keeps timer I L) (hmove : I.request p queue env = some I') :
    Effect I (.request p queue env) I' := by
  obtain ⟨J, htake, rfl⟩ := Option.map_eq_some_iff.1 hmove
  have hrep : QueueRep (I.addOwned p 1).env ((I.addOwned p 1).queue queue) (L (.queue queue)) :=
    h.queue queue
  obtain ⟨l, -, htaken⟩ := take_spec hrep htake
  exact ⟨congrArg (Event.requested p env :: ·) htaken.rest.log, htaken.letter,
    htaken.rest.clock⟩

theorem Keeps.effect_insert {nullRead : Option ℤ} (h : Keeps timer I L)
    (henv : env ∈ heldBy I.log p) (hnext : (I.env env).next = none)
    (hmove : I.insert p nullRead env = some I') : Effect I (.insert p nullRead env) I' := by
  rw [← h.held] at henv
  obtain ⟨delay, hdelay, hmove⟩ := Option.bind_eq_some_iff.1 hmove
  obtain ⟨J, hins, hmove⟩ := Option.bind_eq_some_iff.1 hmove
  cases hmove
  obtain ⟨delay', l₁, l₂, hdelay', -, hJ⟩ :=
    timeoutQueueInsert_spec h.timeoutQueue (h.partition.not_mem henv nofun) hnext hins
  obtain rfl : delay = delay' := Option.some.inj (hdelay.symm.trans hdelay')
  refine ⟨?_, ?_, hJ.rest.clock⟩
  · rw [IpcMove.event?, hdelay]
    exact congrArg (Event.delayed p env delay I.clock :: ·) hJ.rest.log
  · funext x
    change (J.env x).toLetter = _
    rw [IpcMove.letter]
    by_cases hx : x = env
    · subst hx
      obtain ⟨body, hbody, rfl, hletter⟩ := hJ.body
      rw [Function.update_self, hletter]
      simp [Ipc.letter, hbody]
    · rw [Function.update_of_ne hx, hJ.letter x hx]
      rfl

theorem Keeps.effect_expire (h : Keeps timer I L) (hmove : I.expire p env = some I') :
    Effect I (.expire p env) I' ∧
      ∃ timeout, I.timeoutOf env = some timeout ∧ timeout ≤ I.clock := by
  obtain ⟨⟨found, J⟩, hcheck, hmove⟩ := Option.bind_eq_some_iff.1 hmove
  simp only [Option.ite_none_right_eq_some] at hmove
  obtain ⟨rfl, hmove⟩ := hmove
  cases hmove
  rcases checkTimeoutQueue_spec h.timeoutQueue hcheck with ⟨hnone, -⟩ |
    ⟨head, l, timeout, hhead, hl, htimeout, hdue, rfl, -⟩
  · contradiction
  obtain rfl := Option.some.inj hhead
  exact ⟨⟨rfl, rfl, rfl⟩, timeout, htimeout, hdue⟩

/-- What a proper move writes. -/
theorem Keeps.effect (h : Keeps timer I L) (hm : m.Proper timer I) (hmove : I.move m = some I') :
    Effect I m I' := by
  cases m with
  | setLetter env letter =>
    cases hmove
    exact ⟨rfl, letter_setLetter .., rfl⟩
  | write env content =>
    cases hmove
    refine ⟨rfl, ?_, rfl⟩
    funext x
    by_cases hx : x = env
    · subst hx; simp [Ipc.letter, IpcMove.letter]
    · simp [Ipc.letter, IpcMove.letter, hx]
  | send cur dest env sendPid destPid => exact h.effect_send hm hmove
  | receive p env => exact h.effect_receive hmove
  | request p queue env => exact h.effect_request hmove
  | release p queue env => exact h.effect_release hm.1 hmove
  | tick => cases hmove; exact ⟨rfl, rfl, rfl⟩
  | insert p nullRead env => exact h.effect_insert hm.1 hm.2.1 hmove
  | expire p env => exact (h.effect_expire hmove).1
  | copy env text => cases hmove; exact ⟨rfl, rfl, rfl⟩

end Ipc

end Rtx.Coldfire
