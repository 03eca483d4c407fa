import Rtx.Unix.Mail

/-!
# Moves keep the envelopes in their places

A proper move takes its envelope from one place to another, changes what is in one envelope at
most, adds one event to the log at most, and only a tick moves the clock (`Keeps.move`). What it
does to the letters, the log and the rest is said by `MailMove.letter` and its neighbours, so that
later proofs need not look into the moves again.
-/

namespace Rtx.Unix

open Linked Places
open Coldfire (Body Letter MsgEnv nextOf setNext wrap32)

variable {n : ℕ}

/-! ## The timeout list -/

namespace TimeoutMem

variable {α : Type} [DecidableEq α] {T T' : TimeoutMem α} {due : α → ℤ} {l : List α} {env : α}
  {fuel : ℕ}

/-- What `timeout_queue_insert` leaves alone. -/
structure Inserted (T : TimeoutMem α) (l : List α) (env : α) (T' : TimeoutMem α) : Prop where
  clock : T'.clock = T.clock
  letter : ∀ x, x ≠ env → (T'.env x).toLetter = (T.env x).toLetter
  body : ∃ body, (T.env env).msg = some body ∧ (T'.env env).toLetter =
    { (T.env env).toLetter with msg := some (putInt body (wrap32 (T.clock + getInt body))) }
  next : ∀ x, x ∉ l → x ≠ env → nextOf T'.env x = nextOf T.env x

theorem Inserted.relink {body : Body} (hbody : (T.env env).msg = some body)
    {mem : α → MsgEnv α} {head : Option α}
    (hletter : ∀ x, (mem x).toLetter =
      ((T.setMsg env (putInt body (wrap32 (T.clock + getInt body)))).env x).toLetter)
    (hnext : ∀ x, x ∉ l → x ≠ env → nextOf mem x = nextOf T.env x) :
    Inserted T l env { T with env := mem, timeoutQueue := head } where
  clock := rfl
  letter x hx := by
    rw [hletter]
    simp [setMsg, hx]
  body := ⟨body, hbody, by simp [hletter, setMsg]⟩
  next := hnext

omit [DecidableEq α] in
/-- The search stops in the list. -/
theorem insertionPoint_mem {L : TimeoutList α} {timeout : ℤ} {prevNode last a : α}
    {node stop : Option α} (hc : Chain L.next node (a :: l))
    (hstored : ∀ x ∈ a :: l, L.stored x = some (due x))
    (h : L.insertionPoint none timeout fuel prevNode node (due a) = some (last, stop)) :
    last ∈ prevNode :: a :: l := by
  obtain ⟨l₁, l₂, hlist, -, -, -, hlast⟩ := TimeoutList.insertionPoint_eq hc hstored h
  have hmem := List.mem_of_getLast? hlast
  rw [hlist, ← List.cons_append]
  exact List.mem_append_left _ hmem

theorem timeoutQueueInsert_spec (h : T.timeoutList.Pending due l)
    (henv : env ∉ l) (hins : T.timeoutQueueInsert fuel (some env) = some T') :
    Inserted T l env T' := by
  obtain ⟨body, hbody, hins⟩ := Option.bind_eq_some_iff.1 hins
  dsimp only at hins
  set J := T.setMsg env (putInt body (wrap32 (T.clock + getInt body))) with hJ
  have hnextJ : nextOf J.env = nextOf T.env := by
    funext x
    by_cases hx : x = env
    · subst hx; simp [hJ, nextOf, setMsg]
    · simp [hJ, nextOf, setMsg, hx]
  have hstored : ∀ x ∈ l, J.timeoutOf x = some (due x) := by
    intro x hx
    rw [← h.stored x hx]
    apply timeoutOf_congr
    have hxe : x ≠ env := by
      rintro rfl
      exact henv hx
    simp [hJ, setMsg, hxe]
  have hqueue : J.timeoutQueue = T.timeoutQueue := rfl
  cases l with
  | nil =>
    have hnone : T.timeoutQueue = none := h.chain
    simp only [hqueue, hnone] at hins
    cases hins
    exact .relink hbody (fun _ => rfl) fun x _ _ => congrFun hnextJ x
  | cons a l =>
    have hsome : T.timeoutQueue = some a := h.chain.1
    simp only [hqueue, hsome] at hins
    obtain ⟨first, hfirst, hins⟩ := Option.bind_eq_some_iff.1 hins
    split at hins
    · cases hins
      refine .relink hbody (fun x => Coldfire.toLetter_setNext ..) fun x _ hx => ?_
      rw [Coldfire.nextOf_setNext, Function.update_of_ne hx, hnextJ]
    have hlink : ∀ prevNode node, prevNode ∈ a :: l → Inserted T (a :: l) env { J with
        env := setNext (setNext J.env prevNode (some env)) env node, timeoutQueue := some a } := by
      intro prevNode node hprev
      refine .relink hbody (fun x => ?_) fun x hxl hx => ?_
      · rw [Coldfire.toLetter_setNext, Coldfire.toLetter_setNext]
      · have hxp : x ≠ prevNode := fun hxp => hxl (hxp ▸ hprev)
        rw [Coldfire.nextOf_setNext, Coldfire.nextOf_setNext, Function.update_of_ne hx,
          Function.update_of_ne hxp, hnextJ]
    cases hnext : (J.env a).next with
    | none =>
      rw [hnext] at hins
      cases hins
      exact hlink a none List.mem_cons_self
    | some b =>
      rw [hnext] at hins
      obtain ⟨second, hsecond, hins⟩ := Option.bind_eq_some_iff.1 hins
      obtain ⟨⟨prevNode, node⟩, hpoint, hins⟩ := Option.bind_eq_some_iff.1 hins
      cases hins
      have hc : Chain J.timeoutList.next (some b) l := by
        show Chain (nextOf J.env) (some b) l
        rw [← hnext, show (J.env a).next = nextOf J.env a from rfl, hnextJ]
        exact h.chain.2
      rw [timeoutList_insertionPoint] at hpoint
      cases l with
      | nil => contradiction
      | cons c l =>
        obtain rfl : b = c := Option.some.inj hc.1
        have hb := hstored b (by simp)
        obtain rfl : due b = second := Option.some.inj (hb.symm.trans hsecond)
        exact hlink prevNode node
          (insertionPoint_mem hc (fun x hx => hstored x (List.mem_cons_of_mem a hx)) hpoint)

end TimeoutMem

/-! ## Letters and events -/

/-- The event a move adds to the log. -/
def MailMove.event? (I : Ipc n) : MailMove n → Option (Event n)
  | .send p q env sendPid destPid => some (.sent p q env (I.stamped env sendPid destPid))
  | .receive p env => some (.received p env (I.letter env))
  | .request p env => some (.requested p env)
  | .release p env => some (.released p env)
  | .insert p env => (I.timeouts.timeoutOf env).map fun delay => .delayed p env delay I.clock
  | .expire p env => some (.expired p env I.clock)
  | .store p env => some (.stored p env)
  | .display p env => some (.shown p env)
  | .ack p env => some (.acked p env)
  | .fill .. | .write .. | .tick => none

/-- What is in the envelopes after a move. -/
def MailMove.letter (I : Ipc n) : MailMove n → EnvPtr → Letter
  | .fill _ env letter => Function.update I.letter env letter
  | .write _ env content => Function.update I.letter env content.toLetter
  | .send _ _ env sendPid destPid => Function.update I.letter env (I.stamped env sendPid destPid)
  | .insert _ env => Function.update I.letter env { I.letter env with
      msg := (I.letter env).msg.map fun body =>
        putInt body (wrap32 (I.clock.toNat + getInt body)) }
  | _ => I.letter

/-- The clock after a move. -/
def MailMove.clock (I : Ipc n) : MailMove n → UInt64
  | .tick => I.clock + 1
  | _ => I.clock

/-- `prev_msg` after a move. -/
def MailMove.prevMsg (I : Ipc n) : MailMove n → Option EnvPtr
  | .display _ env => some env
  | .ack .. => none
  | _ => I.prevMsg

namespace Ipc

/-- What a move writes. -/
structure Effect (I : Ipc n) (m : MailMove n) (I' : Ipc n) : Prop where
  log : I'.log = (m.event? I).toList ++ I.log
  letter : I'.letter = m.letter I
  clock : I'.clock = m.clock I
  prevMsg : I'.prevMsg = m.prevMsg I

/-- A move does what it says. -/
structure Moves (I : Ipc n) (L : Spot n → List EnvPtr) (m : MailMove n) (I' : Ipc n)
    (L' : Spot n → List EnvPtr) : Prop where
  transfer : Transfer L m L'
  keeps : I'.Keeps L'
  effect : Effect I m I'

variable {I I' J K : Ipc n} {L L' : Spot n → List EnvPtr} {p q : Fin n} {env : EnvPtr}
  {queue : QueuePtr n} {m : MailMove n}

theorem Keeps.mem_held (h : I.Keeps L) (henv : I.HeldBy p env) : env ∈ L (.held p) := by
  obtain ⟨a, ha⟩ := h.partition.exists_place env
  have hspot : spotOf I.log env = a := h.spot ha
  rw [henv] at hspot
  rwa [hspot]

theorem Keeps.mem_iff (h : I.Keeps L) {a : Spot n} : env ∈ L a ↔ spotOf I.log env = a := by
  refine ⟨h.spot, ?_⟩
  rintro rfl
  obtain ⟨b, hb⟩ := h.partition.exists_place env
  rwa [h.spot hb]

theorem Keeps.ne_of_mem (h : I.Keeps L) {a b : Spot n} {x y : EnvPtr} (hx : x ∈ L a)
    (hy : y ∈ L b) (hab : a ≠ b) : x ≠ y := by
  rintro rfl
  exact hab (h.partition.unique hx hy)

theorem Keeps.not_queued (h : I.Keeps L) (henv : env ∈ L (.held p)) :
    ∀ j, env ∉ L (.queue j) := fun _ => h.partition.not_mem henv nofun

/-- The timeout list is the same where its envelopes are. -/
theorem Keeps.pending_congr (h : I.Keeps L) (hqueue : I'.timeoutQueue = I.timeoutQueue)
    (hnext : ∀ x ∈ L .timeoutQueue, nextOf I'.mem x = nextOf I.mem x)
    (hletter : ∀ x ∈ L .timeoutQueue, I'.letter x = I.letter x) :
    ∃ due, I'.timeouts.timeoutList.Pending due (L .timeoutQueue) := by
  obtain ⟨due, hpending⟩ := h.pending
  refine ⟨due, ?_, fun x hx => ?_, hpending.sorted⟩
  · have hhead : I'.timeouts.timeoutList.head = I.timeouts.timeoutList.head := hqueue
    rw [hhead]
    exact hpending.chain.congr hnext
  · rw [← hpending.stored x hx]
    exact TimeoutMem.timeoutOf_congr (hletter x hx)

/-- An envelope goes from one place to another. The hypotheses say what the two places hold. -/
theorem Keeps.transfer {a b : Spot n} {l l' : List EnvPtr} (h : I.Keeps L) (hab : a ≠ b)
    (ha : (L a).Perm (env :: l)) (hb : l'.Perm (env :: L b))
    (hholds : I'.toQueueMem.Holds fun queue => shift L a b l l' (.queue queue))
    (hpending : ∃ due, I'.timeouts.timeoutList.Pending due (shift L a b l l' .timeoutQueue))
    (hscreen : ∀ e ∈ I'.prevMsg, e ∈ shift L a b l l' .screen)
    (hspot : spotOf I'.log = Function.update (spotOf I.log) env b) :
    I'.Keeps (shift L a b l l') where
  holds := hholds
  pending := hpending
  screen := hscreen
  partition := h.partition.shift hab ha hb
  spot {x c} hx := by
    rw [hspot]
    rcases (h.partition.mem_move (move_shift hab ha hb)).1 hx with ⟨rfl, rfl⟩ | ⟨hne, hx⟩
    · exact Function.update_self ..
    · rw [Function.update_of_ne hne]
      exact h.spot hx

theorem shift_queue_src {b : Spot n} {l l' : List EnvPtr} (hb : ∀ j, b ≠ .queue j) :
    (fun j => shift L (.queue queue) b l l' (.queue j)) =
      Function.update (fun j => L (.queue j)) queue l := by
  funext j
  by_cases hj : j = queue
  · subst hj
    rw [shift_src L (hb j).symm, Function.update_self]
  · rw [shift_other L (by simpa using hj) (hb j).symm, Function.update_of_ne hj]

theorem shift_queue_dst {a : Spot n} {l l' : List EnvPtr} (ha : ∀ j, a ≠ .queue j) :
    (fun j => shift L a (.queue queue) l l' (.queue j)) =
      Function.update (fun j => L (.queue j)) queue l' := by
  funext j
  by_cases hj : j = queue
  · subst hj
    rw [shift_dst, Function.update_self]
  · rw [shift_other L (ha j).symm (by simpa using hj), Function.update_of_ne hj]

theorem shift_queue_other {a b : Spot n} {l l' : List EnvPtr} (ha : ∀ j, a ≠ .queue j)
    (hb : ∀ j, b ≠ .queue j) :
    (fun j => shift L a b l l' (.queue j)) = fun j => L (.queue j) := by
  funext j
  exact shift_other L (ha j).symm (hb j).symm l l'

/-! ## Each move -/

/-- The envelope is in no list, so it can be overwritten. -/
theorem Keeps.overwrite (h : I.Keeps L) (henv : env ∈ L (.held p)) (content : MsgEnv EnvPtr) :
    { I with mem := Function.update I.mem env content }.Keeps L := by
  have hsame : ∀ x ∈ L .timeoutQueue, Function.update I.mem env content x = I.mem x := by
    intro x hx
    exact Function.update_of_ne (h.ne_of_mem hx henv nofun) ..
  refine ⟨h.holds.write (h.not_queued henv) content, ?_, h.screen, h.partition, h.spot⟩
  refine h.pending_congr rfl (fun x hx => ?_) fun x hx => ?_
  · exact congrArg MsgEnv.next (hsame x hx)
  · exact congrArg MsgEnv.toLetter (hsame x hx)

theorem Keeps.put (h : I.Keeps L) (henv : env ∈ L (.held p))
    (hreq : Requeued I queue (L (.queue queue)) env J)
    (hholds : J.toQueueMem.Holds
      (Function.update (fun j => L (.queue j)) queue (L (.queue queue) ++ [env])))
    (hK : K.toQueueMem = J.toQueueMem ∧ K.timeoutQueue = J.timeoutQueue ∧ K.prevMsg = J.prevMsg)
    (hspot : spotOf K.log = Function.update (spotOf I.log) env (.queue queue)) :
    K.Keeps (shift L (.held p) (.queue queue) ((L (.held p)).erase env)
      (L (.queue queue) ++ [env])) := by
  have hmem : K.mem = J.mem := congrArg QueueMem.mem hK.1
  refine h.transfer nofun (List.perm_cons_erase henv) (List.perm_append_singleton ..) ?_ ?_ ?_ hspot
  · have hne : ∀ j, Spot.held p ≠ .queue j := fun _ => nofun
    rw [hK.1, shift_queue_dst hne]
    exact hholds
  · rw [shift_other L (by simp) (by simp)]
    refine h.pending_congr (hK.2.1.trans hreq.timeoutQueue) (fun x hx => ?_) fun x hx => ?_
    · rw [hmem]
      exact hreq.next x (h.partition.not_mem hx nofun) (h.ne_of_mem hx henv nofun)
    · show (K.mem x).toLetter = _
      rw [hmem]
      exact congrFun hreq.letter x
  · intro e he
    rw [shift_other L (by simp) (by simp)]
    rw [hK.2.2, hreq.prevMsg] at he
    exact h.screen e he

theorem Keeps.take {b : Spot n} {l : List EnvPtr} (h : I.Keeps L) (hl : L (.queue queue) = env :: l)
    (hreq : Requeued I queue [] env J)
    (hholds : J.toQueueMem.Holds (Function.update (fun j => L (.queue j)) queue l))
    (hb : (∀ j, b ≠ .queue j) ∧ b ≠ .timeoutQueue)
    (hK : K.toQueueMem = J.toQueueMem ∧ K.timeoutQueue = J.timeoutQueue)
    (hscreen : ∀ e ∈ K.prevMsg, e ∈ L .screen ∨ b = .screen ∧ e = env)
    (hspot : spotOf K.log = Function.update (spotOf I.log) env b) :
    K.Keeps (shift L (.queue queue) b l (env :: L b)) := by
  have hmem : K.mem = J.mem := congrArg QueueMem.mem hK.1
  have henv : env ∈ L (.queue queue) := by
    rw [hl]
    exact List.mem_cons_self
  refine h.transfer (hb.1 queue).symm (hl ▸ .rfl) .rfl ?_ ?_ ?_ hspot
  · rw [hK.1, shift_queue_src hb.1]
    exact hholds
  · rw [shift_other L (by simp) hb.2.symm]
    refine h.pending_congr (hK.2.trans hreq.timeoutQueue) (fun x hx => ?_) fun x hx => ?_
    · rw [hmem]
      exact hreq.next x List.not_mem_nil (h.ne_of_mem hx henv nofun)
    · show (K.mem x).toLetter = _
      rw [hmem]
      exact congrFun hreq.letter x
  · intro e he
    by_cases hbs : b = .screen
    · subst hbs
      rw [shift_dst]
      rcases hscreen e he with he | ⟨-, rfl⟩
      · exact List.mem_cons_of_mem _ he
      · exact List.mem_cons_self
    · rw [shift_other L (by simp) (Ne.symm hbs)]
      exact (hscreen e he).resolve_right fun hs => hbs hs.1

theorem Keeps.move_send {sendPid destPid : ℤ} (h : I.Keeps L) (henv : I.HeldBy p env)
    (hmove : I.move (.send p q env sendPid destPid) = some I') :
    ∃ L', Moves I L (.send p q env sendPid destPid) I' L' := by
  have hmem := h.mem_held henv
  obtain ⟨J, henq, rfl⟩ := Option.map_eq_some_iff.1 hmove
  have hfill := h.overwrite hmem { I.mem env with toLetter := I.stamped env sendPid destPid }
  obtain ⟨J', henq', hreq, hholds⟩ := enqueue_spec hfill.holds (h.not_queued hmem) (.recvMsgs q)
  obtain rfl : J' = J := Option.some.inj (henq'.symm.trans henq)
  refine ⟨_, .send hmem, hfill.put hmem hreq hholds ⟨rfl, rfl, rfl⟩ ?_, ?_, ?_, hreq.clock,
    hreq.prevMsg⟩
  · show spotOf (_ :: J'.log) = _
    rw [hreq.log]
    rfl
  · exact congrArg (Event.sent p q env _ :: ·) hreq.log
  · exact hreq.letter.trans (letter_setLetter ..)

theorem Keeps.move_put {ev : Event n} (h : I.Keeps L) (henv : I.HeldBy p env)
    (hev : ev.env = env ∧ ev.spot = .queue queue)
    (hmove : (I.enqueue queue env).map (·.emit ev) = some I') :
    env ∈ L (.held p) ∧ I'.Keeps (shift L (.held p) (.queue queue) ((L (.held p)).erase env)
      (L (.queue queue) ++ [env])) ∧ I'.log = ev :: I.log ∧ I'.letter = I.letter ∧
      I'.clock = I.clock ∧ I'.prevMsg = I.prevMsg := by
  have hmem := h.mem_held henv
  obtain ⟨J, henq, rfl⟩ := Option.map_eq_some_iff.1 hmove
  obtain ⟨J', henq', hreq, hholds⟩ := enqueue_spec h.holds (h.not_queued hmem) queue
  obtain rfl : J' = J := Option.some.inj (henq'.symm.trans henq)
  refine ⟨hmem, h.put hmem hreq hholds ⟨rfl, rfl, rfl⟩ ?_, ?_, hreq.letter, hreq.clock,
    hreq.prevMsg⟩
  · show spotOf (ev :: J'.log) = _
    rw [hreq.log, spotOf_cons, hev.1, hev.2]
  · exact congrArg (ev :: ·) hreq.log

theorem Keeps.move_receive (h : I.Keeps L) (hmove : I.move (.receive p env) = some I') :
    ∃ L', Moves I L (.receive p env) I' L' ∧ (I'.mem env).next = none := by
  obtain ⟨J, htake, rfl⟩ := Option.map_eq_some_iff.1 hmove
  obtain ⟨l, hl, hreq, hnext, hholds⟩ := take_spec h.holds htake
  refine ⟨_, ⟨.receive hl, ?_, ?_, hreq.letter, hreq.clock, hreq.prevMsg⟩, hnext⟩
  · refine h.take hl hreq hholds ⟨fun _ => nofun, nofun⟩ ⟨rfl, rfl⟩ (fun e he => .inl ?_) ?_
    · exact h.screen e (hreq.prevMsg ▸ he)
    · show spotOf (_ :: J.log) = _
      rw [hreq.log]
      rfl
  · show Event.received p env (J.letter env) :: J.log = _
    rw [hreq.letter, hreq.log]
    rfl

theorem Keeps.move_request (h : I.Keeps L) (hmove : I.move (.request p env) = some I') :
    ∃ L', Moves I L (.request p env) I' L' := by
  obtain ⟨J, htake, rfl⟩ := Option.map_eq_some_iff.1 hmove
  obtain ⟨l, hl, hreq, -, hholds⟩ := take_spec h.holds htake
  refine ⟨_, .request hl, ?_, ?_, hreq.letter, hreq.clock, hreq.prevMsg⟩
  · refine h.take hl hreq hholds ⟨fun _ => nofun, nofun⟩ ⟨rfl, rfl⟩ (fun e he => .inl ?_) ?_
    · exact h.screen e (hreq.prevMsg ▸ he)
    · show spotOf (_ :: J.log) = _
      rw [hreq.log]
      rfl
  · exact congrArg (Event.requested p env :: ·) hreq.log

theorem Keeps.move_display (h : I.Keeps L) (hmove : I.move (.display p env) = some I') :
    ∃ L', Moves I L (.display p env) I' L' := by
  obtain ⟨J, htake, rfl⟩ := Option.map_eq_some_iff.1 hmove
  obtain ⟨l, hl, hreq, -, hholds⟩ := take_spec h.holds htake
  refine ⟨_, .display hl, ?_, ?_, hreq.letter, hreq.clock, rfl⟩
  · refine h.take hl hreq hholds ⟨fun _ => nofun, nofun⟩ ⟨rfl, rfl⟩ (fun e he => .inr ?_) ?_
    · exact ⟨rfl, (Option.some.inj he).symm⟩
    · show spotOf (_ :: J.log) = _
      rw [hreq.log]
      rfl
  · exact congrArg (Event.shown p env :: ·) hreq.log

theorem Keeps.move_ack (h : I.Keeps L) (hmove : I.move (.ack p env) = some I') :
    ∃ L', Moves I L (.ack p env) I' L' := by
  obtain ⟨hprev, hmove⟩ := Option.ite_none_right_eq_some.1 hmove
  cases hmove
  have hmem : env ∈ L .screen := h.screen env hprev
  refine ⟨_, .ack hmem, ?_, rfl, rfl, rfl, rfl⟩
  refine h.transfer nofun (List.perm_cons_erase hmem) .rfl ?_ ?_ nofun rfl
  · have hne : ∀ j : QueuePtr n, Spot.screen ≠ .queue j := fun _ => nofun
    have hne' : ∀ j, Spot.held p ≠ .queue j := fun _ => nofun
    rw [shift_queue_other hne hne']
    exact h.holds
  · rw [shift_other L (by simp) (by simp)]
    exact h.pending_congr rfl (fun _ _ => rfl) fun _ _ => rfl

theorem Keeps.move_expire (h : I.Keeps L) (hmove : I.move (.expire p env) = some I') :
    ∃ L', Moves I L (.expire p env) I' L' := by
  obtain ⟨⟨found, T⟩, hcheck, hmove⟩ := Option.bind_eq_some_iff.1 hmove
  simp only [Option.ite_none_right_eq_some] at hmove
  obtain ⟨rfl, hmove⟩ := hmove
  cases hmove
  obtain ⟨due, hpending⟩ := h.pending
  obtain ⟨l, hl, hlist, hT⟩ : ∃ l, L .timeoutQueue = env :: l ∧
      T.timeoutList.Pending due l ∧ T.env = I.mem := by
    cases hl : L .timeoutQueue with
    | nil =>
      rw [hl] at hpending
      have hnone : I.timeouts.timeoutQueue = none := hpending.chain
      simp [TimeoutMem.checkTimeoutQueue, hnone] at hcheck
    | cons a l =>
      rw [hl] at hpending
      have hsome : I.timeouts.timeoutQueue = some a := hpending.chain.1
      have ha : I.timeouts.timeoutOf a = some (due a) := hpending.stored a List.mem_cons_self
      simp only [TimeoutMem.checkTimeoutQueue, hsome, ha, Option.bind_eq_bind,
        Option.bind_some] at hcheck
      split at hcheck
      · cases hcheck
        refine ⟨l, rfl, ⟨hpending.chain.2, fun x hx => ?_,
          (List.pairwise_cons.1 hpending.sorted).2⟩, rfl⟩
        exact hpending.stored x (List.mem_cons_of_mem _ hx)
      · cases hcheck
  have hsame : I.setTimeouts T = { I with timeoutQueue := T.timeoutQueue } := by
    rw [setTimeouts, hT]
  refine ⟨_, .expire hl, ?_, rfl, ?_, rfl, rfl⟩
  · rw [hsame]
    refine h.transfer (by simp) (hl ▸ .rfl) .rfl ?_ ?_ (fun e he => ?_) rfl
    · have hne : ∀ j : QueuePtr n, Spot.timeoutQueue ≠ .queue j := by simp
      have hne' : ∀ j, Spot.held p ≠ .queue j := by simp
      rw [shift_queue_other hne hne']
      exact h.holds
    · rw [shift_src L (by simp)]
      refine ⟨due, ?_, fun x hx => ?_, hlist.sorted⟩
      · show Chain (nextOf I.mem) T.timeoutQueue l
        rw [← hT]
        exact hlist.chain
      · rw [← hlist.stored x hx]
        exact TimeoutMem.timeoutOf_congr (by rw [hT]; rfl)
    · rw [shift_other L (by simp) (by simp)]
      exact h.screen e he
  · rw [hsame]
    rfl

theorem Keeps.move_insert (h : I.Keeps L) (henv : I.HeldBy p env)
    (hnext : (I.mem env).next = none) (hmove : I.move (.insert p env) = some I') :
    ∃ L', Moves I L (.insert p env) I' L' := by
  have hmem := h.mem_held henv
  obtain ⟨delay, hdelay, hmove⟩ := Option.bind_eq_some_iff.1 hmove
  obtain ⟨T, hins, hmove⟩ := Option.bind_eq_some_iff.1 hmove
  cases hmove
  obtain ⟨due, hpending⟩ := h.pending
  have hnot : env ∉ L .timeoutQueue := h.partition.not_mem hmem nofun
  have hlist : I.timeouts.timeoutList.insert none envFuel env = some T.timeoutList := by
    rw [← TimeoutMem.timeoutList_insert, hins, Option.map_some]
  obtain ⟨l, hperm, hl⟩ := hpending.insert hnot hnext hdelay hlist
  have hT := TimeoutMem.timeoutQueueInsert_spec hpending hnot hins
  refine ⟨_, .insert hmem hperm, ?_, ?_, ?_, rfl, rfl⟩
  · refine h.transfer nofun (List.perm_cons_erase hmem) hperm ?_ ?_ (fun e he => ?_) rfl
    · have hne : ∀ j : QueuePtr n, Spot.timeoutQueue ≠ .queue j := fun _ => nofun
      have hne' : ∀ j, Spot.held p ≠ .queue j := fun _ => nofun
      rw [shift_queue_other hne' hne]
      refine h.holds.congr fun j x hx => ?_
      exact hT.next x (h.partition.not_mem hx nofun) (h.ne_of_mem hx hmem nofun)
    · rw [shift_dst]
      exact ⟨_, hl.chain, hl.stored, hl.sorted⟩
    · rw [shift_other L (by simp) (by simp)]
      exact h.screen e he
  · rw [MailMove.event?, hdelay]
    rfl
  · funext x
    show (T.env x).toLetter = _
    by_cases hx : x = env
    · subst hx
      obtain ⟨body, hbody, hletter⟩ := hT.body
      have hmsg : (I.letter x).msg = some body := hbody
      rw [hletter, MailMove.letter, Function.update_self, hmsg]
      rfl
    · rw [hT.letter x hx, MailMove.letter, Function.update_of_ne hx]
      rfl

/-- What a proper move does. -/
theorem Keeps.move (h : I.Keeps L) (hm : m.Proper I) (hmove : I.move m = some I') :
    ∃ L', Moves I L m I' L' := by
  cases m with
  | fill p env letter =>
    cases hmove
    exact ⟨L, .fill, h.overwrite (h.mem_held hm) _, rfl, letter_setLetter .., rfl, rfl⟩
  | write p env content =>
    cases hmove
    refine ⟨L, .write, h.overwrite (h.mem_held hm) content, rfl, ?_, rfl, rfl⟩
    funext x
    by_cases hx : x = env
    · subst hx; simp [Ipc.letter, MailMove.letter]
    · simp [Ipc.letter, MailMove.letter, hx]
  | send p q env sendPid destPid => exact h.move_send hm hmove
  | receive p env =>
    obtain ⟨L', hL', -⟩ := h.move_receive hmove
    exact ⟨L', hL'⟩
  | request p env => exact h.move_request hmove
  | release p env =>
    obtain ⟨hmem, hkeeps, hlog, hletter, hclock, hprev⟩ := h.move_put hm ⟨rfl, rfl⟩ hmove
    exact ⟨_, .release hmem, hkeeps, hlog, hletter, hclock, hprev⟩
  | tick =>
    cases hmove
    refine ⟨L, .tick, ⟨h.holds, ?_, h.screen, h.partition, h.spot⟩, rfl, rfl, rfl, rfl⟩
    exact h.pending_congr rfl (fun _ _ => rfl) fun _ _ => rfl
  | insert p env => exact h.move_insert hm.1 hm.2 hmove
  | expire p env => exact h.move_expire hmove
  | store p env =>
    obtain ⟨hmem, hkeeps, hlog, hletter, hclock, hprev⟩ := h.move_put hm ⟨rfl, rfl⟩ hmove
    exact ⟨_, .store hmem, hkeeps, hlog, hletter, hclock, hprev⟩
  | display p env => exact h.move_display hmove
  | ack p env => exact h.move_ack hmove

end Ipc

end Rtx.Unix
