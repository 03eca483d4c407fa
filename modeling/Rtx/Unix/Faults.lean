import Rtx.Unix.Services
import Rtx.Unix.WakeUps

/-!
# What the i-processes of the Unix port need

The queues of envelopes and the scheduler never fail in a reachable state (`Stable`). What is left
are three things that the turns of the i-processes rely on, and that nobody checks:

* the timeout i-process needs a body for each request, and no request may come that is due later
  than all of two or more that are pending (`Ipc.Accepts`);
* the keyboard i-process needs a body, and a line that fits into it (`Kernel.LineFits`);
* the CRT i-process needs a text that ends inside its body (`Kernel.TextFits`).

A turn runs to its end exactly if they are there.
-/

namespace Rtx

open Linked Transition Places
open Coldfire (wrap32 wrap32_wrap32 nextOf)

/-! ## Insertions into the timeout list -/

namespace TimeoutList

variable {α : Type} [DecidableEq α] {L : TimeoutList α} {due : α → ℤ} {l : List α} {env : α}
  {delay : ℤ} {fuel : ℕ}

omit [DecidableEq α] in
theorem Pending.of_stored {due' : α → ℤ} (h : L.Pending due l)
    (hdue : ∀ x ∈ l, L.stored x = some (due' x)) : L.Pending due' l := by
  have hsame : ∀ x ∈ l, due x = due' x := fun x hx =>
    Option.some.inj ((h.stored x hx).symm.trans (hdue x hx))
  refine ⟨h.chain, hdue, h.sorted.imp_of_mem fun hx hy hxy => ?_⟩
  rwa [← hsame _ hx, ← hsame _ hy]

/-- Whatever the delay: the insertion goes through if some pending envelope is not due earlier, or
if there is at most one. -/
theorem Pending.insert_isSome_iff (h : L.Pending due l) (henv : env ∉ l)
    (hdelay : L.stored env = some delay) (hfuel : l.length ≤ fuel + 1) :
    (L.insert none fuel env).isSome ↔
      l.length ≤ 1 ∨ ∃ x ∈ l, wrap32 (L.clock + delay) ≤ due x := by
  set timeout := wrap32 (L.clock + delay) with htimeout
  have hJ : (L.store env timeout).Pending due l := by
    refine ⟨h.chain, fun x hx => ?_, h.sorted⟩
    rw [← h.stored x hx]
    apply Function.update_of_ne
    rintro rfl
    exact henv hx
  have hself : (L.store env timeout).stored env = some timeout := Function.update_self ..
  simp only [TimeoutList.insert, hdelay, Option.bind_eq_bind, Option.bind_some]
  rw [← htimeout]
  cases l with
  | nil =>
    have hhead : (L.store env timeout).head = none := h.chain
    rw [hhead]
    simp
  | cons a l =>
    have hhead : (L.store env timeout).head = some a := h.chain.1
    rw [hhead]
    show ((L.store env timeout).link none fuel env timeout a).isSome ↔ _
    rw [← link_iff hJ henv hself (by simpa using hfuel), Option.isSome_iff_exists]
    exact exists_congr fun L' => ⟨fun hlink => ⟨hlink, hJ.link henv hself hlink⟩, And.left⟩

end TimeoutList

/-- Of the requests that come one after the other, none is due later than all of two or more that
are there. -/
def NoneBehind {α : Type} (due : α → ℤ) (pending requests : List α) : Prop :=
  ∀ l₁ env l₂, requests = l₁ ++ env :: l₂ →
    (pending ++ l₁).length ≤ 1 ∨ ∃ x ∈ pending ++ l₁, due env ≤ due x

section NoneBehind

variable {α : Type} {due : α → ℤ} {pending pending' requests : List α} {env : α}

theorem noneBehind_nil (due : α → ℤ) (pending : List α) : NoneBehind due pending [] := by
  intro l₁ env l₂ h
  simp at h

theorem noneBehind_cons (due : α → ℤ) (pending : List α) (env : α) (requests : List α) :
    NoneBehind due pending (env :: requests) ↔
      (pending.length ≤ 1 ∨ ∃ x ∈ pending, due env ≤ due x) ∧
        NoneBehind due (env :: pending) requests := by
  have hsame : ∀ l₁ : List α, (pending ++ env :: l₁).Perm (env :: pending ++ l₁) :=
    fun l₁ => List.perm_middle
  constructor
  · intro h
    refine ⟨by simpa using h [] env requests rfl, fun l₁ x l₂ hl => ?_⟩
    subst hl
    have hx := h (env :: l₁) x l₂ rfl
    rw [(hsame l₁).length_eq] at hx
    exact hx.imp_right fun ⟨y, hy, hxy⟩ => ⟨y, (hsame l₁).mem_iff.1 hy, hxy⟩
  · rintro ⟨hfirst, hrest⟩ l₁ x l₂ hl
    cases l₁ with
    | nil =>
      obtain ⟨rfl, -⟩ := List.cons.inj hl
      simpa using hfirst
    | cons y l₁ =>
      obtain ⟨rfl, rfl⟩ := List.cons.inj hl
      have hx := hrest l₁ x l₂ rfl
      rw [← (hsame l₁).length_eq] at hx
      exact hx.imp_right fun ⟨z, hz, hxz⟩ => ⟨z, (hsame l₁).mem_iff.2 hz, hxz⟩

theorem NoneBehind.perm (h : NoneBehind due pending requests) (hperm : pending.Perm pending') :
    NoneBehind due pending' requests := by
  intro l₁ env l₂ hl
  have hsame : (pending ++ l₁).Perm (pending' ++ l₁) := hperm.append_right l₁
  have henv := h l₁ env l₂ hl
  rw [hsame.length_eq] at henv
  exact henv.imp_right fun ⟨x, hx, hle⟩ => ⟨x, hsame.mem_iff.1 hx, hle⟩

end NoneBehind

namespace Unix

open Coldfire (Body Letter PcbInit Sched AbsSched copyText outsLoop outsLoop_isSome_iff)

variable {n : ℕ}

theorem Transfer.insert_perm {L L' : Spot n → List EnvPtr} {p : Fin n} {env : EnvPtr}
    (h : Transfer L (.insert p env) L') :
    (L' .timeoutQueue).Perm (env :: L .timeoutQueue) := by
  cases h with
  | insert henv hl =>
    rw [shift_dst]
    exact hl

namespace Ipc

variable {I I' : Ipc n} {L L' : Spot n → List EnvPtr} {p : Fin n} {env : EnvPtr}
  {requests : List EnvPtr}

/-! ## Requests for delays -/

/-- When the envelopes are due: what is pending says so, and a request says in how many ticks. -/
structure Due (I : Ipc n) (due : EnvPtr → ℤ) (pending requests : List EnvPtr) : Prop where
  pending : ∀ x ∈ pending, I.timeouts.timeoutOf x = some (due x)
  request : ∀ x ∈ requests, ∃ delay, I.timeouts.timeoutOf x = some delay ∧
    due x = wrap32 (I.clock.toNat + delay)

/-- The timeout i-process gets through the requests: each has a body, and none is due later than all
of two or more that are pending. -/
def Accepts (I : Ipc n) (pending requests : List EnvPtr) : Prop :=
  ∃ due, I.Due due pending requests ∧ NoneBehind due pending requests

theorem accepts_nil (h : I.Keeps L) : I.Accepts (L .timeoutQueue) [] := by
  obtain ⟨due, hpending⟩ := h.pending
  exact ⟨due, ⟨hpending.stored, by simp⟩, noneBehind_nil due _⟩

theorem accepts_congr {pending : List EnvPtr} (hletter : I'.letter = I.letter)
    (hclock : I'.clock = I.clock) : I'.Accepts pending requests ↔ I.Accepts pending requests := by
  have htimeoutOf : I'.timeouts.timeoutOf = I.timeouts.timeoutOf := by
    funext x
    exact TimeoutMem.timeoutOf_congr (congrFun hletter x)
  refine exists_congr fun due => and_congr_left fun _ => ⟨fun h => ⟨?_, ?_⟩, fun h => ⟨?_, ?_⟩⟩
  · rw [← htimeoutOf]
    exact h.pending
  · rw [← htimeoutOf, ← hclock]
    exact h.request
  · rw [htimeoutOf]
    exact h.pending
  · rw [htimeoutOf, hclock]
    exact h.request

theorem length_le_envFuel (h : I.Keeps L) (a : Spot n) : (L a).length ≤ ipcNumFreeMsgEnvs := by
  have hcard := (h.partition.nodup a).length_le_card
  rwa [Fintype.card_fin] at hcard

theorem insert_isSome_iff (h : I.Keeps L) (henv : I.HeldBy p env) {due : EnvPtr → ℤ}
    (hdue : ∀ x ∈ L .timeoutQueue, I.timeouts.timeoutOf x = some (due x)) {delay : ℤ}
    (hdelay : I.timeouts.timeoutOf env = some delay)
    (henvDue : due env = wrap32 (I.clock.toNat + delay)) :
    (I.move (.insert p env)).isSome ↔ (L .timeoutQueue).length ≤ 1 ∨
      ∃ x ∈ L .timeoutQueue, due env ≤ due x := by
  have hnot : env ∉ L .timeoutQueue := h.partition.not_mem (h.mem_held henv) (by simp)
  have hlength := length_le_envFuel h .timeoutQueue
  have hfuel : (L .timeoutQueue).length ≤ envFuel + 1 := by
    rw [envFuel]
    omega
  obtain ⟨due₀, hpending⟩ := h.pending
  have hiff := (hpending.of_stored hdue).insert_isSome_iff hnot hdelay hfuel
  rw [← TimeoutMem.timeoutList_insert, Option.isSome_map,
    show I.timeouts.timeoutList.clock = I.clock.toNat from rfl, ← henvDue] at hiff
  refine Iff.trans ?_ hiff
  simp only [move, hdelay, Option.bind_eq_bind, Option.bind_some]
  cases I.timeouts.timeoutQueueInsert envFuel (some env) <;> simp

theorem Moves.timeoutOf_insert (h : Moves I L (.insert p env) I' L') :
    I'.timeouts.timeoutOf = Function.update I.timeouts.timeoutOf env
      ((I.timeouts.timeoutOf env).map fun delay => wrap32 (I.clock.toNat + delay)) := by
  have hletter : ∀ x,
      I'.timeouts.timeoutOf x = (MailMove.letter I (.insert p env) x).msg.map getInt := by
    intro x
    rw [← h.effect.letter]
    rfl
  funext x
  rw [hletter, MailMove.letter]
  by_cases hx : x = env
  · subst hx
    have hdelay : I.timeouts.timeoutOf x = (I.letter x).msg.map getInt := rfl
    rw [Function.update_self, Function.update_self, hdelay]
    cases (I.letter x).msg with
    | none => simp only [Option.map_none]
    | some body => simp only [Option.map_some, getInt_putInt, wrap32_wrap32]
  · rw [Function.update_of_ne hx, Function.update_of_ne hx]
    rfl

theorem Accepts.insert_isSome (h : I.Keeps L) (henv : I.HeldBy p env)
    (haccepts : I.Accepts (L .timeoutQueue) (env :: requests)) :
    (I.move (.insert p env)).isSome := by
  obtain ⟨due, hdue, hnone⟩ := haccepts
  obtain ⟨delay, hdelay, henvDue⟩ := hdue.request env List.mem_cons_self
  exact (insert_isSome_iff h henv hdue.pending hdelay henvDue).2 ((noneBehind_cons ..).1 hnone).1

/-- Once the first request is inserted, it is one of those that are pending. -/
theorem accepts_cons (h : I.Keeps L) (henv : I.HeldBy p env) (hrequests : env ∉ requests)
    (hmove : I.move (.insert p env) = some I') (hmoves : Moves I L (.insert p env) I' L') :
    I.Accepts (L .timeoutQueue) (env :: requests) ↔ I'.Accepts (L' .timeoutQueue) requests := by
  have hnot : env ∉ L .timeoutQueue := h.partition.not_mem (h.mem_held henv) (by simp)
  have hperm := hmoves.transfer.insert_perm
  have hold : ∀ {x : EnvPtr} {l : List EnvPtr}, x ∈ l → env ∉ l →
      I'.timeouts.timeoutOf x = I.timeouts.timeoutOf x := by
    intro x l hx hl
    rw [hmoves.timeoutOf_insert, Function.update_of_ne (ne_of_mem_of_not_mem hx hl)]
  constructor
  · rintro ⟨due, hdue, hnone⟩
    obtain ⟨delay, hdelay, henvDue⟩ := hdue.request env List.mem_cons_self
    have hrest := ((noneBehind_cons ..).1 hnone).2
    refine ⟨due, ⟨fun x hx => ?_, fun x hx => ?_⟩, hrest.perm hperm.symm⟩
    · rcases List.mem_cons.1 (hperm.subset hx) with rfl | hx
      · rw [hmoves.timeoutOf_insert, Function.update_self, hdelay, henvDue]
        rfl
      · rw [hold hx hnot]
        exact hdue.pending x hx
    · rw [hold hx hrequests, hmoves.effect.clock]
      exact hdue.request x (List.mem_cons_of_mem env hx)
  · rintro ⟨due, hdue, hnone⟩
    obtain ⟨delay, hdelay, -⟩ := Option.bind_eq_some_iff.1 hmove
    have hpending : ∀ x ∈ L .timeoutQueue, I.timeouts.timeoutOf x = some (due x) := by
      intro x hx
      rw [← hold hx hnot]
      exact hdue.pending x (hperm.symm.subset (List.mem_cons_of_mem env hx))
    have henvDue : due env = wrap32 (I.clock.toNat + delay) := by
      have hstored := hdue.pending env (hperm.symm.subset List.mem_cons_self)
      rw [hmoves.timeoutOf_insert, Function.update_self, hdelay] at hstored
      exact (Option.some.inj hstored).symm
    have hfirst := (insert_isSome_iff h henv hpending hdelay henvDue).1 (by rw [hmove]; rfl)
    refine ⟨due, ⟨hpending, fun x hx => ?_⟩, (noneBehind_cons ..).2 ⟨hfirst, hnone.perm hperm⟩⟩
    rcases List.mem_cons.1 hx with rfl | hx
    · exact ⟨delay, hdelay, henvDue⟩
    · have hrequest := hdue.request x hx
      rwa [hold hx hrequests, hmoves.effect.clock] at hrequest

end Ipc

/-- An i-process never sends to an i-process. -/
theorem Answers.not_among {initTable : Fin n → PcbInit} {log : List (Event n)} {p q : Fin n}
    {env : EnvPtr} (h : Answers initTable log) (hlast : lastSend log env = some (p, q))
    (hp : (initTable p).isIProcess = true) : (initTable q).isIProcess ≠ true := by
  induction log generalizing p q with
  | nil => contradiction
  | cons ev log ih =>
    have hrest : Answers initTable log := by
      intro l₁ l₂ i q env letter hlog hi
      exact h (ev :: l₁) l₂ i q env letter (by rw [hlog]; rfl) hi
    by_cases hev : ∃ letter, ev = .sent p q env letter
    · -- What it sends is an answer, so that the other one would have sent to an i-process.
      obtain ⟨letter, rfl⟩ := hev
      exact fun hq => ih hrest (h [] log p q env letter rfl hp) hq hp
    · refine ih hrest ?_ hp
      cases ev with
      | sent p' q' env' letter =>
        by_cases henv : env' = env
        · subst henv
          rw [lastSend_sent] at hlast
          cases hlast
          exact absurd ⟨letter, rfl⟩ hev
        · have hne : env ≠ (Event.sent p' q' env' letter).env := Ne.symm henv
          rwa [lastSend_cons_of_ne log hne] at hlast
      | _ => exact hlast

namespace Kernel

variable {initTable : Fin n → PcbInit} {b s t t' : Kernel n} {l : RtxLabel} {i p q cur : Fin n}
  {env : EnvPtr} {L : Spot n → List EnvPtr} {A : AbsSched n} {ok : Kernel n → RtxLabel → Prop}

/-! ## Reachable states -/

/-- The envelopes and the processes are where they should be. -/
structure Stable (initTable : Fin n → PcbInit) (s : Kernel n) : Prop
    extends Serving initTable s where
  models : ∃ A, s.Models A ∧ ∀ p, Mannered (A.info p)

/-- In this step the caller works on what it has, the null process only releases the processor, and
no unsafe change of priority is made. -/
def Sane (s : Kernel n) (l : RtxLabel) : Prop := s.Careful l ∧ NullReleases s l ∧ s.TailSafe l

theorem Stable.acts (h : b.Stable initTable) (hl : b.Sane l)
    (hreach : Reach Kernel.act (· = b) (Act.Ok b l) t) : t.Stable initTable := by
  obtain ⟨L, hkeeps⟩ := h.keeps
  refine ⟨h.toServing.acts hreach, ?_⟩
  obtain ⟨-, -, -, hmodels⟩ := h.rested.tracks_acts hkeeps
    (I := fun t _ => ∃ A, t.Models A ∧ ∀ p, Mannered (A.info p)) h.models
    (fun t a t' L L' hact ⟨A, hA, hmannered⟩ => by
      obtain ⟨A', hA', hm⟩ := hA.acting hl.2.2 hact
      exact ⟨A', hA', hA.mannered_acting hl.2.1 hmannered hact hm⟩) hreach
  exact hmodels

theorem stable_reach (htab : Tabled initTable)
    (hs : Reach Kernel.step (Booted initTable) Sane s) : s.Stable initTable := by
  refine hs.invariant (fun s hs => ⟨(hs.serving htab).1, ?_⟩) fun s l s' _ h hl hstep => ?_
  · obtain ⟨A, hA, hmodels⟩ := hs.models htab
    exact ⟨A, hmodels, mannered_boot htab hA⟩
  · exact h.acts hl (h.rested.step hl.1 hstep).1

/-! ## Sends and receives go through -/

theorem Models.possible {m : SchedMove n} (h : s.Models A) (hsafe : SafeMove A m) :
    (schedMove s.sched m).isSome ↔ (absMove A m).isSome := by
  have hrel := h.refines.move h.sound hsafe
  cases hS : schedMove s.sched m <;> cases hA : absMove A m <;> rw [hS, hA] at hrel
  · rfl
  · cases hrel
  · cases hrel
  · rfl

theorem Models.wakeReceiver_isSome (h : s.Models A) (q : Fin n) :
    (wakeReceiver s.sched q).isSome := by
  apply (h.possible (m := .wakeReceiver q) trivial).2
  rfl

theorem Turning.wakeReceiver_isSome (h : Turning b l i p t) (hb : b.Stable initTable)
    (hl : b.Sane l) (q : Fin n) : (wakeReceiver t.sched q).isSome := by
  obtain ⟨A, hA, -⟩ := (hb.acts hl h.done).models
  have hseen := hA.wakeReceiver_isSome q
  rw [seen_of_some h.current h.interrupted] at hseen
  have hleft : (wakeReceiver (left i p t.sched) q).isSome := hseen
  rwa [wake_leave (h.within p h.interrupted).1 q, Option.isSome_map] at hleft

theorem kSendMessage_isSome (hcur : t.sched.currentProcess = some cur) (hkeeps : t.ipc.Keeps L)
    (henv : t.ipc.HeldBy cur env) (hwake : ∀ q, (wakeReceiver t.sched q).isSome) (letter : Letter)
    (destPid : ℤ) :
    (({ t with ipc := t.ipc.setLetter env letter } : Kernel n).kSendMessage destPid
      (some env)).isSome := by
  unfold kSendMessage
  cases pcbOf n destPid with
  | none => rfl
  | some q =>
    have hmem := hkeeps.mem_held henv
    have hfilled : (t.ipc.setLetter env letter).Keeps L := hkeeps.overwrite hmem _
    set stamped : Letter := { (t.ipc.setLetter env letter).letter env with
      sendPid := (t.sched.pTable cur).pid
      destPid := destPid } with hstamped
    have hkeeps' : ((t.ipc.setLetter env letter).setLetter env stamped).Keeps L :=
      hfilled.overwrite hmem _
    obtain ⟨J, henq, -⟩ := Ipc.enqueue_spec hkeeps'.holds (hkeeps'.not_queued hmem) (.recvMsgs q)
    obtain ⟨sched, hsched⟩ := Option.isSome_iff_exists.1 (hwake q)
    simp only [hcur, Option.bind_eq_bind, Option.bind_some, ← hstamped, henq, hsched]
    rfl

/-- What `k_receive_message` in the i-process `i` finds, and leaves. -/
structure Received (t : Kernel n) (L : Spot n → List EnvPtr) (i : Fin n) (found : Option EnvPtr)
    (t' : Kernel n) (L' : Spot n → List EnvPtr) : Prop where
  keeps : t'.ipc.Keeps L'
  mail : found.toList ++ L' (.queue (.recvMsgs i)) = L (.queue (.recvMsgs i))
  drained : found = none → L' (.queue (.recvMsgs i)) = []
  held : ∀ env ∈ found, t'.ipc.HeldBy i env ∧ (t'.ipc.mem env).next = none
  other : ∀ a, a ≠ .queue (.recvMsgs i) → a ≠ .held i → L' a = L a
  letter : t'.ipc.letter = t.ipc.letter
  clock : t'.ipc.clock = t.ipc.clock

theorem Turning.receiveNow (h : Turning b l i p t) (hkeeps : t.ipc.Keeps L) :
    ∃ found t' L', t.receiveNow = some (found, t') ∧ Turning b l i p t' ∧
      Received t L i found t' L' := by
  have hempty := Ipc.isEmpty_eq hkeeps.holds (.recvMsgs i)
  have hsome : t.receiveNow.isSome := by
    unfold Kernel.receiveNow Kernel.kReceiveMessage
    have hi : (t.sched.pTable i).isIProcess = true := h.iProcess
    simp only [h.current, hempty, hi, if_true, Option.bind_eq_bind, Option.bind_some]
    by_cases hmail : L (.queue (.recvMsgs i)) = []
    · simp [hmail, Outcome.returned]
    · rw [if_neg hmail] at hempty ⊢
      obtain ⟨env, J, hdeq, -⟩ := Ipc.exists_take hempty
      simp [hdeq, Outcome.returned]
  obtain ⟨⟨found, t'⟩, hreceive⟩ := Option.isSome_iff_exists.1 hsome
  refine ⟨found, t', ?_⟩
  rcases receiveNow_cases h.current h.iProcess hreceive with ⟨hnone, rfl, rfl⟩ |
    ⟨env, ipc, rfl, hmove, rfl⟩
  · have hmail := hkeeps.empty_iff.1 hnone
    exact ⟨L, hreceive, h, hkeeps, rfl, fun _ => hmail, by simp, fun _ _ _ => rfl, rfl, rfl⟩
  · obtain ⟨L', hmoves, -⟩ := hkeeps.move_receive hmove
    refine ⟨L', hreceive, h.receive hmove, hmoves.keeps, ?_, by simp, ?_, ?_,
      hmoves.effect.letter, hmoves.effect.clock⟩
    · cases hmoves.transfer with
      | receive hl =>
        rw [shift_src L (by simp), hl]
        rfl
    · intro x hx
      obtain rfl := Option.some.inj hx
      exact Ipc.held_receive hmove
    · intro a ha ha'
      cases hmoves.transfer with
      | receive hl => exact shift_other L ha ha' _ _

/-! ## The timeout i-process -/

theorem insertTimeout_map (hcur : t.sched.currentProcess = some i) (env : EnvPtr) :
    t.insertTimeout env =
      (t.ipc.move (.insert i env)).map fun ipc => { t with ipc := ipc } := by
  simp only [insertTimeout, Ipc.move, hcur, Option.bind_eq_bind, Option.bind_some]
  cases t.ipc.timeouts.timeoutOf env with
  | none => rfl
  | some delay => cases t.ipc.timeouts.timeoutQueueInsert Ipc.envFuel (some env) <;> rfl

/-- The loop gets through the requests that are accepted, and through no others. -/
theorem Turning.drainRequests_isSome_iff {fuel : ℕ} {found : Option EnvPtr}
    (h : Turning b .sigalrm i p t) (hi : pcbOf n timeoutIProcessPid = some i)
    (hkeeps : t.ipc.Keeps L)
    (hdrained : found = none → L (.queue (.recvMsgs i)) = [])
    (hfound : ∀ env ∈ found, t.ipc.HeldBy i env ∧ (t.ipc.mem env).next = none)
    (hfuel : (found.toList ++ L (.queue (.recvMsgs i))).length < fuel) :
    (t.drainRequests fuel found).isSome ↔
      t.ipc.Accepts (L .timeoutQueue) (found.toList ++ L (.queue (.recvMsgs i))) := by
  induction fuel generalizing found t L with
  | zero => contradiction
  | succ fuel ih =>
    cases found with
    | none =>
      rw [hdrained rfl]
      exact iff_of_true rfl (Ipc.accepts_nil hkeeps)
    | some env =>
      obtain ⟨henv, hnext⟩ := hfound env rfl
      have hnot : env ∉ L (.queue (.recvMsgs i)) :=
        hkeeps.not_queued (hkeeps.mem_held henv) (.recvMsgs i)
      show ((t.insertTimeout env).bind fun t₁ => t₁.receiveNow.bind fun r =>
        r.2.drainRequests fuel r.1).isSome ↔
          t.ipc.Accepts (L .timeoutQueue) (env :: L (.queue (.recvMsgs i)))
      rw [insertTimeout_map h.current]
      cases hmove : t.ipc.move (.insert i env) with
      | none =>
        refine iff_of_false (by simp) fun haccepts => ?_
        have hsome := haccepts.insert_isSome hkeeps henv
        rw [hmove] at hsome
        contradiction
      | some ipc =>
        obtain ⟨L₁, hmoves⟩ := hkeeps.move_insert henv hnext hmove
        obtain ⟨found, t₂, L₂, hreceive, h₂, hr⟩ :=
          (h.insert hi rfl henv hnext hmove).receiveNow hmoves.keeps
        have hmail : L₁ (.queue (.recvMsgs i)) = L (.queue (.recvMsgs i)) := by
          cases hmoves.transfer with
          | insert henv hl => exact shift_other L (by simp) (by simp) _ _
        have hlength : (found.toList ++ L₂ (.queue (.recvMsgs i))).length < fuel := by
          rw [hr.mail, hmail]
          simpa using hfuel
        rw [Ipc.accepts_cons hkeeps henv hnot hmove hmoves, Option.map_some, Option.bind_some,
          hreceive, Option.bind_some, ih h₂ hr.keeps hr.drained hr.held hlength, hr.mail, hmail,
          hr.other .timeoutQueue (by simp) (by simp)]
        exact Ipc.accepts_congr hr.letter hr.clock

theorem Turning.expireTimeout_isSome (h : Turning b .sigalrm i p t) (hb : b.Stable initTable)
    (hl : b.Sane .sigalrm) (hi : pcbOf n timeoutIProcessPid = some i) :
    t.expireTimeout.isSome := by
  obtain ⟨⟨L, hkeeps⟩, -⟩ := h.serving hb.toServing
  obtain ⟨⟨found, T⟩, hcheck⟩ : ∃ r, t.ipc.timeouts.checkTimeoutQueue = some r := by
    obtain ⟨due, hpending⟩ := hkeeps.pending
    unfold TimeoutMem.checkTimeoutQueue
    cases hL : L .timeoutQueue with
    | nil =>
      rw [hL] at hpending
      have hnone : t.ipc.timeouts.timeoutQueue = none := hpending.chain
      rw [hnone]
      exact ⟨_, rfl⟩
    | cons a l =>
      rw [hL] at hpending
      have hsome : t.ipc.timeouts.timeoutQueue = some a := hpending.chain.1
      have ha : t.ipc.timeouts.timeoutOf a = some (due a) := hpending.stored a List.mem_cons_self
      rw [hsome]
      simp only [ha, Option.bind_eq_bind, Option.bind_some]
      split
      · exact ⟨_, rfl⟩
      · exact ⟨_, rfl⟩
  unfold expireTimeout
  rw [hcheck]
  cases found with
  | none => rfl
  | some env =>
    have hmove : t.ipc.move (.expire i env) =
        some ((t.ipc.setTimeouts T).emit (.expired i env t.ipc.clock)) := by
      simp [Ipc.move, hcheck]
    obtain ⟨h₁, henv⟩ := h.expire hi rfl hmove
    obtain ⟨⟨L₁, hkeeps₁⟩, -⟩ := h₁.serving hb.toServing
    have hsend := kSendMessage_isSome h₁.current hkeeps₁ henv (h₁.wakeReceiver_isSome hb hl)
      (((t.ipc.setTimeouts T).emit (.expired i env t.ipc.clock)).letter env)
      ((t.ipc.setTimeouts T).letter env).sendPid
    rw [Ipc.setLetter_letter] at hsend
    obtain ⟨⟨code, t'⟩, hsend⟩ := Option.isSome_iff_exists.1 hsend
    simp only [h.current, Option.bind_eq_bind, Option.bind_some]
    have hsend' : ({ t with ipc := (t.ipc.setTimeouts T).emit (.expired i env t.ipc.clock) } :
        Kernel n).kSendMessage (((t.ipc.setTimeouts T).emit
          (.expired i env t.ipc.clock)).letter env).sendPid (some env) = some (code, t') := hsend
    rw [hsend']
    rfl

theorem Turning.startTimeoutIProcess_isSome_iff (h : Turning b .sigalrm i p t)
    (hb : b.Stable initTable) (hl : b.Sane .sigalrm) (hi : pcbOf n timeoutIProcessPid = some i)
    (hkeeps : t.ipc.Keeps L) :
    t.startTimeoutIProcess.isSome ↔
      t.ticked.ipc.Accepts (L .timeoutQueue) (L (.queue (.recvMsgs i))) := by
  have hticked : t.ticked.ipc.Keeps L := by
    obtain ⟨L', hmoves⟩ := hkeeps.move (m := .tick) trivial rfl
    cases hmoves.transfer
    exact hmoves.keeps
  obtain ⟨found, t₁, L₁, hreceive, h₁, hr⟩ := (h.tick rfl).receiveNow hticked
  have hlength : (found.toList ++ L₁ (.queue (.recvMsgs i))).length < Ipc.envFuel + 1 := by
    rw [hr.mail]
    have hcard := Ipc.length_le_envFuel hkeeps (.queue (.recvMsgs i))
    rw [Ipc.envFuel]
    omega
  have hdrain := h₁.drainRequests_isSome_iff hi hr.keeps hr.drained hr.held hlength
  rw [hr.mail, hr.other .timeoutQueue (by simp) (by simp),
    Ipc.accepts_congr hr.letter hr.clock] at hdrain
  rw [← hdrain]
  show (t.ticked.receiveNow.bind fun r => (r.2.drainRequests (Ipc.envFuel + 1) r.1).bind
    fun t => t.expireTimeout).isSome ↔ _
  rw [hreceive, Option.bind_some]
  cases hdone : t₁.drainRequests (Ipc.envFuel + 1) found with
  | none => rfl
  | some t₂ =>
    exact iff_of_true ((h₁.drainRequests hi rfl hr.held hdone).expireTimeout_isSome hb hl hi) rfl

/-! ## The keyboard i-process -/

/-- What an i-process finds is the first envelope of its mailbox. -/
theorem Received.found_eq {found : Option EnvPtr} {L' : Spot n → List EnvPtr}
    (h : Received t L i found t' L') (hkeeps : t.ipc.Keeps L) :
    found = (t.ipc.queues (.recvMsgs i)).head := by
  have hhead : (t.ipc.queues (.recvMsgs i)).head = (L (.queue (.recvMsgs i))).head? :=
    (hkeeps.holds.rep (.recvMsgs i)).head_eq
  rw [hhead, ← h.mail]
  cases found with
  | none => rw [h.drained rfl]; rfl
  | some env => rfl

theorem Turning.exists_reply (h : Turning b l i p t) (hb : b.Stable initTable) (hl : b.Sane l)
    (henv : t.ipc.HeldBy i env) (letter : Letter) (destPid : ℤ) :
    ∃ r, ({ t with ipc := t.ipc.setLetter env letter } : Kernel n).kSendMessage destPid
      (some env) = some r := by
  obtain ⟨⟨L, hkeeps⟩, -⟩ := h.serving hb.toServing
  exact Option.isSome_iff_exists.1
    (kSendMessage_isSome h.current hkeeps henv (h.wakeReceiver_isSome hb hl) letter destPid)

theorem Turning.startKbIProcess_isSome_iff {length : ℤ} {data : Body} (h : Turning b l i p t)
    (hb : b.Stable initTable) (hl : b.Sane l) :
    (t.startKbIProcess length data).isSome ↔ ∀ env ∈ (t.ipc.queues (.recvMsgs i)).head,
      (t.ipc.letter env).msg.isSome ∧ length < msgEnvMsgSize := by
  obtain ⟨⟨L, hkeeps⟩, -⟩ := h.serving hb.toServing
  obtain ⟨found, t₁, L₁, hreceive, h₁, hr⟩ := h.receiveNow hkeeps
  rw [← hr.found_eq hkeeps, ← hr.letter]
  unfold Kernel.startKbIProcess
  rw [hreceive, Option.bind_eq_bind, Option.bind_some]
  cases found with
  | none => simp
  | some env =>
    simp only [Option.mem_some_iff, forall_eq']
    cases hmsg : (t₁.ipc.letter env).msg with
    | none => simp
    | some msg =>
      by_cases hlength : length < msgEnvMsgSize
      · set letter : Letter := { t₁.ipc.letter env with
          msg := some (copyLine msg length.toNat data)
          msgType := consoleInput } with hletter
        obtain ⟨⟨code, t₂⟩, hsend⟩ :=
          h₁.exists_reply hb hl (hr.held env rfl).1 letter (t₁.ipc.letter env).sendPid
        simp only [Option.bind_eq_bind, Option.bind_some, if_pos hlength, ← hletter, hsend]
        simp [hlength]
      · simp [hlength]

/-! ## The CRT i-process -/

/-- An answer does not go to an i-process. -/
theorem Turning.replies_places {letter : Letter} {r : ℤ × Kernel n} (h : Turning b l i p t)
    (hb : b.Serving initTable) (henv : t.ipc.HeldBy i env) (hkeeps : t.ipc.Keeps L)
    (hletter : letter.sendPid = (t.ipc.letter env).sendPid)
    (hsend : ({ t with ipc := t.ipc.setLetter env letter } : Kernel n).kSendMessage letter.sendPid
      (some env) = some r) :
    ∃ L', r.2.ipc.Keeps L' ∧ L' (.queue .displayQueue) = L (.queue .displayQueue) ∧
      L' (.queue (.recvMsgs i)) = L (.queue (.recvMsgs i)) ∧
      ∀ x, x ≠ env → r.2.ipc.letter x = t.ipc.letter x := by
  have h₁ := h.fill henv hletter
  have hfilled : (t.ipc.setLetter env letter).Keeps L :=
    hkeeps.overwrite (hkeeps.mem_held henv) _
  have hsame : ∀ x, x ≠ env → (t.ipc.setLetter env letter).letter x = t.ipc.letter x := by
    intro x hx
    rw [Ipc.letter_setLetter, Function.update_of_ne hx]
  rcases kSendMessage_cases hsend with ⟨-, -, ht⟩ |
    ⟨cur, q, ipc, sched, -, hcur, hpcb, hmove, -, ht⟩
  · rw [ht]
    exact ⟨L, hfilled, rfl, rfl, hsame⟩
  · obtain rfl : i = cur := Option.some.inj (h₁.current.symm.trans hcur)
    obtain ⟨L', hmoves⟩ := hfilled.move (m := .send i q env _ _) henv hmove
    obtain ⟨-, hserves, hi⟩ := h.serving hb
    have hkeeper : (spotOf t.ipc.log env).keeper = some i := by
      rw [show spotOf t.ipc.log env = .held i from henv]
      rfl
    obtain ⟨q', hlast, hpid⟩ := hserves.asked hi hkeeper
    obtain rfl : q' = q := by
      rw [hletter, hpid, hb.tabled.pcbOf] at hpcb
      exact Option.some.inj hpcb
    have hne : i ≠ q' := by
      rintro rfl
      exact hserves.answers.not_among hlast hi hi
    rw [ht]
    refine ⟨L', hmoves.keeps, ?_, ?_, fun x hx => ?_⟩
    · cases hmoves.transfer with
      | send => exact shift_other L (by simp) (by simp) _ _
    · cases hmoves.transfer with
      | send => exact shift_other L (by simp) (by simp [hne]) _ _
    · rw [hmoves.effect.letter, MailMove.letter, Function.update_of_ne hx]
      exact hsame x hx

/-- The start of a turn goes through, and leaves what is to be shown alone. -/
theorem Turning.exists_crtAck {first second : CrtFlag} (h : Turning b l i p t)
    (hb : b.Stable initTable) (hl : b.Sane l) (hi : pcbOf n crtIProcessPid = some i)
    (hlabel : l = .sigusr2 first second) (hkeeps : t.ipc.Keeps L) :
    ∃ t' L', t.crtAck first = some t' ∧ Turning b l i p t' ∧ t'.ipc.Keeps L' ∧
      L' (.queue .displayQueue) = L (.queue .displayQueue) ∧
      L' (.queue (.recvMsgs i)) = L (.queue (.recvMsgs i)) ∧
      ∀ j, ∀ x ∈ L (.queue j), t'.ipc.letter x = t.ipc.letter x := by
  cases hprev : t.ipc.prevMsg with
  | none => exact ⟨t, L, by simp [Kernel.crtAck, hprev], h, hkeeps, rfl, rfl, fun _ _ _ => rfl⟩
  | some env =>
    cases first with
    | wait => exact ⟨t, L, by simp [Kernel.crtAck, hprev], h, hkeeps, rfl, rfl, fun _ _ _ => rfl⟩
    | free =>
      set ipc : Ipc n := { t.ipc with prevMsg := none }.emit (.acked i env) with hipc
      have hmove : t.ipc.move (.ack i env) = some ipc := by
        rw [Ipc.move, if_pos hprev]
      obtain ⟨h₁, henv⟩ := h.ack hi hlabel hmove
      obtain ⟨L₁, hmoves⟩ := hkeeps.move (m := .ack i env) trivial hmove
      set letter : Letter := { t.ipc.letter env with msgType := displayAck } with hletter
      obtain ⟨r, hsend⟩ := h₁.exists_reply hb hl henv letter letter.sendPid
      obtain ⟨L₂, hkeeps₂, hshown, hmail, hsame⟩ :=
        h₁.replies_places hb.toServing henv hmoves.keeps (show letter.sendPid = _ from rfl) hsend
      have hack : t.crtAck .free = some r.2 := by
        have hsent : (({ t with ipc := (t.ipc.emit (.acked i env)).setLetter env letter } :
            Kernel n).kSendMessage (t.ipc.letter env).sendPid (some env)).map (fun r =>
              (r.1, { r.2 with ipc := { r.2.ipc with prevMsg := none } })) = some r :=
          (kSendMessage_prevMsg _ none).symm.trans hsend
        obtain ⟨⟨code, t₁⟩, hreply, rfl⟩ := Option.map_eq_some_iff.1 hsent
        simp only [Kernel.crtAck, hprev, h.current, Option.bind_eq_bind, Option.bind_some,
          ← hletter, hreply]
        rfl
      have hplace : ∀ j : QueuePtr n, L₁ (.queue j) = L (.queue j) := by
        intro j
        cases hmoves.transfer with
        | ack => exact shift_other L (by simp) (by simp) _ _
      refine ⟨r.2, L₂, hack, (h.crtAck hi hlabel hack).1, hkeeps₂, hshown.trans (hplace _),
        hmail.trans (hplace _), fun j x hx => ?_⟩
      rw [← hplace j] at hx
      have hne : x ≠ env := by
        rintro rfl
        exact hmoves.keeps.not_queued (hmoves.keeps.mem_held henv) j hx
      rw [hsame x hne, hmoves.effect.letter]
      rfl

/-- The middle of a turn goes through: a message that came is the last that is to be shown. -/
theorem Turning.exists_crtStore (h : Turning b l i p t) (hi : pcbOf n crtIProcessPid = some i)
    (hkeeps : t.ipc.Keeps L) :
    ∃ t' L', t.crtStore = some t' ∧ Turning b l i p t' ∧ t'.ipc.Keeps L' ∧
      L' (.queue .displayQueue) =
        L (.queue .displayQueue) ++ (L (.queue (.recvMsgs i))).head?.toList ∧
      t'.ipc.letter = t.ipc.letter := by
  obtain ⟨found, t₁, L₁, hreceive, h₁, hr⟩ := h.receiveNow hkeeps
  have hshown : L₁ (.queue .displayQueue) = L (.queue .displayQueue) :=
    hr.other _ (by simp) (by simp)
  cases found with
  | none =>
    refine ⟨t₁, L₁, ?_, h₁, hr.keeps, ?_, hr.letter⟩
    · rw [Kernel.crtStore, hreceive]
      rfl
    · rw [hshown, ← hr.mail, hr.drained rfl]
      simp
  | some env =>
    have henv := (hr.held env rfl).1
    obtain ⟨J, henq, -⟩ := Ipc.enqueue_spec hr.keeps.holds
      (hr.keeps.not_queued (hr.keeps.mem_held henv)) .displayQueue
    have hstore : t.crtStore = some { t₁ with ipc := J.emit (.stored i env) } := by
      rw [Kernel.crtStore, hreceive]
      simp only [Option.bind_eq_bind, Option.bind_some, h₁.current, henq]
      rfl
    have hmove : t₁.ipc.move (.store i env) = some (J.emit (.stored i env)) :=
      Option.map_eq_some_iff.2 ⟨J, henq, rfl⟩
    obtain ⟨L₂, hmoves⟩ := hr.keeps.move (m := .store i env) henv hmove
    refine ⟨_, L₂, hstore, (h.crtStore hi hstore).1, hmoves.keeps, ?_, ?_⟩
    · cases hmoves.transfer with
      | store =>
        rw [shift_dst, hshown, ← hr.mail]
        rfl
    · rw [hmoves.effect.letter]
      exact hr.letter

end Kernel

/-- The text in a body ends inside it. -/
def Fitting (msg : Body) : Prop := ∃ k < msgEnvMsgSize, msg k = 0

theorem isSome_copyText (msg : Body) (fuel i : ℕ) (out : Body) :
    (copyText msg fuel i out).isSome = (outsLoop msg fuel i).isSome := by
  induction fuel generalizing i out with
  | zero => rfl
  | succ fuel ih =>
    unfold copyText outsLoop
    by_cases hchar : msg i = 0
    · rw [if_neg (not_not.2 hchar), if_neg (not_not.2 hchar)]
      rfl
    · rw [if_pos hchar, if_pos hchar]
      exact ih (i + 1) _

theorem copyText_isSome_iff {msg : Body} {fuel i : ℕ} (out : Body) :
    (copyText msg fuel i out).isSome ↔ ∃ k, i ≤ k ∧ k < i + fuel ∧ msg k = 0 := by
  rw [isSome_copyText]
  exact outsLoop_isSome_iff

namespace Kernel

variable {initTable : Fin n → PcbInit} {b s t t' : Kernel n} {l : RtxLabel} {i p q cur : Fin n}
  {env : EnvPtr} {L : Spot n → List EnvPtr}

/-- The end of a turn goes through if the text that is shown ends inside its body. -/
theorem Turning.crtShow_isSome_iff {second : CrtFlag} (h : Turning b l i p t)
    (hkeeps : t.ipc.Keeps L) :
    (t.crtShow second).isSome ↔ (second = .free → ∀ env ∈ (L (.queue .displayQueue)).head?,
      ∃ msg ∈ (t.ipc.letter env).msg, Fitting msg) := by
  unfold Kernel.crtShow
  cases second with
  | wait => simp
  | free =>
    rw [Ipc.isEmpty_eq hkeeps.holds]
    obtain ⟨J, hdeq, -, hrest⟩ := Ipc.dequeue_spec hkeeps.holds .displayQueue
    cases hshown : L (.queue .displayQueue) with
    | nil => simp
    | cons env l =>
      rw [hshown] at hdeq hrest
      have hletter : J.letter env = t.ipc.letter env := congrFun (hrest env rfl).1.letter env
      simp only [reduceCtorEq, if_false, Option.bind_eq_bind, Option.bind_some, zero_ne_one,
        hdeq, List.head?_cons, h.current, hletter, forall_const, Option.mem_some_iff, forall_eq']
      cases (t.ipc.letter env).msg with
      | none => simp
      | some msg =>
        have hcopy : (copyText msg msgEnvMsgSize 0 t.crtBuf).isSome ↔ Fitting msg := by
          rw [copyText_isSome_iff]
          simp [Fitting]
        simp only [Option.bind_some, Option.mem_some_iff, exists_eq_left', ← hcopy]
        cases copyText msg msgEnvMsgSize 0 t.crtBuf <;> simp

theorem Turning.startCrtIProcess_isSome_iff {first second : CrtFlag} (h : Turning b l i p t)
    (hb : b.Stable initTable) (hl : b.Sane l) (hi : pcbOf n crtIProcessPid = some i)
    (hlabel : l = .sigusr2 first second) :
    (t.startCrtIProcess first second).isSome ↔ (second = .free →
      ∀ env ∈ (t.ipc.queues .displayQueue).head.or (t.ipc.queues (.recvMsgs i)).head,
        ∃ msg ∈ (t.ipc.letter env).msg, Fitting msg) := by
  obtain ⟨⟨L, hkeeps⟩, -⟩ := h.serving hb.toServing
  obtain ⟨t₁, L₁, hack, h₁, hkeeps₁, hshown₁, hmail₁, hletter₁⟩ :=
    h.exists_crtAck hb hl hi hlabel hkeeps
  obtain ⟨t₂, L₂, hstore, h₂, hkeeps₂, hshown₂, hletter₂⟩ := h₁.exists_crtStore hi hkeeps₁
  have hhead : ∀ j : QueuePtr n, (t.ipc.queues j).head = (L (.queue j)).head? := fun j =>
    (hkeeps.holds.rep j).head_eq
  have hfirst : (L₂ (.queue .displayQueue)).head? =
      (t.ipc.queues .displayQueue).head.or (t.ipc.queues (.recvMsgs i)).head := by
    rw [hhead, hhead, hshown₂, hshown₁, hmail₁]
    cases L (.queue .displayQueue) with
    | nil => cases L (.queue (.recvMsgs i)) <;> rfl
    | cons env l => rfl
  have hsame : ∀ env ∈ (t.ipc.queues .displayQueue).head.or (t.ipc.queues (.recvMsgs i)).head,
      t₂.ipc.letter env = t.ipc.letter env := by
    intro env henv
    rw [hletter₂]
    rw [hhead, hhead, Option.mem_def, Option.or_eq_some_iff] at henv
    rcases henv with henv | ⟨-, henv⟩
    · exact hletter₁ _ env (List.mem_of_head? henv)
    · exact hletter₁ _ env (List.mem_of_head? henv)
  unfold Kernel.startCrtIProcess
  simp only [hack, hstore, Option.bind_eq_bind, Option.bind_some]
  rw [h₂.crtShow_isSome_iff hkeeps₂, hfirst]
  refine imp_congr_right fun _ => forall₂_congr fun env henv => ?_
  rw [hsame env henv]

end Kernel

end Unix

end Rtx
