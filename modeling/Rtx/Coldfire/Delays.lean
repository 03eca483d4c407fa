import Rtx.Coldfire.DelayLog
import Rtx.Coldfire.Delivery

/-!
# The delay service in the kernel

`Times` ties the delays of the log to the kernel: where their envelopes are, what is in them, and
that the timeout list is sorted. Every move keeps it, given that the timer takes requests and
expired delays one at a time.
-/

namespace Rtx.Coldfire

open Linked Places

variable {n : ℕ}

/-! ## The kernel's view -/

/-- The envelope waits in the timer's mailbox, or has just been taken out of it. -/
def Ipc.Requested (timer : Fin n) (I : Ipc n) (env : EnvPtr) : Prop :=
  ∃ d, delays timer I.log env = some d ∧ d.accepted = none ∧ I.letter env = d.letter

/-- The envelope is in the timeout list, or has just been taken out of it. -/
def Ipc.Pending (timer : Fin n) (I : Ipc n) (env : EnvPtr) : Prop :=
  ∃ d deadline, delays timer I.log env = some d ∧ d.deadline = some deadline ∧
    d.letter.msg.isSome ∧ wrap32 deadline = deadline ∧ I.letter env = d.stored deadline

/-- In the order of their timeouts. -/
def Ipc.Sorted (I : Ipc n) (l : List EnvPtr) : Prop :=
  l.Pairwise fun x y => ∀ v w, I.timeoutOf x = some v → I.timeoutOf y = some w → v ≤ w

/-- The timer has nothing in its hands, or one envelope that it has just taken. -/
inductive Ipc.Hand (timer : Fin n) (I : Ipc n) (held : List EnvPtr) : Prop
  | empty (hheld : held = [])
  | request {env letter log} (hheld : held = [env])
      (hlog : I.log = .received timer env letter :: log)
    (henv : I.Requested timer env)
  | expired {env time log} (hheld : held = [env]) (hlog : I.log = .expired timer env time :: log)
    (henv : I.Pending timer env)

namespace Ipc

variable {timer : Fin n} {I I' : Ipc n} {L L' : Loc n → List EnvPtr} {env : EnvPtr}

/-- The delays are where they should be. -/
structure Times (timer : Fin n) (I : Ipc n) (L : Loc n → List EnvPtr) : Prop where
  served : Served Delay.deadline timer I.log
  requested : ∀ env ∈ L (.queue (.recvMsgs timer)), I.Requested timer env
  pending : ∀ env ∈ L .timeoutQueue, I.Pending timer env
  sorted : I.Sorted (L .timeoutQueue)
  hand : I.Hand timer (L (.held timer))
  place : ∀ env, delays timer I.log env ≠ none → env ∈ L (.queue (.recvMsgs timer)) ∨
    env ∈ L .timeoutQueue ∨ env ∈ L (.held timer)

/-- The first word of a pending envelope is its deadline. -/
theorem Pending.timeoutOf (h : I.Pending timer env) : ∃ d deadline,
    delays timer I.log env = some d ∧ d.deadline = some deadline ∧
      I.timeoutOf env = some deadline := by
  obtain ⟨d, deadline, hd, hdeadline, hmsg, hwrap, hletter⟩ := h
  refine ⟨d, deadline, hd, hdeadline, ?_⟩
  obtain ⟨body, hbody⟩ := Option.isSome_iff_exists.1 hmsg
  have hstored : (I.env env).msg = some (putInt body 0 deadline) := by
    rw [show (I.env env).msg = (I.letter env).msg from rfl, hletter, Delay.stored, hbody]
    rfl
  rw [Ipc.timeoutOf, hstored, Option.map_some, getInt_putInt, hwrap]

theorem Requested.congr (h : I.Requested timer env)
    (hdelays : delays timer I'.log env = delays timer I.log env)
    (hletter : I'.letter env = I.letter env) : I'.Requested timer env := by
  obtain ⟨d, hd, haccepted, hl⟩ := h
  exact ⟨d, hdelays.trans hd, haccepted, hletter.trans hl⟩

theorem Pending.congr (h : I.Pending timer env)
    (hdelays : delays timer I'.log env = delays timer I.log env)
    (hletter : I'.letter env = I.letter env) : I'.Pending timer env := by
  obtain ⟨d, deadline, hd, hdeadline, hmsg, hwrap, hl⟩ := h
  exact ⟨d, deadline, hdelays.trans hd, hdeadline, hmsg, hwrap, hletter.trans hl⟩

theorem Sorted.congr {l : List EnvPtr} (h : I.Sorted l)
    (hletter : ∀ x ∈ l, I'.letter x = I.letter x) : I'.Sorted l := by
  refine List.Pairwise.imp_of_mem ?_ h
  intro x y hx hy hxy
  rw [timeoutOf_congr (hletter x hx), timeoutOf_congr (hletter y hy)]
  exact hxy

/-! ## Moves of the others -/

theorem Times.frame (h : I.Times timer L) (hserved : Served Delay.deadline timer I'.log)
    (hdelays : delays timer I'.log = delays timer I.log)
    (hletter : ∀ x, x ∈ L (.queue (.recvMsgs timer)) ∨ x ∈ L .timeoutQueue →
      I'.letter x = I.letter x)
    (hmail : L' (.queue (.recvMsgs timer)) = L (.queue (.recvMsgs timer)))
    (hlist : L' .timeoutQueue = L .timeoutQueue)
    (hheld : L (.held timer) = [] ∧ L' (.held timer) = []) : I'.Times timer L' where
  served := hserved
  requested x hx := by
    rw [hmail] at hx
    exact (h.requested x hx).congr (congrFun hdelays x) (hletter x (.inl hx))
  pending x hx := by
    rw [hlist] at hx
    exact (h.pending x hx).congr (congrFun hdelays x) (hletter x (.inr hx))
  sorted := by
    rw [hlist]
    exact h.sorted.congr fun x hx => hletter x (.inr hx)
  hand := .empty hheld.2
  place x hx := by
    rw [hdelays] at hx
    rw [hmail, hlist, hheld.2, ← hheld.1]
    exact h.place x hx

theorem Times.free {cur : Fin n} (h : I.Times timer L) (hk : Keeps (some timer) I L)
    (henv : env ∈ L (.held cur)) (hcur : cur ≠ timer) : delays timer I.log env = none := by
  by_contra hdelay
  rcases h.place env hdelay with hx | hx | hx
  · exact hk.partition.not_mem henv (by simp) hx
  · exact hk.partition.not_mem henv (by simp) hx
  · exact hk.partition.not_mem henv (by simpa using Ne.symm hcur) hx

/-- An envelope is sent: by the timer, that gets rid of all it holds, or by another process. -/
theorem Times.sent {cur dest : Fin n} {sendPid destPid : ℤ} (h : I.Times timer L)
    (hk : Keeps (some timer) I L) (henv : env ∈ L (.held cur))
    (hheld : ∀ x ∈ L (.held timer), x = env)
    (hheld' : L' (.held timer) = [])
    (hL' : L' = shift L (.held cur) (.queue (.recvMsgs dest)) ((L (.held cur)).erase env)
      (L (.queue (.recvMsgs dest)) ++ [env]))
    (he : Effect I (.send cur dest env sendPid destPid) I')
    (hserved : Event.Served Delay.deadline timer I.log
      (.sent cur dest env (I.stamped env sendPid destPid))) :
    I'.Times timer L' := by
  have hlog : I'.log = .sent cur dest env (I.stamped env sendPid destPid) :: I.log := he.log
  have hletter : I'.letter = Function.update I.letter env (I.stamped env sendPid destPid) :=
    he.letter
  -- Only the delay of this envelope changes.
  have hdelays : ∀ x, x ≠ env → delays timer I'.log x = delays timer I.log x := by
    intro x hx
    rw [hlog, delays_cons, Event.track_sent_of_ne hx]
  have hne : ∀ {a x}, a ≠ .held cur → x ∈ L a → x ≠ env := by
    rintro a x ha hx rfl
    exact hk.partition.not_mem henv ha hx
  have hletters : ∀ x, x ≠ env → I'.letter x = I.letter x := by
    intro x hx
    rw [hletter, Function.update_of_ne hx]
  have hlist : L' .timeoutQueue = L .timeoutQueue := by
    rw [hL']
    exact shift_other L (by simp) (by simp) ..
  have hmail : ∀ x, x ∈ L' (.queue (.recvMsgs timer)) ↔
      x ∈ L (.queue (.recvMsgs timer)) ∨ (dest = timer ∧ x = env) := by
    intro x
    rw [hL']
    by_cases hdest : dest = timer
    · subst hdest
      simp [shift_dst]
    · rw [shift_other L (by simp) (by simpa using Ne.symm hdest)]
      simp [hdest]
  refine ⟨hlog ▸ ⟨hserved, h.served⟩, fun x hx => ?_, fun x hx => ?_, ?_, .empty hheld',
    fun x hx => ?_⟩
  · rcases (hmail x).1 hx with hx | ⟨rfl, rfl⟩
    · have hxe := hne (by simp) hx
      exact (h.requested x hx).congr (hdelays x hxe) (hletters x hxe)
    · refine ⟨⟨cur, I.stamped x sendPid destPid, none⟩, ?_, rfl, ?_⟩
      · rw [hlog, delays_cons, Event.track, if_pos rfl, Function.update_self]
      · rw [hletter, Function.update_self]
  · rw [hlist] at hx
    have hxe := hne (by simp) hx
    exact (h.pending x hx).congr (hdelays x hxe) (hletters x hxe)
  · rw [hlist]
    exact h.sorted.congr fun x hx => hletters x (hne (by simp) hx)
  · rw [hmail, hlist]
    by_cases hxe : x = env
    · subst hxe
      by_cases hdest : dest = timer
      · exact .inl (.inr ⟨hdest, rfl⟩)
      · -- A delay whose envelope is sent elsewhere is over.
        rw [hlog, delays_cons, Event.track, if_neg hdest] at hx
        by_cases hcur : cur = timer
        · rw [if_pos hcur, Function.update_self] at hx
          contradiction
        · rw [if_neg hcur] at hx
          exact absurd (h.free hk henv hcur) hx
    · rw [hdelays x hxe] at hx
      rcases h.place x hx with hx | hx | hx
      · exact .inl (.inl hx)
      · exact .inr (.inl hx)
      · exact absurd (hheld x hx) hxe

theorem Times.other {m : IpcMove n} (h : I.Times timer L) (hheld : L (.held timer) = [])
    (hk : Keeps (some timer) I L) (hm : m.Proper (some timer) I) (ht : Transfer L m L')
    (he : Effect I m I') (hmover : m.mover? ≠ some timer)
    (hfill : ∀ env letter, m = .setLetter env letter → ∃ p, env ∈ heldBy I.log p) :
    I'.Times timer L' ∧ L' (.held timer) = [] := by
  have hlog := he.log
  have hletter := he.letter
  -- What is held is not in the hands of the timer, nor in one of its lists.
  have hfilled : ∀ {env p letter}, env ∈ heldBy I.log p →
      I'.letter = Function.update I.letter env letter →
      ∀ x, x ∈ L (.queue (.recvMsgs timer)) ∨ x ∈ L .timeoutQueue → I'.letter x = I.letter x := by
    intro env p letter henv hl x hx
    rw [← hk.held] at henv
    rw [hl, Function.update_of_ne]
    rintro rfl
    rcases hx with hx | hx
    · exact hk.partition.not_mem henv (by simp) hx
    · exact hk.partition.not_mem henv (by simp) hx
  cases ht with
  | @setLetter env letter =>
    obtain ⟨p, hp⟩ := hfill env letter rfl
    have hlog' : I'.log = I.log := hlog
    exact ⟨h.frame (hlog' ▸ h.served) (by rw [hlog']) (hfilled hp hletter) rfl rfl ⟨hheld, hheld⟩,
      hheld⟩
  | @write env content =>
    obtain ⟨p, hp⟩ := hm
    have hlog' : I'.log = I.log := hlog
    exact ⟨h.frame (hlog' ▸ h.served) (by rw [hlog']) (hfilled hp hletter) rfl rfl ⟨hheld, hheld⟩,
      hheld⟩
  | tick =>
    have hlog' : I'.log = I.log := hlog
    exact ⟨h.frame (hlog' ▸ h.served) (by rw [hlog']) (fun x _ => congrFun hletter x) rfl rfl
      ⟨hheld, hheld⟩, hheld⟩
  | @copy env text =>
    have hlog' : I'.log = .copied env text :: I.log := hlog
    exact ⟨h.frame (hlog' ▸ ⟨trivial, h.served⟩) (by rw [hlog']; rfl)
      (fun x _ => congrFun hletter x) rfl rfl ⟨hheld, hheld⟩, hheld⟩
  | @send cur dest env sendPid destPid henv =>
    have hcur : cur ≠ timer := fun hc => hmover (congrArg some hc)
    have hheld' : shift L (.held cur) (.queue (.recvMsgs dest)) ((L (.held cur)).erase env)
        (L (.queue (.recvMsgs dest)) ++ [env]) (.held timer) = [] := by
      rw [shift_other L (by simpa using Ne.symm hcur) (by simp), hheld]
    have hserved : Event.Served Delay.deadline timer I.log
        (.sent cur dest env (I.stamped env sendPid destPid)) := by
      rw [Event.Served, if_neg hcur]
      exact fun _ => h.free hk henv hcur
    exact ⟨h.sent hk henv (by simp [hheld]) hheld' rfl he hserved, hheld'⟩
  | @receive p env l hl =>
    have hp : p ≠ timer := fun hp => hmover (congrArg some hp)
    have hlog' : I'.log = .received p env (I.letter env) :: I.log := hlog
    have hheld' : shift L (.queue (.recvMsgs p)) (.held p) l (env :: L (.held p)) (.held timer) =
        [] := by
      rw [shift_other L (by simp) (by simpa using Ne.symm hp), hheld]
    exact ⟨h.frame (hlog' ▸ ⟨trivial, h.served⟩) (by rw [hlog']; rfl)
      (fun x _ => congrFun hletter x) (shift_other L (by simpa using Ne.symm hp) (by simp) ..)
      (shift_other L (by simp) (by simp) ..) ⟨hheld, hheld'⟩, hheld'⟩
  | @request p queue env l hl =>
    have hp : p ≠ timer := fun hp => hmover (congrArg some hp)
    have hlog' : I'.log = .requested p env :: I.log := hlog
    have hheld' : shift L (.queue queue) (.held p) l (env :: L (.held p)) (.held timer) = [] := by
      rw [shift_other L (by simp) (by simpa using Ne.symm hp), hheld]
    refine ⟨h.frame (hlog' ▸ ⟨trivial, h.served⟩) (by rw [hlog']; rfl)
      (fun x _ => congrFun hletter x) (shift_other L ?_ (by simp) ..)
      (shift_other L (by simp) (by simp) ..) ⟨hheld, hheld'⟩, hheld'⟩
    rcases hm with rfl | rfl <;> simp
  | @release p queue env henv =>
    have hp : p ≠ timer := fun hp => hmover (congrArg some hp)
    have hlog' : I'.log = .released p env :: I.log := hlog
    have hheld' : shift L (.held p) (.queue queue) ((L (.held p)).erase env)
        (L (.queue queue) ++ [env]) (.held timer) = [] := by
      rw [shift_other L (by simpa using Ne.symm hp) (by simp), hheld]
    refine ⟨h.frame (hlog' ▸ ⟨trivial, h.served⟩) (by rw [hlog']; rfl)
      (fun x _ => congrFun hletter x) (shift_other L (by simp) ?_ ..)
      (shift_other L (by simp) (by simp) ..) ⟨hheld, hheld'⟩, hheld'⟩
    rw [hm.2]
    cases env <;> simp [homeQueue]
  | @insert p nullRead env l₁ l₂ henv hl => exact absurd hm.2.2.symm hmover
  | @expire p env l hl =>
    have ht : some timer = some p := hm
    exact absurd ht.symm hmover

theorem Keeps.other_pending {m : IpcMove n} (hk : Keeps (some timer) I L)
    (hm : m.Proper (some timer) I) (ht : Transfer L m L') (he : Effect I m I')
    (hmover : m.mover? ≠ some timer) :
    L' .timeoutQueue = L .timeoutQueue ∧
      ∀ x ∈ L .timeoutQueue, delays timer I'.log x = delays timer I.log x := by
  have hlog := he.log
  -- Only a send may be about a delay.
  have hsame : ∀ x, delays timer I'.log x = delays timer ((m.event? I).toList ++ I.log) x :=
    fun x => by rw [hlog]
  cases ht with
  | setLetter => exact ⟨rfl, fun x _ => hsame x⟩
  | write => exact ⟨rfl, fun x _ => hsame x⟩
  | tick => exact ⟨rfl, fun x _ => hsame x⟩
  | copy => exact ⟨rfl, fun x _ => hsame x⟩
  | @send cur dest env sendPid destPid henv =>
    refine ⟨shift_other L (by simp) (by simp) .., fun x hx => (hsame x).trans ?_⟩
    have hxe : x ≠ env := by
      rintro rfl
      exact hk.partition.not_mem henv (by simp) hx
    exact Event.track_sent_of_ne hxe
  | receive => exact ⟨shift_other L (by simp) (by simp) .., fun x _ => hsame x⟩
  | request => exact ⟨shift_other L (by simp) (by simp) .., fun x _ => hsame x⟩
  | release => exact ⟨shift_other L (by simp) (by simp) .., fun x _ => hsame x⟩
  | insert => exact absurd hm.2.2.symm hmover
  | expire =>
    have ht : some timer = some _ := hm
    exact absurd ht.symm hmover

/-! ## Moves of the timer -/

theorem Times.receive {l : List EnvPtr} (h : I.Times timer L)
    (hl : L (.queue (.recvMsgs timer)) = env :: l) (hheld : L (.held timer) = [])
    (he : Effect I (.receive timer env) I') :
    I'.Times timer (shift L (.queue (.recvMsgs timer)) (.held timer) l
      (env :: L (.held timer))) := by
  have hlog : I'.log = .received timer env (I.letter env) :: I.log := he.log
  have hdelays : delays timer I'.log = delays timer I.log := by rw [hlog]; rfl
  have hletter : I'.letter = I.letter := he.letter
  have hmail : shift L (.queue (.recvMsgs timer)) (.held timer) l (env :: L (.held timer))
      (.queue (.recvMsgs timer)) = l := shift_src L (by simp) ..
  have hlist : shift L (.queue (.recvMsgs timer)) (.held timer) l (env :: L (.held timer))
      .timeoutQueue = L .timeoutQueue := shift_other L (by simp) (by simp) ..
  have hrequested : ∀ x ∈ L (.queue (.recvMsgs timer)), I'.Requested timer x := fun x hx =>
    (h.requested x hx).congr (congrFun hdelays x) (congrFun hletter x)
  refine ⟨hlog ▸ ⟨trivial, h.served⟩, fun x hx => ?_, fun x hx => ?_, ?_, ?_, fun x hx => ?_⟩
  · rw [hmail] at hx
    exact hrequested x (hl ▸ List.mem_cons_of_mem env hx)
  · rw [hlist] at hx
    exact (h.pending x hx).congr (congrFun hdelays x) (congrFun hletter x)
  · rw [hlist]
    exact h.sorted.congr fun x _ => congrFun hletter x
  · refine .request ?_ hlog (hrequested env (hl ▸ List.mem_cons_self))
    rw [shift_dst, hheld]
  · rw [hdelays] at hx
    rw [hmail, hlist, shift_dst]
    rcases h.place x hx with hx | hx | hx
    · rw [hl, List.mem_cons] at hx
      rcases hx with rfl | hx
      · exact .inr (.inr List.mem_cons_self)
      · exact .inl hx
    · exact .inr (.inl hx)
    · exact .inr (.inr (List.mem_cons_of_mem env hx))

theorem Hand.of_received {held : List EnvPtr} {letter : Letter} {log : List (Event n)}
    (h : I.Hand timer held) (hlog : I.log = .received timer env letter :: log)
    (henv : env ∈ held) : held = [env] ∧ I.Requested timer env := by
  cases h with
  | empty hheld => rw [hheld] at henv; contradiction
  | request hheld _ hrequested =>
    rw [hheld, List.mem_singleton] at henv
    subst henv
    exact ⟨hheld, hrequested⟩
  | expired _ hlog' => rw [hlog] at hlog'; cases hlog'

theorem Hand.of_expired {held : List EnvPtr} {time : ℤ} {log : List (Event n)}
    (h : I.Hand timer held) (hlog : I.log = .expired timer env time :: log)
    (henv : env ∈ held) : held = [env] ∧ I.Pending timer env := by
  cases h with
  | empty hheld => rw [hheld] at henv; contradiction
  | request _ hlog' => rw [hlog] at hlog'; cases hlog'
  | expired hheld _ hpending =>
    rw [hheld, List.mem_singleton] at henv
    subst henv
    exact ⟨hheld, hpending⟩

/-- Inserting in front of the first envelope that is not due earlier keeps the list sorted. -/
theorem Sorted.insert {deadline : ℤ} {l₁ l₂ : List EnvPtr} (h : I.Sorted (l₁ ++ l₂))
    (henv : env ∉ l₁ ++ l₂) (hletter : ∀ x, x ≠ env → I'.letter x = I.letter x)
    (hdeadline : I'.timeoutOf env = some deadline)
    (hbefore : ∀ x ∈ l₁, ∃ v, I.timeoutOf x = some v ∧ v < deadline)
    (hafter : ∀ x ∈ l₂.head?, ∃ v, I.timeoutOf x = some v ∧ deadline ≤ v) :
    I'.Sorted (l₁ ++ env :: l₂) := by
  have hsame : ∀ x ∈ l₁ ++ l₂, I'.timeoutOf x = I.timeoutOf x := fun x hx =>
    timeoutOf_congr (hletter x fun hxe => henv (hxe ▸ hx))
  obtain ⟨h₁, h₂, h₁₂⟩ := List.pairwise_append.1 (h.congr fun x hx =>
    hletter x fun hxe => henv (hxe ▸ hx) : I'.Sorted (l₁ ++ l₂))
  refine List.pairwise_append.2 ⟨h₁, List.pairwise_cons.2 ⟨fun y hy v w hv hw => ?_, h₂⟩, ?_⟩
  · obtain rfl := Option.some.inj (hdeadline.symm.trans hv)
    rw [hsame y (List.mem_append_right l₁ hy)] at hw
    cases l₂ with
    | nil => contradiction
    | cons a l₂ =>
      obtain ⟨u, hu, hle⟩ := hafter a rfl
      rcases List.mem_cons.1 hy with rfl | hy'
      · rw [hu] at hw
        exact Option.some.inj hw ▸ hle
      · have ha : a ∈ l₁ ++ a :: l₂ := List.mem_append_right l₁ List.mem_cons_self
        refine hle.trans ((List.pairwise_cons.1 h₂).1 y hy' u w ?_ ?_)
        · rw [hsame a ha, hu]
        · rw [hsame y (List.mem_append_right l₁ hy), hw]
  · intro x hx y hy
    rcases List.mem_cons.1 hy with rfl | hy
    · intro v w hv hw
      obtain ⟨u, hu, hlt⟩ := hbefore x hx
      rw [hsame x (List.mem_append_left l₂ hx), hu] at hv
      obtain rfl := Option.some.inj hv
      obtain rfl := Option.some.inj (hdeadline.symm.trans hw)
      exact hlt.le
    · exact h₁₂ x hx y hy

theorem Times.insert {nullRead : Option ℤ} {letter : Letter} {log : List (Event n)}
    (h : I.Times timer L) (hk : Keeps (some timer) I L) (hk' : Keeps (some timer) I' L')
    (hlog : I.log = .received timer env letter :: log) (hnext : (I.env env).next = none)
    (hmove : I.insert timer nullRead env = some I')
    (ht : Transfer L (.insert timer nullRead env) L')
    (he : Effect I (.insert timer nullRead env) I') : I'.Times timer L' := by
  cases ht with
  | @insert _ _ _ l₁ l₂ henv hl =>
  obtain ⟨hheld, d, hd, haccepted, hletter⟩ := h.hand.of_received hlog henv
  have hlist : env ∉ L .timeoutQueue := hk.partition.not_mem henv (by simp)
  -- Where the code has put it.
  obtain ⟨delay, hdelay, hmove⟩ := Option.bind_eq_some_iff.1 hmove
  obtain ⟨J, hins, hmove⟩ := Option.bind_eq_some_iff.1 hmove
  cases hmove
  obtain ⟨delay', k₁, k₂, hdelay', hk₁₂, hJ⟩ :=
    timeoutQueueInsert_spec hk.timeoutQueue hlist hnext hins
  obtain rfl : delay = delay' := Option.some.inj (hdelay.symm.trans hdelay')
  have hplace : l₁ ++ env :: l₂ = k₁ ++ env :: k₂ := by
    have hchain := hk'.timeoutQueue
    rw [shift_dst] at hchain
    exact hchain.unique hJ.chain
  rw [hplace]
  set deadline := wrap32 (I.clock + delay) with hdeadline
  set I' := J.emit (.delayed timer env delay I.clock) with hI'
  have hlog' : I'.log = .delayed timer env delay I.clock :: I.log := by
    rw [he.log, IpcMove.event?, hdelay]
    rfl
  have hdelays : delays timer I'.log = Function.update (delays timer I.log) env
      (some { d with accepted := some (delay, I.clock) }) := by
    rw [hlog', delays_cons, Event.track, hd, Option.map_some]
  have hother : ∀ x, x ≠ env → delays timer I'.log x = delays timer I.log x ∧
      I'.letter x = I.letter x := by
    intro x hx
    rw [hdelays, Function.update_of_ne hx, he.letter, IpcMove.letter, Function.update_of_ne hx]
    exact ⟨rfl, rfl⟩
  obtain ⟨body, hbody, hword, hstored⟩ := hJ.body
  have hmsg : d.letter.msg = some body := by rw [← hletter]; exact hbody
  have hpending : I'.Pending timer env := by
    refine ⟨{ d with accepted := some (delay, I.clock) }, deadline, ?_, rfl, ?_, ?_, ?_⟩
    · rw [hdelays, Function.update_self]
    · rw [hmsg]; rfl
    · rw [hdeadline, wrap32_wrap32]
    · change (J.env env).toLetter = _
      rw [hstored, Delay.stored, hmsg, ← hletter]
      rfl
  have hheld' : shift L (.held timer) .timeoutQueue ((L (.held timer)).erase env)
      (k₁ ++ env :: k₂) (.held timer) = [] := by
    rw [shift_src L (by simp), hheld]
    simp
  have hmail : shift L (.held timer) .timeoutQueue ((L (.held timer)).erase env)
      (k₁ ++ env :: k₂) (.queue (.recvMsgs timer)) = L (.queue (.recvMsgs timer)) :=
    shift_other L (by simp) (by simp) ..
  have hserved : Event.Served Delay.deadline timer I.log (.delayed timer env delay I.clock) := by
    refine ⟨d, hd, haccepted, ?_⟩
    rw [Letter.word, hmsg, Option.map_some, hword]
  refine ⟨hlog' ▸ ⟨hserved, h.served⟩, fun x hx => ?_, fun x hx => ?_, ?_, .empty hheld',
    fun x hx => ?_⟩
  · rw [hmail] at hx
    have hxe : x ≠ env := by
      rintro rfl
      exact hk.partition.not_mem henv (by simp) hx
    exact (h.requested x hx).congr (hother x hxe).1 (hother x hxe).2
  · rw [shift_dst] at hx
    by_cases hxe : x = env
    · subst hxe; exact hpending
    · have hx' : x ∈ L .timeoutQueue := by
        rw [hk₁₂]
        simpa [hxe] using hx
      exact (h.pending x hx').congr (hother x hxe).1 (hother x hxe).2
  · rw [shift_dst]
    obtain ⟨d', deadline', hd', hdead', htimeout⟩ := hpending.timeoutOf
    rw [hdelays, Function.update_self] at hd'
    cases hd'
    obtain rfl := Option.some.inj hdead'
    exact Sorted.insert (hk₁₂ ▸ h.sorted) (hk₁₂ ▸ hlist) (fun x hx => (hother x hx).2) htimeout
      hJ.before hJ.after
  · rw [hmail, shift_dst]
    by_cases hxe : x = env
    · subst hxe; simp
    · rw [(hother x hxe).1] at hx
      rcases h.place x hx with hx | hx | hx
      · exact .inl hx
      · right; left
        rw [hk₁₂] at hx
        simpa [hxe] using hx
      · rw [hheld, List.mem_singleton] at hx
        exact absurd hx hxe

theorem Times.expire {l : List EnvPtr} {timeout : ℤ} (h : I.Times timer L)
    (hl : L .timeoutQueue = env :: l) (hheld : L (.held timer) = [])
    (htimeout : I.timeoutOf env = some timeout) (hdue : timeout ≤ I.clock)
    (he : Effect I (.expire timer env) I') :
    I'.Times timer (shift L .timeoutQueue (.held timer) l (env :: L (.held timer))) := by
  have hlog : I'.log = .expired timer env I.clock :: I.log := he.log
  have hdelays : delays timer I'.log = delays timer I.log := by rw [hlog]; rfl
  have hletter : I'.letter = I.letter := he.letter
  have hpending : ∀ x ∈ L .timeoutQueue, I'.Pending timer x := fun x hx =>
    (h.pending x hx).congr (congrFun hdelays x) (congrFun hletter x)
  have hmail : shift L .timeoutQueue (.held timer) l (env :: L (.held timer))
      (.queue (.recvMsgs timer)) = L (.queue (.recvMsgs timer)) :=
    shift_other L (by simp) (by simp) ..
  have hlist : shift L .timeoutQueue (.held timer) l (env :: L (.held timer)) .timeoutQueue = l :=
    shift_src L (by simp) ..
  have hsorted := h.sorted
  rw [hl] at hsorted
  obtain ⟨hfirst, hrest⟩ := List.pairwise_cons.1 hsorted
  have hserved : Event.Served Delay.deadline timer I.log (.expired timer env I.clock) := by
    obtain ⟨d, deadline, hd, hdeadline, htime⟩ :=
      (h.pending env (hl ▸ List.mem_cons_self)).timeoutOf
    obtain rfl := Option.some.inj (htimeout.symm.trans htime)
    refine ⟨d, timeout, hd, hdeadline, hdue, fun x d' deadline' hd' hdeadline' => ?_⟩
    rcases h.place x (by rw [hd']; simp) with hx | hx | hx
    · obtain ⟨d₂, hd₂, haccepted, -⟩ := h.requested x hx
      obtain rfl := Option.some.inj (hd'.symm.trans hd₂)
      rw [Delay.deadline, Delay.expiry, haccepted] at hdeadline'
      contradiction
    · obtain ⟨d₂, deadline₂, hd₂, hdeadline₂, htime₂⟩ := (h.pending x hx).timeoutOf
      obtain rfl := Option.some.inj (hd'.symm.trans hd₂)
      obtain rfl := Option.some.inj (hdeadline'.symm.trans hdeadline₂)
      rw [hl, List.mem_cons] at hx
      rcases hx with rfl | hx
      · exact (Option.some.inj (htime.symm.trans htime₂)).le
      · exact hfirst x hx _ _ htime htime₂
    · rw [hheld] at hx
      contradiction
  refine ⟨hlog ▸ ⟨hserved, h.served⟩, fun x hx => ?_, fun x hx => ?_, ?_, ?_, fun x hx => ?_⟩
  · rw [hmail] at hx
    exact (h.requested x hx).congr (congrFun hdelays x) (congrFun hletter x)
  · rw [hlist] at hx
    exact hpending x (hl ▸ List.mem_cons_of_mem env hx)
  · rw [hlist]
    exact Sorted.congr hrest fun x _ => congrFun hletter x
  · refine .expired ?_ hlog (hpending env (hl ▸ List.mem_cons_self))
    rw [shift_dst, hheld]
  · rw [hdelays] at hx
    rw [hmail, hlist, shift_dst]
    rcases h.place x hx with hx | hx | hx
    · exact .inl hx
    · rw [hl, List.mem_cons] at hx
      rcases hx with rfl | hx
      · exact .inr (.inr List.mem_cons_self)
      · exact .inr (.inl hx)
    · exact .inr (.inr (List.mem_cons_of_mem env hx))

theorem Times.sendBack {dest : Fin n} {sendPid destPid time : ℤ} {log : List (Event n)}
    (h : I.Times timer L) (hk : Keeps (some timer) I L) (henv : env ∈ heldBy I.log timer)
    (hlog : I.log = .expired timer env time :: log) (hdest : destPid = (I.env env).sendPid)
    (ht : Transfer L (.send timer dest env sendPid destPid) L')
    (he : Effect I (.send timer dest env sendPid destPid) I') : I'.Times timer L' := by
  rw [← hk.held] at henv
  obtain ⟨hheld, d, deadline, hd, -, -, -, hstored⟩ := h.hand.of_expired hlog henv
  have hletter : (I.env env).toLetter = d.stored deadline := hstored
  cases ht with
  | send _ =>
    refine h.sent hk henv (by simp [hheld]) ?_ rfl he ?_
    · rw [shift_src L (by simp), hheld]
      simp
    rw [Event.Served, if_pos rfl]
    refine ⟨d, hd, ?_, ?_, time, log, hlog⟩
    · rw [show (I.stamped env sendPid destPid).destPid = destPid from rfl, hdest,
        show (I.env env).sendPid = (I.env env).toLetter.sendPid from rfl, hletter]
      rfl
    · rw [show (I.stamped env sendPid destPid).msgType = (I.env env).toLetter.msgType from rfl,
        hletter]
      rfl

end Ipc

end Rtx.Coldfire
