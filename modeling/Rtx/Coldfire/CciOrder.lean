import Rtx.Coldfire.Cci
import Rtx.Lib.Run

/-!
# The console processes its input in order

Console input that arrives while the process waits for an answer goes to `msg_queue`, and the main
loop empties `msg_queue` before it receives. So at every point what has arrived is what was
processed, then `msg_queue`, then what `receive_message` still has to return (`cci_order`).

What carries this is that an answer is only ever under way to the loop that waits for it: the code
of a command asks for one answer at a time (`Cci.Proper`), and there is at most one in the queue.
-/

namespace Rtx.Coldfire

open Transition

/-! ## The code asks for one answer at a time -/

/-- The envelopes that the process writes to. -/
def CciEnvs.Owns (P : CciEnvs) (env : EnvPtr) : Prop :=
  env = P.printEnv ∨ env = P.statusEnv ∨ env = P.clockEnv

/-- The call asks the wall clock for an answer. -/
def SysCall.asks (r : Reply) : SysCall → Bool
  | .sendMessage destPid _ => destPid = wallclockPid ∧ r.code = codeSuccess
  | _ => false

/-- The call writes to an envelope of the process, if to any. -/
def SysCall.Proper (P : CciEnvs) : SysCall → Prop
  | .requestProcessStatus msgEnv | .getTraceBuffers msgEnv => P.Owns msgEnv
  | _ => True

namespace Cci

/-- The code waits for the wall clock exactly if it has asked, and writes to envelopes of the
process. The flag says that it has just asked. -/
inductive Proper (P : CciEnvs) : Bool → Cci → Prop
  | waitForWallclock {k : Cci} (hk : Proper P false k) : Proper P true (.waitForWallclock k)
  | endLoop : Proper P false .endLoop
  | printAck (str : Text) {k : Cci} (hk : Proper P false k) : Proper P false (.printAck str k)
  | call {c : SysCall} {k : Reply → Cci} (hc : c.Proper P) (hk : ∀ r, Proper P (c.asks r) (k r)) :
    Proper P false (.call c k)
  | write {msgEnv : EnvPtr} (f : Letter → Letter) {k : Cci} (henv : P.Owns msgEnv)
    (hk : Proper P false k) : Proper P false (.write msgEnv f k)
  | clearProcAEnv {k : Cci} (hk : Proper P false k) : Proper P false (.clearProcAEnv k)
  | pongMode {k : Cci} (hk : Proper P false k) : Proper P false (.pongMode k)
  | terminate : Proper P false .terminate
  | fault : Proper P false .fault

/-- What the code is about to wait for. -/
def expects : Cci → Option ℤ
  | .waitForWallclock _ => some clockRet
  | _ => none

variable {P : CciEnvs} {k : Cci}

theorem Proper.expects {asked : Bool} (h : k.Proper P asked) :
    k.expects = if asked then some clockRet else none := by
  cases h <;> rfl

theorem proper_ite {c : Prop} [Decidable c] {k₁ k₂ : Cci} {asked : Bool}
    (h₁ : k₁.Proper P asked) (h₂ : k₂.Proper P asked) : (if c then k₁ else k₂).Proper P asked := by
  split
  · exact h₁
  · exact h₂

theorem proper_printf (format : Text) (params : List Param) (hk : k.Proper P false) :
    (printf format params k).Proper P false := by
  unfold printf
  split
  · exact .fault
  · exact .printAck _ hk

theorem proper_printStatusLoop (raw : Body) (numProcesses off : ℕ) (hk : k.Proper P false) :
    (printStatusLoop raw numProcesses off k).Proper P false := by
  induction numProcesses generalizing off with
  | zero => exact hk
  | succ numProcesses ih =>
    rw [printStatusLoop]
    apply proper_printf
    apply Proper.printAck
    apply proper_printf
    exact ih (off + 12)

theorem proper_printProcessStatuses (rawData : Option Body) {k : ℤ → Cci}
    (hk : ∀ status, (k status).Proper P false) :
    (printProcessStatuses rawData k).Proper P false := by
  cases rawData with
  | none => exact hk _
  | some raw => exact .printAck _ (proper_printStatusLoop raw _ _ (hk _))

theorem proper_printTrace (format blank : Text) (t : IpcTrace) (hk : k.Proper P false) :
    (printTrace format blank t k).Proper P false :=
  proper_ite (proper_printf _ _ hk) (.printAck _ hk)

theorem proper_printTraceLoop (data : Body) (fuel i : ℕ) (hk : k.Proper P false) :
    (printTraceLoop data fuel i k).Proper P false := by
  induction fuel generalizing i with
  | zero => exact hk
  | succ fuel ih =>
    rw [printTraceLoop]
    exact proper_ite (proper_printTrace _ _ _ (proper_printTrace _ _ _ (ih (i + 1)))) hk

theorem proper_printTraceBuffers (data : Option Body) {k : ℤ → Cci}
    (hk : ∀ status, (k status).Proper P false) : (printTraceBuffers data k).Proper P false := by
  cases data with
  | none => exact hk _
  | some data =>
    exact .printAck _ (proper_printTraceLoop data _ _ (Proper.printAck _ (hk _)))

/-- A request to the wall clock waits for the answer if it was sent. -/
theorem proper_clockRequest (f : Letter → Letter) (hk : k.Proper P false) :
    (write P.clockEnv f <| call (.sendMessage wallclockPid P.clockEnv) fun r =>
      if r.code = codeSuccess then waitForWallclock k else k).Proper P false := by
  refine .write _ (.inr (.inr rfl)) <| .call trivial fun r => ?_
  by_cases hr : r.code = codeSuccess
  · have hasks : (SysCall.sendMessage wallclockPid P.clockEnv).asks r = true := by
      simp [SysCall.asks, hr]
    rw [hasks, if_pos hr]
    exact .waitForWallclock hk
  · simp only [hr, if_false]
    simpa [SysCall.asks, hr] using hk

theorem proper_startProcA (procAEnv : Option EnvPtr) (hk : k.Proper P false) :
    (startProcA procAEnv k).Proper P false := by
  cases procAEnv with
  | none => exact .printAck _ hk
  | some procAEnv =>
    refine .call trivial fun r => ?_
    have hasks : (SysCall.sendMessage procAPid procAEnv).asks r = false := by
      simp [SysCall.asks, procAPid, wallclockPid]
    rw [hasks]
    exact proper_ite (proper_printf _ _ (.clearProcAEnv hk)) (.clearProcAEnv hk)

theorem proper_processStatuses (hk : k.Proper P false) :
    (processStatuses P k).Proper P false := by
  refine .call (.inr (.inl rfl)) fun r => proper_ite (proper_printf _ _ hk) ?_
  exact proper_printProcessStatuses _ fun status => proper_ite (proper_printf _ _ hk) hk

theorem proper_traceBuffers (hk : k.Proper P false) : (traceBuffers P k).Proper P false := by
  refine .call (.inr (.inl rfl)) fun r => ?_
  have hprint : (printTraceBuffers (some r.body) fun status =>
      if status ≠ codeSuccess then
        printf (cstr "CCI_printTraceBuffers failed with status %d\r\n") [.int status] k
      else k).Proper P false :=
    proper_printTraceBuffers _ fun status => proper_ite (proper_printf _ _ hk) hk
  exact proper_ite (proper_printf _ _ hprint) hprint

theorem proper_newPriority (copy : Text) (hk : k.Proper P false) :
    (newPriority copy k).Proper P false := by
  have hbad : (newPriority.badFormat k).Proper P false := .printAck _ hk
  refine proper_ite .fault ?_
  split
  · refine proper_ite hbad (.call trivial fun r => ?_)
    exact proper_ite (.printAck _ hk) (proper_ite (proper_printf _ _ hk) hk)
  · exact hbad

theorem proper_setClock (copy : Text) (hk : k.Proper P false) :
    (setClock P copy k).Proper P false :=
  proper_ite (.printAck _ hk) (proper_clockRequest _ hk)

theorem proper_pong (hk : k.Proper P false) : (pong k).Proper P false :=
  .pongMode <| .call trivial fun _ => .call trivial fun _ => hk

theorem proper_line (P : CciEnvs) (procAEnv : Option EnvPtr) (msg : Text) :
    (line P procAEnv msg).Proper P false := by
  have hk : (printAck (cstr "CCI: ") endLoop).Proper P false := .printAck _ .endLoop
  refine proper_ite ?_ (.printAck _ (.printAck _ hk))
  refine proper_ite (proper_startProcA procAEnv hk) ?_
  refine proper_ite (proper_processStatuses hk) ?_
  refine proper_ite (proper_clockRequest _ hk) ?_
  refine proper_ite (proper_clockRequest _ hk) ?_
  refine proper_ite (proper_traceBuffers hk) ?_
  refine proper_ite (.printAck _ .terminate) ?_
  refine proper_ite (proper_newPriority _ hk) ?_
  refine proper_ite (proper_setClock _ hk) ?_
  exact proper_ite (proper_pong hk) (proper_printf _ _ hk)

theorem proper_startCci : startCci.Proper P false := .printAck _ (.printAck _ .endLoop)

end Cci

/-! ## The queues -/

/-- `msg_queue` holds `msgs`, the waiting loops `transit` and the kernel's queue `recv`. -/
structure Holds (mem : EnvPtr → MsgEnv EnvPtr) (msgQueue recvMsgs : MsgEnvQueue EnvPtr)
    (msgs transit recv : List Entry) : Prop where
  msgQueue : QueueRep mem msgQueue (msgs.map Prod.fst)
  recvMsgs : QueueRep mem recvMsgs (recv.map Prod.fst)
  letter : ∀ x ∈ msgs ++ transit ++ recv, (mem x.1).toLetter = x.2
  nodup : ((msgs ++ transit ++ recv).map Prod.fst).Nodup

namespace Holds

variable {mem : EnvPtr → MsgEnv EnvPtr} {msgQueue recvMsgs : MsgEnvQueue EnvPtr}
  {msgs transit recv : List Entry} {x : Entry} {env : EnvPtr}

theorem drop (h : Holds mem msgQueue recvMsgs msgs transit recv) :
    Holds mem msgQueue recvMsgs msgs [] recv where
  msgQueue := h.msgQueue
  recvMsgs := h.recvMsgs
  letter y hy := h.letter y (by simp at hy ⊢; tauto)
  nodup := by
    refine h.nodup.sublist (List.Sublist.map _ ?_)
    rw [List.append_nil]
    exact (List.sublist_append_left msgs transit).append_right recv

/-- A write to an envelope that is in no queue. -/
theorem write (h : Holds mem msgQueue recvMsgs msgs transit recv)
    (henv : ∀ x ∈ msgs ++ transit ++ recv, x.1 ≠ env) (letter : Letter) :
    Holds (Function.update mem env { mem env with toLetter := letter }) msgQueue recvMsgs msgs
      transit recv := by
  have hnext : nextOf (Function.update mem env { mem env with toLetter := letter }) =
      nextOf mem := by
    funext a
    by_cases ha : a = env
    · subst ha; simp [nextOf]
    · simp [nextOf, ha]
  refine ⟨?_, ?_, fun y hy => ?_, h.nodup⟩
  · rw [QueueRep, hnext]
    exact h.msgQueue
  · rw [QueueRep, hnext]
    exact h.recvMsgs
  · rw [Function.update_of_ne (henv y hy)]
    exact h.letter y hy

theorem deliver (h : Holds mem msgQueue recvMsgs msgs transit recv)
    (henv : ∀ x ∈ msgs ++ transit ++ recv, x.1 ≠ env) :
    ∃ mem' queue, msgEnvQueueEnqueue mem recvMsgs env = some (mem', queue) ∧
      Holds mem' msgQueue queue msgs transit (recv ++ [(env, (mem env).toLetter)]) := by
  have hrecv : env ∉ recv.map Prod.fst := by
    intro hmem
    obtain ⟨y, hy, rfl⟩ := List.mem_map.1 hmem
    exact henv y (by simp [hy]) rfl
  obtain ⟨mem', queue, heq, hqueue, hletter, hnext⟩ := msgEnvQueueEnqueue_spec h.recvMsgs hrecv
  refine ⟨mem', queue, heq, ?_, by simpa using hqueue, fun y hy => ?_, ?_⟩
  · refine Linked.Rep.congr h.msgQueue fun a ha => hnext a ?_ ?_
    · intro ha'
      have hnd := h.nodup
      simp only [List.map_append, List.nodup_append] at hnd
      exact hnd.2.2 a (List.mem_append_left _ ha) a ha' rfl
    · obtain ⟨y, hy, rfl⟩ := List.mem_map.1 ha
      exact henv y (by simp [hy])
  · rw [hletter]
    rcases List.mem_append.1 (List.append_assoc _ recv _ ▸ hy) with hy | hy
    · exact h.letter y hy
    · rw [List.mem_singleton.1 hy]
  · rw [← List.append_assoc, List.map_append]
    refine List.nodup_append.2 ⟨h.nodup, List.nodup_singleton _, ?_⟩
    intro a ha b hb
    obtain ⟨y, hy, rfl⟩ := List.mem_map.1 ha
    simp only [List.map_cons, List.map_nil, List.mem_singleton] at hb
    rw [hb]
    exact henv y hy

theorem receive (h : Holds mem msgQueue recvMsgs msgs [] (x :: recv)) :
    ∃ queue, msgEnvQueueDequeue mem recvMsgs = (some x.1, setNext mem x.1 none, queue) ∧
      Holds (setNext mem x.1 none) msgQueue queue msgs [x] recv := by
  obtain ⟨queue, heq, hqueue⟩ := msgEnvQueueDequeue_cons h.recvMsgs
  refine ⟨queue, heq, ?_, hqueue, fun y hy => ?_, by simpa using h.nodup⟩
  · refine Linked.Rep.congr h.msgQueue fun a ha => ?_
    rw [nextOf_setNext, Function.update_of_ne]
    rintro rfl
    have hnd := h.nodup
    simp only [List.append_nil, List.map_append, List.nodup_append] at hnd
    exact hnd.2.2 x.1 ha x.1 List.mem_cons_self rfl
  · rw [toLetter_setNext]
    exact h.letter y (by simpa using hy)

theorem take (h : Holds mem msgQueue recvMsgs (x :: msgs) [] recv) :
    ∃ queue, msgEnvQueueDequeue mem msgQueue = (some x.1, setNext mem x.1 none, queue) ∧
      Holds (setNext mem x.1 none) queue recvMsgs msgs [x] recv := by
  obtain ⟨queue, heq, hqueue⟩ := msgEnvQueueDequeue_cons h.msgQueue
  have hnd := h.nodup
  simp only [List.append_nil, List.cons_append, List.map_cons, List.map_append,
    List.nodup_cons, List.mem_append, not_or] at hnd
  refine ⟨queue, heq, hqueue, ?_, fun y hy => ?_, ?_⟩
  · refine Linked.Rep.congr h.recvMsgs fun a ha => ?_
    rw [nextOf_setNext, Function.update_of_ne]
    rintro rfl
    exact hnd.1.2 ha
  · rw [toLetter_setNext]
    exact h.letter y (by simp at hy ⊢; tauto)
  · refine List.Perm.nodup (List.Perm.map _ ?_) h.nodup
    simp only [List.append_nil, List.append_assoc, List.cons_append]
    exact List.perm_middle.symm

/-- A waiting loop puts what it has received on `msg_queue`. -/
theorem defer (h : Holds mem msgQueue recvMsgs msgs [x] recv) :
    ∃ mem' queue, msgEnvQueueEnqueue mem msgQueue x.1 = some (mem', queue) ∧
      Holds mem' queue recvMsgs (msgs ++ [x]) [] recv := by
  have hnd := h.nodup
  simp only [List.map_append, List.map_cons, List.append_assoc, List.singleton_append,
    List.nodup_append, List.nodup_cons] at hnd
  obtain ⟨-, ⟨hx, -⟩, hdis⟩ := hnd
  have hmsgs : x.1 ∉ msgs.map Prod.fst := fun hmem => hdis _ hmem _ List.mem_cons_self rfl
  obtain ⟨mem', queue, heq, hqueue, hletter, hnext⟩ := msgEnvQueueEnqueue_spec h.msgQueue hmsgs
  refine ⟨mem', queue, heq, by simpa using hqueue, ?_, fun y hy => ?_, by simpa using h.nodup⟩
  · refine Linked.Rep.congr h.recvMsgs fun a ha => hnext a (fun hmem => ?_) ?_
    · exact hdis a hmem a (List.mem_cons_of_mem _ ha) rfl
    · rintro rfl
      exact hx ha
  · rw [hletter]
    exact h.letter y (by simpa using hy)

end Holds

/-! ## The invariant -/

/-- The envelope carries console input. -/
abbrev Entry.IsInput (x : Entry) : Prop := x.2.msgType = consoleInput

namespace Point

/-- The answer the process waits for or is about to wait for. -/
def expects : Point → Option ℤ
  | loop => none
  | code k => k.expects
  | receive wait _ | received wait _ _ => some wait.msgType

/-- What a waiting loop has received and not looked at. -/
def Transit (transit : List Entry) : Point → Prop
  | received _ env _ => transit.map Prod.fst = [env]
  | _ => transit = []

/-- What is left of the code asks for one answer at a time. -/
def Proper (P : CciEnvs) : Point → Prop
  | loop => True
  | code k => ∃ asked, k.Proper P asked
  | receive _ k | received _ _ k => k.Proper P false

theorem expects_ne {point : Point} {t : ℤ} (h : point.expects = some t) : t ≠ consoleInput := by
  cases point with
  | loop => contradiction
  | code k => cases k <;> simp_all [expects, Cci.expects, clockRet, consoleInput]; omega
  | receive wait k | received wait env k =>
    obtain rfl := Option.some.inj h
    cases wait <;> decide

end Point

/-- Only the answer that the process expects is under way, besides console input; what has arrived
is what was processed and then what the queues hold. -/
structure Orderly (P : CciEnvs) (s : CciState) (msgs transit recv : List Entry) : Prop where
  holds : Holds s.env s.msgQueue s.recvMsgs msgs transit recv
  inTransit : s.point.Transit transit
  held : ∀ x ∈ msgs ++ transit ++ recv, x.1 ∈ s.held ∧ s.current ≠ some x.1
  current : ∀ env ∈ s.current, env ∈ s.held
  own : ∀ x ∈ msgs ++ transit ++ recv, x.IsInput → ¬ P.Owns x.1
  deferred : ∀ x ∈ msgs, x.IsInput
  answer : ∀ x ∈ transit ++ recv, ¬ x.IsInput →
    s.owed = none ∧ s.point.expects = some x.2.msgType
  one : (transit ++ recv).Pairwise fun x y => x.IsInput ∨ y.IsInput
  owed : ∀ t ∈ s.owed, s.point.expects = some t
  code : s.point.Proper P
  idle : s.point = .loop → s.current = none
  arrived : s.arrived = s.processed ++ (msgs ++ transit ++ recv).filter (·.IsInput)
  inputs : ∀ x ∈ s.processed, x.IsInput
  processed : s.processed.map Prod.fst = s.released ++ s.current.toList
  strays : s.strays = []

namespace Orderly

variable {P : CciEnvs} {s s' : CciState} {msgs transit recv : List Entry} {x : Entry}

/-- While no answer is expected, there is only console input. -/
theorem quiet (h : Orderly P s msgs transit recv) (hexpects : s.point.expects = none) :
    s.owed = none ∧ ∀ x ∈ msgs ++ transit ++ recv, x.IsInput := by
  constructor
  · cases howed : s.owed with
    | none => rfl
    | some t =>
      have := h.owed t howed
      rw [hexpects] at this
      contradiction
  · intro x hx
    rw [List.append_assoc] at hx
    rcases List.mem_append.1 hx with hx | hx
    · exact h.deferred x hx
    · by_contra hinput
      have := (h.answer x hx hinput).2
      rw [hexpects] at this
      contradiction

theorem not_owed (h : Orderly P s msgs transit recv) (hexpects : s.point.expects = none)
    {Q : ℤ → Prop} : ∀ t ∈ s.owed, Q t := by
  rw [(h.quiet hexpects).1]
  nofun

/-- A step of the code that leaves the queues alone and writes to no envelope in them. -/
theorem proceed (h : Orderly P s msgs [] recv) (hexpects : s.point.expects = none)
    {mem : EnvPtr → MsgEnv EnvPtr} {procAEnv : Option EnvPtr} {pongMode : Bool} {point : Point}
    {owed : Option ℤ} (hholds : Holds mem s.msgQueue s.recvMsgs msgs [] recv)
    (htransit : point.Transit []) (howed : ∀ t ∈ owed, point.expects = some t)
    (hcode : point.Proper P) (hidle : point = .loop → s.current = none) :
    Orderly P { s with
      env := mem
      procAEnv := procAEnv
      pongMode := pongMode
      point := point
      owed := owed } msgs [] recv :=
  have hinput := (h.quiet hexpects).2
  { h with
    holds := hholds
    inTransit := htransit
    answer := fun x hx hnot => absurd (hinput x (by simp at hx ⊢; tauto)) hnot
    owed := howed
    code := hcode
    idle := hidle }

/-- The write of a step that is about to `proceed`. -/
theorem write (h : Orderly P s msgs [] recv) (hexpects : s.point.expects = none) {env : EnvPtr}
    (henv : P.Owns env) (letter : Letter) :
    Holds (s.setLetter env letter).env s.msgQueue s.recvMsgs msgs [] recv := by
  refine h.holds.write (fun x hx hxe => ?_) letter
  exact h.own x hx ((h.quiet hexpects).2 x hx) (hxe ▸ henv)

/-- The main loop releases what it has processed. -/
theorem release (h : Orderly P s msgs [] recv) {env : EnvPtr} (hcurrent : s.current = some env)
    (hexpects : s.point.expects = none) :
    Orderly P { s with
      point := .loop
      current := none
      released := s.released ++ [env]
      held := s.held.erase env } msgs [] recv :=
  { h with
    inTransit := rfl
    held := fun x hx => by
      obtain ⟨hheld, hne⟩ := h.held x hx
      refine ⟨(List.mem_erase_of_ne ?_).2 hheld, nofun⟩
      rintro rfl
      exact hne hcurrent
    current := nofun
    answer := fun x hx hnot => absurd ((h.quiet hexpects).2 x (by simp at hx ⊢; tauto)) hnot
    owed := h.not_owed hexpects
    code := trivial
    idle := fun _ => rfl
    processed := by
      rw [h.processed, hcurrent]
      simp }

/-- A kernel call writes at most to an envelope of the process, and asks for an answer or not. -/
theorem sysCall (h : Orderly P s msgs [] recv) (hexpects : s.point.expects = none) {r : Reply}
    {c : SysCall} (hc : c.Proper P) (hcall : s.sysCall r c = some s') :
    ∃ mem, s' = { s with
      env := mem
      owed := if c.asks r then some clockRet else s.owed } ∧
      Holds mem s.msgQueue s.recvMsgs msgs [] recv := by
  cases c with
  | sendMessage destPid msgEnv =>
    simp only [CciState.sysCall] at hcall
    split at hcall
    · rename_i hasks
      cases hcall
      exact ⟨s.env, by simp [SysCall.asks, hasks], h.holds⟩
    · rename_i hasks
      cases hcall
      exact ⟨s.env, by simp [SysCall.asks, hasks], h.holds⟩
  | requestProcessStatus msgEnv | getTraceBuffers msgEnv =>
    cases hcall
    exact ⟨_, rfl, h.write hexpects hc _⟩
  | changePriority newPriority targetPid | kRequestMsgEnv | kSendMessage destPid msgEnv =>
    cases hcall
    exact ⟨s.env, rfl, h.holds⟩

theorem command (h : Orderly P s msgs transit recv) {k : Cci} (hpoint : s.point = .code k)
    {r : Reply} (hstep : s.command P r k = some s') : Orderly P s' msgs [] recv := by
  obtain rfl : transit = [] := by
    have := h.inTransit
    rw [hpoint] at this
    exact this
  obtain ⟨asked, hk⟩ : ∃ asked, k.Proper P asked := by
    have := h.code
    rw [hpoint] at this
    exact this
  have hexpects : s.point.expects = if asked then some clockRet else none := by
    rw [hpoint]
    exact hk.expects
  cases hk with
  | waitForWallclock hk =>
    cases hstep
    refine { h with inTransit := rfl, answer := fun x hx hnot => ?_, owed := fun t ht => ?_,
                    code := hk, idle := nofun }
    · exact ⟨(h.answer x hx hnot).1, by rw [← (h.answer x hx hnot).2, hexpects]; rfl⟩
    · rw [← h.owed t ht, hexpects]; rfl
  | endLoop =>
    simp only [CciState.command] at hstep
    split at hstep
    · rename_i hcurrent
      cases hstep
      refine h.proceed hexpects h.holds ?_ (h.not_owed hexpects) ?_ fun _ => hcurrent
      · rfl
      · trivial
    · rename_i env hcurrent
      cases hstep
      exact h.release hcurrent hexpects
  | printAck str hk =>
    obtain ⟨msg, -, hstep⟩ := Option.bind_eq_some_iff.1 hstep
    cases hstep
    refine h.proceed hexpects (h.write hexpects (.inl rfl) _) rfl (fun t ht => ?_) hk nofun
    change t ∈ (if r.code = codeSuccess then some displayAck else s.owed) at ht
    rw [(h.quiet hexpects).1] at ht
    split at ht
    · exact ht.symm ▸ rfl
    · contradiction
  | @call c k hc hk =>
    obtain ⟨s₁, hcall, hstep⟩ := Option.bind_eq_some_iff.1 hstep
    cases hstep
    obtain ⟨mem, rfl, hholds⟩ := h.sysCall hexpects hc hcall
    refine h.proceed hexpects hholds rfl (fun t ht => ?_) ⟨_, hk r⟩ nofun
    refine (hk r).expects.trans ?_
    split
    · rename_i hasks
      exact (if_pos hasks).symm.trans ht
    · rename_i hasks
      exact absurd ht (by rw [if_neg hasks, (h.quiet hexpects).1]; nofun)
  | write f henv hk =>
    cases hstep
    exact h.proceed hexpects (h.write hexpects henv _) rfl (h.not_owed hexpects) ⟨_, hk⟩ nofun
  | clearProcAEnv hk =>
    cases hstep
    exact h.proceed hexpects h.holds rfl (h.not_owed hexpects) ⟨_, hk⟩ nofun
  | pongMode hk =>
    cases hstep
    exact h.proceed hexpects h.holds rfl (h.not_owed hexpects) ⟨_, hk⟩ nofun
  | terminate => cases hstep
  | fault => cases hstep

/-- The main loop takes the oldest envelope that is left, which is console input. -/
theorem dispatch (h : Orderly P s msgs [] recv) (hpoint : s.point = .loop)
    {mem : EnvPtr → MsgEnv EnvPtr} {msgQueue recvMsgs : MsgEnvQueue EnvPtr}
    {msgs' recv' : List Entry} (hlist : msgs ++ recv = x :: (msgs' ++ recv'))
    (hholds : Holds mem msgQueue recvMsgs msgs' [x] recv')
    (hstep : { s with env := mem, msgQueue := msgQueue, recvMsgs := recvMsgs }.dispatch P x.1 =
      some s') : Orderly P s' msgs' [] recv' := by
  have hexpects : s.point.expects = none := by rw [hpoint]; rfl
  have hmem : ∀ y, y ∈ msgs ++ [] ++ recv ↔ y = x ∨ y ∈ msgs' ++ [] ++ recv' := by
    intro y
    rw [List.append_nil, List.append_nil, hlist, List.mem_cons]
  have hinput := (h.quiet hexpects).2
  have hx : x.IsInput := hinput x ((hmem x).2 (.inl rfl))
  have hrest : ∀ y ∈ msgs' ++ [] ++ recv', y.IsInput := fun y hy => hinput y ((hmem y).2 (.inr hy))
  have hletter : (mem x.1).toLetter = x.2 := hholds.letter x (by simp)
  have hne : ∀ y ∈ msgs' ++ [] ++ recv', x.1 ≠ y.1 := by
    intro y hy hxy
    have hnd := hholds.nodup
    rw [List.append_assoc, List.singleton_append] at hnd
    have hnd := (List.nodup_cons.1 (List.Perm.nodup (List.Perm.map _ List.perm_middle) hnd)).1
    exact hnd (hxy ▸ List.mem_map_of_mem (by simpa using hy))
  unfold CciState.dispatch at hstep
  simp only [hletter, if_pos hx] at hstep
  obtain ⟨msg, -, hstep⟩ := Option.bind_eq_some_iff.1 hstep
  cases hstep
  exact {
    holds := hholds.drop
    inTransit := rfl
    held := fun y hy => ⟨(h.held y ((hmem y).2 (.inr hy))).1,
      fun heq => hne y hy (Option.some.inj heq)⟩
    current := fun env henv => by
      obtain rfl := Option.some.inj henv
      exact (h.held x ((hmem x).2 (.inl rfl))).1
    own := fun y hy => h.own y ((hmem y).2 (.inr hy))
    deferred := fun y hy => hrest y (by simp [hy])
    answer := fun y hy hnot => absurd (hrest y (by simp at hy ⊢; tauto)) hnot
    one := List.pairwise_of_forall_mem_list fun y hy _ _ => .inl (hrest y (by simp at hy ⊢; tauto))
    owed := h.not_owed hexpects
    code := ⟨false, Cci.proper_line P _ _⟩
    idle := nofun
    arrived := by
      have := h.arrived
      rw [List.append_nil, hlist, List.filter_cons_of_pos (by simpa using hx)] at this
      rw [List.append_nil, this, List.append_assoc]
      rfl
    inputs := by
      intro y hy
      rcases List.mem_append.1 hy with hy | hy
      · exact h.inputs y hy
      · rw [List.mem_singleton.1 hy]
        exact hx
    processed := by
      have := h.processed
      rw [h.idle hpoint] at this
      rw [List.map_append, this]
      simp
    strays := h.strays }

theorem takeNext (h : Orderly P s msgs [] recv) (hpoint : s.point = .loop)
    (hstep : s.takeNext P = some s') : ∃ msgs recv, Orderly P s' msgs [] recv := by
  unfold CciState.takeNext at hstep
  cases msgs with
  | nil =>
    have hempty := h.holds.msgQueue.isEmpty.2 rfl
    rw [if_pos hempty] at hstep
    cases recv with
    | nil =>
      obtain ⟨queue, heq, -⟩ := msgEnvQueueDequeue_nil h.holds.recvMsgs
      simp [heq] at hstep
    | cons x recv =>
      obtain ⟨queue, heq, hholds⟩ := h.holds.receive
      rw [heq] at hstep
      exact ⟨_, _, h.dispatch hpoint rfl hholds hstep⟩
  | cons x msgs =>
    have hempty := mt h.holds.msgQueue.isEmpty.1 (by simp)
    rw [if_neg hempty] at hstep
    obtain ⟨queue, heq, hholds⟩ := h.holds.take
    rw [heq] at hstep
    exact ⟨_, _, h.dispatch hpoint rfl hholds hstep⟩

theorem receive {wait : Wait} {k : Cci} (h : Orderly P s msgs [] (x :: recv))
    (hpoint : s.point = .receive wait k) {mem : EnvPtr → MsgEnv EnvPtr}
    {recvMsgs : MsgEnvQueue EnvPtr} (hholds : Holds mem s.msgQueue recvMsgs msgs [x] recv) :
    Orderly P { s with env := mem, recvMsgs := recvMsgs, point := .received wait x.1 k } msgs [x]
      recv := by
  have hexpects : s.point.expects = some wait.msgType := by rw [hpoint]; rfl
  have hcode : k.Proper P false := by
    have := h.code
    rwa [hpoint] at this
  have hlist : msgs ++ [x] ++ recv = msgs ++ [] ++ (x :: recv) := by simp
  exact { h with
    holds := hholds
    inTransit := rfl
    held := hlist ▸ h.held
    own := hlist ▸ h.own
    answer := fun y hy hnot =>
      ⟨(h.answer y hy hnot).1, hexpects.symm.trans (h.answer y hy hnot).2⟩
    one := h.one
    owed := fun t ht => hexpects.symm.trans (h.owed t ht)
    code := hcode
    idle := nofun
    arrived := hlist ▸ h.arrived }

theorem answered {wait : Wait} {env : EnvPtr} {k : Cci} (h : Orderly P s msgs [x] recv)
    (hpoint : s.point = .received wait env k) (hanswer : ¬ x.IsInput) :
    Orderly P { s with point := .code k, held := s.held.erase x.1 } msgs [] recv := by
  have hcode : k.Proper P false := by
    have := h.code
    rwa [hpoint] at this
  have hrecv : ∀ y ∈ recv, y.IsInput := fun y hy =>
    ((List.pairwise_cons.1 h.one).1 y hy).resolve_left hanswer
  have hsub : ∀ y ∈ msgs ++ [] ++ recv, y ∈ msgs ++ [x] ++ recv := by
    intro y hy
    simp at hy ⊢
    tauto
  have howed : s.owed = none := (h.answer x (by simp) hanswer).1
  exact { h with
    holds := h.holds.drop
    inTransit := rfl
    held := fun y hy => by
      refine ⟨(List.mem_erase_of_ne ?_).2 (h.held y (hsub y hy)).1, (h.held y (hsub y hy)).2⟩
      intro hyx
      have hnd := h.holds.nodup
      rw [List.append_assoc, List.singleton_append] at hnd
      have hnd := (List.nodup_cons.1 (List.Perm.nodup (List.Perm.map _ List.perm_middle) hnd)).1
      exact hnd (hyx ▸ List.mem_map_of_mem (by simpa using hy))
    current := fun e he => by
      refine (List.mem_erase_of_ne ?_).2 (h.current e he)
      rintro rfl
      exact (h.held x (by simp)).2 he
    own := fun y hy => h.own y (hsub y hy)
    answer := fun y hy hnot => absurd (hrecv y hy) hnot
    one := (List.pairwise_cons.1 h.one).2
    owed := by
      rw [howed]
      nofun
    code := ⟨false, hcode⟩
    idle := nofun
    arrived := by
      rw [h.arrived, List.append_assoc, List.append_assoc, List.filter_append,
        List.filter_append msgs, List.singleton_append,
        List.filter_cons_of_neg (by simpa using hanswer)]
      rfl }

/-- A waiting loop puts console input on `msg_queue`. -/
theorem defer {wait : Wait} {env : EnvPtr} {k : Cci} (h : Orderly P s msgs [x] recv)
    (hpoint : s.point = .received wait env k) (hinput : x.IsInput) {mem : EnvPtr → MsgEnv EnvPtr}
    {msgQueue : MsgEnvQueue EnvPtr} (hholds : Holds mem msgQueue s.recvMsgs (msgs ++ [x]) [] recv) :
    Orderly P { s with env := mem, msgQueue := msgQueue, point := .receive wait k } (msgs ++ [x])
      [] recv := by
  have hexpects : s.point.expects = some wait.msgType := by rw [hpoint]; rfl
  have hcode : k.Proper P false := by
    have := h.code
    rwa [hpoint] at this
  have hlist : msgs ++ [x] ++ [] ++ recv = msgs ++ [x] ++ recv := by simp
  exact { h with
    holds := hholds
    inTransit := rfl
    held := hlist ▸ h.held
    own := hlist ▸ h.own
    deferred := fun y hy => by
      rcases List.mem_append.1 hy with hy | hy
      · exact h.deferred y hy
      · rw [List.mem_singleton.1 hy]
        exact hinput
    answer := fun y hy hnot =>
      have hanswer := h.answer y (List.mem_cons_of_mem x hy) hnot
      ⟨hanswer.1, hexpects.symm.trans hanswer.2⟩
    one := (List.pairwise_cons.1 h.one).2
    owed := fun t ht => hexpects.symm.trans (h.owed t ht)
    code := hcode
    idle := nofun
    arrived := hlist ▸ h.arrived }

theorem run (h : Orderly P s msgs transit recv) {r : Reply} (hstep : s.run P r = some s') :
    ∃ msgs transit recv, Orderly P s' msgs transit recv := by
  have htransit := h.inTransit
  unfold CciState.run at hstep
  split at hstep
  · rename_i hpoint
    rw [hpoint] at htransit
    obtain rfl : transit = [] := htransit
    obtain ⟨msgs', recv', h'⟩ := h.takeNext hpoint hstep
    exact ⟨msgs', [], recv', h'⟩
  · rename_i k hpoint
    exact ⟨_, _, _, h.command hpoint hstep⟩
  · rename_i wait k hpoint
    rw [hpoint] at htransit
    obtain rfl : transit = [] := htransit
    cases recv with
    | nil =>
      obtain ⟨queue, heq, -⟩ := msgEnvQueueDequeue_nil h.holds.recvMsgs
      simp [heq] at hstep
    | cons x recv =>
      obtain ⟨queue, heq, hholds⟩ := h.holds.receive
      rw [heq] at hstep
      cases hstep
      exact ⟨_, _, _, h.receive hpoint hholds⟩
  · rename_i wait env k hpoint
    rw [hpoint] at htransit
    obtain ⟨x, rfl, rfl⟩ : ∃ x, transit = [x] ∧ x.1 = env := by
      obtain ⟨x, hx, hxe⟩ := List.map_eq_singleton_iff.1 htransit
      exact ⟨x, hx, hxe⟩
    have hletter : (s.env x.1).toLetter = x.2 := h.holds.letter x (by simp)
    rw [hletter] at hstep
    have hexpects : s.point.expects = some wait.msgType := by rw [hpoint]; rfl
    split at hstep
    · rename_i hanswer
      cases hstep
      refine ⟨_, _, _, h.answered hpoint fun hinput => ?_⟩
      exact Point.expects_ne hexpects (hanswer.symm.trans hinput)
    · rename_i hanswer
      obtain ⟨mem, queue, heq, hholds⟩ := h.holds.defer
      rw [heq] at hstep
      cases hstep
      refine ⟨_, _, _, h.defer hpoint ?_ hholds⟩
      by_contra hnot
      exact hanswer (Option.some.inj ((h.answer x (by simp) hnot).2.symm.trans hexpects))

theorem deliver (h : Orderly P s msgs transit recv) {env : EnvPtr} (henv : env ∉ s.held)
    {letter : Letter} (hstep : s.deliver env letter = some s') :
    ∃ mem queue, s' = { s with env := mem, recvMsgs := queue, held := env :: s.held } ∧
      Holds mem s.msgQueue queue msgs transit (recv ++ [(env, letter)]) := by
  have hout : ∀ x ∈ msgs ++ transit ++ recv, x.1 ≠ env := by
    rintro x hx rfl
    exact henv (h.held x hx).1
  obtain ⟨mem, queue, heq, hholds⟩ := (h.holds.write hout letter).deliver hout
  simp only [CciState.deliver, CciState.setLetter, heq, Option.map_some] at hstep
  cases hstep
  rw [Function.update_self] at hholds
  exact ⟨mem, queue, rfl, hholds⟩

/-- What is delivered is held, and is not the envelope in the hands of the main loop. -/
theorem deliver_held (h : Orderly P s msgs transit recv) {env : EnvPtr} (henv : env ∉ s.held)
    {letter : Letter} : ∀ x ∈ msgs ++ transit ++ (recv ++ [(env, letter)]),
      x.1 ∈ env :: s.held ∧ s.current ≠ some x.1 := by
  intro x hx
  rw [← List.append_assoc] at hx
  rcases List.mem_append.1 hx with hx | hx
  · exact ⟨List.mem_cons_of_mem env (h.held x hx).1, (h.held x hx).2⟩
  · rw [List.mem_singleton.1 hx]
    exact ⟨List.mem_cons_self, fun hcurrent => henv (h.current env hcurrent)⟩

theorem arrive (h : Orderly P s msgs transit recv) {env : EnvPtr} {sendPid : ℤ} {body : Body}
    (hfresh : s.Fresh P (.arrive env sendPid body))
    (hstep : s.step P (.arrive env sendPid body) = some s') :
    ∃ msgs transit recv, Orderly P s' msgs transit recv := by
  obtain ⟨henv, hprint, hstatus, hclock⟩ := hfresh
  obtain ⟨s₁, hdeliver, rfl⟩ := Option.map_eq_some_iff.1 hstep
  obtain ⟨mem, queue, rfl, hholds⟩ := h.deliver henv hdeliver
  refine ⟨msgs, transit, recv ++ [(env, ⟨cciPid, sendPid, consoleInput, some body⟩)], ?_⟩
  exact { h with
    holds := hholds
    held := h.deliver_held henv
    current := fun e he => List.mem_cons_of_mem env (h.current e he)
    own := fun x hx hinput => by
      rw [← List.append_assoc] at hx
      rcases List.mem_append.1 hx with hx | hx
      · exact h.own x hx hinput
      · rw [List.mem_singleton.1 hx]
        rintro (heq | heq | heq)
        · exact hprint heq
        · exact hstatus heq
        · exact hclock heq
    answer := fun x hx hnot => by
      rw [← List.append_assoc] at hx
      rcases List.mem_append.1 hx with hx | hx
      · exact h.answer x hx hnot
      · rw [List.mem_singleton.1 hx] at hnot
        exact absurd rfl hnot
    one := by
      rw [← List.append_assoc]
      refine List.pairwise_append.2 ⟨h.one, List.pairwise_singleton .., fun x _ y hy => ?_⟩
      rw [List.mem_singleton.1 hy]
      exact .inr rfl
    arrived := by
      rw [← List.append_assoc, List.filter_append, ← List.append_assoc, ← h.arrived]
      rfl }

theorem answer_delivered (h : Orderly P s msgs transit recv) {env : EnvPtr} {sendPid : ℤ}
    {body : Body} (hfresh : s.Fresh P (.answer env sendPid body))
    (hstep : s.step P (.answer env sendPid body) = some s') :
    ∃ msgs transit recv, Orderly P s' msgs transit recv := by
  simp only [CciState.step] at hstep
  cases howed : s.owed with
  | none => simp [howed] at hstep
  | some t =>
    simp only [howed, Option.bind_eq_bind, Option.bind_some] at hstep
    obtain ⟨s₁, hdeliver, hstep⟩ := Option.bind_eq_some_iff.1 hstep
    cases hstep
    obtain ⟨mem, queue, rfl, hholds⟩ := h.deliver hfresh hdeliver
    have hexpects := h.owed t howed
    have hnot : t ≠ consoleInput := Point.expects_ne hexpects
    -- As the answer was owed, none is in the queue.
    have hinput : ∀ x ∈ transit ++ recv, x.IsInput := by
      intro x hx
      by_contra hx'
      have := (h.answer x hx hx').1
      rw [howed] at this
      contradiction
    refine ⟨msgs, transit, recv ++ [(env, ⟨cciPid, sendPid, t, some body⟩)], ?_⟩
    exact { h with
      holds := hholds
      held := h.deliver_held hfresh
      current := fun e he => List.mem_cons_of_mem env (h.current e he)
      own := fun x hx hx' => by
        rw [← List.append_assoc] at hx
        rcases List.mem_append.1 hx with hx | hx
        · exact h.own x hx hx'
        · rw [List.mem_singleton.1 hx] at hx'
          exact absurd hx' hnot
      answer := fun x hx hx' => by
        rw [← List.append_assoc] at hx
        rcases List.mem_append.1 hx with hx | hx
        · exact absurd (hinput x hx) hx'
        · rw [List.mem_singleton.1 hx]
          exact ⟨rfl, hexpects⟩
      one := by
        rw [← List.append_assoc]
        refine List.pairwise_append.2 ⟨h.one, List.pairwise_singleton .., fun x hx _ _ => ?_⟩
        exact .inl (hinput x hx)
      owed := nofun
      arrived := by
        rw [← List.append_assoc, List.filter_append, List.filter_singleton]
        simp only [hnot, decide_false, cond_false, List.append_nil]
        exact h.arrived }

theorem step (h : Orderly P s msgs transit recv) {l : CciLabel} (hfresh : s.Fresh P l)
    (hstep : s.step P l = some s') : ∃ msgs transit recv, Orderly P s' msgs transit recv := by
  cases l with
  | arrive env sendPid body => exact h.arrive hfresh hstep
  | answer env sendPid body => exact h.answer_delivered hfresh hstep
  | run reply => exact h.run hstep

end Orderly

theorem CciState.Started.orderly {P : CciEnvs} {s : CciState} (h : s.Started) :
    Orderly P s [] [] [] where
  holds := by
    refine ⟨?_, ?_, nofun, List.nodup_nil⟩
    · rw [h.msgQueue]
      exact queueRep_create _
    · rw [h.recvMsgs]
      exact queueRep_create _
  inTransit := by rw [h.point]; rfl
  held := nofun
  current := by rw [h.current]; nofun
  own := nofun
  deferred := nofun
  answer := nofun
  one := List.Pairwise.nil
  owed := by rw [h.owed]; nofun
  code := by rw [h.point]; exact ⟨false, Cci.proper_startCci⟩
  idle := fun _ => h.current
  arrived := by rw [h.arrived, h.processed]; rfl
  inputs := by rw [h.processed]; nofun
  processed := by rw [h.processed, h.released, h.current]; rfl
  strays := h.strays

/-! ## Runs -/

/-- **At every point of every run, what has arrived is what was processed, then `msg_queue`, then
what is still to be received; the main loop has released what it has processed, but for the
envelope in its hands; and it has taken nothing but console input.** -/
theorem cci_order {P : CciEnvs} {s : CciState}
    (h : Reach (CciState.step P) CciState.Started (CciState.Fresh P) s) :
    ∃ msgs transit recv : List Entry,
      Holds s.env s.msgQueue s.recvMsgs msgs transit recv ∧ s.point.Transit transit ∧
      (∀ x ∈ msgs, x.IsInput) ∧
      s.arrived = s.processed ++ (msgs ++ transit ++ recv).filter (·.IsInput) ∧
      s.processed.map Prod.fst = s.released ++ s.current.toList ∧
      (∀ x ∈ s.processed, x.IsInput) ∧ s.strays = [] := by
  obtain ⟨msgs, transit, recv, h⟩ : ∃ msgs transit recv, Orderly P s msgs transit recv := by
    induction h with
    | init h => exact ⟨[], [], [], h.orderly⟩
    | step _ hfresh hstep ih =>
      obtain ⟨msgs, transit, recv, h⟩ := ih
      exact h.step hfresh hstep
  exact ⟨msgs, transit, recv, h.holds, h.inTransit, h.deferred, h.arrived, h.processed, h.inputs,
    h.strays⟩

/-- The first three envelopes of the pool are the process's own. -/
def poolEnvs : CciEnvs := ⟨.envPool 0, .envPool 1, .envPool 2⟩

/-- About to start, with empty bodies. -/
def startingCci : CciState where
  env _ := { destPid := 0, sendPid := 0, msgType := 0, msg := some fun _ => 0, next := none }
  recvMsgs := msgEnvQueueCreate
  msgQueue := msgEnvQueueCreate
  procAEnv := some (.envPool 3)
  pongMode := false
  point := .code .startCci
  current := none
  owed := none
  arrived := []
  processed := []
  released := []
  strays := []
  held := []

/-- Two lines: one while the introduction is printed, the second while the first waits for the wall
clock. -/
def deferredLines : List CciLabel :=
  let run : CciLabel := .run ⟨codeSuccess, none, fun _ => 0⟩
  let zero : Body := fun _ => 0
  let print := [run, .answer (.envPool 0) uartIProcessPid zero, run, run]
  [run, .arrive (.envPool 4) uartIProcessPid (putText zero (cstr "cd")), run, run,
    .answer (.envPool 0) uartIProcessPid zero, run, run] ++ print ++
  [run, run, run, run, run, .arrive (.envPool 5) uartIProcessPid (putText zero (cstr "ps")),
    .answer (.envPool 2) wallclockPid zero, run, run, run, run] ++ print ++ [run]

theorem cci_order_deferred :
    ∃ s, Reach (CciState.step poolEnvs) CciState.Started (CciState.Fresh poolEnvs) s ∧
      s.arrived.map Prod.fst = [.envPool 4, .envPool 5] ∧ s.released = [.envPool 4] ∧
      s.msgQueue.head = some (.envPool 5) ∧
      ∃ msgs transit recv : List Entry,
        Holds s.env s.msgQueue s.recvMsgs msgs transit recv ∧ s.point.Transit transit ∧
        (∀ x ∈ msgs, x.IsInput) ∧
        s.arrived = s.processed ++ (msgs ++ transit ++ recv).filter (·.IsInput) ∧
        s.processed.map Prod.fst = s.released ++ s.current.toList ∧
        (∀ x ∈ s.processed, x.IsInput) ∧ s.strays = [] := by
  have hrun : (exec (guarded (CciState.step poolEnvs) (CciState.Fresh poolEnvs)) startingCci
      deferredLines).any (fun s => decide (s.arrived.map Prod.fst = [.envPool 4, .envPool 5] ∧
        s.released = [.envPool 4] ∧ s.msgQueue.head = some (.envPool 5))) = true := by
    decide +kernel
  obtain ⟨s, hexec, hs⟩ := (Option.any_eq_true ..).1 hrun
  obtain ⟨harrived, hreleased, hhead⟩ := of_decide_eq_true hs
  have hstart : startingCci.Started := ⟨rfl, rfl, rfl, rfl, rfl, rfl, rfl, rfl, rfl⟩
  have hreach := (Reach.init hstart).guarded hexec
  exact ⟨s, hreach, harrived, hreleased, hhead, cci_order hreach⟩

end Rtx.Coldfire
