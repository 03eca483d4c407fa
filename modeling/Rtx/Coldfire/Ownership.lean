import Rtx.Coldfire.Effects
import Rtx.Coldfire.SchedRuns

/-!
# Ownership

A step is owning (`Owning`) if its process only gives away, and only writes to, what is held. Then
every act of the step is a proper move, so all envelopes stay accounted for (`Accounts.act`), along
every run from `k_init` (`envelope_conservation`).

What else holds of every act can be carried along: `Accounts.step` and `Accounts.reach` take an
invariant of acts to steps and to reachable states.
-/

namespace Rtx.Coldfire

open Transition

variable {n : ℕ}

/-! ## What is given away -/

/-- The envelope a primitive was called with, if it gives that away. -/
def Actor.given? : Actor → Option EnvPtr
  | .caller given _ _ => given
  | _ => none

/-- The envelope a primitive was called with, if it only fills that in. -/
def Actor.filled? : Actor → Option EnvPtr
  | .caller _ filled _ => filled
  | _ => none

/-- The envelope a process writes to by itself. -/
def Label.written? : Label → Option EnvPtr
  | .write msgEnv _ => some msgEnv
  | _ => none

/-- The envelope a move gives away. -/
def IpcMove.gives? : IpcMove n → Option EnvPtr
  | .send _ _ env _ _ | .release _ _ env | .insert _ _ env => some env
  | _ => none

/-- The running process only gives away an envelope it holds, and envelopes are only written to
while they are held. -/
def Owning (s : Kernel n) (l : Label) : Prop :=
  (∀ env ∈ l.actor.given?, ∀ cur ∈ s.sched.currentProcess, env ∈ heldBy s.ipc.log cur) ∧
    ∀ env ∈ l.written?, ∃ p, env ∈ heldBy s.ipc.log p

instance (s : Kernel n) (l : Label) : Decidable (Owning s l) := by
  unfold Owning
  infer_instance

theorem Label.worker_timer {l : Label} (h : l.actor = .timer) (s : Kernel n) :
    s.worker l = s.sched.kGetProcess timerIProcessPid := by
  cases l with
  | call c => cases c <;> contradiction
  | irqTimer nullRead => rfl
  | _ => contradiction

theorem Label.worker_uart {l : Label} (h : l.actor = .uart) (s : Kernel n) :
    s.worker l = s.sched.kGetProcess uartIProcessPid := by
  cases l with
  | call c => cases c <;> contradiction
  | irqUart ucsr rd => rfl
  | _ => contradiction

theorem Label.worker_caller {l : Label} {given filled : Option EnvPtr} {dest : Option ℤ}
    (h : l.actor = .caller given filled dest) (s : Kernel n) :
    s.worker l = s.sched.currentProcess := by
  cases l with
  | irqUart => contradiction
  | irqTimer => contradiction
  | _ => rfl

section Held

variable {s t : Kernel n} {l : Label} {p : Fin n} {m : IpcMove n} {actor : Actor} {env : EnvPtr}

theorem Actor.Allows.held (h : actor.Allows s p t m) (hm : m.gives? = some env)
    (hgiven : ∀ env ∈ actor.given?, env ∈ heldBy s.ipc.log p) : env ∈ heldBy t.ipc.log p := by
  cases m with
  | send cur dest env' =>
    cases hm
    cases actor with
    | caller given filled dest =>
      obtain ⟨hg, -, hlog⟩ := h
      rw [hlog]
      exact hgiven env hg
    | timer =>
      obtain ⟨-, time, log, hlog⟩ := h
      simp [hlog, Event.held]
    | uart =>
      rcases h with ⟨-, log, hlog⟩ | ⟨text, letter, log, hlog, -⟩ <;> simp [hlog, Event.held]
  | release q queue env' =>
    cases hm
    cases actor with
    | caller given filled dest =>
      obtain ⟨hg, hlog⟩ := h
      rw [hlog]
      exact hgiven env hg
    | timer => exact h.elim
    | uart =>
      obtain ⟨text, letter, log, hlog, -⟩ := h
      simp [hlog, Event.held]
  | insert q nullRead env' =>
    cases hm
    cases actor with
    | caller given filled dest => exact h.elim
    | timer =>
      obtain ⟨-, log, hlog⟩ := h
      simp [hlog, Event.held]
    | uart => exact h.elim
  | _ => contradiction

/-- In an owning step, the worker holds what its actor may give away. -/
theorem Owning.given (hown : Owning s l) (hp : s.worker l = some p) :
    ∀ env ∈ l.actor.given?, env ∈ heldBy s.ipc.log p := by
  intro env henv
  refine hown.1 env henv p ?_
  cases hactor : l.actor with
  | caller given filled dest => exact (Label.worker_caller hactor s).symm.trans hp
  | timer => rw [hactor] at henv; contradiction
  | uart => rw [hactor] at henv; contradiction

theorem Actor.Allows.timer {nullRead : Option ℤ}
    (h : actor.Allows s p t (.insert p nullRead env) ∨ actor.Allows s p t (.expire p env)) :
    actor = .timer := by
  cases actor with
  | caller given filled dest => exact h.elim False.elim False.elim
  | timer => rfl
  | uart => exact h.elim False.elim False.elim

theorem Label.Does.proper (h : l.Does s t (.ipc m)) (hown : Owning s l)
    (hids : t.sched.ids = s.sched.ids) :
    m.Proper (t.sched.kGetProcess timerIProcessPid) t.ipc := by
  -- The timer works as the process with its pid.
  have htimer : ∀ {p env} nullRead, s.worker l = some p →
      l.actor.Allows s p t (.insert p nullRead env) ∨ l.actor.Allows s p t (.expire p env) →
      t.sched.kGetProcess timerIProcessPid = some p := by
    intro p env nullRead hp hallows
    rw [Sched.kGetProcess_ids hids, ← Label.worker_timer (Actor.Allows.timer hallows) s]
    exact hp
  cases m with
  | write env content =>
    obtain ⟨rfl, rfl⟩ := h
    exact hown.2 env rfl
  | send cur dest env sendPid destPid =>
    obtain ⟨p, hp, ⟨rfl, -⟩, hallows⟩ := h
    exact hallows.held rfl (hown.given hp)
  | request q queue env =>
    obtain ⟨p, -, hby, -⟩ := h
    exact hby.2.imp_right And.left
  | release q queue env =>
    obtain ⟨p, hp, ⟨rfl, hqueue⟩, hallows⟩ := h
    exact ⟨hallows.held rfl (hown.given hp), hqueue⟩
  | insert q nullRead env =>
    obtain ⟨p, hp, rfl, hallows⟩ := h
    refine ⟨hallows.held rfl (hown.given hp), ?_, htimer nullRead hp (.inl hallows)⟩
    rw [Actor.Allows.timer (.inl hallows)] at hallows
    exact hallows.1
  | expire q env =>
    obtain ⟨p, hp, rfl, hallows⟩ := h
    exact htimer none hp (.inr hallows)
  | _ => trivial

/-- A letter is changed in an envelope that is held, or by a primitive that fills in the body. -/
theorem Label.Does.fills {letter : Letter} (h : l.Does s t (.ipc (.setLetter env letter)))
    (hown : Owning s l) : (∃ p, env ∈ heldBy t.ipc.log p) ∨
      (env ∈ l.actor.filled? ∧ t.ipc.log = s.ipc.log ∧
        letter = { t.ipc.letter env with msg := letter.msg }) := by
  obtain ⟨p, hp, -, hallows⟩ := h
  have hgiven := hown.given hp
  cases hactor : l.actor with
  | caller given filled dest =>
    rw [hactor] at hallows hgiven
    obtain ⟨hlog, hg | ⟨hf, hletter⟩⟩ := hallows
    · rw [hlog]
      exact .inl ⟨p, hgiven env hg⟩
    · exact .inr ⟨hf, hlog, hletter⟩
  | timer => rw [hactor] at hallows; exact hallows.elim
  | uart =>
    rw [hactor] at hallows
    refine .inl ⟨p, ?_⟩
    rcases hallows with ⟨log, hlog⟩ | ⟨-, text, log, hlog⟩ <;> simp [hlog, Event.held]

end Held

/-! ## Acts -/

/-- Where the envelopes are after an act. -/
def Act.Transfer (L : Loc n → List EnvPtr) : Act n → (Loc n → List EnvPtr) → Prop
  | .ipc m, L' => Coldfire.Transfer L m L'
  | _, L' => L' = L

/-- The first process of the table with this pid. -/
def getProcess (table : Fin n → PcbInit) (pid : ℤ) : Option (Fin n) :=
  (List.finRange n).find? fun p => (table p).pid == pid

/-- The pid of each process of the table, and whether it is an i-process. -/
def tableIds (table : Fin n → PcbInit) : Fin n → ℤ × Bool :=
  fun p => ((table p).pid, (table p).isIProcess)

theorem kGetProcess_tableIds {table : Fin n → PcbInit} {S : Sched n}
    (h : S.ids = tableIds table) (pid : ℤ) : S.kGetProcess pid = getProcess table pid := by
  have hpid : ∀ p, (S.pTable p).pid = (table p).pid := fun p => congrArg Prod.fst (congrFun h p)
  simp only [Sched.kGetProcess, getProcess, hpid]

theorem getProcess_pid {table : Fin n → PcbInit} {pid : ℤ} {p : Fin n}
    (h : getProcess table pid = some p) : (table p).pid = pid := by
  simpa using List.find?_some h

theorem getProcess_isSome (table : Fin n → PcbInit) (p : Fin n) :
    (getProcess table (table p).pid).isSome = true :=
  List.find?_isSome.2 ⟨p, List.mem_finRange p, by simp⟩

namespace Kernel

variable {table : Fin n → PcbInit} {s s' t t' : Kernel n} {l : Label} {a : Act n}
  {L L' : Loc n → List EnvPtr}

/-- The envelopes are where `L` says, and the i-processes are set apart from the others. -/
structure Accounts (table : Fin n → PcbInit) (s : Kernel n) (L : Loc n → List EnvPtr) : Prop where
  ids : s.sched.ids = tableIds table
  regular : s.sched.Regular
  keeps : s.ipc.Keeps (s.sched.kGetProcess timerIProcessPid) L

theorem worker_ne {p : Fin n} (hids : s.sched.ids = tableIds table) (hregular : s.sched.Regular)
    (hi : (table p).isIProcess = true) (hint : s.sched.interruptedProcess = none)
    (htimer : l.actor = .timer → (table p).pid ≠ timerIProcessPid)
    (huart : l.actor = .uart → (table p).pid ≠ uartIProcessPid) : s.worker l ≠ some p := by
  intro hw
  cases hactor : l.actor with
  | timer =>
    rw [Label.worker_timer hactor, kGetProcess_tableIds hids] at hw
    exact htimer hactor (getProcess_pid hw)
  | uart =>
    rw [Label.worker_uart hactor, kGetProcess_tableIds hids] at hw
    exact huart hactor (getProcess_pid hw)
  | caller given filled dest =>
    -- The running process is not an i-process.
    rw [Label.worker_caller hactor] at hw
    have hrun : p ∈ s.sched.running := by
      rw [Sched.running, hint, hw]
      rfl
    have hp := hregular.running p hrun
    rw [hids, tableIds, hi] at hp
    contradiction

/-- An act sets the i-processes apart, and makes no process wait but the one it blocks. -/
theorem act_frame (h : t.sched.Regular) (hact : t.act a = some t') :
    t'.sched.Regular ∧
      Sched.Frame (fun p => a = .sched (.blockReceive p)) t.sched t'.sched := by
  cases a with
  | ipc m =>
    obtain ⟨-, hwake, -⟩ := act_ipc hact
    cases hm : m.wakeUp with
    | none =>
      rw [hm] at hwake
      exact Option.some.inj hwake ▸ ⟨h, .same rfl rfl⟩
    | some w =>
      rw [hm] at hwake
      obtain ⟨h', hf⟩ := h.move hwake
      refine ⟨h', hf.mono fun p hp => ?_⟩
      subst hp
      exact (IpcMove.wakeUp_isWake hm).elim
  | sched m =>
    obtain ⟨S, hmove, rfl⟩ := Option.map_eq_some_iff.1 hact
    obtain ⟨h', hf⟩ := h.move hmove
    exact ⟨h', hf.mono fun p hp => congrArg Act.sched hp⟩
  | uart uart => cases hact; exact ⟨h, .same rfl rfl⟩

/-- In the step with label `l` from `s`, the act `a` takes the kernel from `t` to `t'`, and the
envelopes from `L` to `L'`. -/
structure Acting (table : Fin n → PcbInit) (s : Kernel n) (l : Label) (t : Kernel n) (a : Act n)
    (t' : Kernel n) (L L' : Loc n → List EnvPtr) : Prop where
  ids : s.sched.ids = tableIds table
  owning : Owning s l
  before : t.Accounts table L
  after : t'.Accounts table L'
  transfer : a.Transfer L L'
  does : l.Does s t a
  act : t.act a = some t'

theorem Accounts.act (h : t.Accounts table L) (hids : s.sched.ids = tableIds table)
    (hown : Owning s l) (hdoes : l.Does s t a) (hact : t.act a = some t') :
    ∃ L', Acting table s l t a t' L L' := by
  obtain ⟨hregular, hframe⟩ := act_frame h.regular hact
  have hids' := hframe.ids.trans h.ids
  have hkeeps : t.ipc.Keeps (t'.sched.kGetProcess timerIProcessPid) L := by
    rw [Sched.kGetProcess_ids hframe.ids]
    exact h.keeps
  suffices h' : ∃ L', a.Transfer L L' ∧ t'.Accounts table L' by
    obtain ⟨L', htransfer, hafter⟩ := h'
    exact ⟨L', hids, hown, h, hafter, htransfer, hdoes, hact⟩
  cases a with
  | ipc m =>
    obtain ⟨hipc, -, -⟩ := act_ipc hact
    have hproper := hdoes.proper hown (h.ids.trans hids.symm)
    rw [← Sched.kGetProcess_ids hframe.ids] at hproper
    obtain ⟨L', htransfer, hkeeps'⟩ := hkeeps.move hproper hipc
    exact ⟨L', htransfer, hids', hregular, hkeeps'⟩
  | sched m =>
    obtain ⟨S, -, rfl⟩ := Option.map_eq_some_iff.1 hact
    exact ⟨L, rfl, hids', hregular, hkeeps⟩
  | uart uart => cases hact; exact ⟨L, rfl, hids', hregular, hkeeps⟩

section Acting

variable {m : IpcMove n}

theorem Acting.proper (h : Acting table s l t (.ipc m) t' L L') :
    m.Proper (t.sched.kGetProcess timerIProcessPid) t.ipc :=
  h.does.proper h.owning (h.before.ids.trans h.ids.symm)

theorem Acting.effect (h : Acting table s l t (.ipc m) t' L L') : t.ipc.Effect m t'.ipc :=
  h.before.keeps.effect h.proper (act_ipc h.act).1

theorem Acting.ipc_eq (h : Acting table s l t a t' L L') (ha : ∀ m, a ≠ .ipc m) :
    t'.ipc = t.ipc ∧ L' = L := by
  cases a with
  | ipc m => exact absurd rfl (ha m)
  | sched m =>
    obtain ⟨S, -, ht'⟩ := Option.map_eq_some_iff.1 h.act
    exact ⟨(congrArg Kernel.ipc ht').symm, h.transfer⟩
  | uart uart => exact ⟨(congrArg Kernel.ipc (Option.some.inj h.act)).symm, h.transfer⟩

end Acting

/-! ## Steps and runs -/

/-- What every act of an owning step keeps holds wherever its acts lead to. -/
theorem Accounts.acts {I : Kernel n → (Loc n → List EnvPtr) → Prop} (h : s.Accounts table L)
    (hI : I s L) (hown : Owning s l)
    (hact : ∀ t a t' L L', Acting table s l t a t' L L' → I t L → I t' L')
    (hreach : Reach Kernel.act (· = s) (l.Does s) t) : ∃ L', t.Accounts table L' ∧ I t L' := by
  refine hreach.invariant (I := fun t => ∃ L, t.Accounts table L ∧ I t L) ?_ ?_
  · intro t ht
    exact ht ▸ ⟨L, h, hI⟩
  · intro t a t' _ ⟨L₁, ht, hIt⟩ hdoes htt'
    obtain ⟨L', hacting⟩ := ht.act h.ids hown hdoes htt'
    exact ⟨L', hacting.after, hact t a t' L₁ L' hacting hIt⟩

theorem Accounts.step {I : Kernel n → (Loc n → List EnvPtr) → Prop} (h : s.Accounts table L)
    (hI : I s L) (hint : s.sched.interruptedProcess = none) (hown : Owning s l)
    (hact : ∀ t a t' L L', Acting table s l t a t' L L' → I t L → I t' L')
    (hstep : s.step l = some s') :
    s'.sched.interruptedProcess = none ∧ ∃ L', s'.Accounts table L' ∧ I s' L' := by
  obtain ⟨hreach, hint'⟩ := step_acts hint hstep
  exact ⟨hint', h.acts hI hown hact hreach⟩

theorem Booted.parts (h : Booted table s) : ∃ (ram : Ram n) (sched₀ : Sched n),
    Ipc.initIpc ram.env ram.traces = some s.ipc ∧
      Sched.initProcesses ram.pTable table = some sched₀ ∧
      sched₀.firstDispatch = some s.sched ∧ s.uart = initUart ram.uart := by
  obtain ⟨ram, hinit⟩ := h
  unfold kInit at hinit
  obtain ⟨s₀, hboot, hinit⟩ := Option.bind_eq_some_iff.1 hinit
  obtain ⟨sched, hfirst, hinit⟩ := Option.bind_eq_some_iff.1 hinit
  cases hinit
  unfold kInitBoot at hboot
  obtain ⟨ipc, hipc, hboot⟩ := Option.bind_eq_some_iff.1 hboot
  obtain ⟨sched₀, hsched, hboot⟩ := Option.bind_eq_some_iff.1 hboot
  cases hboot
  exact ⟨ram, sched₀, hipc, hsched, hfirst, rfl⟩

theorem Booted.filled (h : Booted table s) : Ipc.Filled s.ipc Ipc.allEnvs := by
  obtain ⟨ram, sched₀, hipc, -⟩ := h.parts
  exact Ipc.initIpc_filled hipc

theorem Booted.accounts (h : Booted table s) :
    s.sched.interruptedProcess = none ∧ s.Accounts table Ipc.bootPlaces := by
  obtain ⟨ram, sched₀, hipc, hsched, hfirst, -⟩ := h.parts
  obtain ⟨hregular, hids⟩ := Sched.regular_boot hsched hfirst
  refine ⟨?_, hids, hregular, Ipc.initIpc_keeps hipc⟩
  obtain ⟨ram', hinit⟩ := h
  obtain ⟨A, -, hmodels⟩ := kInit_models hinit
  exact hmodels.interrupted

/-- What holds at boot and is kept by every act of every step holds in every reachable state. -/
theorem Accounts.reach {ok : Kernel n → Label → Prop}
    {I : Kernel n → (Loc n → List EnvPtr) → Prop} (hs : Reach Kernel.step (Booted table) ok s)
    (hok : ∀ s l, ok s l → Owning s l) (hboot : ∀ s, Booted table s → I s Ipc.bootPlaces)
    (hact : ∀ s l t a t' L L', ok s l → Acting table s l t a t' L L' → I t L → I t' L') :
    s.sched.interruptedProcess = none ∧ ∃ L, s.Accounts table L ∧ I s L := by
  refine hs.invariant (I := fun s => s.sched.interruptedProcess = none ∧
    ∃ L, s.Accounts table L ∧ I s L) ?_ ?_
  · intro s hs
    exact ⟨(Booted.accounts hs).1, _, (Booted.accounts hs).2, hboot s hs⟩
  · rintro s l s' - ⟨hint, L, h, hI⟩ hl hstep
    exact h.step hI hint (hok s l hl) (fun t a t' L L' => hact s l t a t' L L' hl) hstep

end Kernel

/-! ## Carefulness -/

/-- The step is owning, and only fills in envelopes that are held. -/
def Careful (s : Kernel n) (l : Label) : Prop :=
  Owning s l ∧ ∀ env ∈ l.actor.filled?, ∃ p, env ∈ heldBy s.ipc.log p

instance (s : Kernel n) (l : Label) : Decidable (Careful s l) := by
  unfold Careful
  infer_instance

theorem Careful.fills {s t : Kernel n} {l : Label} {env : EnvPtr} {letter : Letter}
    (h : Careful s l) (hdoes : l.Does s t (.ipc (.setLetter env letter))) :
    ∃ p, env ∈ heldBy t.ipc.log p := by
  rcases hdoes.fills h.1 with hheld | ⟨henv, hlog, -⟩
  · exact hheld
  · rw [hlog]
    exact h.2 env henv

/-! ## Conservation -/

/-- Along every run in which the processes only give away what they hold, each envelope is in
exactly one place, exactly once: a free queue of its kind, a mailbox, the timeout list or the hands
of a process. The lists are what the links say, and `env_owned` counts them. -/
theorem envelope_conservation {table : Fin n → PcbInit} {s : Kernel n}
    (hs : Reach Kernel.step (Kernel.Booted table) Owning s) :
    ∃ L : Loc n → List EnvPtr, s.ipc.Keeps (s.sched.kGetProcess timerIProcessPid) L := by
  obtain ⟨-, L, h, -⟩ := Kernel.Accounts.reach (I := fun _ _ => True) hs (fun _ _ => id)
    (fun _ _ => trivial) fun _ _ _ _ _ _ _ _ _ _ => trivial
  exact ⟨L, h.keeps⟩

/-- The CCI has an envelope sent back after two ticks, and releases it. -/
def delayed : List Label := [
  .call .requestMsgEnv,
  .call (.requestDelay 2 7 (some (.envPool 0))),
  .irqTimer fun _ => some 0,
  .irqTimer fun _ => some 0,
  .irqTimer fun _ => some 0,
  .call .receiveMessage,
  .call (.releaseMsgEnv (some (.envPool 0)))]

theorem envelope_conservation_itable :
    ∃ s, ((Kernel.kInit Kernel.Ram.zero itable).bind fun s =>
        exec (guarded Kernel.step Owning) s delayed) = some s ∧
      ∃ L : Loc 9 → List EnvPtr, s.ipc.Keeps (s.sched.kGetProcess timerIProcessPid) L := by
  have hrun : ((Kernel.kInit Kernel.Ram.zero itable).bind fun s =>
      exec (guarded Kernel.step Owning) s delayed).isSome = true := by
    decide +kernel
  obtain ⟨s, hs⟩ := Option.isSome_iff_exists.1 hrun
  obtain ⟨s₀, hinit, hexec⟩ := Option.bind_eq_some_iff.1 hs
  exact ⟨s, hs, envelope_conservation ((Reach.init ⟨_, hinit⟩).guarded hexec)⟩

end Rtx.Coldfire
