import Rtx.Coldfire.UartCases
import Rtx.Coldfire.Delivery

/-!
# The console output stream

What the transmit branch has written, followed by what is left of the text in `OutBuffer`, is the
texts of the envelopes that the UART has received (`Streaming`). As an envelope is received once,
in the order of the sends and as it was sent, the output is a prefix of the texts that were sent
(`console_stream`). `Displayed` is the grammar of the log of the UART.
-/

namespace Rtx.Coldfire

open Transition

variable {n : ℕ} {table : Fin n → PcbInit} {u : Fin n}

/-- `u` is the UART of the table, an i-process. -/
def UartIs (table : Fin n → PcbInit) (u : Fin n) : Prop :=
  getProcess table uartIProcessPid = some u ∧ (table u).isIProcess = true

/-! ## The log of the UART -/

/-- Another process than `u` does this, and it does not copy a text. -/
def Event.Foreign (u : Fin n) : Event n → Prop
  | .requested p _ | .released p _ | .sent p _ _ _ | .received p _ _ | .delayed p _ _ _
  | .expired p _ _ => p ≠ u
  | .copied .. => False

/-- What `u` does with envelopes. One that it receives is copied, and at once released or returned
as an acknowledgement, by its type. One that it requests is sent as console input, if at all. -/
inductive Displayed (u : Fin n) : List (Event n) → Prop
  | nil : Displayed u []
  | released {env : EnvPtr} {letter : Letter} {log : List (Event n)} (h : Displayed u log)
      (htype : letter.msgType = consoleOutput) :
      Displayed u (.released u env :: .copied env letter.text :: .received u env letter :: log)
  | returned {env : EnvPtr} {letter : Letter} {q : Fin n} {log : List (Event n)}
      (h : Displayed u log) (htype : letter.msgType ≠ consoleOutput) :
      Displayed u (.sent u q env (letter.ack uartIProcessPid) :: .copied env letter.text ::
        .received u env letter :: log)
  | requested {env : EnvPtr} {log : List (Event n)} (h : Displayed u log) :
      Displayed u (.requested u env :: log)
  | input {env : EnvPtr} {letter : Letter} {q : Fin n} {log : List (Event n)}
      (h : Displayed u log) (htype : letter.msgType = consoleInput) :
      Displayed u (.sent u q env letter :: .requested u env :: log)
  | other {ev : Event n} {log : List (Event n)} (h : Displayed u log) (hev : ev.Foreign u) :
      Displayed u (ev :: log)

namespace Kernel

variable {s s' t t' : Kernel n} {l : Label} {a : Act n} {L L' : Loc n → List EnvPtr}
  {env : EnvPtr} {letter : Letter} {text : List UInt8} {log : List (Event n)}

theorem PickUpLog.received (h : PickUpLog s u env letter log) :
    receivedBy log u = receivedBy s.ipc.log u ++ [(env, letter)] := by
  cases h <;> simp [Event.receivedBy?]

theorem PickUpLog.mem (h : PickUpLog s u env letter log) : .received u env letter ∈ log := by
  cases h <;> simp

theorem InputLog.received (h : InputLog s u log) :
    receivedBy log u = receivedBy s.ipc.log u := by
  cases h <;> simp [Event.receivedBy?]

/-- An envelope from a process of the table is not lost. -/
theorem PickUpLog.displayed (h : PickUpLog s u env letter log) (hs : Displayed u s.ipc.log)
    (hpid : (s.sched.pTable u).pid = uartIProcessPid)
    (hfound : (s.sched.kGetProcess letter.sendPid).isSome) : Displayed u log := by
  cases h with
  | released htype => exact .released hs htype
  | returned htype => exact hpid ▸ .returned hs htype
  | lost hlost => rw [hlost] at hfound; contradiction

theorem InputLog.displayed (h : InputLog s u log) (hs : Displayed u s.ipc.log) :
    Displayed u log := by
  cases h with
  | quiet => exact hs
  | requested => exact .requested hs
  | sent htype => exact .input hs htype

/-! ## The stream -/

/-- The text that is printed is in `OutBuffer`, and all that was received was written, but for the
rest of it. -/
structure Streaming (u : Fin n) (s : Kernel n) (text : List UInt8) : Prop where
  printing : s.uart.outputPrintChar = true →
    HoldsText s.uart.outBuffer text ∧ s.uart.outputIndex ≤ text.length
  idle : s.uart.outputPrintChar = false → text = [] ∧ s.uart.outputIndex = 0
  stream : (receivedBy s.ipc.log u).flatMap (·.2.text) =
    s.uart.transmitted.reverse ++ text.drop s.uart.outputIndex

/-- The output variables are the same. -/
structure SameOutput (uart uart' : Uart) : Prop where
  printing : uart'.outputPrintChar = uart.outputPrintChar
  index : uart'.outputIndex = uart.outputIndex
  buffer : uart'.outBuffer = uart.outBuffer
  transmitted : uart'.transmitted = uart.transmitted

theorem Streaming.congr (h : Streaming u s text) (huart : SameOutput s.uart s'.uart)
    (hlog : receivedBy s'.ipc.log u = receivedBy s.ipc.log u) : Streaming u s' text := by
  obtain ⟨hprinting, hidle, hstream⟩ := h
  refine ⟨fun hp => ?_, fun hp => ?_, ?_⟩
  · rw [huart.buffer, huart.index]
    exact hprinting (huart.printing ▸ hp)
  · rw [huart.index]
    exact hidle (huart.printing ▸ hp)
  · rw [hlog, huart.transmitted, huart.index]
    exact hstream

/-- The next text is picked up where nothing is left of the last. -/
theorem Streaming.pickUp (h : Streaming u s text) (hidle : s.uart.outputPrintChar = false)
    (hpick : PicksUp s u env letter s') : Streaming u s' letter.text := by
  obtain ⟨out, hholds, huart⟩ := hpick.uart
  obtain ⟨rfl, hindex⟩ := h.idle hidle
  have hstream := h.stream
  rw [List.drop_nil, List.append_nil] at hstream
  refine ⟨fun _ => ?_, fun hp => ?_, ?_⟩
  · rw [huart]
    exact ⟨hholds, by rw [hindex]; exact Nat.zero_le _⟩
  · rw [huart] at hp
    contradiction
  · rw [hpick.log.received, List.flatMap_append, hstream, huart]
    simp [hindex]

theorem Streaming.printed (h : Streaming u s text) (hprint : s.uart.outputPrintChar = true)
    (hchar : s.uart.outBuffer s.uart.outputIndex = 0) : Streaming u s.printed [] := by
  obtain ⟨hholds, hindex⟩ := h.printing hprint
  have hend : s.uart.outputIndex = text.length := by
    rcases Nat.lt_or_eq_of_le hindex with hlt | heq
    · obtain ⟨hsame, hne⟩ := hholds.char _ hlt
      exact absurd (hsame.symm.trans hchar) hne
    · exact heq
  have hstream := h.stream
  rw [hend, List.drop_length, List.append_nil] at hstream
  refine ⟨nofun, fun _ => ⟨rfl, rfl⟩, ?_⟩
  change (receivedBy s.ipc.log u).flatMap _ = s.uart.transmitted.reverse ++ List.drop 0 []
  rw [hstream, List.drop_zero, List.append_nil]

theorem Streaming.write (h : Streaming u s text) (hprint : s.uart.outputPrintChar = true)
    (hchar : s.uart.outBuffer s.uart.outputIndex ≠ 0) : Streaming u s.uartWrite text := by
  obtain ⟨hholds, hindex⟩ := h.printing hprint
  have hlt : s.uart.outputIndex < text.length := by
    refine Nat.lt_of_le_of_ne hindex fun heq => hchar ?_
    rw [heq]
    exact hholds.nul
  have hstream := h.stream
  rw [List.drop_eq_getElem_cons hlt, ← (hholds.char _ hlt).1] at hstream
  refine ⟨fun _ => ⟨hholds, hlt⟩, fun hp => ?_, ?_⟩
  · rw [show s.uartWrite.uart.outputPrintChar = s.uart.outputPrintChar from rfl, hprint] at hp
    contradiction
  · change (receivedBy s.ipc.log u).flatMap _ =
      (s.uart.outBuffer s.uart.outputIndex :: s.uart.transmitted).reverse ++
        text.drop (s.uart.outputIndex + 1)
    rw [hstream, List.reverse_cons, List.append_assoc]
    rfl

/-! ## Interrupts of the UART -/

/-- The state of the console between two steps. -/
def Screen (u : Fin n) (s : Kernel n) : Prop :=
  Displayed u s.ipc.log ∧ ∃ text, Streaming u s text

/-- Every envelope that `u` received comes from a process of the table. -/
def Answerable (table : Fin n → PcbInit) (u : Fin n) (log : List (Event n)) : Prop :=
  ∀ env letter, .received u env letter ∈ log → (getProcess table letter.sendPid).isSome

theorem Screen.congr (h : Screen u s) (huart : SameOutput s.uart s'.uart)
    (hipc : s'.ipc = s.ipc) : Screen u s' := by
  obtain ⟨hdisplayed, text, hstream⟩ := h
  exact ⟨hipc ▸ hdisplayed, text, hstream.congr huart (by rw [hipc])⟩

theorem PicksUp.screen (h : PicksUp s u env letter s') (hs : Displayed u s.ipc.log)
    (hstream : Streaming u s text) (hidle : s.uart.outputPrintChar = false)
    (hpid : (s.sched.pTable u).pid = uartIProcessPid) (hids : s.sched.ids = tableIds table)
    (hanswer : Answerable table u s'.ipc.log) : Screen u s' := by
  have hfound : (s.sched.kGetProcess letter.sendPid).isSome := by
    rw [kGetProcess_tableIds hids]
    exact hanswer env letter h.log.mem
  exact ⟨h.log.displayed hs hpid hfound, _, hstream.pickUp hidle h⟩

theorem PickUpLog.suffix (h : PickUpLog s u env letter log) : s.ipc.log <:+ log := by
  cases h with
  | released => exact ⟨[_, _, _], rfl⟩
  | returned => exact ⟨[_, _, _], rfl⟩
  | lost => exact ⟨[_, _], rfl⟩

theorem Prints.suffix (h : Prints s u s') : s.ipc.log <:+ s'.ipc.log := by
  cases h with
  | next _ _ hpick => exact hpick.log.suffix
  | _ => exact List.suffix_rfl

theorem Prints.screen (h : Prints s u s') (hs : Screen u s)
    (hpid : (s.sched.pTable u).pid = uartIProcessPid) (hids : s.sched.ids = tableIds table)
    (hanswer : Answerable table u s'.ipc.log) : Screen u s' := by
  obtain ⟨hdisplayed, text, hstream⟩ := hs
  cases h with
  | idle => exact ⟨hdisplayed, text, hstream⟩
  | write hprint hchar => exact ⟨hdisplayed, text, hstream.write hprint hchar⟩
  | done hprint hchar =>
    exact ⟨hdisplayed, [], (hstream.printed hprint hchar).congr ⟨rfl, rfl, rfl, rfl⟩ rfl⟩
  | next hprint hchar hpick =>
    exact hpick.screen hdisplayed (hstream.printed hprint hchar) rfl hpid hids hanswer

theorem Works.ids {actor : Actor} {b : Kernel n} {p : Fin n} (h : Works actor b p t t')
    (ht : t.sched.Regular) : t'.sched.Regular ∧ t'.sched.ids = t.sched.ids := by
  refine Reach.invariant (I := fun t' => t'.sched.Regular ∧ t'.sched.ids = t.sched.ids) h ?_ ?_
  · intro t' ht'
    subst ht'
    exact ⟨ht, rfl⟩
  · intro t₁ a t₂ _ hI _ hact
    obtain ⟨hregular, hframe⟩ := act_frame hI.1 hact
    exact ⟨hregular, hframe.ids.trans hI.2⟩

theorem uartTransmit_screen (hs : Screen u s) (hregular : s.sched.Regular)
    (hids : s.sched.ids = tableIds table) (hu : UartIs table u)
    (hcur : s.sched.currentProcess = some u) (h : s.uartTransmit = some s')
    (hanswer : Answerable table u s'.ipc.log) : Screen u s' := by
  obtain ⟨t, hidle, hprint⟩ := Option.bind_eq_some_iff.1 h
  have hworks : Works .uart s u s t := uartIdle_works hcur hidle
  have hcur' : t.sched.currentProcess = some u := hworks.pointers.1.trans hcur
  have hids' : t.sched.ids = tableIds table := (hworks.ids hregular).2.trans hids
  have hpid : ∀ {S : Sched n}, S.ids = tableIds table → (S.pTable u).pid = uartIProcessPid :=
    fun hS => (congrArg Prod.fst (congrFun hS u)).trans (getProcess_pid hu.1)
  have hprints := uartPrint_cases hcur' hprint
  refine hprints.screen ?_ (hpid hids') hids' hanswer
  -- What is picked up first is answerable too.
  rcases uartIdle_cases hcur hidle with rfl | ⟨-, hnone, env, letter, hpick⟩
  · exact hs
  · obtain ⟨hdisplayed, text, hstream⟩ := hs
    refine hpick.screen hdisplayed hstream hnone (hpid hids) hids fun env letter hreceived => ?_
    exact hanswer env letter (hprints.suffix.subset hreceived)

theorem Inputs.screen {imr : UInt8} (h : Inputs s u imr s') (hs : Screen u s) : Screen u s' := by
  obtain ⟨hdisplayed, text, hstream⟩ := hs
  obtain ⟨inputIndex, inBuffer, huart⟩ := h.uart
  refine ⟨h.log.displayed hdisplayed, text, hstream.congr ?_ h.log.received⟩
  rw [huart]
  exact ⟨rfl, rfl, rfl, rfl⟩

theorem irqUart_cases {ucsr rd : UInt8} (hu : s.sched.kGetProcess uartIProcessPid = some u)
    (hint : s.sched.interruptedProcess = none) (h : s.step (.irqUart ucsr rd) = some s') :
    ∃ t t', s.act (.sched (.enterIsr uartIProcessPid)) = some t ∧
      t.sched.currentProcess = some u ∧ t.ipc = s.ipc ∧ t.uart = s.uart ∧
      t.uartIProcess ucsr rd = some t' ∧ s'.ipc = t'.ipc ∧ s'.uart = t'.uart := by
  obtain ⟨cur, context, hrun, ⟨o, htrap, -⟩ | ⟨-, hbetween⟩⟩ := step_cases h
  · contradiction
  have hcur := (running_eq_some.1 hrun).1
  obtain ⟨t', hran, rfl⟩ := Option.map_eq_some_iff.1 hbetween
  have henter : s.act (.sched (.enterIsr uartIProcessPid)) =
      some { s with sched := s.sched.enterIsr uartIProcessPid } := by
    simp [act, Sched.move, hcur, hint]
  simp only [Sched.enterIsr, hu] at hran henter
  exact ⟨_, t', henter, rfl, rfl, rfl, hran, rfl, rfl⟩

/-- An interrupt of the UART keeps the screen, if what it received can be answered. -/
theorem irqUart_screen {ucsr rd : UInt8} (hs : Screen u s) (haccounts : s.Accounts table L)
    (hu : UartIs table u) (hint : s.sched.interruptedProcess = none)
    (hstep : s.step (.irqUart ucsr rd) = some s') (hanswer : Answerable table u s'.ipc.log) :
    Screen u s' := by
  have hfound : s.sched.kGetProcess uartIProcessPid = some u :=
    (kGetProcess_tableIds haccounts.ids _).trans hu.1
  obtain ⟨t, t', henter, hcur, hipc, huart, hran, hipc', huart'⟩ := irqUart_cases hfound hint hstep
  obtain ⟨hregular, hframe⟩ := act_frame haccounts.regular henter
  have hids : t.sched.ids = tableIds table := hframe.ids.trans haccounts.ids
  have hs : Screen u t := hs.congr (huart ▸ ⟨rfl, rfl, rfl, rfl⟩) hipc
  suffices hs' : Screen u t' by exact hs'.congr (huart' ▸ ⟨rfl, rfl, rfl, rfl⟩) hipc'
  unfold uartIProcess at hran
  split at hran
  · refine (uartReceive_cases hcur ?_ hran).screen hs
    rw [kGetProcess_tableIds hids]
    exact hu.1
  split at hran
  · exact uartTransmit_screen hs hregular hids hu hcur hran (hipc' ▸ hanswer)
  · cases hran
    exact hs

/-! ## Steps of the others -/

theorem Screen.act (h : Screen u t) (hactor : l.actor ≠ .uart) (hworker : s.worker l ≠ some u)
    (hact : Acting table s l t a t' L L') : Screen u t' := by
  obtain ⟨hdisplayed, text, hstream⟩ := h
  cases a with
  | ipc m =>
    have hmover : ∀ p, m.mover? = some p → p ≠ u := by
      rintro p hm rfl
      exact hact.does.mover_ne hworker hm
    have hforeign : ∀ ev ∈ m.event? t.ipc, ev.Foreign u := by
      intro ev hev
      cases m with
      | copy env text =>
        obtain ⟨p, -, -, hallows⟩ := hact.does
        cases hl : l.actor with
        | uart => exact absurd hl hactor
        | _ => rw [hl] at hallows; exact hallows.elim
      | insert p nullRead env =>
        obtain ⟨delay, -, rfl⟩ := Option.map_eq_some_iff.1 hev
        exact hmover p rfl
      | write | setLetter | tick => contradiction
      | _ => cases hev; exact hmover _ rfl
    have hlog := hact.effect.log
    have huart := (act_ipc hact.act).2.2
    refine ⟨?_, text, hstream.congr (huart ▸ ⟨rfl, rfl, rfl, rfl⟩) ?_⟩
    · rw [hlog]
      cases hev : m.event? t.ipc with
      | none => exact hdisplayed
      | some ev => exact .other hdisplayed (hforeign ev hev)
    · rw [hlog]
      cases hev : m.event? t.ipc with
      | none => rfl
      | some ev =>
        have hno : ev.receivedBy? u = none := by
          cases ev with
          | received p env letter => exact if_neg (hforeign _ hev)
          | _ => rfl
        simp [hno]
  | sched m =>
    obtain ⟨S, -, rfl⟩ := Option.map_eq_some_iff.1 hact.act
    exact ⟨hdisplayed, text, hstream.congr ⟨rfl, rfl, rfl, rfl⟩ rfl⟩
  | uart uart =>
    cases hact.act
    refine ⟨hdisplayed, text, hstream.congr ?_ rfl⟩
    rcases hact.does with hsets | ⟨-, rfl⟩
    · cases hl : l.actor with
      | caller given filled dest =>
        rw [hl] at hsets
        rw [hsets.2]
        exact ⟨rfl, rfl, rfl, rfl⟩
      | timer => rw [hl] at hsets; exact hsets.elim
      | uart => exact absurd hl hactor
    · exact ⟨rfl, rfl, rfl, rfl⟩

/-! ## Runs -/

/-- What was received was sent by a process of the table. -/
theorem answerable (hids : s.sched.ids = tableIds table)
    (hdelivers : s.ipc.Delivers (fun x => x) L) (hstamped : s.Stamped) :
    Answerable table u s.ipc.log := by
  intro env letter hreceived
  have hmem : (env, letter) ∈ receivedBy s.ipc.log u :=
    List.mem_filterMap.2 ⟨_, List.mem_reverse.2 hreceived, if_pos rfl⟩
  have hsent : (env, letter) ∈ sentTo s.ipc.log u := by
    have h := hdelivers u
    simp only [List.map_id'] at h
    rw [h]
    exact List.mem_append_left _ hmem
  obtain ⟨ev, hev, hsentTo⟩ := List.mem_filterMap.1 hsent
  cases ev with
  | sent p q env' letter' =>
    obtain ⟨-, heq⟩ := Option.ite_none_right_eq_some.1 hsentTo
    cases heq
    have hpid := (hstamped p q env letter (List.mem_reverse.1 hev)).1
    rw [hpid, show (s.sched.pTable p).pid = (table p).pid from congrArg Prod.fst (congrFun hids p)]
    exact getProcess_isSome table p
  | _ => contradiction

/-- What holds of the console between two steps. -/
structure Consoled (u : Fin n) (s : Kernel n) (L : Loc n → List EnvPtr) : Prop where
  delivers : s.ipc.Delivers (fun x => x) L
  stamped : s.Stamped
  screen : Screen u s

/-- Channels are kept, with all that is in the envelopes, if those are only filled in while they are
held. -/
theorem Delivers.careful (h : t.ipc.Delivers (fun x => x) L) (hcareful : Careful s l)
    (hact : Acting table s l t a t' L L') : t'.ipc.Delivers (fun x => x) L' := by
  refine Delivers.act h hact ?_
  rintro m rfl env letter rfl
  exact .inl (hcareful.fills hact.does)

theorem Consoled.step (h : s.Consoled u L) (haccounts : s.Accounts table L) (hu : UartIs table u)
    (hint : s.sched.interruptedProcess = none) (hcareful : Careful s l)
    (hstep : s.step l = some s') : s'.sched.interruptedProcess = none ∧
      ∃ L', s'.Accounts table L' ∧ s'.Consoled u L' := by
  by_cases hl : l.actor = .uart
  · obtain ⟨hint', L', haccounts', hdelivers, hstamped⟩ := haccounts.step
      (I := fun t L => t.ipc.Delivers (fun x => x) L ∧ t.Stamped) ⟨h.delivers, h.stamped⟩ hint
      hcareful.1 (fun t a t' L L' hact ⟨hdelivers, hstamped⟩ =>
        ⟨Delivers.careful hdelivers hcareful hact, hstamped.act hact⟩) hstep
    refine ⟨hint', L', haccounts', hdelivers, hstamped, ?_⟩
    cases l with
    | irqUart ucsr rd =>
      exact irqUart_screen h.screen haccounts hu hint hstep
        (answerable haccounts'.ids hdelivers hstamped)
    | call c => cases c <;> contradiction
    | _ => contradiction
  · have hworker : s.worker l ≠ some u := by
      refine worker_ne haccounts.ids haccounts.regular hu.2 hint (fun _ => ?_)
        fun hactor => absurd hactor hl
      rw [getProcess_pid hu.1]
      decide
    refine haccounts.step h hint hcareful.1 ?_ hstep
    intro t a t' L L' hact ht
    exact ⟨Delivers.careful ht.delivers hcareful hact, ht.stamped.act hact,
      ht.screen.act hl hworker hact⟩

theorem Booted.consoled (h : Booted table s) : s.Consoled u Ipc.bootPlaces := by
  have hlog := h.filled.log
  obtain ⟨ram, -, -, -, -, huart⟩ := h.parts
  refine ⟨h.delivers _, fun p q env letter hsent => ?_, ?_, [], ?_, ?_, ?_⟩
  · rw [hlog] at hsent
    contradiction
  · rw [hlog]
    exact .nil
  · rw [huart]
    nofun
  · rw [huart]
    exact fun _ => ⟨rfl, rfl⟩
  · rw [hlog, huart]
    rfl

theorem Consoled.reach (hu : UartIs table u)
    (hs : Reach Kernel.step (Booted table) Careful s) :
    s.sched.interruptedProcess = none ∧ ∃ L, s.Accounts table L ∧ s.Consoled u L := by
  refine hs.invariant (I := fun s => s.sched.interruptedProcess = none ∧
    ∃ L, s.Accounts table L ∧ s.Consoled u L) ?_ ?_
  · intro s hs
    exact ⟨hs.accounts.1, _, hs.accounts.2, hs.consoled⟩
  · rintro s l s' - ⟨hint, L, haccounts, hconsoled⟩ hcareful hstep
    exact hconsoled.step haccounts hu hint hcareful hstep

theorem sendConsoleChars_sent {requestAck : Bool} (haccounts : s.Accounts table L)
    (hu : UartIs table u) (hmsg : (s.ipc.env env).msg.isSome)
    (hstep : s.step (.call (.sendConsoleChars (some env) requestAck)) = some s') :
    ∃ cur letter, s'.ipc.log = .sent cur u env letter :: s.ipc.log ∧
      letter.text = (s.ipc.letter env).text ∧
      letter.msgType = if requestAck then consoleOutputRequestAck else consoleOutput := by
  obtain ⟨cur, context, hrun, ⟨o, htrap, hleave⟩ | ⟨-, hbetween⟩⟩ := step_cases hstep
  · obtain ⟨-, htrap⟩ := Option.ite_none_right_eq_some.1 htrap
    obtain ⟨⟨r, t⟩, hchars, rfl⟩ := Option.map_eq_some_iff.1 htrap
    cases hleave
    obtain ⟨⟨r', t'⟩, hsend, hret⟩ := Option.bind_eq_some_iff.1 hchars
    cases hret
    set letter : Letter := { (s.ipc.env env).toLetter with
      msgType := if requestAck then consoleOutputRequestAck else consoleOutput } with hletter
    have hself : ((s.filled env letter).ipc.env env).toLetter = letter :=
      Ipc.toLetter_setLetter_self ..
    have hfound : (s.filled env letter).sched.kGetProcess uartIProcessPid = some u :=
      (kGetProcess_tableIds haccounts.ids _).trans hu.1
    have hbody : ((s.filled env letter).ipc.env env).msg.isSome :=
      (congrArg (fun letter : Letter => letter.msg.isSome) hself).trans hmsg
    obtain ⟨cur', dest, hsends⟩ :=
      kSendMessage_sends hbody (Option.isSome_iff_exists.2 ⟨u, hfound⟩) hsend
    obtain rfl : dest = u := Option.some.inj (hsends.found.symm.trans hfound)
    refine ⟨cur', _, hsends.log, ?_, ?_⟩
    · change ((s.filled env letter).ipc.env env).toLetter.text = _
      rw [hself]
      rfl
    · exact congrArg Letter.msgType hself
  · contradiction

end Kernel

/-- Along every run in which processes only give away what they hold: the output is a prefix of the
texts that were sent to the UART, in the order of the sends; the UART receives what was sent, as it
was sent, and at once copies the text and releases the envelope or returns it to its sender; and
`k_send_console_chars` makes such a send. -/
theorem console_stream {table : Fin n → PcbInit} {u : Fin n} {s : Kernel n} (hu : UartIs table u)
    (hs : Reach Kernel.step (Kernel.Booted table) Careful s) :
    s.uart.transmitted.reverse <+: (sentTo s.ipc.log u).flatMap (·.2.text) ∧
      receivedBy s.ipc.log u <+: sentTo s.ipc.log u ∧ Displayed u s.ipc.log ∧ s.Stamped ∧
      ∀ env requestAck s', (s.ipc.env env).msg.isSome →
        s.step (.call (.sendConsoleChars (some env) requestAck)) = some s' →
        ∃ cur letter, s'.ipc.log = .sent cur u env letter :: s.ipc.log ∧
          letter.text = (s.ipc.letter env).text ∧
          letter.msgType = if requestAck then consoleOutputRequestAck else consoleOutput := by
  obtain ⟨-, L, haccounts, hconsoled⟩ := Kernel.Consoled.reach hu hs
  obtain ⟨hdisplayed, text, hstream⟩ := hconsoled.screen
  have hreceived : receivedBy s.ipc.log u <+: sentTo s.ipc.log u := by
    have h := hconsoled.delivers u
    simp only [List.map_id'] at h
    exact ⟨_, h.symm⟩
  refine ⟨?_, hreceived, hdisplayed, hconsoled.stamped, ?_⟩
  · obtain ⟨waiting, hsent⟩ := hreceived
    rw [← hsent, List.flatMap_append, hstream.stream, List.append_assoc]
    exact List.prefix_append ..
  · intro env requestAck s' hmsg hstep
    exact Kernel.sendConsoleChars_sent haccounts hu hmsg hstep

theorem itable_uart : UartIs itable 1 := ⟨by decide +kernel, rfl⟩

/-- Write a text of one character to an envelope. -/
def writeChar (env : EnvPtr) (c : UInt8) : Label :=
  .write env ⟨⟨0, 0, 0, some fun i => if i = 0 then c else 0⟩, none⟩

/-- The CCI prints a text and asks for an acknowledgement. -/
def printChar : List Label := [
  .call .requestMsgEnv,
  writeChar (.envPool 0) 97,
  .call (.sendConsoleChars (some (.envPool 0)) true),
  .irqUart 4 0,
  .irqUart 4 0]

theorem console_stream_itable :
    ∃ s, ((Kernel.kInit Kernel.Ram.zero itable).bind fun s =>
        exec (guarded Kernel.step Careful) s printChar) = some s ∧
      s.uart.transmitted = [97] ∧
      s.uart.transmitted.reverse <+: (sentTo s.ipc.log 1).flatMap (·.2.text) ∧
      receivedBy s.ipc.log 1 <+: sentTo s.ipc.log 1 ∧ Displayed 1 s.ipc.log := by
  have hrun : ((Kernel.kInit Kernel.Ram.zero itable).bind fun s =>
      exec (guarded Kernel.step Careful) s printChar).any (fun s => decide (
        s.uart.transmitted = [97])) = true := by
    decide +kernel
  obtain ⟨s, hs, hout⟩ := (Option.any_eq_true ..).1 hrun
  obtain ⟨s₀, hinit, hexec⟩ := Option.bind_eq_some_iff.1 hs
  obtain ⟨hstream, hreceived, hdisplayed, -⟩ :=
    console_stream itable_uart ((Reach.init ⟨_, hinit⟩).guarded hexec)
  exact ⟨s, hs, of_decide_eq_true hout, hstream, hreceived, hdisplayed⟩

/-- The CCI sends an envelope to the UART that is already there, in front of another one. -/
def printTwice : List Label := [
  .call .requestMsgEnv,
  .call .requestMsgEnv,
  .call .requestMsgEnv,
  writeChar (.envPool 0) 97,
  writeChar (.envPool 1) 98,
  writeChar (.envPool 2) 99,
  .call (.sendConsoleChars (some (.envPool 0)) false),
  .call (.sendConsoleChars (some (.envPool 1)) false),
  .call (.sendConsoleChars (some (.envPool 0)) false),
  .irqUart 4 0,
  .irqUart 4 0,
  .call (.sendConsoleChars (some (.envPool 2)) false),
  .irqUart 4 0]

/-- Where processes give away what they do not hold, a text is lost. -/
theorem console_stream_fails :
    ∃ s, Reach Kernel.step (Kernel.Booted itable) (fun _ _ => True) s ∧
      s.uart.pongMode = false ∧ s.uart.transmitted.reverse = [97, 99] ∧
      (sentTo s.ipc.log 1).flatMap (·.2.text) = [97, 98, 97, 99] ∧
      ¬ s.uart.transmitted.reverse <+: (sentTo s.ipc.log 1).flatMap (·.2.text) := by
  have hrun : ((Kernel.kInit Kernel.Ram.zero itable).bind fun s =>
      exec (guarded Kernel.step fun _ _ => True) s printTwice).any (fun s => decide (
        s.uart.pongMode = false ∧ s.uart.transmitted.reverse = [97, 99] ∧
        (sentTo s.ipc.log 1).flatMap (·.2.text) = [97, 98, 97, 99])) = true := by
    decide +kernel
  obtain ⟨s, hs, hfacts⟩ := (Option.any_eq_true ..).1 hrun
  obtain ⟨hpong, hout, hsent⟩ := of_decide_eq_true hfacts
  obtain ⟨s₀, hinit, hexec⟩ := Option.bind_eq_some_iff.1 hs
  refine ⟨s, (Reach.init ⟨_, hinit⟩).guarded hexec, hpong, hout, hsent, ?_⟩
  rw [hout, hsent]
  decide

end Rtx.Coldfire
