import Rtx.Coldfire.ConsoleStream

/-!
# The transmit interrupt

While there is something to print, the transmit interrupt should be enabled (`Lit`). The transmit
branch and `k_send_console_chars` keep it so. An echo does not: it disables the interrupt whatever
there is to print. So the console is never stranded exactly in the runs in which no character is
echoed while there is something to print (`never_stranded_iff`).
-/

namespace Rtx.Coldfire

open Transition

variable {n : ℕ} {table : Fin n → PcbInit} {u : Fin n}

/-! ## The condition -/

/-- The UART is printing a text, or has one in its mailbox. -/
def Printing (u : Fin n) (s : Kernel n) : Prop :=
  s.uart.outputPrintChar = true ∨ s.ipc.isEmpty (.recvMsgs u) = false

instance (u : Fin n) (s : Kernel n) : Decidable (Printing u s) := by
  unfold Printing
  infer_instance

/-- Bit 0 of `SERIAL1_IMR` is set while there is something to print. -/
def Lit (u : Fin n) (s : Kernel n) : Prop := Printing u s → s.uart.imr &&& 1 ≠ 0

/-- Processes do not send to the UART but through `k_send_console_chars`, and there are no ticks,
at which the timer might. -/
def ConsoleOnly : Label → Prop
  | .call (.sendMessage destPid _) => destPid ≠ uartIProcessPid
  | .irqTimer _ => False
  | _ => True

/-- If the step is the receipt of a character that is echoed, there is nothing to print. -/
def EchoesIdle (u : Fin n) (s : Kernel n) : Label → Prop
  | .irqUart ucsr rd => ucsr &&& 1 ≠ 0 → Kernel.Echoes s.uart rd → ¬ Printing u s
  | _ => True

instance : (l : Label) → Decidable (ConsoleOnly l)
  | .call (.sendMessage destPid _) => inferInstanceAs (Decidable (destPid ≠ uartIProcessPid))
  | .irqTimer _ => isFalse id
  | .call .receiveMessage | .call .requestMsgEnv | .call (.releaseMsgEnv _)
  | .call .releaseProcessor | .call (.requestProcessStatus _) | .call (.changePriority ..)
  | .call (.requestDelay ..) | .call (.sendConsoleChars ..) | .call (.getTraceBuffers _)
  | .call .getSystemTime | .resume | .irqUart .. | .write .. | .startPong => isTrue trivial

instance (u : Fin n) (s : Kernel n) : (l : Label) → Decidable (EchoesIdle u s l)
  | .irqUart ucsr rd =>
    inferInstanceAs (Decidable (ucsr &&& 1 ≠ 0 → Kernel.Echoes s.uart rd → ¬ Printing u s))
  | .call _ | .resume | .irqTimer _ | .write .. | .startPong => isTrue trivial

namespace Kernel

variable {s s' t t' : Kernel n} {l : Label} {a : Act n} {env : EnvPtr} {letter : Letter}

/-! ## Interrupts of the UART -/

/-- Nothing that matters here has changed. -/
structure SameConsole (u : Fin n) (s s' : Kernel n) : Prop where
  printing : s'.uart.outputPrintChar = s.uart.outputPrintChar
  imr : s'.uart.imr = s.uart.imr
  mail : s'.ipc.queue (.recvMsgs u) = s.ipc.queue (.recvMsgs u)

theorem SameConsole.refl (u : Fin n) (s : Kernel n) : SameConsole u s s := ⟨rfl, rfl, rfl⟩

theorem SameConsole.trans (h : SameConsole u s t) (h' : SameConsole u t t') :
    SameConsole u s t' :=
  ⟨h'.printing.trans h.printing, h'.imr.trans h.imr, h'.mail.trans h.mail⟩

theorem SameConsole.printing_iff (h : SameConsole u s s') : Printing u s' ↔ Printing u s := by
  unfold Printing Ipc.isEmpty
  rw [h.printing, h.mail]

theorem SameConsole.lit (h : SameConsole u s s') (hs : Lit u s) : Lit u s' := by
  intro hprint
  rw [h.imr]
  exact hs (h.printing_iff.1 hprint)

theorem PicksUp.lit (h : PicksUp s u env letter s') (hs : Lit u s) : Lit u s' := by
  intro _
  obtain ⟨out, -, huart⟩ := h.uart
  rw [huart]
  exact hs (.inr h.mail)

theorem uartTransmit_lit (hs : Lit u s) (hcur : s.sched.currentProcess = some u)
    (h : s.uartTransmit = some s') : Lit u s' := by
  obtain ⟨t, hidle, hprints⟩ := uartTransmit_cases hcur h
  have ht : Lit u t := by
    rcases hidle with rfl | ⟨env, letter, hpick⟩
    · exact hs
    · exact hpick.lit hs
  cases hprints with
  | idle => exact ht
  | write hrest hchar => exact fun _ => ht (.inl hrest)
  | done hrest hchar hempty =>
    -- Now there is nothing to print.
    rintro (hprinting | hmail)
    · contradiction
    · change t.ipc.isEmpty (.recvMsgs u) = false at hmail
      rw [hempty] at hmail
      contradiction
  | next hrest hchar hpick =>
    refine hpick.lit fun _ => ?_
    exact ht (.inl hrest)

theorem Inputs.sameConsole {imr : UInt8} (h : Inputs s u imr s') :
    SameConsole u (s.setImr imr) s' := by
  obtain ⟨inputIndex, inBuffer, huart⟩ := h.uart
  exact ⟨by rw [huart]; rfl, by rw [huart]; rfl, h.mail⟩

/-- An echo disables the interrupt, whatever there is to print. -/
theorem Inputs.lit_iff {rd : UInt8} (h : Inputs s u (if Echoes s.uart rd then 2 else s.uart.imr) s')
    (hs : Lit u s) : Lit u s' ↔ (Echoes s.uart rd → ¬ Printing u s) := by
  have hsame := h.sameConsole
  by_cases hecho : Echoes s.uart rd
  · rw [if_pos hecho] at hsame
    have hprint : Printing u s' ↔ Printing u s := hsame.printing_iff
    have himr : s'.uart.imr = 2 := hsame.imr
    constructor
    · intro hlit _ hprinting
      exact hlit (hprint.2 hprinting) (by rw [himr]; decide)
    · intro hidle hprinting
      exact absurd (hprint.1 hprinting) (hidle hecho)
  · rw [if_neg hecho] at hsame
    exact ⟨fun _ h => absurd h hecho, fun _ => hsame.lit hs⟩

/-- The pids and the i-processes are as they should be. -/
structure Tabled (table : Fin n → PcbInit) (s : Kernel n) : Prop where
  ids : s.sched.ids = tableIds table
  regular : s.sched.Regular
  interrupted : s.sched.interruptedProcess = none

theorem Tabled.uart_found (h : s.Tabled table) (hu : UartIs table u) :
    s.sched.kGetProcess uartIProcessPid = some u :=
  (kGetProcess_tableIds h.ids _).trans hu.1

theorem irqUart_lit {ucsr rd : UInt8} (h : s.Tabled table) (hu : UartIs table u) (hs : Lit u s)
    (hstep : s.step (.irqUart ucsr rd) = some s') :
    Lit u s' ↔ EchoesIdle u s (.irqUart ucsr rd) := by
  obtain ⟨t, t', henter, hcur, hipc, huart, hran, hipc', huart'⟩ :=
    irqUart_cases (h.uart_found hu) h.interrupted hstep
  have hin : SameConsole u s t := ⟨by rw [huart], by rw [huart], by rw [hipc]⟩
  have hout : SameConsole u t' s' := ⟨by rw [huart'], by rw [huart'], by rw [hipc']⟩
  have hback : SameConsole u s' t' := ⟨by rw [huart'], by rw [huart'], by rw [hipc']⟩
  have hlit : Lit u s' ↔ Lit u t' := ⟨hback.lit, hout.lit⟩
  have hfound : t.sched.kGetProcess uartIProcessPid = some u := by
    rw [Sched.kGetProcess_ids (act_frame h.regular henter).2.ids]
    exact h.uart_found hu
  rw [hlit]
  unfold uartIProcess at hran
  split at hran
  · rename_i hreceive
    rw [(uartReceive_cases hcur hfound hran).lit_iff (hin.lit hs), huart, hin.printing_iff]
    exact ⟨fun h _ => h, fun h => h hreceive⟩
  · rename_i hreceive
    have hidle : EchoesIdle u s (.irqUart ucsr rd) := fun h => absurd h hreceive
    refine ⟨fun _ => hidle, fun _ => ?_⟩
    split at hran
    · exact uartTransmit_lit (hin.lit hs) hcur hran
    · cases hran
      exact hin.lit hs

/-! ## Steps of the others -/

theorem SameConsole.act {given filled : Option EnvPtr} {dest : Option ℤ}
    (hactor : l.actor = .caller given filled dest) (hdest : dest ≠ some uartIProcessPid)
    (hworker : s.worker l ≠ some u) (hu : t.sched.kGetProcess uartIProcessPid = some u)
    (hdoes : l.Does s t a) (hact : t.act a = some t') : SameConsole u t t' := by
  cases a with
  | ipc m =>
    obtain ⟨hmove, -, huart⟩ := act_ipc hact
    refine ⟨by rw [huart], by rw [huart], ?_⟩
    have hmover := hdoes.mover_ne hworker
    cases m with
    | send cur dest' env sendPid destPid =>
      obtain ⟨p, -, ⟨-, -, hfound⟩, hallows⟩ := hdoes
      rw [hactor] at hallows
      refine Ipc.send_queue hmove fun heq => hdest ?_
      obtain rfl := QueuePtr.recvMsgs.inj heq
      rw [hallows.2.1, (kGetProcess_pid hfound).symm.trans (kGetProcess_pid hu)]
    | receive p env =>
      refine Ipc.receive_queue hmove fun heq => hmover ?_
      exact congrArg some (QueuePtr.recvMsgs.inj heq).symm
    | request p queue env =>
      obtain ⟨q, -, ⟨-, hqueue⟩, -⟩ := hdoes
      refine Ipc.request_queue hmove ?_
      rcases hqueue with rfl | ⟨rfl, -⟩ <;> simp
    | release p queue env =>
      obtain ⟨q, -, ⟨-, hqueue⟩, -⟩ := hdoes
      refine Ipc.release_queue hmove ?_
      subst hqueue
      cases env <;> simp [homeQueue]
    | insert | expire =>
      obtain ⟨q, -, -, hallows⟩ := hdoes
      rw [hactor] at hallows
      exact hallows.elim
    | _ => exact (congrArg (fun I : Ipc n => I.queue _) (Option.some.inj hmove)).symm
  | sched m =>
    obtain ⟨S, -, rfl⟩ := Option.map_eq_some_iff.1 hact
    exact ⟨rfl, rfl, rfl⟩
  | uart uart =>
    cases hact
    rcases hdoes with hsets | ⟨-, rfl⟩
    · rw [hactor] at hsets
      exact absurd hsets.1 hdest
    · exact ⟨rfl, rfl, rfl⟩

theorem Tabled.acts (h : s.Tabled table) (hreach : Reach Kernel.act (· = s) (l.Does s) t) :
    t.sched.ids = tableIds table ∧ t.sched.Regular := by
  refine hreach.invariant (I := fun t => t.sched.ids = tableIds table ∧ t.sched.Regular) ?_ ?_
  · intro t ht
    exact ht ▸ ⟨h.ids, h.regular⟩
  · intro t a t' _ ht _ hact
    obtain ⟨hregular, hframe⟩ := act_frame ht.2 hact
    exact ⟨hframe.ids.trans ht.1, hregular⟩

theorem Tabled.step (h : s.Tabled table) (hstep : s.step l = some s') : s'.Tabled table := by
  obtain ⟨hreach, hint⟩ := step_acts h.interrupted hstep
  obtain ⟨hids, hregular⟩ := h.acts hreach
  exact ⟨hids, hregular, hint⟩

theorem SameConsole.step {given filled : Option EnvPtr} {dest : Option ℤ} (h : s.Tabled table)
    (hu : UartIs table u) (hactor : l.actor = .caller given filled dest)
    (hdest : dest ≠ some uartIProcessPid) (hstep : s.step l = some s') : SameConsole u s s' := by
  have hworker : s.worker l ≠ some u := by
    refine worker_ne h.ids h.regular hu.2 h.interrupted (fun hl => ?_) fun hl => ?_
    · rw [hactor] at hl; contradiction
    · rw [hactor] at hl; contradiction
  refine (step_acts h.interrupted hstep).1.invariant (I := fun t => SameConsole u s t) ?_ ?_
  · intro t ht
    exact ht ▸ .refl ..
  · intro t a t' hreach ht hdoes hact
    refine ht.trans (.act hactor hdest hworker ?_ hdoes hact)
    exact (kGetProcess_tableIds (h.acts hreach).1 _).trans hu.1

theorem sendConsoleChars_lit {msgEnv : Option EnvPtr} {requestAck : Bool} (hs : Lit u s)
    (hstep : s.step (.call (.sendConsoleChars msgEnv requestAck)) = some s') : Lit u s' := by
  obtain ⟨cur, context, hrun, ⟨o, htrap, hleave⟩ | ⟨-, hbetween⟩⟩ := step_cases hstep
  · obtain ⟨-, htrap⟩ := Option.ite_none_right_eq_some.1 htrap
    obtain ⟨⟨r, t⟩, hchars, rfl⟩ := Option.map_eq_some_iff.1 htrap
    cases hleave
    rcases kSendConsoleChars_cases hchars with ⟨-, rfl⟩ | ⟨env, t', -, rfl, -⟩
    · exact hs
    · intro _
      change (3 : UInt8) &&& 1 ≠ 0
      decide
  · contradiction

/-! ## Runs -/

theorem Tabled.lit_iff (h : s.Tabled table) (hs : Lit u s) (hu : UartIs table u)
    (hl : ConsoleOnly l) (hstep : s.step l = some s') : Lit u s' ↔ EchoesIdle u s l := by
  have hother : ∀ {given filled dest}, l.actor = .caller given filled dest →
      dest ≠ some uartIProcessPid → Lit u s' := fun hactor hdest =>
    (SameConsole.step h hu hactor hdest hstep).lit hs
  cases l with
  | irqUart ucsr rd => exact irqUart_lit h hu hs hstep
  | irqTimer nullRead => exact hl.elim
  | call c =>
    refine ⟨fun _ => trivial, fun _ => ?_⟩
    cases c with
    | sendConsoleChars msgEnv requestAck => exact sendConsoleChars_lit hs hstep
    | sendMessage destPid msgEnv =>
      exact hother rfl fun heq => hl (Option.some.inj heq)
    | requestDelay timeDelay wakeupCode msgEnv => exact hother rfl (by decide)
    | _ => exact hother rfl nofun
  | _ => exact ⟨fun _ => trivial, fun _ => hother rfl nofun⟩

theorem Booted.tabled (h : Booted table s) : s.Tabled table :=
  ⟨h.accounts.2.ids, h.accounts.2.regular, h.accounts.1⟩

theorem Booted.lit (h : Booted table s) : Lit u s := by
  obtain ⟨ram, -, -, -, -, huart⟩ := h.parts
  rintro (hprint | hmail)
  · rw [huart] at hprint
    contradiction
  · have hempty : s.ipc.isEmpty (.recvMsgs u) = true :=
      (h.accounts.2.keeps.queue _).isEmpty.2 (Ipc.bootPlaces_recvMsgs u)
    rw [hempty] at hmail
    contradiction

end Kernel

/-- In a run in which the UART only gets its messages from `k_send_console_chars`, the transmit
interrupt is enabled whenever there is something to print if and only if no character is echoed
while there is. -/
theorem never_stranded_iff {table : Fin n → PcbInit} {u : Fin n} {s : Kernel n} {ls : List Label}
    (hu : UartIs table u) (hs : Kernel.Booted table s) (hconsole : ∀ l ∈ ls, ConsoleOnly l) :
    Always Kernel.step (Lit u) s ls ↔ Along Kernel.step (EchoesIdle u) s ls := by
  have hok : Along Kernel.step (fun _ l => ConsoleOnly l) s ls :=
    .of_forall fun l hl _ => hconsole l hl
  refine always_iff_along (I := fun s => s.Tabled table ∧ Lit u s) ?_ (fun s h => h.2) ?_
    ⟨hs.tabled, hs.lit⟩ hok
  · intro s l s' h hl hidle hstep
    exact ⟨h.1.step hstep, (h.1.lit_iff h.2 hu hl hstep).2 hidle⟩
  · intro s l s' h hl hecho hstep hlit
    exact hecho ((h.1.lit_iff h.2 hu hl hstep).1 hlit)

/-- The CCI prints a text, with a character received before and after. -/
def echoApart : List Label := [
  .irqUart 1 120,
  .call .requestMsgEnv,
  writeChar (.envPool 0) 97,
  .call (.sendConsoleChars (some (.envPool 0)) true),
  .irqUart 4 0,
  .irqUart 4 0,
  .irqUart 1 120]

theorem never_stranded_itable :
    ∃ s, Kernel.kInit Kernel.Ram.zero itable = some s ∧
      (exec Kernel.step s echoApart).isSome = true ∧ Always Kernel.step (Lit 1) s echoApart := by
  have hrun : ((Kernel.kInit Kernel.Ram.zero itable).any fun s =>
      (exec (guarded Kernel.step (EchoesIdle 1)) s echoApart).isSome &&
      (exec Kernel.step s echoApart).isSome) = true := by
    decide +kernel
  obtain ⟨s, hinit, hfacts⟩ := (Option.any_eq_true ..).1 hrun
  obtain ⟨hidle, hexec⟩ := Bool.and_eq_true_iff.1 hfacts
  obtain ⟨t, hidle⟩ := Option.isSome_iff_exists.1 hidle
  exact ⟨s, hinit, hexec, (never_stranded_iff itable_uart ⟨_, hinit⟩ (by decide)).2
    (Along.guarded hidle)⟩

/-- A character is received between the first and the last of a text. -/
def echoWithin : List Label := [
  .call .requestMsgEnv,
  .write (.envPool 0) ⟨⟨0, 0, 0, some fun i => if i = 0 ∨ i = 1 then 97 else 0⟩, none⟩,
  .call (.sendConsoleChars (some (.envPool 0)) true),
  .irqUart 4 0,
  .irqUart 1 120]

/-- The rest of the text is stranded. -/
theorem never_stranded_fails :
    ∃ s, Reach Kernel.step (Kernel.Booted itable) (fun _ => ConsoleOnly) s ∧
      s.uart.outputPrintChar = true ∧ s.uart.imr = 2 ∧ ¬ Lit 1 s := by
  have hrun : ((Kernel.kInit Kernel.Ram.zero itable).bind fun s =>
      exec (guarded Kernel.step fun _ => ConsoleOnly) s echoWithin).any (fun s => decide (
        s.uart.outputPrintChar = true ∧ s.uart.imr = 2)) = true := by
    decide +kernel
  obtain ⟨s, hs, hfacts⟩ := (Option.any_eq_true ..).1 hrun
  obtain ⟨hprint, himr⟩ := of_decide_eq_true hfacts
  obtain ⟨s₀, hinit, hexec⟩ := Option.bind_eq_some_iff.1 hs
  refine ⟨s, (Reach.init ⟨_, hinit⟩).guarded hexec, hprint, himr, fun hlit => ?_⟩
  exact hlit (.inl hprint) (by rw [himr]; decide)

end Rtx.Coldfire
