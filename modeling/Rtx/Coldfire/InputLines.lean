import Rtx.Coldfire.InputBuffer
import Rtx.Coldfire.Bodies

/-!
# Lines for the CCI

With pong off, and a carriage return before each NUL. The return takes the place that the NUL then
overwrites, unless the buffer was full, and then the NUL overwrites the last byte of the line.
Either way the first 97 bytes that were kept go to the CCI, if there is an envelope for them, and
otherwise nothing happens but that the buffer is empty again (`console_lines`).
-/

namespace Rtx.Coldfire

open Transition

variable {n : ℕ} {table : Fin n → PcbInit} {u c : Fin n}

def carriageReturn : UInt8 := 13

/-- Pong is not started, and a line end comes after a carriage return. -/
def EndsInReturn (w : Kernel n × List UInt8) : Label → Prop
  | .irqUart ucsr rd => ucsr &&& 1 ≠ 0 → rd = kbLineEnd → w.2.getLast? = some carriageReturn
  | .startPong => False
  | _ => True

instance (w : Kernel n × List UInt8) : (l : Label) → Decidable (EndsInReturn w l)
  | .irqUart ucsr rd => inferInstanceAs (Decidable (ucsr &&& 1 ≠ 0 → rd = kbLineEnd →
      w.2.getLast? = some carriageReturn))
  | .startPong => isFalse id
  | .call _ | .resume | .irqTimer _ | .write .. => isTrue trivial

/-! ## The text of a line -/

section Text

variable {line : List UInt8}

/-- What is left of the buffer, without its last byte, does not depend on the carriage return. -/
theorem buffered_dropLast (line : List UInt8) :
    (buffered (line ++ [carriageReturn])).dropLast = (kept line).take 97 := by
  have hkept : kept (line ++ [carriageReturn]) = kept line ++ [carriageReturn] :=
    kept_concat (by decide)
  rw [List.dropLast_eq_take, buffered, hkept, List.take_take, List.length_take,
    List.length_append, List.length_singleton, lineRoom]
  by_cases hfull : (kept line).length ≤ 97
  · rw [List.take_of_length_le hfull, List.take_append_of_le_length (by omega),
      List.take_of_length_le (by omega)]
  · rw [List.take_append_of_le_length (by omega)]
    congr 1
    omega

theorem Buffers.index_pos {uart : Uart} (h : Buffers uart (line ++ [carriageReturn])) :
    0 < uart.inputIndex := by
  have hkept : kept (line ++ [carriageReturn]) = kept line ++ [carriageReturn] :=
    kept_concat (by decide)
  rw [h.index, buffered, hkept, List.length_take, List.length_append, lineRoom,
    List.length_singleton]
  omega

end Text

namespace Kernel

variable {s s' t : Kernel n} {line : List UInt8}

/-- The line end after `line` and a carriage return. Without an envelope at hand the line is
dropped, and with one the CCI gets it. -/
structure LineTaken (u c : Fin n) (line : List UInt8) (s s' : Kernel n) : Prop where
  index : s'.uart.inputIndex = 0
  dropped : s.atHand = none → s'.ipc = s.ipc
  sent : ∀ env, s.atHand = some env → ∃ letter,
    s'.ipc.log = .sent u c env letter :: .requested u env :: s.ipc.log ∧
      letter.msgType = consoleInput ∧ letter.Carries ((kept line).take 97)

theorem uartLineEnd_taken (hcur : s.sched.currentProcess = some u)
    (hi : (s.sched.pTable u).isIProcess = true) (hc : s.sched.kGetProcess cciPid = some c)
    (hline : Buffers s.uart (line ++ [carriageReturn])) (h : s.uartLineEnd = some s') :
    LineTaken u c line s s' := by
  refine ⟨uartLineEnd_index h, fun hnone => ?_, fun env hsome => ?_⟩
  · rw [uartLineEnd_none hcur hi hnone] at h
    cases h
    rfl
  obtain ⟨-, ⟨hnone, -⟩ | ⟨env', letter, hsome', htype, hfilled, hlog⟩⟩ :=
    uartLineEnd_log hcur hi h
  · rw [hnone] at hsome
    contradiction
  obtain rfl : env' = env := Option.some.inj (hsome'.symm.trans hsome)
  have hcarries := uartLineEnd_carries hline hline.index_pos hfilled
  rw [buffered_dropLast] at hcarries
  generalize hnew : s'.ipc.log = log at hlog
  cases hlog with
  | refused hrefused =>
    obtain ⟨-, body, hbody, -⟩ := hcarries
    rw [hbody, hc] at hrefused
    simp at hrefused
  | sent hq =>
    obtain rfl := Option.some.inj (hq.symm.trans hc)
    exact ⟨_, rfl, htype, hcarries⟩

theorem pongMode_of_endsInReturn {w : Kernel n × List UInt8} (hu : UartIs table u)
    (hw : Reach watch (WatchedFromBoot table) EndsInReturn w) : w.1.uart.pongMode = false := by
  refine (hw.invariant (I := fun w => w.1.Tabled table ∧ w.1.uart.pongMode = false) ?_ ?_).2
  · rintro w ⟨hboot, -⟩
    obtain ⟨ram, -, -, -, -, huart⟩ := Booted.parts hboot
    exact ⟨Booted.tabled hboot, congrArg Uart.pongMode huart⟩
  · intro w l w' _ h hl hstep
    obtain ⟨t, ht, rfl⟩ := Option.map_eq_some_iff.1 hstep
    refine ⟨h.1.step ht, ?_⟩
    have hother : l.actor ≠ .uart → t.uart.pongMode = false := by
      intro hactor
      rcases step_input h.1.interrupted hactor ht with hsame | ⟨rfl, -⟩
      · exact hsame.pong.trans h.2
      · exact hl.elim
    cases l with
    | irqUart ucsr rd => exact (irqUart_pongMode h.1 hu ht).trans h.2
    | call c =>
      refine hother ?_
      cases c <;> exact nofun
    | _ => exact hother nofun

theorem irqUart_isSome {cur : Fin n} {ucsr rd : UInt8} (htabled : s.Tabled table)
    (htailed : s.sched.Tailed) (hended : s.sched.Ended) (hu : UartIs table u)
    (hrun : s.running = some (cur, .user)) (hdata : ucsr &&& 1 ≠ 0) (hready : s.ReceiveReady rd) :
    (s.step (.irqUart ucsr rd)).isSome = true := by
  have hreceive : (fun t : Kernel n => t.uartIProcess ucsr rd) = fun t => t.uartReceive rd :=
    funext fun t => if_pos hdata
  have hstep : s.step (.irqUart ucsr rd) =
      s.isrHandler uartIProcessPid fun t => t.uartIProcess ucsr rd := by
    unfold step
    rw [hrun]
    rfl
  rw [hstep, hreceive]
  exact (isrReceive_isSome_iff htabled htailed hended hu).2 hready

/-- With pong off, every envelope has a body and every queue can be appended to, if the processes
keep to the rules. -/
theorem lineReady_of_owning (hu : UartIs table u)
    (howning : Reach Kernel.step (Booted table) Owning s)
    (hkeeping : Reach Kernel.step (Booted table) (fun _ l => l.KeepsBody) s)
    (hpong : s.uart.pongMode = false) : s.ReceiveReady kbLineEnd := by
  have hbodied := bodied_of_keeping hu hkeeping
  rw [ReceiveReady, if_neg (by rw [hpong]; decide)]
  refine ⟨fun _ env _ => ?_, fun _ => s.walksEnd_lineEnd⟩
  exact ⟨.inr (hbodied env), fun _ dest _ => linkable_of_owning howning _⟩

end Kernel

open Kernel

/-- With pong off and a carriage return before each line end, a line end leaves an empty buffer, and
sends the CCI the first 97 bytes that were kept of the line if there is an envelope for them, and
nothing else. It does return as long as the processes only pass on and write to envelopes they hold,
and leave them their bodies. -/
theorem console_lines {table : Fin n → PcbInit} {u c : Fin n} {w : Kernel n × List UInt8}
    (hu : UartIs table u) (hc : getProcess table cciPid = some c)
    (hw : Reach Kernel.watch (WatchedFromBoot table) EndsInReturn w) {ucsr : UInt8}
    (hdata : ucsr &&& 1 ≠ 0) (hreturn : EndsInReturn w (.irqUart ucsr kbLineEnd)) :
    (∀ w', watch w (.irqUart ucsr kbLineEnd) = some w' →
      LineTaken u c w.2.dropLast w.1 w'.1 ∧ w'.2 = []) ∧
    (Reach Kernel.watch (WatchedFromBoot table)
        (fun w l => EndsInReturn w l ∧ Owning w.1 l ∧ l.KeepsBody) w →
      (∃ cur, w.1.running = some (cur, .user)) →
        (watch w (.irqUart ucsr kbLineEnd)).isSome = true) := by
  obtain ⟨hreach, htyped⟩ := watched hu hw
  obtain ⟨htabled, htailed, hended⟩ := Tabled.linked hreach
  have hpong := pongMode_of_endsInReturn hu hw
  refine ⟨fun w' hstep => ?_, fun hproper hrun => ?_⟩
  · obtain ⟨s', hs', rfl⟩ := Option.map_eq_some_iff.1 hstep
    refine ⟨?_, Label.line_of_data hdata⟩
    obtain ⟨t, t', henter, hcur, hipc, huart, hran, hipc', huart'⟩ :=
      irqUart_cases (htabled.uart_found hu) htabled.interrupted hs'
    have hids : t.sched.ids = tableIds table :=
      (act_frame htabled.regular henter).2.ids.trans htabled.ids
    have hline : Buffers t.uart (w.2.dropLast ++ [carriageReturn]) := by
      rw [List.dropLast_append_getLast? _ (hreturn hdata rfl), huart]
      exact htyped hpong
    rw [uartIProcess, if_pos hdata, uartReceive, if_neg (by rw [huart, hpong]; decide),
      if_pos rfl] at hran
    have htaken := uartLineEnd_taken hcur (hu.isIProcess hids)
      ((kGetProcess_tableIds hids _).trans hc) hline hran
    refine ⟨?_, fun hnone => ?_, fun env hsome => ?_⟩
    · rw [huart']
      exact htaken.index
    · rw [hipc', ← hipc]
      refine htaken.dropped ?_
      rw [atHand, hipc]
      exact hnone
    · rw [hipc', ← hipc]
      refine htaken.sent env ?_
      rw [atHand, hipc]
      exact hsome
  · obtain ⟨cur, hrun⟩ := hrun
    rw [watch, Option.isSome_map]
    refine irqUart_isSome htabled htailed hended hu hrun hdata ?_
    exact lineReady_of_owning hu (watch_reach (fun w l h => h.2.1) hproper)
      (watch_reach (fun w l h => h.2.2) hproper) hpong

/-- A hotkey, a character and a carriage return: the line is the character. -/
theorem console_lines_itable :
    ∃ w w', Reach Kernel.watch (WatchedFromBoot itable) EndsInReturn w ∧ w.2 = [33, 97, 13] ∧
      w.1.atHand = some (.envPool 0) ∧ watch w (.irqUart 1 kbLineEnd) = some w' ∧
      LineTaken 1 2 [33, 97] w.1 w'.1 := by
  have hrun : ((Kernel.kInit Kernel.Ram.zero itable).bind fun s =>
      exec (guarded Kernel.watch fun w l => EndsInReturn w l ∧ Owning w.1 l ∧ l.KeepsBody) (s, []) [
        .irqUart 1 33, .irqUart 1 97, .irqUart 1 13]).any (fun w => decide (
          w.2 = [33, 97, 13] ∧ w.1.atHand = some (.envPool 0) ∧
            w.1.running = some (2, .user))) = true := by
    decide +kernel
  obtain ⟨w, hw, hfacts⟩ := (Option.any_eq_true ..).1 hrun
  obtain ⟨hline, hhand, hrunning⟩ := of_decide_eq_true hfacts
  obtain ⟨s, hinit, hexec⟩ := Option.bind_eq_some_iff.1 hw
  have hproper : Reach Kernel.watch (WatchedFromBoot itable)
      (fun w l => EndsInReturn w l ∧ Owning w.1 l ∧ l.KeepsBody) w :=
    (Reach.init ⟨⟨_, hinit⟩, rfl⟩).guarded hexec
  have hreach : Reach Kernel.watch (WatchedFromBoot itable) EndsInReturn w :=
    hproper.mono fun _ _ h => h.1
  have hlines := console_lines (c := 2) itable_uart (by decide +kernel) hreach
    (by decide : (1 : UInt8) &&& 1 ≠ 0) (by rw [EndsInReturn, hline]; decide)
  obtain ⟨w', hw'⟩ := Option.isSome_iff_exists.1 (hlines.2 hproper ⟨2, hrunning⟩)
  have htaken := (hlines.1 w' hw').1
  rw [hline] at htaken
  exact ⟨w, w', hreach, hline, hhand, hw', htaken⟩

end Rtx.Coldfire
