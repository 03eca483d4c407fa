import Rtx.Unix.Boot

/-!
# Envelope conservation in the Unix port

What every act of every step keeps holds in every reachable state (`tracks_reach`). With that, the
envelopes stay in their places along every run in which the processes only give away what they have.

There is one exception, and it is exact (`conserved_iff`). A turn of the CRT i-process reads the
flag of the helper twice. Where the helper is done between the two tests, the next text goes to the
screen before the last one was acknowledged, and `prev_msg` forgets the envelope of that.
-/

namespace Rtx.Unix

open Transition Places
open Coldfire (Body PcbInit)

variable {n : ℕ}

namespace Kernel

variable {initTable : Fin n → PcbInit} {b s s' t t' : Kernel n} {l : RtxLabel} {ls : List RtxLabel}
  {a : Act n} {L L' : Spot n → List EnvPtr} {i p : Fin n} {env : EnvPtr}

/-! ## Acts and places -/

/-- An act of a step `l` from `b` leads from `t`, where the envelopes are in `L`, to `t'`. -/
structure Acting (initTable : Fin n → PcbInit) (b : Kernel n) (l : RtxLabel) (t : Kernel n)
    (a : Act n) (t' : Kernel n) (L L' : Spot n → List EnvPtr) : Prop where
  before : t.Rested initTable
  after : t'.Rested initTable
  ok : a.Ok b l t
  act : t.act a = some t'
  keeps : t.ipc.Keeps L
  moves : ∀ m, a = .mail m → t.ipc.Moves L m t'.ipc L'
  same : (∀ m, a ≠ .mail m) → t'.ipc = t.ipc ∧ L' = L

theorem Acting.keeps' (h : Acting initTable b l t a t' L L') : t'.ipc.Keeps L' := by
  by_cases hm : ∃ m, a = .mail m
  · obtain ⟨m, rfl⟩ := hm
    exact (h.moves m rfl).keeps
  · obtain ⟨hipc, rfl⟩ := h.same fun m hma => hm ⟨m, hma⟩
    exact hipc ▸ h.keeps

theorem Rested.acting (h : t.Rested initTable) (hkeeps : t.ipc.Keeps L) (hok : a.Ok b l t)
    (hact : t.act a = some t') : ∃ L', Acting initTable b l t a t' L L' := by
  have hafter := h.act hok hact
  cases a with
  | mail m =>
    obtain ⟨L', hL'⟩ := hkeeps.move (MailMove.Ok.proper hok) (act_mail hact).1
    refine ⟨L', h, hafter, hok, hact, hkeeps, fun m' hm => ?_, fun hne => absurd rfl (hne m)⟩
    cases hm
    exact hL'
  | sched m =>
    obtain ⟨sched, -, rfl⟩ := Option.map_eq_some_iff.1 hact
    exact ⟨L, h, hafter, hok, hact, hkeeps, nofun, fun _ => ⟨rfl, rfl⟩⟩
  | restore p =>
    cases hact
    exact ⟨L, h, hafter, hok, rfl, hkeeps, nofun, fun _ => ⟨rfl, rfl⟩⟩
  | crt crtBuf =>
    cases hact
    exact ⟨L, h, hafter, hok, rfl, hkeeps, nofun, fun _ => ⟨rfl, rfl⟩⟩

/-- What every act of a step keeps holds wherever its acts lead to. -/
theorem Rested.tracks_acts {I : Kernel n → (Spot n → List EnvPtr) → Prop}
    (h : s.Rested initTable) (hkeeps : s.ipc.Keeps L) (hI : I s L)
    (hact : ∀ t a t' L L', Acting initTable s l t a t' L L' → I t L → I t' L')
    (hreach : Reach Kernel.act (· = s) (Act.Ok s l) t) :
    t.Rested initTable ∧ ∃ L', t.ipc.Keeps L' ∧ I t L' := by
  refine hreach.invariant (I := fun t => t.Rested initTable ∧ ∃ L, t.ipc.Keeps L ∧ I t L)
    (fun t ht => ht ▸ ⟨h, L, hkeeps, hI⟩) ?_
  rintro t a t' - ⟨hrested, L₁, hkeeps₁, hI₁⟩ hok hta
  obtain ⟨L', hacting⟩ := hrested.acting hkeeps₁ hok hta
  exact ⟨hacting.after, L', hacting.keeps', hact _ _ _ _ _ hacting hI₁⟩

theorem Rested.tracks {I : Kernel n → (Spot n → List EnvPtr) → Prop} (h : s.Rested initTable)
    (hkeeps : s.ipc.Keeps L) (hI : I s L) (hcareful : s.Careful l)
    (hact : ∀ t a t' L L', Acting initTable s l t a t' L L' → I t L → I t' L')
    (hstep : s.step l = some s') :
    s'.Rested initTable ∧ ∃ L', s'.ipc.Keeps L' ∧ I s' L' :=
  h.tracks_acts hkeeps hI hact (h.step hcareful hstep).1

theorem Booted.keeps (h : Booted initTable s) : s.ipc.Keeps Ipc.bootSpots := by
  obtain ⟨memory, S₀, -, -, hbooting, -⟩ := h.parts
  exact hbooting.keeps

/-- What holds at boot and is kept by every act of every step holds in every reachable state. -/
theorem tracks_reach {ok : Kernel n → RtxLabel → Prop}
    {I : Kernel n → (Spot n → List EnvPtr) → Prop}
    (hs : Reach Kernel.step (Booted initTable) ok s) (hok : ∀ s l, ok s l → s.Careful l)
    (hboot : ∀ s, Booted initTable s → I s Ipc.bootSpots)
    (hact : ∀ s l t a t' L L', ok s l → Acting initTable s l t a t' L L' → I t L → I t' L') :
    s.Rested initTable ∧ ∃ L, s.ipc.Keeps L ∧ I s L := by
  refine hs.invariant (I := fun s => s.Rested initTable ∧ ∃ L, s.ipc.Keeps L ∧ I s L) ?_ ?_
  · exact fun s hs => ⟨hs.rested, _, hs.keeps, hboot s hs⟩
  · rintro s l s' - ⟨hrested, L, hkeeps, hI⟩ hl hstep
    exact hrested.tracks hkeeps hI (hok s l hl) (fun t a t' L L' => hact s l t a t' L L' hl) hstep

end Kernel

namespace Ipc

variable {I : Ipc n} {L : Spot n → List EnvPtr} {queue : QueuePtr n}

theorem Keeps.empty_iff (h : I.Keeps L) : I.Empty queue ↔ L (.queue queue) = [] := by
  rw [Empty, isEmpty_eq h.holds]
  by_cases hqueue : L (.queue queue) = [] <;> simp [hqueue]

/-- Every envelope is in one place, and the one on the screen is known. -/
structure Conserves (I : Ipc n) (L : Spot n → List EnvPtr) : Prop extends Keeps I L where
  known : L .screen = I.prevMsg.toList

end Ipc

/-! ## Overwritten texts -/

namespace Kernel

variable {initTable : Fin n → PcbInit} {b s s' t t' : Kernel n} {l : RtxLabel} {ls : List RtxLabel}
  {a : Act n} {L L' : Spot n → List EnvPtr} {i : Fin n} {e : EnvPtr}

/-- The CRT i-process has a text to show. -/
def HasText (s : Kernel n) : Prop :=
  ∃ i ∈ pcbOf n crtIProcessPid, ¬ (s.ipc.Empty (.recvMsgs i) ∧ s.ipc.Empty .displayQueue)

/-- A text is shown over one that was not acknowledged. -/
def Overwrites (s : Kernel n) (l : RtxLabel) : Prop :=
  l = .sigusr2 .wait .free ∧ s.ipc.prevMsg ≠ none ∧ s.HasText

instance (s : Kernel n) : Decidable s.HasText := by
  unfold HasText Ipc.Empty
  infer_instance

instance (s : Kernel n) : (l : RtxLabel) → Decidable (s.Overwrites l)
  | .sigusr2 .wait .free => decidable_of_iff (s.ipc.prevMsg ≠ none ∧ s.HasText)
      (by simp [Overwrites])
  | .sigusr2 .free _ | .sigusr2 _ .wait => isFalse (by simp [Overwrites])
  | .call _ | .resume | .sigalrm | .sigusr1 .. | .write .. => isFalse (by simp [Overwrites])

/-- What `SIGUSR2` does to the envelopes, a turn of the CRT i-process does. -/
theorem Rested.sigusr2 {first second : CrtFlag} (h : s.Rested initTable)
    (hstep : s.step (.sigusr2 first second) = some s') :
    ∃ (i : Fin n) (t t' : Kernel n), pcbOf n crtIProcessPid = some i ∧
      t.sched.currentProcess = some i ∧ (t.sched.ids i).2 = true ∧ t.ipc = s.ipc ∧
        t.startCrtIProcess first second = some t' ∧
      s'.ipc = t'.ipc := by
  obtain ⟨hsignal, cur, hcur⟩ := between_of_step hstep rfl
  obtain ⟨i, t, t', hpcb, hstart, hipc, hturn, hexit⟩ :=
    h.enter (l := .sigusr2 first second) hcur rfl hsignal
  have hend := hstart.startCrtIProcess hpcb rfl hipc hturn
  exact ⟨i, t, t', hpcb, hstart.current, hstart.iProcess, hipc, hturn, (hend.exit hexit).2⟩

/-- A turn whose first test finds the helper at work. -/
theorem startCrtIProcess_wait (h : t.startCrtIProcess .wait .free = some t') :
    ∃ t₁, t.crtStore = some t₁ ∧ t₁.crtShow .free = some t' := by
  obtain ⟨t₀, hack, hrest⟩ := Option.bind_eq_some_iff.1 h
  obtain ⟨t₁, hstore, hshow⟩ := Option.bind_eq_some_iff.1 hrest
  have hsame : t.crtAck .wait = some t := by
    unfold crtAck
    split
    · contradiction
    · rfl
  rw [hsame] at hack
  cases hack
  exact ⟨t₁, hstore, hshow⟩

/-- With nothing to show, such a turn does nothing. -/
theorem Rested.ipc_of_nothing (h : s.Rested initTable) (hkeeps : s.ipc.Keeps L)
    (hnone : ¬ s.HasText)
    (hstep : s.step (.sigusr2 .wait .free) = some s') : s'.ipc = s.ipc := by
  obtain ⟨i, t, t', hpcb, hcur, hi, hipc, hturn, hs'⟩ := h.sigusr2 hstep
  obtain ⟨t₁, hstore, hshow⟩ := startCrtIProcess_wait hturn
  obtain ⟨hmail, hdisplay⟩ : s.ipc.Empty (.recvMsgs i) ∧ s.ipc.Empty .displayQueue := by
    by_contra hnot
    exact hnone ⟨i, hpcb, hnot⟩
  rw [hkeeps.empty_iff] at hmail hdisplay
  rw [← hipc] at hkeeps
  rcases crtStore_cases hcur hi hstore with ⟨-, rfl⟩ | ⟨env, I, J, hreceive, -, rfl⟩
  · rcases crtShow_cases hcur hshow with ⟨rfl, -⟩ | ⟨-, env, I, crtBuf, hmove, rfl⟩
    · rw [hs', hipc]
    · obtain ⟨L', hL'⟩ := hkeeps.move_display hmove
      cases hL'.transfer with
      | display hl =>
        rw [hdisplay] at hl
        contradiction
  · obtain ⟨L', hL', -⟩ := hkeeps.move_receive hreceive
    cases hL'.transfer with
    | receive hl =>
      rw [hmail] at hl
      contradiction

theorem crtStore_text (hcur : t.sched.currentProcess = some i) (hi : (t.sched.ids i).2 = true)
    (hkeeps : t.ipc.Keeps L) (he : e ∈ L .screen)
    (htext : ¬ (t.ipc.Empty (.recvMsgs i) ∧ t.ipc.Empty .displayQueue))
    (hstore : t.crtStore = some t') :
    t'.sched.currentProcess = some i ∧ ∃ L', t'.ipc.Keeps L' ∧ e ∈ L' .screen ∧
      L' (.queue .displayQueue) ≠ [] := by
  rcases crtStore_cases hcur hi hstore with ⟨hempty, rfl⟩ | ⟨env, I, J, hreceive, hput, rfl⟩
  · exact ⟨hcur, L, hkeeps, he, fun hnil => htext ⟨hempty, hkeeps.empty_iff.2 hnil⟩⟩
  refine ⟨hcur, ?_⟩
  obtain ⟨L₁, h₁, -⟩ := hkeeps.move_receive hreceive
  obtain ⟨L₂, h₂⟩ := h₁.keeps.move (m := .store i env) (Ipc.held_receive hreceive).1 hput
  refine ⟨L₂, h₂.keeps, ?_⟩
  cases h₁.transfer with
  | receive hl =>
    cases h₂.transfer with
    | store henv =>
      rw [shift_other _ (by simp) (by simp), shift_other L (by simp) (by simp), shift_dst]
      exact ⟨he, by simp⟩

/-- The envelope of the overwritten text stays behind on the screen, and another is known. -/
theorem Rested.lost_of_overwrites (h : s.Rested initTable) (hkeeps : s.ipc.Keeps L)
    (he : s.ipc.prevMsg = some e)
    (htext : s.HasText) (hstep : s.step (.sigusr2 .wait .free) = some s') :
    spotOf s'.ipc.log e = .screen ∧ ∃ e', s'.ipc.prevMsg = some e' ∧ e' ≠ e := by
  obtain ⟨i, t, t', hpcb, hcur, hi, hipc, hturn, hs'⟩ := h.sigusr2 hstep
  obtain ⟨t₁, hstore, hshow⟩ := startCrtIProcess_wait hturn
  obtain ⟨j, hj, htext⟩ := htext
  obtain rfl : j = i := Option.some.inj (hj.symm.trans hpcb)
  have hscreen : e ∈ L .screen := hkeeps.screen e he
  rw [← hipc] at hkeeps htext
  obtain ⟨hcur₁, L₁, hkeeps₁, he₁, hne⟩ := crtStore_text hcur hi hkeeps hscreen htext hstore
  rw [hs']
  rcases crtShow_cases hcur₁ hshow with ⟨-, hempty⟩ | ⟨-, e', I, crtBuf, hmove, rfl⟩
  · have hone := hempty.resolve_left nofun
    refine absurd (hkeeps₁.empty_iff.1 ⟨1, hone, by decide⟩) hne
  · obtain ⟨L₂, h₂⟩ := hkeeps₁.move_display hmove
    refine ⟨?_, e', h₂.effect.prevMsg, ?_⟩
    · refine h₂.keeps.spot ?_
      cases h₂.transfer with
      | display hl =>
        rw [shift_dst]
        exact List.mem_cons_of_mem _ he₁
    · cases h₂.transfer with
      | display hl =>
        have hmem : e' ∈ L₁ (.queue .displayQueue) := by
          rw [hl]
          exact List.mem_cons_self
        exact hkeeps₁.ne_of_mem hmem he₁ nofun

/-- No act loses an envelope, but for a text shown over another. -/
theorem Acting.known (hact : Acting initTable b l t a t' L L')
    (hl : l = .sigusr2 .wait .free → b.ipc.prevMsg = none) (h : L .screen = t.ipc.prevMsg.toList) :
    L' .screen = t'.ipc.prevMsg.toList := by
  by_cases hm : ∃ m, a = .mail m
  · obtain ⟨m, rfl⟩ := hm
    have hmoves := hact.moves m rfl
    rw [hmoves.effect.prevMsg]
    have hok : m.Ok b l t := hact.ok
    cases hmoves.transfer with
    | display =>
      have hnone : t.ipc.prevMsg = none := by
        rcases hok.2 with hnone | ⟨hl', hsame⟩
        · exact hnone
        · exact hsame.trans (hl hl')
      rw [shift_dst, h, hnone]
      rfl
    | ack henv =>
      rw [h] at henv ⊢
      rw [shift_src _ (by simp)]
      have hprev := Option.mem_toList.1 henv
      rw [Option.mem_def.1 hprev]
      simp [MailMove.prevMsg]
    | fill | write | tick => exact h
    | send | receive | request | release | insert | expire | store =>
      rw [shift_other L (by simp) (by simp)]
      exact h
  · obtain ⟨hipc, rfl⟩ := hact.same fun m hma => hm ⟨m, hma⟩
    rw [hipc]
    exact h

theorem Rested.conserves (h : s.Rested initTable) (hL : s.ipc.Conserves L)
    (hcareful : s.Careful l) (hnot : ¬ s.Overwrites l) (hstep : s.step l = some s') :
    s'.Rested initTable ∧ ∃ L', s'.ipc.Conserves L' := by
  by_cases hl : l = .sigusr2 .wait .free → s.ipc.prevMsg = none
  · obtain ⟨h', L', hkeeps, hknown⟩ := h.tracks hL.toKeeps
      (I := fun t L => L .screen = t.ipc.prevMsg.toList) hL.known hcareful
      (fun t a t' L L' hact ht => hact.known hl ht) hstep
    exact ⟨h', L', hkeeps, hknown⟩
  · obtain ⟨rfl, hprev⟩ := Classical.not_imp.1 hl
    have hipc := h.ipc_of_nothing hL.toKeeps (fun htext => hnot ⟨rfl, hprev, htext⟩) hstep
    exact ⟨(h.step hcareful hstep).2, L, hipc ▸ hL⟩

theorem Booted.conserves (h : Booted initTable s) : s.ipc.Conserves Ipc.bootSpots := by
  obtain ⟨memory, S₀, -, -, hbooting, -⟩ := h.parts
  refine ⟨h.keeps, ?_⟩
  rw [hbooting.prevMsg]
  rfl

theorem conserves_reach
    (hs : Reach Kernel.step (Booted initTable) (fun s l => s.Careful l ∧ ¬ s.Overwrites l) s) :
    ∃ L, s.ipc.Conserves L := by
  have hinv : s.Rested initTable ∧ ∃ L, s.ipc.Conserves L := by
    apply hs.invariant
    · intro s hs
      exact ⟨hs.rested, _, hs.conserves⟩
    · rintro s l s' - ⟨h, L, hL⟩ ⟨hcareful, hnot⟩ hstep
      exact h.conserves hL hcareful hnot hstep
  exact hinv.2

end Kernel

/-- Along a run of processes that only give away and write what they have, every envelope stays in
exactly one place, the screen holding none but the one that the CRT i-process knows, if and only if
in no step a text is shown over one that was not acknowledged. -/
theorem conserved_iff {initTable : Fin n → PcbInit} {s : Kernel n} {ls : List RtxLabel}
    (hs : Kernel.Booted initTable s) (hls : Along Kernel.step Kernel.Careful s ls) :
    Always Kernel.step (fun s => ∃ L, s.ipc.Conserves L) s ls ↔
      Along Kernel.step (fun s l => ¬ s.Overwrites l) s ls := by
  refine always_iff_along (I := fun s => s.Rested initTable ∧ ∃ L, s.ipc.Conserves L) ?_
    (fun _ => And.right) ?_ ⟨hs.rested, _, hs.conserves⟩ hls
  · rintro s l s' ⟨h, L, hL⟩ hcareful hnot hstep
    exact h.conserves hL hcareful hnot hstep
  · rintro s l s' ⟨h, L, hL⟩ - hover hstep ⟨L', hL'⟩
    obtain ⟨rfl, hprev, htext⟩ := not_not.1 hover
    obtain ⟨e, he⟩ := Option.ne_none_iff_exists'.1 hprev
    obtain ⟨hspot, e', he', hne⟩ := h.lost_of_overwrites hL.toKeeps he htext hstep
    have hmem : e ∈ L' .screen := hL'.mem_iff.2 hspot
    rw [hL'.known, he', Option.toList_some, List.mem_singleton] at hmem
    exact hne hmem.symm

/-- Process A has two texts displayed. The helper is done with the first while the CRT i-process
looks. -/
def overwritten : List RtxLabel := [
  .call .requestMsgEnv,
  .call (.sendConsoleChars (some 0)),
  .sigusr2 .free .free,
  .call .requestMsgEnv,
  .call (.sendConsoleChars (some 1)),
  .sigusr2 .wait .free]

theorem conserved_iff_procCfg :
    ∃ s s', Kernel.kInit Kernel.Ram.zero procCfg = some s ∧
      exec Kernel.step s overwritten = some s' ∧ spotOf s'.ipc.log 0 = .screen ∧
      s'.ipc.prevMsg = some 1 ∧
      (Always Kernel.step (fun s => ∃ L, s.ipc.Conserves L) s overwritten ↔
        Along Kernel.step (fun s l => ¬ s.Overwrites l) s overwritten) := by
  have hrun : (Kernel.kInit Kernel.Ram.zero procCfg).any (fun s =>
      (exec (guarded Kernel.step Kernel.Careful) s overwritten).any fun s' =>
        decide (spotOf s'.ipc.log 0 = .screen ∧ s'.ipc.prevMsg = some 1)) = true := by
    decide +kernel
  obtain ⟨s, hinit, hrun⟩ := (Option.any_eq_true ..).1 hrun
  obtain ⟨s', hexec, hlost⟩ := (Option.any_eq_true ..).1 hrun
  obtain ⟨hspot, hprev⟩ := of_decide_eq_true hlost
  exact ⟨s, s', hinit, exec_of_guarded hexec, hspot, hprev,
    conserved_iff ⟨_, hinit⟩ (Along.guarded hexec)⟩

end Rtx.Unix
