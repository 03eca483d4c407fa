import Mathlib.Logic.Basic
import Mathlib.Tactic.ByContra

/-!
# Runs of partial transition systems

A system is a function `step : σ → ℓ → Option σ`: a label either leads to the next state or is
not possible. A run is a list of labels. `Reach step init ok` are the states reached by runs
whose every step meets the side condition `ok`; `Along` and `Always` say of one run that its
steps, or its states, meet a condition.

The rules are the usual ones: an invariant holds in every reached state, a simulation extends
from steps to runs, and a condition that is enough for an invariant and necessary for a property
characterises the runs that keep the property.
-/

namespace Transition

variable {σ τ ℓ : Type*} {step : σ → ℓ → Option σ} {init : σ → Prop} {s s' : σ} {l : ℓ}
  {ls ls₁ ls₂ : List ℓ}

/-- Take the steps of a run, one after the other. -/
def exec (step : σ → ℓ → Option σ) : σ → List ℓ → Option σ
  | s, [] => some s
  | s, l :: ls => (step s l).bind fun s' => exec step s' ls

/-- Every step the run takes meets `ok`. -/
def Along (step : σ → ℓ → Option σ) (ok : σ → ℓ → Prop) : σ → List ℓ → Prop
  | _, [] => True
  | s, l :: ls => ∀ s', step s l = some s' → ok s l ∧ Along step ok s' ls

/-- Every state of the run satisfies `P`. -/
def Always (step : σ → ℓ → Option σ) (P : σ → Prop) : σ → List ℓ → Prop
  | s, [] => P s
  | s, l :: ls => P s ∧ ∀ s', step s l = some s' → Always step P s' ls

/-- The states reached from `init` by steps that meet `ok`. -/
inductive Reach (step : σ → ℓ → Option σ) (init : σ → Prop) (ok : σ → ℓ → Prop) : σ → Prop
  | init {s : σ} (h : init s) : Reach step init ok s
  | step {s s' : σ} {l : ℓ} (hs : Reach step init ok s) (hok : ok s l)
      (hstep : step s l = some s') : Reach step init ok s'

/-! ## Runs -/

@[simp] theorem exec_nil : exec step s [] = some s := rfl

theorem exec_cons_eq_some :
    exec step s (l :: ls) = some s' ↔ ∃ t, step s l = some t ∧ exec step t ls = some s' :=
  Option.bind_eq_some_iff

theorem exec_append :
    exec step s (ls₁ ++ ls₂) = (exec step s ls₁).bind fun t => exec step t ls₂ := by
  induction ls₁ generalizing s with
  | nil => rfl
  | cons l ls ih =>
    simp only [List.cons_append, exec, Option.bind_assoc]
    congr 1
    funext t
    exact ih

theorem Always.head {P : σ → Prop} (h : Always step P s ls) : P s := by
  cases ls with
  | nil => exact h
  | cons l ls => exact h.1

theorem Always.exec {P : σ → Prop} (h : Always step P s ls) (hrun : exec step s ls = some s') :
    P s' := by
  induction ls generalizing s with
  | nil => obtain rfl : s = s' := Option.some.inj hrun; exact h
  | cons l ls ih =>
    obtain ⟨t, ht, hrun⟩ := exec_cons_eq_some.1 hrun
    exact ih (h.2 t ht) hrun

theorem Along.of_forall {ok : σ → ℓ → Prop} (h : ∀ l ∈ ls, ∀ s, ok s l) : Along step ok s ls := by
  induction ls generalizing s with
  | nil => trivial
  | cons l ls ih =>
    exact fun s' _ => ⟨h l List.mem_cons_self s, ih fun l' hl' => h l' (List.mem_cons_of_mem l hl')⟩

theorem Along.mono {ok ok' : σ → ℓ → Prop} (h : Along step ok s ls)
    (hok : ∀ s, ∀ l ∈ ls, ok s l → ok' s l) : Along step ok' s ls := by
  induction ls generalizing s with
  | nil => trivial
  | cons l ls ih =>
    intro s' hs'
    obtain ⟨hl, h⟩ := h s' hs'
    exact ⟨hok s l List.mem_cons_self hl,
      ih h fun s l' hl' => hok s l' (List.mem_cons_of_mem l hl')⟩

theorem Along.concat {ok : σ → ℓ → Prop} (h : Along step ok s ls)
    (hl : ∀ t, exec step s ls = some t → ok t l) : Along step ok s (ls ++ [l]) := by
  induction ls generalizing s with
  | nil => exact fun s' _ => ⟨hl s rfl, trivial⟩
  | cons a ls ih =>
    intro t ht
    obtain ⟨ha, h⟩ := h t ht
    exact ⟨ha, ih h fun t' ht' => hl t' (exec_cons_eq_some.2 ⟨t, ht, ht'⟩)⟩

theorem exec_trans {t : σ} (h : exec step s ls₁ = some t) (h' : exec step t ls₂ = some s') :
    exec step s (ls₁ ++ ls₂) = some s' := by
  rw [exec_append, h]
  exact h'

theorem exec_concat (h : exec step s ls = some s') {t : σ} (hl : step s' l = some t) :
    exec step s (ls ++ [l]) = some t :=
  exec_trans h (exec_cons_eq_some.2 ⟨t, hl, rfl⟩)

theorem exec_total (h : ∀ s l, ∃ s', step s l = some s') (s : σ) (ls : List ℓ) :
    ∃ s', exec step s ls = some s' := by
  induction ls generalizing s with
  | nil => exact ⟨s, rfl⟩
  | cons l ls ih =>
    obtain ⟨t, ht⟩ := h s l
    obtain ⟨s', hs'⟩ := ih t
    exact ⟨s', exec_cons_eq_some.2 ⟨t, ht, hs'⟩⟩

/-- What every step preserves, a run preserves. -/
theorem exec_invariant {I : σ → Prop} {C : σ → ℓ → Prop}
    (hI : ∀ s l s', I s → C s l → step s l = some s' → I s') (hs : I s)
    (hok : Along step C s ls) (hrun : exec step s ls = some s') : I s' := by
  induction ls generalizing s with
  | nil => obtain rfl : s = s' := Option.some.inj hrun; exact hs
  | cons l ls ih =>
    obtain ⟨t, ht, hrun⟩ := exec_cons_eq_some.1 hrun
    obtain ⟨hl, hok⟩ := hok t ht
    exact ih (hI s l t hs hl ht) hok hrun

/-- A simulation of steps is a simulation of runs: the other system takes the same labels. -/
theorem exec_simulates {step' : τ → ℓ → Option τ} {R : σ → τ → Prop} {ok : σ → ℓ → Prop} {t : τ}
    (hR : ∀ s t l s', R s t → ok s l → step s l = some s' → ∃ t', step' t l = some t' ∧ R s' t')
    (hs : R s t) (hok : Along step ok s ls) (hrun : exec step s ls = some s') :
    ∃ t', exec step' t ls = some t' ∧ R s' t' := by
  induction ls generalizing s t with
  | nil => obtain rfl : s = s' := Option.some.inj hrun; exact ⟨t, rfl, hs⟩
  | cons l ls ih =>
    obtain ⟨s₁, hs₁, hrun⟩ := exec_cons_eq_some.1 hrun
    obtain ⟨hl, hok⟩ := hok s₁ hs₁
    obtain ⟨t₁, ht₁, h₁⟩ := hR s t l s₁ hs hl hs₁
    obtain ⟨t', ht', h'⟩ := ih h₁ hok hrun
    exact ⟨t', exec_cons_eq_some.2 ⟨t₁, ht₁, ht'⟩, h'⟩

/-! ## Reachable states -/

section Reach

variable {ok ok' : σ → ℓ → Prop}

/-- The invariant rule; the step may use that its state is reachable. -/
theorem Reach.invariant {I : σ → Prop} (h : Reach step init ok s) (hinit : ∀ s, init s → I s)
    (hI : ∀ s l s', Reach step init ok s → I s → ok s l → step s l = some s' → I s') : I s := by
  induction h with
  | init h => exact hinit _ h
  | step hs hok hstep ih => exact hI _ _ _ hs ih hok hstep

theorem Reach.mono (h : Reach step init ok s) (hok : ∀ s l, ok s l → ok' s l) :
    Reach step init ok' s := by
  induction h with
  | init h => exact .init h
  | step _ hl hstep ih => exact .step ih (hok _ _ hl) hstep

theorem Reach.trans (h : Reach step init ok s) (h' : Reach step (· = s) ok s') :
    Reach step init ok s' := by
  induction h' with
  | init heq => exact heq ▸ h
  | step _ hl hstep ih => exact .step ih hl hstep

theorem Reach.one (hok : ok s l) (hstep : step s l = some s') : Reach step (· = s) ok s' :=
  .step (.init rfl) hok hstep

/-- A run whose steps meet `ok` ends in a reachable state. -/
theorem Reach.exec (h : Reach step init ok s) (hok : Along step ok s ls)
    (hrun : Transition.exec step s ls = some s') : Reach step init ok s' := by
  induction ls generalizing s with
  | nil => obtain rfl : s = s' := Option.some.inj hrun; exact h
  | cons l ls ih =>
    obtain ⟨t, ht, hrun⟩ := exec_cons_eq_some.1 hrun
    obtain ⟨hl, hok⟩ := hok t ht
    exact ih (.step h hl ht) hok hrun

/-- The step, where the side condition holds. -/
def guarded (step : σ → ℓ → Option σ) (ok : σ → ℓ → Prop) [∀ s l, Decidable (ok s l)] (s : σ)
    (l : ℓ) : Option σ :=
  if ok s l then step s l else none

theorem exec_of_guarded [∀ s l, Decidable (ok s l)]
    (hrun : Transition.exec (guarded step ok) s ls = some s') :
    Transition.exec step s ls = some s' := by
  induction ls generalizing s with
  | nil => exact hrun
  | cons l ls ih =>
    obtain ⟨t, ht, hrun⟩ := exec_cons_eq_some.1 hrun
    exact exec_cons_eq_some.2 ⟨t, (Option.ite_none_right_eq_some.1 ht).2, ih hrun⟩

/-- A guarded run, which can be evaluated, ends in a reachable state. -/
theorem Reach.guarded [∀ s l, Decidable (ok s l)] (h : Reach step init ok s)
    (hrun : Transition.exec (guarded step ok) s ls = some s') : Reach step init ok s' := by
  refine exec_invariant (C := fun _ _ => True) (fun s l s' hs _ hstep => ?_) h
    (.of_forall fun _ _ _ => trivial) hrun
  obtain ⟨hok, hstep⟩ := Option.ite_none_right_eq_some.1 hstep
  exact .step hs hok hstep

theorem Along.guarded [∀ s l, Decidable (ok s l)]
    (hrun : Transition.exec (guarded step ok) s ls = some s') : Along step ok s ls := by
  induction ls generalizing s with
  | nil => trivial
  | cons l ls ih =>
    intro t ht
    obtain ⟨t', ht', hrun⟩ := exec_cons_eq_some.1 hrun
    obtain ⟨hok, hstep⟩ := Option.ite_none_right_eq_some.1 ht'
    obtain rfl := Option.some.inj (ht.symm.trans hstep)
    exact ⟨hok, ih hrun⟩

end Reach

/-! ## Exact conditions -/

/-- If `C` keeps the invariant `I`, `I` gives `P`, and a step against `C` breaks `P`, then the
runs that keep `P` are exactly those whose steps meet `C`. -/
theorem always_iff_along {I P : σ → Prop} {ok C : σ → ℓ → Prop}
    (hI : ∀ s l s', I s → ok s l → C s l → step s l = some s' → I s')
    (hP : ∀ s, I s → P s)
    (hbad : ∀ s l s', I s → ok s l → ¬ C s l → step s l = some s' → ¬ P s')
    (hs : I s) (hok : Along step ok s ls) : Always step P s ls ↔ Along step C s ls := by
  induction ls generalizing s with
  | nil => exact ⟨fun _ => trivial, fun _ => hP s hs⟩
  | cons l ls ih =>
    constructor
    · rintro ⟨-, halways⟩ s' hstep
      obtain ⟨hl, hok'⟩ := hok s' hstep
      have hC : C s l := by
        by_contra hC
        exact hbad s l s' hs hl hC hstep (halways s' hstep).head
      exact ⟨hC, (ih (hI s l s' hs hl hC hstep) hok').1 (halways s' hstep)⟩
    · intro halong
      refine ⟨hP s hs, fun s' hstep => ?_⟩
      obtain ⟨hl, hok'⟩ := hok s' hstep
      obtain ⟨hC, halong'⟩ := halong s' hstep
      exact (ih (hI s l s' hs hl hC hstep) hok').2 halong'

/-- The same, where nothing is asked of the steps but `C`. -/
theorem always_iff_along_of_step {I P : σ → Prop} {C : σ → ℓ → Prop}
    (hI : ∀ s l s', I s → C s l → step s l = some s' → I s') (hP : ∀ s, I s → P s)
    (hbad : ∀ s l s', I s → ¬ C s l → step s l = some s' → ¬ P s') (hs : I s) :
    Always step P s ls ↔ Along step C s ls := by
  have hok : Along step (fun _ _ => True) s ls := .of_forall fun _ _ _ => trivial
  apply always_iff_along _ hP _ hs hok
  · intro s l s' h _ hC hstep
    exact hI s l s' h hC hstep
  · intro s l s' h _ hC hstep
    exact hbad s l s' h hC hstep

/-! ## Results -/

section Results

variable {ρ : Type*} {run : σ → ℓ → Option (ρ × σ)} {spec : τ → ℓ → Option (ρ × τ)} {rs : List ρ}

/-- The results of a run whose steps return something. -/
def observe (run : σ → ℓ → Option (ρ × σ)) : σ → List ℓ → Option (List ρ)
  | _, [] => some []
  | s, l :: ls => (run s l).bind fun r => (observe run r.2 ls).map (r.1 :: ·)

/-- The step without its result. -/
def silent (run : σ → ℓ → Option (ρ × σ)) (s : σ) (l : ℓ) : Option σ := (run s l).map Prod.snd

theorem observe_total (h : ∀ s l, ∃ r s', run s l = some (r, s')) (s : σ) (ls : List ℓ) :
    ∃ rs, observe run s ls = some rs := by
  induction ls generalizing s with
  | nil => exact ⟨[], rfl⟩
  | cons l ls ih =>
    obtain ⟨r, t, ht⟩ := h s l
    obtain ⟨rs, hrs⟩ := ih t
    exact ⟨r :: rs, by rw [observe, ht, Option.bind_some, hrs]; rfl⟩

/-- Where every step is simulated with the same result, every run has the same results. -/
theorem observe_simulates {R : σ → τ → Prop} {ok : τ → ℓ → Prop} {t : τ}
    (hsim : ∀ s t l r t', R s t → ok t l → spec t l = some (r, t') →
      ∃ s', run s l = some (r, s') ∧ R s' t')
    (hR : R s t) (hok : Along (silent spec) ok t ls) (hspec : observe spec t ls = some rs) :
    observe run s ls = some rs := by
  induction ls generalizing s t rs with
  | nil => exact hspec
  | cons l ls ih =>
    obtain ⟨⟨r, t'⟩, hstep, hrest⟩ := Option.bind_eq_some_iff.1 hspec
    obtain ⟨rs', htail, rfl⟩ := Option.map_eq_some_iff.1 hrest
    obtain ⟨hl, hok⟩ := hok t' (by rw [silent, hstep]; rfl)
    obtain ⟨s', hstep', hR'⟩ := hsim s t l r t' hR hl hstep
    rw [observe, hstep', Option.bind_some, ih hR' hok htail]
    rfl

end Results

end Transition
