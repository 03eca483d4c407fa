import Mathlib.Algebra.Order.Ring.Int
import Mathlib.Data.Finset.Card
import Mathlib.Tactic.Linarith

/-!
# Deadlines, served one at a tick

Jobs wait until they are due. Each tick of a clock may bring new jobs, which are not due before it,
and serves one job that is due, if there is one: the one that is due first. `Within bound` says that
every waiting job will have been served at most `bound` ticks late, because no more jobs are due
before it. A tick and the service after it keep that, whatever comes in between, as long as no more
than `bound + 1` jobs wait.
-/

namespace Deadlines

variable {α : Type*} [DecidableEq α] {waiting : Finset α} {due : α → ℤ} {clock bound : ℤ} {x : α}

/-- The jobs that wait and are due no later than `x`. -/
def upTo (waiting : Finset α) (due : α → ℤ) (x : α) : Finset α := {y ∈ waiting | due y ≤ due x}

/-- A job that is due now is no more than `bound` ticks late when all up to it have been served. -/
def Within (bound : ℤ) (waiting : Finset α) (due : α → ℤ) (clock : ℤ) : Prop :=
  ∀ x ∈ waiting, due x ≤ clock → (upTo waiting due x).card + (clock - due x) ≤ bound

omit [DecidableEq α] in
theorem mem_upTo_self (hx : x ∈ waiting) : x ∈ upTo waiting due x :=
  Finset.mem_filter.2 ⟨hx, le_rfl⟩

omit [DecidableEq α] in
theorem card_upTo_le (waiting : Finset α) (due : α → ℤ) (x : α) :
    (upTo waiting due x).card ≤ waiting.card := Finset.card_filter_le ..

omit [DecidableEq α] in
theorem Within.late (h : Within bound waiting due clock) (hx : x ∈ waiting) (hdue : due x ≤ clock) :
    clock - due x < bound := by
  have hcard : 0 < (upTo waiting due x).card := Finset.card_pos.2 ⟨x, mem_upTo_self hx⟩
  have hbound := h x hx hdue
  omega

omit [DecidableEq α] in
theorem Within.congr {due' : α → ℤ} (h : Within bound waiting due clock)
    (hdue : ∀ y ∈ waiting, due' y = due y) : Within bound waiting due' clock := by
  intro x hx hle
  have hupTo : upTo waiting due' x = upTo waiting due x := by
    refine Finset.filter_congr fun y hy => ?_
    rw [hdue y hy, hdue x hx]
  rw [hdue x hx] at hle ⊢
  rw [hupTo]
  exact h x hx hle

omit [DecidableEq α] in
/-- After a tick the jobs are one tick later. A job that has just become due is in time. -/
theorem Within.tick (h : Within bound waiting due clock) (hcard : waiting.card ≤ bound + 1) :
    Within (bound + 1) waiting due (clock + 1) := by
  intro x hx hdue
  by_cases hlate : due x ≤ clock
  · have hbound := h x hx hlate
    omega
  · have hle := card_upTo_le waiting due x
    omega

/-- Jobs that are not due before now are behind all that are late. -/
theorem Within.join {more : Finset α} (h : Within bound waiting due clock)
    (hmore : ∀ x ∈ more, clock ≤ due x) (hcard : (waiting ∪ more).card ≤ bound) :
    Within bound (waiting ∪ more) due clock := by
  intro x hx hdue
  by_cases hnow : due x = clock
  · have hle := card_upTo_le (waiting ∪ more) due x
    omega
  have hahead : ∀ y ∈ more, ¬ due y ≤ due x := by
    intro y hy
    have hle := hmore y hy
    omega
  have hx' : x ∈ waiting := (Finset.mem_union.1 hx).resolve_right fun hx => hahead x hx le_rfl
  have hupTo : upTo (waiting ∪ more) due x = upTo waiting due x := by
    rw [upTo, Finset.filter_union, Finset.filter_false_of_mem hahead, Finset.union_empty, upTo]
  rw [hupTo]
  exact h x hx' hdue

/-- The job that is due first was up to every other. -/
theorem Within.serve (h : Within (bound + 1) waiting due clock) (hx : x ∈ waiting)
    (hfirst : ∀ y ∈ waiting, due x ≤ due y) : Within bound (waiting.erase x) due clock := by
  intro y hy hdue
  have hy' : y ∈ waiting := Finset.mem_of_mem_erase hy
  have hbound := h y hy' hdue
  have hmem : x ∈ upTo waiting due y := Finset.mem_filter.2 ⟨hx, hfirst y hy'⟩
  have hupTo : upTo (waiting.erase x) due y = (upTo waiting due y).erase x := by
    ext z
    simp [upTo, and_assoc]
  rw [hupTo, Finset.card_erase_of_mem hmem]
  have hpos : 0 < (upTo waiting due y).card := Finset.card_pos.2 ⟨x, hmem⟩
  omega

omit [DecidableEq α] in
theorem Within.idle (h : ∀ x ∈ waiting, clock < due x) : Within bound waiting due clock :=
  fun x hx hdue => absurd hdue (not_le.2 (h x hx))

end Deadlines
