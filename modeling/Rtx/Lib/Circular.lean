import Mathlib.Data.List.Basic
import Mathlib.Data.Nat.ModEq

/-!
# Circular buffers

A buffer of `cap` slots that is written in turn, from slot 0 on, and over again when it is full.
It holds the last `cap` elements of all that was written (`retained`). The oldest of them is in slot
`oldest`, and the others follow it around the circle; slots that were never written come last.
-/

namespace Circular

variable {α : Type*} {cap : ℕ} {blank : α → Prop} {buf : ℕ → α} {history : List α} {i k : ℕ}

/-- The last `cap` elements, oldest first. -/
def retained (cap : ℕ) (history : List α) : List α := history.drop (history.length - cap)

/-- The slot of the oldest element. -/
def oldest (cap : ℕ) (history : List α) : ℕ :=
  if history.length < cap then 0 else history.length % cap

/-- The buffer after `history` was written to it. The slots that are still unused are blank. -/
structure Rep (cap : ℕ) (blank : α → Prop) (buf : ℕ → α) (history : List α) : Prop where
  slot : ∀ k (hk : k < history.length), history.length ≤ k + cap → buf (k % cap) = history[k]
  unused : ∀ k, history.length ≤ k → k < cap → blank (buf k)

@[simp] theorem length_retained (cap : ℕ) (history : List α) :
    (retained cap history).length = min history.length cap := by
  rw [retained, List.length_drop]
  omega

theorem getElem_retained (hi : i < (retained cap history).length)
    (hpos : history.length - cap + i < history.length) :
    (retained cap history)[i] = history[history.length - cap + i] := by
  simp [retained]

/-- When the circle has been closed, or not begun, the oldest element is in slot 0. -/
theorem oldest_of_dvd (h : cap ∣ history.length) : oldest cap history = 0 := by
  unfold oldest
  split
  · rfl
  · exact Nat.mod_eq_zero_of_dvd h

theorem mem_of_mem_retained {x : α} (hx : x ∈ retained cap history) : x ∈ history :=
  List.mem_of_mem_drop hx

theorem Rep.empty (h : ∀ k, k < cap → blank (buf k)) : Rep cap blank buf [] where
  slot _ hk := absurd hk (Nat.not_lt_zero _)
  unused k _ hk := h k hk

theorem mod_ne {l : ℕ} (hk : k < l) (hl : l < k + cap) : k % cap ≠ l % cap := by
  intro heq
  have hdvd : cap ∣ l - k := (Nat.modEq_iff_dvd' hk.le).1 heq
  have hle : cap ≤ l - k := Nat.le_of_dvd (by omega) hdvd
  omega

theorem Rep.write (h : Rep cap blank buf history) (x : α) :
    Rep cap blank (Function.update buf (history.length % cap) x) (history ++ [x]) := by
  constructor
  · intro k hk hcap
    rw [List.length_append, List.length_singleton] at hk hcap
    rcases Nat.lt_succ_iff_lt_or_eq.1 hk with hlt | rfl
    · rw [Function.update_of_ne (mod_ne hlt (by omega)), List.getElem_append_left hlt]
      exact h.slot k hlt (by omega)
    · simp
  · intro k hk hcap
    rw [List.length_append, List.length_singleton] at hk
    rw [Nat.mod_eq_of_lt (by omega), Function.update_of_ne (by omega)]
    exact h.unused k (by omega) hcap

/-- Read from the oldest on. -/
theorem Rep.read (h : Rep cap blank buf history) (hi : i < (retained cap history).length) :
    buf ((oldest cap history + i) % cap) = (retained cap history)[i] := by
  have hlen : i < min history.length cap := by rwa [← length_retained]
  rw [getElem_retained hi (by omega),
    ← h.slot (history.length - cap + i) (by omega) (by omega)]
  congr 1
  unfold oldest
  split
  · rw [show history.length - cap = 0 by omega]
  · rename_i hfull
    rw [Nat.mod_add_mod]
    exact Nat.add_mod_eq_add_mod_right i (Nat.mod_eq_sub_mod (by omega))

theorem Rep.rest (h : Rep cap blank buf history) (hi : (retained cap history).length ≤ i)
    (hcap : i < cap) : blank (buf ((oldest cap history + i) % cap)) := by
  rw [length_retained] at hi
  rw [oldest, if_pos (by omega), Nat.zero_add, Nat.mod_eq_of_lt hcap]
  exact h.unused i (by omega) hcap

end Circular
