import Mathlib.Data.Int.Notation
import Mathlib.Data.List.Nodup
import Mathlib.Logic.Function.Basic

/-!
# Stable priority queues

An array of lists, indexed by priority. An element is appended to the list of its priority, the
first element of the first list that has one is taken, and an element can be removed wherever it
stands. Where an element enters the queue only while it is not in it, and changes its priority only
then, it is always in the list of its priority and nowhere else (`Placed`).
-/

namespace LevelQueue

variable {α : Type*}

/-- The lists, of which the first `numLevels` are in use, and the priorities of the elements. -/
structure State (α : Type*) where
  numLevels : ℕ
  priority : α → ℤ
  levels : ℕ → List α

inductive Op (α : Type*)
  | enqueue (a : α)
  | dequeue
  | remove (a : α)
  | setPriority (a : α) (priority : ℤ)
  deriving DecidableEq

/-- What an operation returns. -/
inductive Result (α : Type*)
  | accepted (accepted : Bool)
  | element (a : Option α)
  | done
  deriving DecidableEq

namespace State

/-- The queue without elements. -/
def empty (numLevels : ℕ) (priority : α → ℤ) : State α := ⟨numLevels, priority, fun _ => []⟩

/-- The level for the priority of an element, if there is one. -/
def levelOf (s : State α) (a : α) : Option ℕ :=
  if 0 ≤ s.priority a ∧ s.priority a < s.numLevels then some (s.priority a).toNat else none

/-- Replace one level. -/
def setLevel (s : State α) (i : ℕ) (l : List α) : State α :=
  { s with levels := Function.update s.levels i l }

/-- The first level that has an element. -/
def firstLevel (s : State α) : Option ℕ :=
  (List.range s.numLevels).find? fun i => !(s.levels i).isEmpty

/-- The element is in no level. -/
def Out (s : State α) (a : α) : Prop := ∀ i < s.numLevels, a ∉ s.levels i

/-- An element enters the queue, and changes its priority, only while it is not in it. -/
def Proper (s : State α) : Op α → Prop
  | .enqueue a | .setPriority a _ => s.Out a
  | .dequeue | .remove _ => True

/-- Every element is in the level of its priority, once. -/
structure Placed (s : State α) : Prop where
  level : ∀ i, ∀ a ∈ s.levels i, s.levelOf a = some i
  nodup : ∀ i, (s.levels i).Nodup

variable {s : State α} {a : α} {i j : ℕ} {l : List α} {op : Op α}

@[simp] theorem setLevel_self (s : State α) (i : ℕ) (l : List α) :
    (s.setLevel i l).levels i = l := Function.update_self ..

theorem setLevel_of_ne (s : State α) (l : List α) (h : j ≠ i) :
    (s.setLevel i l).levels j = s.levels j := Function.update_of_ne h ..

@[simp] theorem levelOf_setLevel (s : State α) (i : ℕ) (l : List α) (a : α) :
    (s.setLevel i l).levelOf a = s.levelOf a := rfl

theorem lt_of_levelOf (h : s.levelOf a = some i) : i < s.numLevels := by
  unfold levelOf at h
  split at h
  · rename_i hrange
    have hi : (s.priority a).toNat = i := Option.some.inj h
    omega
  · contradiction

theorem firstLevel_eq_some (h : s.firstLevel = some i) :
    i < s.numLevels ∧ s.levels i ≠ [] ∧ ∀ j < i, s.levels j = [] := by
  have hi : i < s.numLevels := List.mem_range.1 (List.mem_of_find?_eq_some h)
  obtain ⟨hsome, hfirst⟩ := List.find?_range_eq_some.1 h
  refine ⟨hi, by simpa using hsome, fun j hj => ?_⟩
  simpa using hfirst.2 j hj

theorem firstLevel_eq_none (h : s.firstLevel = none) : ∀ j < s.numLevels, s.levels j = [] := by
  intro j hj
  simpa using List.find?_eq_none.1 h j (List.mem_range.2 hj)

theorem Placed.lt (h : s.Placed) (ha : a ∈ s.levels i) : i < s.numLevels :=
  lt_of_levelOf (h.level i a ha)

/-- An element is in one level at most. -/
theorem Placed.unique (h : s.Placed) (hi : a ∈ s.levels i) (hj : a ∈ s.levels j) : i = j :=
  Option.some.inj ((h.level i a hi).symm.trans (h.level j a hj))

theorem Placed.setLevel (h : s.Placed) (hl : ∀ a ∈ l, s.levelOf a = some i) (hnodup : l.Nodup) :
    (s.setLevel i l).Placed := by
  constructor
  · intro j a ha
    rw [levelOf_setLevel]
    by_cases hj : j = i
    · subst hj
      rw [setLevel_self] at ha
      exact hl a ha
    · rw [setLevel_of_ne s l hj] at ha
      exact h.level j a ha
  · intro j
    by_cases hj : j = i
    · subst hj
      rw [setLevel_self]
      exact hnodup
    · rw [setLevel_of_ne s l hj]
      exact h.nodup j

theorem placed_empty (numLevels : ℕ) (priority : α → ℤ) : (empty numLevels priority).Placed where
  level _ _ ha := absurd ha List.not_mem_nil
  nodup _ := List.nodup_nil

/-! ## Operations -/

variable [DecidableEq α]

/-- One operation. -/
def step (s : State α) : Op α → Result α × State α
  | .enqueue a =>
    match s.levelOf a with
    | none => (.accepted false, s)
    | some i => (.accepted true, s.setLevel i (s.levels i ++ [a]))
  | .dequeue =>
    match s.firstLevel with
    | none => (.element none, s)
    | some i => (.element (s.levels i).head?, s.setLevel i (s.levels i).tail)
  | .remove a =>
    match s.levelOf a with
    | none => (.element none, s)
    | some i =>
      if a ∈ s.levels i then (.element (some a), s.setLevel i ((s.levels i).erase a))
      else (.element none, s)
  | .setPriority a priority => (.done, { s with priority := Function.update s.priority a priority })

instance (s : State α) (a : α) : Decidable (s.Out a) := by
  unfold Out
  infer_instance

instance (s : State α) : (op : Op α) → Decidable (s.Proper op)
  | .enqueue a | .setPriority a _ => inferInstanceAs (Decidable (s.Out a))
  | .dequeue | .remove _ => isTrue trivial

/-- Every operation that is made properly keeps the elements in place. -/
theorem Placed.step (h : s.Placed) (hop : s.Proper op) : (s.step op).2.Placed := by
  cases op with
  | enqueue a =>
    unfold State.step
    simp only
    split
    · exact h
    · rename_i i hi
      refine h.setLevel ?_ ?_
      · intro b hb
        rcases List.mem_append.1 hb with hb | hb
        · exact h.level i b hb
        · rw [List.mem_singleton.1 hb, hi]
      · have hnodup := (h.nodup i).concat (hop i (lt_of_levelOf hi))
        rwa [List.concat_eq_append] at hnodup
  | dequeue =>
    unfold State.step
    simp only
    split
    · exact h
    · rename_i i hi
      exact h.setLevel (fun b hb => h.level i b (List.mem_of_mem_tail hb)) (h.nodup i).tail
  | remove a =>
    unfold State.step
    simp only
    split
    · exact h
    · rename_i i hi
      split
      · exact h.setLevel (fun b hb => h.level i b (List.mem_of_mem_erase hb)) ((h.nodup i).erase a)
      · exact h
  | setPriority a priority =>
    constructor
    · intro i b hb
      have hne : b ≠ a := by
        rintro rfl
        exact hop i (h.lt hb) hb
      have hlevel := h.level i b hb
      unfold levelOf at hlevel ⊢
      simp only [State.step, Function.update_of_ne hne]
      exact hlevel
    · exact h.nodup

end State

end LevelQueue
