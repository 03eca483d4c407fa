import Mathlib.Data.List.TakeWhile

/-!
# Fields

The maximal runs of elements between separators, in order: the pieces of a split that are not empty.
A scanner that skips separators and then takes everything up to the next one finds the first of them
(`headD_fields`), and leaves the others (`fields_rest`).
-/

namespace Fields

variable {α : Type*} {p : α → Bool} {l : List α}

/-- The maximal runs of elements that are no separators. -/
def fields (p : α → Bool) (l : List α) : List (List α) := (l.splitOnP p).filter (!·.isEmpty)

/-- What comes first behind leading separators. -/
def first (p : α → Bool) (l : List α) : List α := (l.dropWhile p).takeWhile (!p ·)

/-- What comes behind that. -/
def rest (p : α → Bool) (l : List α) : List α := (l.dropWhile p).dropWhile (!p ·)

@[simp] theorem fields_nil : fields p [] = [] := rfl

theorem fields_cons_separator {a : α} (h : p a = true) : fields p (a :: l) = fields p l := by
  simp [fields, List.splitOnP_cons_eq_if_modifyHead, h]

theorem fields_dropWhile (l : List α) : fields p (l.dropWhile p) = fields p l := by
  induction l with
  | nil => rfl
  | cons a l ih =>
    by_cases ha : p a = true
    · rw [List.dropWhile_cons_of_pos ha, ih, fields_cons_separator ha]
    · rw [List.dropWhile_cons_of_neg ha]

theorem fields_append {run : List α} (hrun : run ≠ []) (hp : ∀ a ∈ run, p a = false)
    (hl : ∀ a ∈ l.head?, p a = true) : fields p (run ++ l) = run :: fields p l := by
  cases l with
  | nil => simp [fields, List.splitOnP_eq_singleton hp, hrun]
  | cons a l =>
    have ha : p a = true := hl a rfl
    rw [fields_cons_separator ha]
    simp [fields, List.splitOnP_append_cons_of_forall_mem hp a ha, hrun]

/-- Behind the separators there is nothing, or the first field and then the others. -/
theorem fields_cases (p : α → Bool) (l : List α) :
    (first p l = [] ∧ rest p l = [] ∧ fields p l = []) ∨
      fields p l = first p l :: fields p (rest p l) := by
  rw [← fields_dropWhile l]
  unfold first rest
  cases hdrop : l.dropWhile p with
  | nil => exact .inl ⟨rfl, rfl, rfl⟩
  | cons a l' =>
    have ha : p a = false := by
      have h := List.head_dropWhile_not p (l := l) (by simp [hdrop])
      simpa [hdrop] using h
    refine .inr ?_
    have hsplit : a :: l' = (a :: l').takeWhile (!p ·) ++ (a :: l').dropWhile (!p ·) :=
      List.takeWhile_append_dropWhile.symm
    have hrun : (a :: l').takeWhile (!p ·) ≠ [] := by simp [ha]
    have hp : ∀ b ∈ (a :: l').takeWhile (!p ·), p b = false := by
      intro b hb
      simpa using List.mem_takeWhile_imp hb
    have hnext : ∀ b ∈ ((a :: l').dropWhile (!p ·)).head?, p b = true := by
      intro b hb
      have h := List.head?_dropWhile_not (!p ·) (a :: l')
      rw [Option.mem_def.1 hb] at h
      simpa using h
    exact (congrArg (fields p) hsplit).trans (fields_append hrun hp hnext)

theorem headD_fields (p : α → Bool) (l : List α) : (fields p l).headD [] = first p l := by
  obtain ⟨hfirst, -, hnone⟩ | hsome := fields_cases p l
  · rw [hfirst, hnone]
    rfl
  · rw [hsome]
    rfl

theorem fields_rest (p : α → Bool) (l : List α) : fields p (rest p l) = (fields p l).tail := by
  obtain ⟨-, hrest, hnone⟩ | hsome := fields_cases p l
  · rw [hrest, hnone]
    rfl
  · rw [hsome]
    rfl

end Fields
