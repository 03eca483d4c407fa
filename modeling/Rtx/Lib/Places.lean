import Mathlib.Data.List.Nodup
import Mathlib.Data.List.Perm.Basic
import Mathlib.Logic.Function.Basic

/-!
# Things in places

A family of lists `L : κ → List α`, one for each place. `Partition L` says that every thing is in
exactly one place, exactly once. The only operation is to move a thing from one place to another
(`Move`, `shift`): the lists of the two places change, up to order, by that thing.
-/

namespace Places

variable {κ α : Type*} {L L' : κ → List α} {a b : κ} {e x : α} {l l' : List α}

/-- Every thing is in exactly one place, exactly once. -/
structure Partition (L : κ → List α) : Prop where
  exists_place : ∀ e, ∃ a, e ∈ L a
  unique : ∀ {e a b}, e ∈ L a → e ∈ L b → a = b
  nodup : ∀ a, (L a).Nodup

theorem Partition.not_mem (h : Partition L) (he : e ∈ L a) (hab : b ≠ a) : e ∉ L b := fun hb =>
  hab (h.unique hb he)

/-! ## Moves -/

/-- The thing `e` goes from `a` to `b`. -/
structure Move (L L' : κ → List α) (e : α) (a b : κ) : Prop where
  ne : a ≠ b
  src : (L a).Perm (e :: L' a)
  dst : (L' b).Perm (e :: L b)
  other : ∀ c, c ≠ a → c ≠ b → L' c = L c

theorem Move.mem_src (hm : Move L L' e a b) : e ∈ L a := hm.src.mem_iff.2 List.mem_cons_self

theorem Move.mem_dst (hm : Move L L' e a b) : e ∈ L' b := hm.dst.mem_iff.2 List.mem_cons_self

/-- Where each thing is afterwards. -/
theorem Partition.mem_move (h : Partition L) (hm : Move L L' e a b) {c : κ} :
    x ∈ L' c ↔ (x = e ∧ c = b) ∨ (x ≠ e ∧ x ∈ L c) := by
  by_cases hcb : c = b
  · subst hcb
    rw [hm.dst.mem_iff, List.mem_cons]
    have hec : e ∉ L c := h.not_mem hm.mem_src (Ne.symm hm.ne)
    by_cases hx : x = e
    · simp [hx]
    · simp [hx]
  by_cases hca : c = a
  · subst hca
    have hnd := List.nodup_cons.1 (hm.src.nodup_iff.1 (h.nodup c))
    by_cases hx : x = e
    · subst hx
      simp [hcb, hnd.1]
    · simp [hx, hm.src.mem_iff]
  · rw [hm.other c hca hcb]
    by_cases hx : x = e
    · subst hx
      simp [hcb, h.not_mem hm.mem_src hca]
    · simp [hx]

/-- What is elsewhere stays where it is. -/
theorem Partition.mem_of_move (h : Partition L) (hm : Move L L' e a b) {c : κ} (hc : c ≠ a)
    (hx : x ∈ L c) : x ∈ L' c := by
  refine (h.mem_move hm).2 (.inr ⟨?_, hx⟩)
  rintro rfl
  exact hc (h.unique hx hm.mem_src)

theorem Partition.move (h : Partition L) (hm : Move L L' e a b) : Partition L' := by
  constructor
  · intro x
    by_cases hx : x = e
    · exact ⟨b, (h.mem_move hm).2 (.inl ⟨hx, rfl⟩)⟩
    · obtain ⟨c, hc⟩ := h.exists_place x
      exact ⟨c, (h.mem_move hm).2 (.inr ⟨hx, hc⟩)⟩
  · intro x c d hc hd
    rcases (h.mem_move hm).1 hc with ⟨rfl, rfl⟩ | ⟨hx, hc⟩ <;>
      rcases (h.mem_move hm).1 hd with ⟨hx', hd⟩ | ⟨hx', hd⟩
    · exact hd.symm
    · exact absurd rfl hx'
    · exact absurd hx' hx
    · exact h.unique hc hd
  · intro c
    by_cases hcb : c = b
    · subst hcb
      rw [hm.dst.nodup_iff, List.nodup_cons]
      exact ⟨h.not_mem hm.mem_src (Ne.symm hm.ne), h.nodup c⟩
    by_cases hca : c = a
    · subst hca
      exact (List.nodup_cons.1 (hm.src.nodup_iff.1 (h.nodup c))).2
    · rw [hm.other c hca hcb]
      exact h.nodup c

section Shift

variable [DecidableEq κ]

/-- The contents after a thing went from `a`, where `l` is left, to `b`, where `l'` is now. -/
def shift (L : κ → List α) (a b : κ) (l l' : List α) : κ → List α :=
  Function.update (Function.update L a l) b l'

@[simp] theorem shift_dst (L : κ → List α) (a b : κ) (l l' : List α) : shift L a b l l' b = l' :=
  Function.update_self ..

theorem shift_src (L : κ → List α) (hab : a ≠ b) (l l' : List α) : shift L a b l l' a = l := by
  rw [shift, Function.update_of_ne hab, Function.update_self]

theorem shift_other (L : κ → List α) {c : κ} (hca : c ≠ a) (hcb : c ≠ b) (l l' : List α) :
    shift L a b l l' c = L c := by
  rw [shift, Function.update_of_ne hcb, Function.update_of_ne hca]

theorem move_shift (hab : a ≠ b) (ha : (L a).Perm (e :: l)) (hb : l'.Perm (e :: L b)) :
    Move L (shift L a b l l') e a b where
  ne := hab
  src := by rwa [shift_src L hab]
  dst := by rwa [shift_dst]
  other _ hca hcb := shift_other L hca hcb l l'

/-- A thing is moved. -/
theorem Partition.shift (h : Partition L) (hab : a ≠ b) (ha : (L a).Perm (e :: l))
    (hb : l'.Perm (e :: L b)) : Partition (shift L a b l l') :=
  h.move (move_shift hab ha hb)

end Shift

end Places
