import Mathlib.Tactic.Ring

/-!
# Records in memory

Records of a fixed width, written to a memory at an offset and read back from there. `dump` writes
two arrays of them, one behind the other, in a single loop; neither overwrites the other
(`Codec.dump`).
-/

namespace Records

variable {β α : Type*} {w cap : ℕ} {norm : α → α} {get : β → ℕ → α} {put : β → ℕ → α → β}

/-- What is written as a record is read back, as `norm` keeps it, and does not touch the records
elsewhere. -/
structure Codec (w : ℕ) (norm : α → α) (get : β → ℕ → α) (put : β → ℕ → α → β) : Prop where
  get_put : ∀ b off x, get (put b off x) off = norm x
  get_put_of_ne : ∀ b off off' x, off + w ≤ off' ∨ off' + w ≤ off →
    get (put b off x) off' = get b off'

/-- The first `k` turns of a loop that writes two arrays of `cap` records. -/
def dump (put : β → ℕ → α → β) (w cap : ℕ) (b : β) (l r : ℕ → α) (k : ℕ) : β :=
  (List.range k).foldl (fun b i => put (put b (i * w) (l i)) (cap * w + i * w) (r i)) b

theorem dump_succ (b : β) (l r : ℕ → α) (k : ℕ) :
    dump put w cap b l r (k + 1) =
      put (put (dump put w cap b l r k) (k * w) (l k)) (cap * w + k * w) (r k) := by
  rw [dump, List.range_succ, List.foldl_append]
  rfl

/-- The records of both arrays are all there. -/
theorem Codec.dump (h : Codec w norm get put) (b : β) (l r : ℕ → α) {k : ℕ} (hk : k ≤ cap) {i : ℕ}
    (hi : i < k) : get (dump put w cap b l r k) (i * w) = norm (l i) ∧
      get (Records.dump put w cap b l r k) (cap * w + i * w) = norm (r i) := by
  induction k with
  | zero => omega
  | succ k ih =>
    have hlast : ∀ {j : ℕ}, j < cap → j * w + w ≤ cap * w := by
      intro j hj
      calc j * w + w = (j + 1) * w := by ring
        _ ≤ cap * w := Nat.mul_le_mul_right w hj
    have hk' := hlast (show k < cap by omega)
    rw [dump_succ]
    rcases Nat.lt_succ_iff_lt_or_eq.1 hi with hlt | rfl
    · obtain ⟨hl, hr⟩ := ih (by omega) hlt
      have hi' := hlast (show i < cap by omega)
      have hstep : i * w + w ≤ k * w := by
        calc i * w + w = (i + 1) * w := by ring
          _ ≤ k * w := Nat.mul_le_mul_right w hlt
      constructor
      · rw [h.get_put_of_ne _ _ _ _ (by omega), h.get_put_of_ne _ _ _ _ (by omega), hl]
      · rw [h.get_put_of_ne _ _ _ _ (by omega), h.get_put_of_ne _ _ _ _ (by omega), hr]
    · constructor
      · rw [h.get_put_of_ne _ _ _ _ (by omega), h.get_put]
      · rw [h.get_put]

end Records
