import Mathlib.Data.List.Nodup
import Mathlib.Logic.Function.Basic

/-!
# Intrusive singly linked lists

A memory of nodes is a function `next : α → Option α`; a pointer is an `Option α`, with `none`
the null pointer. `Seg next p l q` says that walking from `p` visits the nodes `l` in order and
then stands at `q`; `Chain next p l` is a walk that ends at null. `Rep next head tail l` is the
usual head/tail queue over such a memory.

Everything is proved from `seg_append`: a list operation is a walk cut into two parts, and a
write to one node leaves the walks that avoid it alone (`Seg.update`). Nothing is said about the
tail of an empty queue, since the operations never read it.

`walk` is the loop over a list: it has a result on a list that ends (`Ends`), and then the one of a
fold over the nodes.

`Family next head tail l` is any number of queues in one memory, no node in two of them. There the
tail of an empty queue is null.
-/

namespace Linked

variable {α : Type*} {next next' : α → Option α} {p q h t : Option α} {l l₁ l₂ : List α} {a b : α}

/-! ## Walks -/

/-- Walking from `p` visits exactly `l` and arrives at `q`. -/
def Seg (next : α → Option α) : Option α → List α → Option α → Prop
  | p, [], q => p = q
  | p, a :: l, q => p = some a ∧ Seg next (next a) l q

/-- Walking from `p` visits exactly `l` and ends at null. -/
def Chain (next : α → Option α) (p : Option α) (l : List α) : Prop := Seg next p l none

@[simp] theorem seg_nil : Seg next p [] q ↔ p = q := Iff.rfl

@[simp] theorem seg_cons : Seg next p (a :: l) q ↔ p = some a ∧ Seg next (next a) l q := Iff.rfl

@[simp] theorem chain_nil : Chain next p [] ↔ p = none := Iff.rfl

@[simp] theorem chain_cons : Chain next p (a :: l) ↔ p = some a ∧ Chain next (next a) l := Iff.rfl

theorem seg_append : Seg next p (l₁ ++ l₂) q ↔ ∃ r, Seg next p l₁ r ∧ Seg next r l₂ q := by
  induction l₁ generalizing p with
  | nil => simp
  | cons a l ih => simp [ih, and_assoc]

theorem chain_append : Chain next p (l₁ ++ l₂) ↔ ∃ r, Seg next p l₁ r ∧ Chain next r l₂ :=
  seg_append

theorem Seg.congr (hs : Seg next p l q) (hn : ∀ a ∈ l, next' a = next a) : Seg next' p l q := by
  induction l generalizing p with
  | nil => exact hs
  | cons a l ih =>
    obtain ⟨rfl, hs⟩ := hs
    refine ⟨rfl, ?_⟩
    rw [hn a List.mem_cons_self]
    exact ih hs fun b hb => hn b (List.mem_cons_of_mem a hb)

theorem Chain.congr (hc : Chain next p l) (hn : ∀ a ∈ l, next' a = next a) : Chain next' p l :=
  Seg.congr hc hn

theorem Chain.unique (hc : Chain next p l) (hc' : Chain next p l₁) : l = l₁ := by
  induction l generalizing p l₁ with
  | nil =>
    cases l₁ with
    | nil => rfl
    | cons b l₁ => exact absurd (hc.symm.trans hc'.1) (by simp)
  | cons a l ih =>
    obtain ⟨rfl, hc⟩ := hc
    cases l₁ with
    | nil => exact absurd hc' (by simp [Chain])
    | cons b l₁ =>
      obtain ⟨hb, hc'⟩ := hc'
      obtain rfl : a = b := Option.some.inj hb
      rw [ih hc hc']

/-- A walk that ends at null never visits a node twice. -/
theorem Chain.nodup (hc : Chain next p l) : l.Nodup := by
  induction l generalizing p with
  | nil => exact List.nodup_nil
  | cons a l ih =>
    obtain ⟨rfl, hc⟩ := hc
    refine List.nodup_cons.2 ⟨fun ha => ?_, ih hc⟩
    -- The walk from `a` would be both `l` and a proper suffix of `l`.
    obtain ⟨l₁, l₂, rfl⟩ := List.append_of_mem ha
    obtain ⟨r, -, hr⟩ := chain_append.1 hc
    have hlen := congrArg List.length (Chain.unique hr.2 hc)
    simp only [List.length_append, List.length_cons] at hlen
    omega

section Write

variable [DecidableEq α]

theorem Seg.update (hs : Seg next p l q) (ha : a ∉ l) (v : Option α) :
    Seg (Function.update next a v) p l q :=
  hs.congr fun b hb => Function.update_of_ne (by rintro rfl; exact ha hb) _ _

theorem Chain.update (hc : Chain next p l) (ha : a ∉ l) (v : Option α) :
    Chain (Function.update next a v) p l :=
  Seg.update hc ha v

theorem Chain.insertAfter (hc : Chain next p (l₁ ++ a :: l₂)) (hb : b ∉ l₁ ++ a :: l₂) :
    Chain (Function.update (Function.update next a (some b)) b (next a)) p
      (l₁ ++ a :: b :: l₂) := by
  have hnd := hc.nodup
  simp only [List.mem_append, List.mem_cons, not_or] at hb
  obtain ⟨hb₁, hba, hb₂⟩ := hb
  obtain ⟨ha₁, ha₂⟩ : a ∉ l₁ ∧ a ∉ l₂ := by
    rw [List.nodup_append, List.nodup_cons] at hnd
    exact ⟨fun h => hnd.2.2 a h a List.mem_cons_self rfl, hnd.2.1.1⟩
  obtain ⟨r, h₁, rfl, h₂⟩ := chain_append.1 hc
  refine chain_append.2 ⟨some a, (h₁.update ha₁ _).update hb₁ _, rfl, ?_, ?_⟩
  · rw [Function.update_of_ne (Ne.symm hba), Function.update_self]
  · rw [Function.update_self]
    exact (Seg.update h₂ ha₂ _).update hb₂ _

/-- Link `b` in behind the last of `l₁`. -/
theorem Chain.insertBehind (hc : Chain next p (l₁ ++ l₂)) (hlast : l₁.getLast? = some a)
    (hb : b ∉ l₁ ++ l₂) :
    Chain (Function.update (Function.update next a (some b)) b l₂.head?) p (l₁ ++ b :: l₂) := by
  obtain ⟨l₀, rfl⟩ := List.getLast?_eq_some_iff.1 hlast
  rw [List.append_assoc, List.singleton_append] at hc
  have hnext : l₂.head? = next a := by
    obtain ⟨r, -, rfl, hr⟩ := chain_append.1 hc
    cases l₂ with
    | nil => exact hr.symm
    | cons c l₂ => exact hr.1.symm
  rw [hnext, List.append_assoc, List.singleton_append]
  exact hc.insertAfter (by simpa using hb)

theorem Chain.push (hc : Chain next p l) (hb : b ∉ l) :
    Chain (Function.update next b p) (some b) (b :: l) := by
  refine ⟨rfl, ?_⟩
  rw [Function.update_self]
  exact hc.update hb p

theorem Chain.removeAfter (hc : Chain next p (l₁ ++ a :: b :: l₂)) :
    Chain (Function.update (Function.update next a (next b)) b none) p (l₁ ++ a :: l₂) := by
  have hnd := hc.nodup
  rw [List.nodup_append, List.nodup_cons, List.nodup_cons] at hnd
  obtain ⟨-, ⟨hab, hb₂, -⟩, hdis⟩ := hnd
  have ha₁ : a ∉ l₁ := fun h => hdis a h a List.mem_cons_self rfl
  have hb₁ : b ∉ l₁ := fun h => hdis b h b (List.mem_cons_of_mem a List.mem_cons_self) rfl
  have hba : a ≠ b := fun h => hab (h ▸ List.mem_cons_self)
  have ha₂ : a ∉ l₂ := fun h => hab (List.mem_cons_of_mem b h)
  obtain ⟨r, h₁, rfl, -, h₂⟩ := chain_append.1 hc
  refine chain_append.2 ⟨some a, (h₁.update ha₁ _).update hb₁ _, rfl, ?_⟩
  rw [Function.update_of_ne hba, Function.update_self]
  exact (Seg.update h₂ ha₂ _).update hb₂ _

end Write

/-! ## Walks that end -/

/-- The walk from `p` ends at null. -/
def Ends (next : α → Option α) (p : Option α) : Prop := ∃ l, Chain next p l

theorem Ends.null : Ends next none := ⟨[], rfl⟩

theorem Ends.single (ha : next a = none) : Ends next (some a) := ⟨[a], rfl, ha⟩

/-- `while (node != NULL) { f; node = node->next; }`. With more fuel than there are nodes it only
runs out on a cycle. -/
def walk {β : Type*} (next : α → Option α) (f : β → α → Option β) :
    ℕ → β → Option α → Option β
  | 0, _, _ => none
  | _ + 1, b, none => some b
  | fuel + 1, b, some a => (f b a).bind fun b => walk next f fuel b (next a)

theorem walk_eq_some_iff {β : Type*} {f : β → α → Option β} {fuel : ℕ} {b c : β} :
    walk next f fuel b p = some c ↔ ∃ l, Chain next p l ∧ l.length < fuel ∧
      l.foldlM f b = some c := by
  induction fuel generalizing b p with
  | zero => simp [walk]
  | succ fuel ih =>
    cases p with
    | none =>
      constructor
      · intro h
        exact ⟨[], rfl, Nat.succ_pos fuel, h⟩
      · rintro ⟨l, hc, -, hfold⟩
        obtain rfl : l = [] := hc.unique rfl
        exact hfold
    | some a =>
      simp only [walk, Option.bind_eq_some_iff, ih]
      constructor
      · rintro ⟨b', hf, l, hc, hlen, hfold⟩
        refine ⟨a :: l, ⟨rfl, hc⟩, Nat.succ_lt_succ hlen, ?_⟩
        rw [List.foldlM_cons, hf]
        exact hfold
      · rintro ⟨l, hc, hlen, hfold⟩
        cases l with
        | nil => exact absurd hc (Option.some_ne_none a)
        | cons a' l =>
          obtain ⟨ha, hc⟩ := hc
          obtain rfl := Option.some.inj ha
          obtain ⟨b', hf, hfold⟩ := Option.bind_eq_some_iff.1 hfold
          exact ⟨b', hf, l, hc, Nat.lt_of_succ_lt_succ hlen, hfold⟩

/-- No list that ends outlasts the fuel. -/
theorem walk_isSome_iff {β : Type*} {f : β → α → Option β} {fuel : ℕ}
    (hfuel : ∀ l : List α, l.Nodup → l.length < fuel) (b : β) :
    (walk next f fuel b p).isSome = true ↔ ∃ l, Chain next p l ∧ (l.foldlM f b).isSome = true := by
  simp only [Option.isSome_iff_exists, walk_eq_some_iff]
  constructor
  · rintro ⟨c, l, hc, -, hfold⟩
    exact ⟨l, hc, c, hfold⟩
  · rintro ⟨l, hc, c, hfold⟩
    exact ⟨c, l, hc, hfuel l hc.nodup, hfold⟩

theorem isSome_forM_iff {f : α → Option Unit} :
    (l.forM f).isSome = true ↔ ∀ a ∈ l, (f a).isSome = true := by
  induction l with
  | nil => simp
  | cons a l ih =>
    rw [List.forM_eq_forM, List.forM_cons, List.forall_mem_cons, ← ih]
    cases f a <;> simp

theorem walk_unit_isSome_iff {f : α → Option Unit} {fuel : ℕ}
    (hfuel : ∀ l : List α, l.Nodup → l.length < fuel) :
    (walk next (fun _ a => f a) fuel () p).isSome = true ↔
      ∃ l, Chain next p l ∧ ∀ a ∈ l, (f a).isSome = true := by
  have hfold : ∀ l : List α, l.foldlM (fun _ a => f a) () = l.forM f := by
    intro l
    induction l with
    | nil => rfl
    | cons a l ih =>
      rw [List.foldlM_cons, List.forM_eq_forM, List.forM_cons]
      exact congrArg _ (funext fun _ => ih)
  rw [walk_isSome_iff hfuel]
  simp only [hfold, isSome_forM_iff]

section Write

variable [DecidableEq α] {v : Option α}

/-- A write may send a walk elsewhere. It still ends if what is written leads to null without the
written node. -/
theorem Ends.update (h : Ends next p) (hv : Chain next v l) (ha : a ∉ l) :
    Ends (Function.update next a v) p := by
  obtain ⟨m, hm⟩ := h
  by_cases hmem : a ∈ m
  · obtain ⟨m₁, m₂, rfl⟩ := List.append_of_mem hmem
    have ham₁ : a ∉ m₁ := fun h =>
      (List.nodup_append.1 hm.nodup).2.2 a h a List.mem_cons_self rfl
    obtain ⟨r, hseg, rfl, -⟩ := chain_append.1 hm
    refine ⟨m₁ ++ a :: l, chain_append.2 ⟨some a, hseg.update ham₁ v, rfl, ?_⟩⟩
    rw [Function.update_self]
    exact hv.update ha v
  · exact ⟨m, hm.update hmem v⟩

theorem Ends.cut (h : Ends next p) (a : α) : Ends (Function.update next a none) p :=
  h.update (l := []) rfl List.not_mem_nil

/-- `a->next = b; b->next = NULL`. -/
theorem Ends.link (h : Ends next p) (a b : α) :
    Ends (Function.update (Function.update next a (some b)) b none) p := by
  by_cases hab : a = b
  · rw [hab, Function.update_idem]
    exact h.cut b
  · rw [Function.update_comm hab]
    refine (h.cut b).update (l := [b]) ⟨rfl, Function.update_self ..⟩ ?_
    exact fun hmem => hab (List.mem_singleton.1 hmem)

/-- `a->next = b->next; b->next = NULL`, with `b` behind `a`. -/
theorem Ends.unlink (h : Ends next p) (ha : Ends next (some a)) (hab : next a = some b) :
    Ends (Function.update (Function.update next a (next b)) b none) p := by
  obtain ⟨l, hc⟩ := ha
  have hnd := hc.nodup
  cases l with
  | nil => exact absurd hc (Option.some_ne_none a)
  | cons a' l =>
    obtain ⟨ha', hc⟩ := hc
    obtain rfl := Option.some.inj ha'
    rw [hab] at hc
    cases l with
    | nil => exact absurd hc (Option.some_ne_none b)
    | cons b' l =>
      obtain ⟨hb', hc⟩ := hc
      obtain rfl := Option.some.inj hb'
      have hal : a ∉ l := fun h => (List.nodup_cons.1 hnd).1 (List.mem_cons_of_mem b h)
      exact (h.update hc hal).cut b

end Write

/-! ## Head and tail queues -/

/-- The queue with the given head and tail pointers holds `l`, oldest first. -/
structure Rep (next : α → Option α) (head tail : Option α) (l : List α) : Prop where
  chain : Chain next head l
  tail_eq : ∀ a ∈ l.getLast?, tail = some a

theorem Rep.nil : Rep next none t [] := ⟨rfl, by simp⟩

theorem Rep.nodup (hr : Rep next h t l) : l.Nodup := hr.chain.nodup

theorem Rep.head_eq (hr : Rep next h t l) : h = l.head? := by
  cases l with
  | nil => exact hr.chain
  | cons a l => exact hr.chain.1

theorem Rep.head_eq_none (hr : Rep next h t l) : h = none ↔ l = [] := by
  rw [hr.head_eq, List.head?_eq_none_iff]

theorem Rep.congr (hr : Rep next h t l) (hn : ∀ a ∈ l, next' a = next a) : Rep next' h t l :=
  ⟨hr.chain.congr hn, hr.tail_eq⟩

section Write

variable [DecidableEq α]

theorem Rep.enqueue_nil (next : α → Option α) (b : α) :
    Rep (Function.update next b none) (some b) (some b) [b] :=
  ⟨⟨rfl, Function.update_self ..⟩, by simp⟩

theorem Rep.enqueue (hr : Rep next h (some a) l) (hl : l ≠ []) (hb : b ∉ l) :
    Rep (Function.update (Function.update next a (some b)) b none) h (some b) (l ++ [b]) := by
  obtain ⟨l₁, c, rfl⟩ := l.eq_nil_or_concat'.resolve_left hl
  obtain rfl : a = c := Option.some.inj (hr.tail_eq c (by simp))
  have hnone : next a = none := by
    obtain ⟨r, -, rfl, hr⟩ := chain_append.1 (by simpa using hr.chain)
    exact hr
  have hlast : Chain next h (l₁ ++ a :: []) := hr.chain
  have hc := hlast.insertAfter hb
  rw [hnone] at hc
  exact ⟨by simpa using hc, by simp⟩

/-- Take the head off; the tail may only be forgotten when nothing is left. -/
theorem Rep.dequeue (hr : Rep next h t (a :: l)) {t' : Option α} (ht : l ≠ [] → t' = t) :
    Rep (Function.update next a none) (next a) t' l := by
  have hnd := List.nodup_cons.1 hr.nodup
  refine ⟨hr.chain.2.update hnd.1 none, fun c hc => ?_⟩
  have hl : l ≠ [] := fun h => by simp [h] at hc
  rw [ht hl]
  refine hr.tail_eq c ?_
  rwa [List.getLast?_cons_of_ne_nil hl]

end Write

/-! ## Families of queues -/

/-- Queue `k` holds `l k`, no node is in two queues, and an empty queue has a null tail. -/
structure Family {κ : Type*} (next : α → Option α) (head tail : κ → Option α) (l : κ → List α) :
    Prop where
  rep : ∀ k, Rep next (head k) (tail k) (l k)
  tail_nil : ∀ k, l k = [] → tail k = none
  disjoint : ∀ j k, j ≠ k → ∀ a ∈ l j, a ∉ l k

section Family

variable {κ : Type*} {head tail head' tail' : κ → Option α} {ls ls' : κ → List α} {k : κ}

theorem Family.empty (next : α → Option α) :
    Family next (fun _ : κ => none) (fun _ => none) (fun _ => []) where
  rep _ := Rep.nil
  tail_nil _ _ := rfl
  disjoint _ _ _ a ha := by simp at ha

theorem Family.tail_eq (hF : Family next head tail ls) (k : κ) : tail k = (ls k).getLast? := by
  by_cases hl : ls k = []
  · rw [hF.tail_nil k hl, hl]
    rfl
  · obtain ⟨a, ha⟩ := Option.ne_none_iff_exists'.1 (mt List.getLast?_eq_none_iff.1 hl)
    rw [ha]
    exact (hF.rep k).tail_eq a ha

theorem Family.tail_eq_none (hF : Family next head tail ls) (k : κ) :
    tail k = none ↔ ls k = [] := by
  rw [hF.tail_eq k, List.getLast?_eq_none_iff]

theorem Family.next_last (hF : Family next head tail ls) (ha : (ls k).getLast? = some a) :
    next a = none := by
  obtain ⟨l₀, hl₀⟩ := List.getLast?_eq_some_iff.1 ha
  have hc := (hF.rep k).chain
  rw [hl₀] at hc
  obtain ⟨r, -, rfl, hr⟩ := chain_append.1 hc
  exact hr

theorem Family.congr (hF : Family next head tail ls) (hn : ∀ k, ∀ a ∈ ls k, next' a = next a) :
    Family next' head tail ls :=
  ⟨fun k => (hF.rep k).congr (hn k), hF.tail_nil, hF.disjoint⟩

/-- One queue changes: its nodes are its own or come from no queue, and the links of the nodes in
the other queues stay. -/
theorem Family.set (hF : Family next head tail ls) (hrep : Rep next' (head' k) (tail' k) (ls' k))
    (hnil : ls' k = [] → tail' k = none)
    (hother : ∀ j, j ≠ k → head' j = head j ∧ tail' j = tail j ∧ ls' j = ls j)
    (hown : ∀ a ∈ ls' k, a ∈ ls k ∨ ∀ j, a ∉ ls j)
    (hframe : ∀ j, j ≠ k → ∀ a ∈ ls j, next' a = next a) : Family next' head' tail' ls' where
  rep j := by
    by_cases hj : j = k
    · subst hj
      exact hrep
    · obtain ⟨hh, ht, hl⟩ := hother j hj
      rw [hh, ht, hl]
      exact (hF.rep j).congr (hframe j hj)
  tail_nil j hl := by
    by_cases hj : j = k
    · subst hj
      exact hnil hl
    · obtain ⟨-, ht, hl'⟩ := hother j hj
      rw [ht]
      exact hF.tail_nil j (hl' ▸ hl)
  disjoint i j hij a hi hj := by
    have hout : ∀ m, m ≠ k → a ∈ ls m → a ∉ ls' k := fun m hm ha hk => by
      rcases hown a hk with hk | hk
      · exact hF.disjoint m k hm a ha hk
      · exact hk m ha
    by_cases hik : i = k
    · subst hik
      rw [(hother j (Ne.symm hij)).2.2] at hj
      exact hout j (Ne.symm hij) hj hi
    · rw [(hother i hik).2.2] at hi
      by_cases hjk : j = k
      · subst hjk
        exact hout i hik hi hj
      · rw [(hother j hjk).2.2] at hj
        exact hF.disjoint i j hij a hi hj

end Family

end Linked
