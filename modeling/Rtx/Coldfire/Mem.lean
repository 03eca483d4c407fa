import Mathlib.Data.Nat.Bitwise
import Rtx.Lib.Run

/-!
# The kernel allocator

`k_mem.c`: memory is handed out from `HEAP_START` up and never taken back. `uint32_t` is signed, so
the limit check compares signed numbers, and the sum it compares may have wrapped around. A size
that makes it wrap, or that is negative, is let through, and the origin moves down
(`k_malloc_runs_iff`).
-/

namespace Rtx.Coldfire

open Transition

/-! ## The code -/

def memoryEnd : BitVec 32 := 0x10200000#32

/-- `(size+1) & 0xfffffffe`. -/
def evenSize (size : BitVec 32) : BitVec 32 := (size + 1) &&& 0xfffffffe#32

/-- `k_malloc`: the address, and `origin` afterwards. The heap begins behind an object, so that no
address is null. -/
def kMalloc (origin size : BitVec 32) : Option (BitVec 32) × BitVec 32 :=
  let size := evenSize size
  if size = 0 ∨ memoryEnd.slt (origin + size) then (none, origin)
  else (some origin, origin + size)

/-- `k_mem_get_available`. -/
def kMemGetAvailable (origin : BitVec 32) : BitVec 32 := memoryEnd - origin

/-- `k_mem_get_used`. -/
def kMemGetUsed (heapStart origin : BitVec 32) : BitVec 32 := origin - heapStart

/-- A block that was returned, and the size that was asked for. -/
structure Block where
  addr : BitVec 32
  size : BitVec 32
  deriving DecidableEq

/-- The allocator, and the blocks it has returned. -/
structure Heap where
  origin : BitVec 32
  blocks : List Block
  deriving DecidableEq

namespace Heap

/-- `init_mem`, with `HEAP_START`. -/
def initMem (heapStart : ℕ) : Heap := ⟨BitVec.ofNat 32 heapStart, []⟩

/-- A call of `k_malloc`. -/
def malloc (s : Heap) (size : BitVec 32) : Option Heap :=
  let (ret, origin) := kMalloc s.origin size
  some ⟨origin, s.blocks ++ (ret.map (⟨·, size⟩)).toList⟩

end Heap

/-! ## The property -/

/-- The bytes of the two blocks are different ones. -/
def Block.Disjoint (a b : Block) : Prop :=
  a.addr.toNat + a.size.toNat ≤ b.addr.toNat ∨ b.addr.toNat + b.size.toNat ≤ a.addr.toNat

/-- The blocks begin at even addresses, lie in the heap and do not overlap, and what is available
and what is used make up the heap. -/
structure HeapOk (heapStart : ℕ) (s : Heap) : Prop where
  even : ∀ b ∈ s.blocks, b.addr.toNat % 2 = 0
  inside : ∀ b ∈ s.blocks, heapStart ≤ b.addr.toNat ∧ b.addr.toNat + b.size.toNat ≤ memoryEnd.toNat
  disjoint : s.blocks.Pairwise Block.Disjoint
  available : 0 ≤ (kMemGetAvailable s.origin).toInt
  used : 0 ≤ (kMemGetUsed (BitVec.ofNat 32 heapStart) s.origin).toInt
  total : (kMemGetAvailable s.origin).toInt +
    (kMemGetUsed (BitVec.ofNat 32 heapStart) s.origin).toInt = memoryEnd.toNat - heapStart

/-- A call that returns null leaves the allocator alone. -/
def NullKeeps (s : Heap) (size : BitVec 32) : Prop :=
  (kMalloc s.origin size).1 = none → s.malloc size = some s

/-- The rounded size is zero, or the sum with the origin does not reach the sign. -/
def Fits (s : Heap) (size : BitVec 32) : Prop :=
  size.toNat = 0 ∨ size.toNat = 2 ^ 32 - 1 ∨
    s.origin.toNat + (size.toNat + size.toNat % 2) < 2 ^ 31

instance (s : Heap) (size : BitVec 32) : Decidable (Fits s size) := by
  unfold Fits
  infer_instance

/-! ## One call -/

theorem toNat_evenSize (size : BitVec 32) :
    (evenSize size).toNat = (size.toNat + 1) % 2 ^ 32 / 2 * 2 := by
  have hmask : ∀ x < 2 ^ 32, x &&& 4294967294 = x / 2 * 2 := by
    intro x hx
    have hhigh : (x &&& 4294967294) / 2 = x / 2 := by
      rw [Nat.and_div_two]
      exact Nat.and_two_pow_sub_one_of_lt_two_pow (n := 31) (by omega)
    have hlow : (x &&& 4294967294) % 2 ≠ 1 := by
      rw [ne_eq, Nat.and_mod_two_eq_one]
      omega
    omega
  rw [evenSize, BitVec.toNat_and, BitVec.toNat_add]
  exact hmask _ (Nat.mod_lt _ (by decide))

variable {origin size : BitVec 32}

/-- The limit check, with an origin in the heap: a sum that reaches the sign passes. -/
theorem limit_iff (ho : origin.toNat ≤ memoryEnd.toNat) :
    (evenSize size = 0 ∨ memoryEnd.slt (origin + evenSize size)) ↔
      (evenSize size).toNat = 0 ∨ (origin.toNat + (evenSize size).toNat < 2 ^ 31 ∧
        memoryEnd.toNat < origin.toNat + (evenSize size).toNat) := by
  have hend : memoryEnd.toNat = 270532608 := rfl
  have hendInt : memoryEnd.toInt = 270532608 := rfl
  have hlt : (evenSize size).toNat < 2 ^ 32 := BitVec.isLt _
  have heven := toNat_evenSize size
  rw [BitVec.slt_iff_toInt_lt, hendInt, BitVec.toInt_eq_toNat_cond, BitVec.toNat_add,
    ← BitVec.toNat_inj, show BitVec.toNat (0 : BitVec 32) = 0 from rfl]
  split <;> omega

/-- A call whose size fits returns null, or moves the origin up within the heap. -/
theorem kMalloc_of_fits {blocks : List Block} (ho : origin.toNat ≤ memoryEnd.toNat)
    (hfits : Fits ⟨origin, blocks⟩ size) :
    kMalloc origin size = (none, origin) ∨
      ∃ origin' : BitVec 32, kMalloc origin size = (some origin, origin') ∧
        origin'.toNat = origin.toNat + (size.toNat + size.toNat % 2) ∧
        origin'.toNat ≤ memoryEnd.toNat := by
  have hend : memoryEnd.toNat = 270532608 := rfl
  have hlt : size.toNat < 2 ^ 32 := size.isLt
  have heven := toNat_evenSize size
  have hfits' : size.toNat = 0 ∨ size.toNat = 2 ^ 32 - 1 ∨
    origin.toNat + (size.toNat + size.toNat % 2) < 2 ^ 31 := hfits
  rw [kMalloc]
  split
  · exact Or.inl rfl
  · rename_i hlimit
    rw [limit_iff ho] at hlimit
    refine Or.inr ⟨_, rfl, ?_, ?_⟩ <;> rw [BitVec.toNat_add] <;> omega

theorem kMalloc_of_not_fits {blocks : List Block} (ho : origin.toNat ≤ memoryEnd.toNat)
    (hfits : ¬ Fits ⟨origin, blocks⟩ size) :
    (kMalloc origin size).1 = some origin ∧ memoryEnd.toNat < origin.toNat + size.toNat := by
  have hend : memoryEnd.toNat = 270532608 := rfl
  have hlt : size.toNat < 2 ^ 32 := size.isLt
  have heven := toNat_evenSize size
  have hfits' : ¬ (size.toNat = 0 ∨ size.toNat = 2 ^ 32 - 1 ∨
    origin.toNat + (size.toNat + size.toNat % 2) < 2 ^ 31) := hfits
  refine ⟨?_, by omega⟩
  rw [kMalloc, if_neg]
  rw [limit_iff ho]
  omega

theorem kMalloc_eq (origin size : BitVec 32) :
    kMalloc origin size = (none, origin) ∨
      kMalloc origin size = (some origin, origin + evenSize size) := by
  rw [kMalloc]
  split
  · exact Or.inl rfl
  · exact Or.inr rfl

theorem Heap.malloc_none {s : Heap} (h : kMalloc s.origin size = (none, s.origin)) :
    s.malloc size = some s := by
  simp [Heap.malloc, h]

theorem Heap.malloc_some {s : Heap} {addr origin' : BitVec 32}
    (h : kMalloc s.origin size = (some addr, origin')) :
    s.malloc size = some ⟨origin', s.blocks ++ [⟨addr, size⟩]⟩ := by
  simp [Heap.malloc, h]

theorem nullKeeps (s : Heap) (size : BitVec 32) : NullKeeps s size := by
  intro hnull
  rcases kMalloc_eq s.origin size with h | h
  · exact Heap.malloc_none h
  · rw [h] at hnull
    simp at hnull

/-! ## Runs -/

/-- The blocks lie one behind the other up to the origin. -/
structure HeapInv (heapStart : ℕ) (s : Heap) : Prop where
  even : s.origin.toNat % 2 = 0
  low : heapStart ≤ s.origin.toNat
  high : s.origin.toNat ≤ memoryEnd.toNat
  block_even : ∀ b ∈ s.blocks, b.addr.toNat % 2 = 0
  block_low : ∀ b ∈ s.blocks, heapStart ≤ b.addr.toNat
  block_high : ∀ b ∈ s.blocks, b.addr.toNat + b.size.toNat ≤ s.origin.toNat
  disjoint : s.blocks.Pairwise Block.Disjoint

variable {heapStart : ℕ} {s s' : Heap}

theorem toNat_heapStart (hstart : heapStart < memoryEnd.toNat) :
    (BitVec.ofNat 32 heapStart).toNat = heapStart := by
  have hend : memoryEnd.toNat = 270532608 := rfl
  rw [BitVec.toNat_ofNat]
  omega

theorem heapInv_initMem (heven : heapStart % 2 = 0) (hstart : heapStart < memoryEnd.toNat) :
    HeapInv heapStart (Heap.initMem heapStart) := by
  have horigin := toNat_heapStart hstart
  constructor
  · exact (congrArg (· % 2) horigin).trans heven
  · exact horigin.ge
  · exact horigin.le.trans hstart.le
  · exact List.forall_mem_nil _
  · exact List.forall_mem_nil _
  · exact List.forall_mem_nil _
  · exact List.Pairwise.nil

theorem HeapInv.malloc (h : HeapInv heapStart s) (hfits : Fits s size)
    (hstep : s.malloc size = some s') : HeapInv heapStart s' := by
  rcases kMalloc_of_fits h.high hfits with hcall | ⟨origin', hcall, horigin, hend⟩
  · rw [Heap.malloc_none hcall] at hstep
    cases hstep
    exact h
  · rw [Heap.malloc_some hcall] at hstep
    cases hstep
    have heven := h.even
    have hlow := h.low
    constructor
    · simp only [horigin]
      omega
    · simp only [horigin]
      omega
    · exact hend
    · simp only [List.forall_mem_append, List.forall_mem_singleton]
      exact ⟨h.block_even, heven⟩
    · simp only [List.forall_mem_append, List.forall_mem_singleton]
      exact ⟨h.block_low, hlow⟩
    · simp only [List.forall_mem_append, List.forall_mem_singleton, horigin]
      refine ⟨fun b hb => ?_, by omega⟩
      have := h.block_high b hb
      omega
    · rw [List.pairwise_append]
      refine ⟨h.disjoint, List.pairwise_singleton _ _, fun a ha b hb => ?_⟩
      rw [List.mem_singleton.1 hb]
      exact Or.inl (h.block_high a ha)

theorem HeapInv.ok (h : HeapInv heapStart s) (hstart : heapStart < memoryEnd.toNat) :
    HeapOk heapStart s := by
  have hend : memoryEnd.toNat = 270532608 := rfl
  have hlow := h.low
  have hhigh := h.high
  have havailable : (kMemGetAvailable s.origin).toInt = memoryEnd.toNat - s.origin.toNat := by
    rw [kMemGetAvailable, BitVec.toInt_eq_toNat_cond, BitVec.toNat_sub]
    split <;> omega
  have hused : (kMemGetUsed (BitVec.ofNat 32 heapStart) s.origin).toInt =
      s.origin.toNat - heapStart := by
    rw [kMemGetUsed, BitVec.toInt_eq_toNat_cond, BitVec.toNat_sub, toNat_heapStart hstart]
    split <;> omega
  refine ⟨h.block_even, fun b hb => ⟨h.block_low b hb, ?_⟩, h.disjoint, ?_, ?_, ?_⟩
  · exact (h.block_high b hb).trans hhigh
  · rw [havailable]
    omega
  · rw [hused]
    omega
  · rw [havailable, hused]
    omega

theorem HeapInv.not_ok (h : HeapInv heapStart s) (hfits : ¬ Fits s size)
    (hstep : s.malloc size = some s') : ¬ HeapOk heapStart s' := by
  intro hok
  obtain ⟨hret, hlarge⟩ := kMalloc_of_not_fits h.high hfits
  have hcall : kMalloc s.origin size = (some s.origin, (kMalloc s.origin size).2) :=
    Prod.ext hret rfl
  rw [Heap.malloc_some hcall] at hstep
  cases hstep
  have hinside := (hok.inside ⟨s.origin, size⟩ (by simp)).2
  simp only at hinside
  omega

/-- In a sequence of calls after `init_mem`, the blocks are even, in the heap and disjoint, a null
result leaves the allocator alone and the two counters make up the heap, all the time, if and only
if every size is 0 or `0xffffffff`, or stays below the sign when it is rounded and added to the
origin. -/
theorem k_malloc_runs_iff (heven : heapStart % 2 = 0) (hstart : heapStart < memoryEnd.toNat)
    (sizes : List (BitVec 32)) :
    (Always Heap.malloc (HeapOk heapStart) (Heap.initMem heapStart) sizes ∧
        Along Heap.malloc NullKeeps (Heap.initMem heapStart) sizes) ↔
      Along Heap.malloc Fits (Heap.initMem heapStart) sizes := by
  have hnull : Along Heap.malloc NullKeeps (Heap.initMem heapStart) sizes :=
    Along.of_forall fun size _ s => nullKeeps s size
  rw [and_iff_left hnull]
  apply always_iff_along_of_step (I := HeapInv heapStart)
  · intro s size s' h hfits hstep
    exact h.malloc hfits hstep
  · intro s h
    exact h.ok hstart
  · intro s size s' h hfits hstep
    exact h.not_ok hfits hstep
  · exact heapInv_initMem heven hstart

theorem k_malloc_runs_iff_sizes :
    (Always Heap.malloc (HeapOk 0x10110000) (Heap.initMem 0x10110000) [640, 3, 0, 0xffffff#32] ∧
        Along Heap.malloc NullKeeps (Heap.initMem 0x10110000) [640, 3, 0, 0xffffff#32]) ↔
      Along Heap.malloc Fits (Heap.initMem 0x10110000) [640, 3, 0, 0xffffff#32] :=
  k_malloc_runs_iff (by decide) (by decide) _

/-- After a call with -8 the second block is handed out again. -/
theorem k_malloc_overlaps :
    exec Heap.malloc (Heap.initMem 0x10110000) [8, 8, -8, 8] =
        some ⟨0x10110010, [⟨0x10110000, 8⟩, ⟨0x10110008, 8⟩, ⟨0x10110010, -8⟩, ⟨0x10110008, 8⟩]⟩ ∧
      ¬ Always Heap.malloc (HeapOk 0x10110000) (Heap.initMem 0x10110000) [8, 8, -8, 8] := by
  have hrun : exec Heap.malloc (Heap.initMem 0x10110000) [8, 8, -8, 8] =
      some ⟨0x10110010, [⟨0x10110000, 8⟩, ⟨0x10110008, 8⟩, ⟨0x10110010, -8⟩, ⟨0x10110008, 8⟩]⟩ := by
    decide +kernel
  refine ⟨hrun, fun h => ?_⟩
  have hdisjoint := (h.exec hrun).disjoint
  simp [Block.Disjoint] at hdisjoint

end Rtx.Coldfire
