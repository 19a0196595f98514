import TinyWebServer.Library.Ranges
import TinyWebServer.Memory.MemoryPool

/-!
# The slabs of the memory pool

What allocating and giving back a block does to the slabs, and what it leaves alone.
-/

namespace TinyWebServer

namespace Slab

/-- A slab whose counter agrees with its vector. -/
structure Sound (slab : Slab) : Prop where
  memory_ne_zero : slab.memory ≠ 0
  blockSize_pos : 0 < slab.blockSize
  length_used : slab.used.length = slab.blockCount
  freeCount_eq : slab.freeCount = slab.used.count false

/-- The slab with the entry of one block changed. -/
def mark (slab : Slab) (i : ℕ) (b : Bool) (freeCount : ℕ) : Slab :=
  { slab with used := slab.used.set i b, freeCount := freeCount }

lemma sound_new {memory blockSize blockCount : ℕ} (hmemory : memory ≠ 0) (hsize : 0 < blockSize) :
    (new memory blockSize blockCount).Sound where
  memory_ne_zero := hmemory
  blockSize_pos := hsize
  length_used := List.length_replicate
  freeCount_eq := List.count_replicate_self.symm

lemma count_set {l : List Bool} {i : ℕ} {b : Bool} (h : l[i]? = some (!b)) :
    (l.set i b).count b = l.count b + 1 ∧ (l.set i b).count (!b) + 1 = l.count (!b) := by
  obtain ⟨hi, hget⟩ := List.getElem?_eq_some_iff.mp h
  have hpos : 0 < l.count (!b) := List.count_pos_iff.mpr (List.mem_of_getElem? h)
  rw [List.count_set hi, List.count_set hi, hget]
  constructor
  · simp
  · simp
    omega

lemma Sound.mark_true {slab : Slab} (h : slab.Sound) {i : ℕ} (hi : slab.used[i]? = some false) :
    (slab.mark i true (slab.freeCount - 1)).Sound where
  memory_ne_zero := h.memory_ne_zero
  blockSize_pos := h.blockSize_pos
  length_used := (List.length_set ..).trans h.length_used
  freeCount_eq := by
    have hcount := (count_set (b := true) hi).2
    have hfree := h.freeCount_eq
    simp only [mark]
    simp only [Bool.not_true] at hcount
    omega

lemma Sound.mark_false {slab : Slab} (h : slab.Sound) {i : ℕ} (hi : slab.used[i]? = some true) :
    (slab.mark i false (slab.freeCount + 1)).Sound where
  memory_ne_zero := h.memory_ne_zero
  blockSize_pos := h.blockSize_pos
  length_used := (List.length_set ..).trans h.length_used
  freeCount_eq := by
    rw [mark, h.freeCount_eq, (count_set (b := false) hi).1]

/-- As long as the counter is positive, the loop finds a block. -/
lemma Sound.allocateBlock {slab : Slab} (h : slab.Sound) (hfree : 0 < slab.freeCount) :
    ∃ i < slab.blockCount, slab.used[i]? = some false ∧
      slab.allocateBlock =
        (slab.mark i true (slab.freeCount - 1), some (slab.memory + i * slab.blockSize)) := by
  rw [h.freeCount_eq, List.count_pos_iff] at hfree
  obtain ⟨j, hj, hget⟩ := List.mem_iff_getElem.mp hfree
  have hsome : ((List.range slab.blockCount).find? fun i => slab.used[i]? = some false).isSome := by
    rw [List.find?_isSome]
    refine ⟨j, List.mem_range.mpr (h.length_used ▸ hj), ?_⟩
    rw [List.getElem?_eq_getElem hj, hget]
    rfl
  obtain ⟨i, hi⟩ := Option.isSome_iff_exists.mp hsome
  have hused : slab.used[i]? = some false := by simpa using List.find?_some hi
  have hne : slab.freeCount ≠ 0 := by
    rw [h.freeCount_eq]
    exact (List.count_pos_iff.mpr hfree).ne'
  refine ⟨i, List.mem_range.mp (List.mem_of_find?_eq_some hi), hused, ?_⟩
  rw [Slab.allocateBlock, if_neg hne, hi]
  rfl

lemma contains_iff {slab : Slab} (h : slab.Sound) {ptr : ℕ} :
    slab.contains ptr = true ↔
      slab.memory ≤ ptr ∧ ptr < slab.memory + slab.blockSize * slab.blockCount := by
  simp [contains, h.memory_ne_zero]

/-- A block of the slab lies between the bounds of the slab. -/
lemma block_within {slab : Slab} {i : ℕ} (hi : i < slab.blockCount) :
    slab.memory + i * slab.blockSize + slab.blockSize ≤
      slab.memory + slab.blockSize * slab.blockCount := by
  have hmul := Nat.mul_le_mul_right slab.blockSize (Nat.succ_le_of_lt hi)
  rw [Nat.succ_mul, Nat.mul_comm slab.blockCount] at hmul
  omega

lemma contains_block {slab : Slab} (h : slab.Sound) {i : ℕ} (hi : i < slab.blockCount) :
    slab.contains (slab.memory + i * slab.blockSize) = true := by
  have hwithin := block_within hi
  have hpos := h.blockSize_pos
  rw [contains_iff h]
  constructor <;> omega

/-- The division finds the entry of the block again. -/
lemma Sound.deallocateBlock {slab : Slab} (h : slab.Sound) {i : ℕ} (hi : i < slab.blockCount) :
    slab.deallocateBlock (slab.memory + i * slab.blockSize) =
      if slab.used[i]? = some true then (slab.mark i false (slab.freeCount + 1), true)
      else (slab, false) := by
  have hindex : (slab.memory + i * slab.blockSize - slab.memory) / slab.blockSize = i := by
    rw [Nat.add_sub_cancel_left, Nat.mul_div_cancel _ h.blockSize_pos]
  rw [Slab.deallocateBlock, if_pos (contains_block h hi), hindex]
  by_cases hused : slab.used[i]? = some true
  · rw [if_pos hused, if_neg (by simp [hused, hi])]
    rfl
  · rw [if_neg hused, if_pos (Or.inr hused)]

end Slab

/-- A block somebody got from `Allocate`, with the size asked for. -/
structure PoolBlock where
  ptr : ℕ
  size : UInt64
  deriving DecidableEq

namespace PoolBlock

def sizeClass (block : PoolBlock) : SizeClass := MemoryPool.getSizeClass block.size

/-- How many bytes belong to the block. -/
def extent (block : PoolBlock) : ℕ :=
  if block.sizeClass = .huge then block.size.toNat else block.sizeClass.value

abbrev Apart (b b' : PoolBlock) : Prop := Ranges.Apart ptr extent b b'

end PoolBlock

/-- Memory held from the system allocator. -/
structure Region where
  start : ℕ
  length : ℕ
  deriving DecidableEq

namespace Region

abbrev Apart (r r' : Region) : Prop := Ranges.Apart start length r r'

/-- The region lies in the address space and does not begin at the null pointer. -/
abbrev Addressable (r : Region) : Prop := Ranges.Within start length 1 (2 ^ 64) r

/-- `alignof(std::max_align_t)`. -/
def Aligned (r : Region) : Prop := 16 ∣ r.start

instance (r : Region) : Decidable r.Aligned := inferInstanceAs (Decidable (_ ∣ _))

end Region

def Slab.region (slab : Slab) : Region := ⟨slab.memory, slab.blockSize * slab.blockCount⟩

namespace MemoryPool

def allSlabs (pool : MemoryPool) : List Slab :=
  pool.slabs .small ++ pool.slabs .medium ++ pool.slabs .large ++ pool.slabs .huge

/-- How many bytes `Allocate` asks of the system allocator, if it asks. -/
def asks (pool : MemoryPool) (size : UInt64) : Option ℕ :=
  if size = 0 then none
  else if getSizeClass size = .huge then some size.toNat
  else if (allocateFrom (pool.slabs (getSizeClass size))).2.isSome then none
  else some ((getSizeClass size).value * (getSizeClass size).blockCount)

end MemoryPool

namespace MemoryPool

variable {pool : MemoryPool} {sizeClass : SizeClass} {k : ℕ} {slab : Slab}

/-- Every slab is sound and has the dimensions of its class. -/
def Shaped (pool : MemoryPool) : Prop :=
  ∀ sizeClass, ∀ slab ∈ pool.slabs sizeClass,
    slab.Sound ∧ slab.blockSize = sizeClass.value ∧ slab.blockCount = sizeClass.blockCount

/-- The block is one of a slab of its class, with this entry in the vector of the slab. -/
def Entry (pool : MemoryPool) (block : PoolBlock) (b : Bool) : Prop :=
  ∃ slab ∈ pool.slabs block.sizeClass, ∃ i < slab.blockCount,
    block.ptr = slab.memory + i * slab.blockSize ∧ slab.used[i]? = some b

def freeCounts (pool : MemoryPool) : ℕ := (pool.allSlabs.map Slab.freeCount).sum

lemma mem_allSlabs (h : slab ∈ pool.slabs sizeClass) : slab ∈ pool.allSlabs := by
  cases sizeClass <;> simp [allSlabs, h]

lemma mem_slabs_of_slabAt (h : pool.slabAt sizeClass k = some slab) :
    slab ∈ pool.slabs sizeClass :=
  List.mem_of_getElem? h

lemma exists_of_mem_allSlabs (h : slab ∈ pool.allSlabs) :
    ∃ sizeClass, slab ∈ pool.slabs sizeClass := by
  simp only [allSlabs, List.mem_append] at h
  rcases h with ((h | h) | h) | h <;> exact ⟨_, h⟩

lemma slabs_setSlab (slab' : Slab) :
    (pool.setSlab sizeClass k slab').slabs sizeClass = (pool.slabs sizeClass).set k slab' :=
  Function.update_self ..

lemma slabs_setSlab_of_ne {other : SizeClass} (h : other ≠ sizeClass) (slab' : Slab) :
    (pool.setSlab sizeClass k slab').slabs other = pool.slabs other :=
  Function.update_of_ne h ..

lemma mem_slabs_setSlab {slab' other : Slab} {otherClass : SizeClass}
    (h : other ∈ (pool.setSlab sizeClass k slab').slabs otherClass) :
    other ∈ pool.slabs otherClass ∨ other = slab' ∧ otherClass = sizeClass := by
  by_cases hclass : otherClass = sizeClass
  · subst hclass
    rw [slabs_setSlab] at h
    rcases List.mem_or_eq_of_mem_set h with h | h
    · exact Or.inl h
    · exact Or.inr ⟨h, rfl⟩
  · rw [slabs_setSlab_of_ne hclass] at h
    exact Or.inl h

lemma Shaped.setSlab (h : pool.Shaped) {slab' : Slab} (hsound : slab'.Sound)
    (hat : pool.slabAt sizeClass k = some slab) (hsize : slab'.blockSize = slab.blockSize)
    (hcount : slab'.blockCount = slab.blockCount) :
    (pool.setSlab sizeClass k slab').Shaped := by
  intro otherClass other hmem
  rcases mem_slabs_setSlab hmem with hmem | ⟨rfl, rfl⟩
  · exact h otherClass other hmem
  · obtain ⟨-, hsize', hcount'⟩ := h otherClass slab (mem_slabs_of_slabAt hat)
    exact ⟨hsound, hsize.trans hsize', hcount.trans hcount'⟩

lemma map_set_eq {α β : Type*} {f : α → β} {l : List α} {a a' : α} (h : l[k]? = some a)
    (hf : f a' = f a) : (l.set k a').map f = l.map f := by
  induction l generalizing k with
  | nil => rfl
  | cons b l ih =>
    cases k with
    | zero =>
      simp at h
      subst h
      simp [hf]
    | succ k => simpa using ih (k := k) (by simpa using h)

/-- A slab that is replaced by another at the same place leaves the regions as they are. -/
lemma map_region_setSlab (hat : pool.slabAt sizeClass k = some slab) {slab' : Slab}
    (hregion : slab'.region = slab.region) :
    (pool.setSlab sizeClass k slab').allSlabs.map Slab.region =
      pool.allSlabs.map Slab.region := by
  have hset := map_set_eq hat hregion
  rw [List.map_set] at hset
  cases sizeClass <;> simp [allSlabs, setSlab, hset]

lemma sum_map_set {α : Type*} (f : α → ℕ) {l : List α} {a : α} (h : l[k]? = some a) (a' : α) :
    ((l.set k a').map f).sum + f a = (l.map f).sum + f a' := by
  induction l generalizing k with
  | nil => simp at h
  | cons b l ih =>
    cases k with
    | zero =>
      simp at h
      subst h
      simp only [List.set_cons_zero, List.map_cons, List.sum_cons]
      omega
    | succ k =>
      have hrest := ih (k := k) (by simpa using h)
      simp only [List.set_cons_succ, List.map_cons, List.sum_cons]
      omega

lemma freeCounts_setSlab (hat : pool.slabAt sizeClass k = some slab) (slab' : Slab) :
    (pool.setSlab sizeClass k slab').freeCounts + slab.freeCount =
      pool.freeCounts + slab'.freeCount := by
  have hsum := sum_map_set Slab.freeCount hat slab'
  rw [List.map_set] at hsum
  simp only [freeCounts, allSlabs, List.map_append, List.sum_append]
  cases sizeClass <;> simp [setSlab] <;> omega

/-- What a block with an entry in a slab knows about the slab. -/
lemma Shaped.entry (h : pool.Shaped) {block : PoolBlock} {b : Bool} (hentry : pool.Entry block b) :
    ∃ slab ∈ pool.slabs block.sizeClass, ∃ i < slab.blockCount,
      block.ptr = slab.memory + i * slab.blockSize ∧ slab.used[i]? = some b ∧ slab.Sound ∧
        block.extent = slab.blockSize := by
  obtain ⟨slab, hmem, i, hi, hptr, hused⟩ := hentry
  obtain ⟨hsound, hsize, hcount⟩ := h _ slab hmem
  refine ⟨slab, hmem, i, hi, hptr, hused, hsound, ?_⟩
  have hne : block.sizeClass ≠ .huge := by
    intro hhuge
    rw [hcount, hhuge] at hi
    exact absurd hi (Nat.not_lt_zero i)
  rw [PoolBlock.extent, if_neg hne, hsize]

/-- Two slabs of the pool that are not the same do not overlap. -/
def SlabsApart (pool : MemoryPool) : Prop := (pool.allSlabs.map Slab.region).Pairwise Region.Apart

lemma SlabsApart.apart (h : pool.SlabsApart) {slab slab' : Slab} (hmem : slab ∈ pool.allSlabs)
    (hmem' : slab' ∈ pool.allSlabs) (hne : slab ≠ slab') : slab.region.Apart slab'.region := by
  have hsymm : Std.Symm fun slab slab' : Slab => slab.region.Apart slab'.region :=
    ⟨fun _ _ h => Ranges.Apart.symm _ _ h⟩
  exact (List.pairwise_map.mp h).forall hmem hmem' hne

/-- Blocks with different entries are different, and so they do not overlap. -/
lemma Entry.apart (hshaped : pool.Shaped) (hapart : pool.SlabsApart) {block block' : PoolBlock}
    {b b' : Bool} (h : pool.Entry block b) (h' : pool.Entry block' b') (hne : b ≠ b') :
    block.Apart block' := by
  obtain ⟨slab, hmem, i, hi, hptr, hused, hsound, hextent⟩ := hshaped.entry h
  obtain ⟨slab', hmem', i', hi', hptr', hused', hsound', hextent'⟩ := hshaped.entry h'
  have hwithin := Slab.block_within hi
  have hwithin' := Slab.block_within hi'
  rw [PoolBlock.Apart, Ranges.Apart, hptr, hptr', hextent, hextent']
  by_cases hslab : slab = slab'
  · subst hslab
    have hindex : i ≠ i' := by
      rintro rfl
      exact hne (Option.some.inj (hused.symm.trans hused'))
    rcases Nat.lt_or_gt_of_ne hindex with hlt | hlt
    · have hmul := Nat.mul_le_mul_right slab.blockSize (Nat.succ_le_of_lt hlt)
      rw [Nat.succ_mul] at hmul
      omega
    · have hmul := Nat.mul_le_mul_right slab.blockSize (Nat.succ_le_of_lt hlt)
      rw [Nat.succ_mul] at hmul
      omega
  · have hregions := hapart.apart (mem_allSlabs hmem) (mem_allSlabs hmem') hslab
    simp only [Region.Apart, Ranges.Apart, Slab.region] at hregions
    omega

/-- Another block keeps its entry when the entry of one block is changed. -/
lemma Entry.setSlab {block : PoolBlock} {b b' : Bool} {i n : ℕ} (h : pool.Entry block b)
    (hat : pool.slabAt sizeClass k = some slab)
    (hne : block.ptr ≠ slab.memory + i * slab.blockSize) :
    (pool.setSlab sizeClass k (slab.mark i b' n)).Entry block b := by
  obtain ⟨other, hmem, j, hj, hptr, hused⟩ := h
  by_cases hclass : block.sizeClass = sizeClass
  · subst hclass
    obtain ⟨l, hl, hget⟩ := List.mem_iff_getElem.mp hmem
    by_cases hslab : l = k
    · subst hslab
      have hsame : slab = other := by
        rw [slabAt, List.getElem?_eq_getElem hl, hget] at hat
        exact (Option.some.inj hat).symm
      subst hsame
      refine ⟨slab.mark i b' n, ?_, j, hj, hptr, ?_⟩
      · rw [slabs_setSlab]
        exact List.mem_set hl _
      · have hindex : i ≠ j := by
          rintro rfl
          exact hne hptr
        rw [← hused]
        exact List.getElem?_set_ne hindex
    · refine ⟨other, ?_, j, hj, hptr, hused⟩
      rw [slabs_setSlab]
      refine List.mem_of_getElem? (i := l) ?_
      rw [List.getElem?_set_ne (Ne.symm hslab), List.getElem?_eq_getElem hl, hget]
  · refine ⟨other, ?_, j, hj, hptr, hused⟩
    rw [slabs_setSlab_of_ne hclass]
    exact hmem

/-- The block whose entry is changed has the new one. -/
lemma entry_setSlab {block : PoolBlock} {b : Bool} {i n : ℕ}
    (hat : pool.slabAt block.sizeClass k = some slab) (hi : i < slab.blockCount)
    (hlength : slab.used.length = slab.blockCount)
    (hptr : block.ptr = slab.memory + i * slab.blockSize) :
    (pool.setSlab block.sizeClass k (slab.mark i b n)).Entry block b := by
  obtain ⟨hk, -⟩ := List.getElem?_eq_some_iff.mp hat
  refine ⟨slab.mark i b n, ?_, i, hi, hptr, ?_⟩
  · rw [slabs_setSlab]
    exact List.mem_set hk _
  · exact List.getElem?_set_self (hlength ▸ hi)

/-! ### Allocation -/

/-- A block of the slab at place `k` can be handed out. -/
structure Offers (slabs : List Slab) (k : ℕ) (slab : Slab) (i : ℕ) : Prop where
  at_k : slabs[k]? = some slab
  index_lt : i < slab.blockCount
  unused : slab.used[i]? = some false
  freeCount_pos : 0 < slab.freeCount

lemma allocateFrom_cases {slabs : List Slab} (h : ∀ slab ∈ slabs, slab.Sound) :
    (∃ k slab i, Offers slabs k slab i ∧ allocateFrom slabs =
      (slabs.set k (slab.mark i true (slab.freeCount - 1)),
        some (slab.memory + i * slab.blockSize))) ∨
    allocateFrom slabs = (slabs, none) := by
  induction slabs with
  | nil => exact Or.inr rfl
  | cons slab slabs ih =>
    rw [List.forall_mem_cons] at h
    by_cases hfree : 0 < slab.freeCount
    · obtain ⟨i, hi, hused, heq⟩ := h.1.allocateBlock hfree
      refine Or.inl ⟨0, slab, i, ⟨rfl, hi, hused, hfree⟩, ?_⟩
      rw [allocateFrom, if_pos hfree, heq]
      rfl
    · rcases ih h.2 with ⟨k, other, i, hoffers, heq⟩ | heq
      · refine Or.inl ⟨k + 1, other, i, ⟨hoffers.1, hoffers.2, hoffers.3, hoffers.4⟩, ?_⟩
        rw [allocateFrom, if_neg hfree, heq]
        rfl
      · refine Or.inr ?_
        rw [allocateFrom, if_neg hfree, heq]

/-- The pool that has handed out block `i` of a slab. -/
def handOut (pool : MemoryPool) (sizeClass : SizeClass) (k : ℕ) (slab : Slab) (i : ℕ)
    (size : UInt64) : MemoryPool :=
  ((pool.setSlab sizeClass k (slab.mark i true (slab.freeCount - 1))).countAllocation
    size).subFreeBlocks 1

/-- The pool with one more slab. -/
def grow (pool : MemoryPool) (sizeClass : SizeClass) (memory : ℕ) : MemoryPool :=
  (pool.createSlab sizeClass (some memory)).1

lemma createSlab_eq (hne : sizeClass ≠ .huge) (memory : ℕ) :
    pool.createSlab sizeClass (some memory) =
      (pool.grow sizeClass memory, some (pool.slabs sizeClass).length) := by
  cases sizeClass with
  | huge => exact absurd rfl hne
  | _ => rfl

lemma slabs_grow (hne : sizeClass ≠ .huge) (memory : ℕ) :
    (pool.grow sizeClass memory).slabs = Function.update pool.slabs sizeClass
      (pool.slabs sizeClass ++ [Slab.new memory sizeClass.value sizeClass.blockCount]) := by
  cases sizeClass with
  | huge => exact absurd rfl hne
  | _ => rfl

lemma value_pos (sizeClass : SizeClass) : 0 < sizeClass.value := by
  cases sizeClass <;> decide

lemma blockCount_pos (hne : sizeClass ≠ .huge) : 0 < sizeClass.blockCount := by
  cases sizeClass with
  | huge => exact absurd rfl hne
  | _ => decide

/-- A new slab has a block to offer, the only one in its list that is not full perhaps. -/
lemma offers_grow (pool : MemoryPool) (hne : sizeClass ≠ .huge) {memory : ℕ}
    (hmemory : memory ≠ 0) :
    ∃ slab i, Offers ((pool.grow sizeClass memory).slabs sizeClass)
        (pool.slabs sizeClass).length slab i ∧
      slab.allocateBlock = (slab.mark i true (slab.freeCount - 1),
        some (slab.memory + i * slab.blockSize)) := by
  have hnew : (Slab.new memory sizeClass.value sizeClass.blockCount).Sound :=
    Slab.sound_new hmemory (value_pos sizeClass)
  obtain ⟨i, hi, hused, hblock⟩ := hnew.allocateBlock (blockCount_pos hne)
  refine ⟨_, i, ⟨?_, hi, hused, blockCount_pos hne⟩, hblock⟩
  rw [slabs_grow hne, Function.update_self, List.getElem?_concat_length]

lemma allSlabs_grow (hne : sizeClass ≠ .huge)
    (memory : ℕ) : (pool.grow sizeClass memory).allSlabs.Perm
      (Slab.new memory sizeClass.value sizeClass.blockCount :: pool.allSlabs) := by
  rw [List.perm_iff_count]
  intro slab
  simp only [allSlabs, slabs_grow hne, List.count_append, List.count_cons]
  cases sizeClass with
  | huge => exact absurd rfl hne
  | _ => simp [List.count_append, List.count_cons]; omega

lemma mem_slabs_grow (hne : sizeClass ≠ .huge)
    {memory : ℕ} {otherClass : SizeClass}
    (h : slab ∈ pool.slabs otherClass) :
    slab ∈ (pool.grow sizeClass memory).slabs otherClass := by
  rw [slabs_grow hne]
  by_cases hclass : otherClass = sizeClass
  · subst hclass
    rw [Function.update_self]
    exact List.mem_append_left _ h
  · rw [Function.update_of_ne hclass]
    exact h

lemma Entry.grow (hne : sizeClass ≠ .huge)
    {memory : ℕ} {block : PoolBlock} {b : Bool} (h : pool.Entry block b) :
    (pool.grow sizeClass memory).Entry block b := by
  obtain ⟨slab, hmem, hrest⟩ := h
  exact ⟨slab, mem_slabs_grow hne hmem, hrest⟩

section Allocate

variable {system : ℕ} {size : UInt64}

lemma allocate_huge (pool : MemoryPool) (system : ℕ) (hsize : size ≠ 0)
    (hhuge : getSizeClass size = .huge) :
    pool.asks size = some size.toNat ∧
      pool.allocate (some system) size = (pool.countAllocation size, some system) := by
  constructor
  · rw [asks, if_neg hsize, if_pos hhuge]
  · rw [allocate, if_neg hsize]
    simp only
    rw [if_pos hhuge]

/-- An allocation of a smaller block hands out a block of a slab, one that the pool has or one
that it makes. -/
lemma allocate_slab (h : pool.Shaped) (hsystem : ∀ length ∈ pool.asks size, system ≠ 0)
    (hsize : size ≠ 0) (hhuge : getSizeClass size ≠ .huge) :
    ∃ base k slab i,
      (base = pool ∨ base = pool.grow (getSizeClass size) system ∧
        pool.asks size = some ((getSizeClass size).value * (getSizeClass size).blockCount)) ∧
      Offers (base.slabs (getSizeClass size)) k slab i ∧
      pool.allocate (some system) size =
        (base.handOut (getSizeClass size) k slab i size,
          some (slab.memory + i * slab.blockSize)) := by
  have hsound : ∀ slab ∈ pool.slabs (getSizeClass size), slab.Sound :=
    fun slab hmem => (h _ slab hmem).1
  rcases allocateFrom_cases hsound with ⟨k, slab, i, hoffers, heq⟩ | heq
  · refine ⟨pool, k, slab, i, Or.inl rfl, hoffers, ?_⟩
    rw [allocate, if_neg hsize]
    simp only
    rw [if_neg hhuge, heq]
    rfl
  · have hasks : pool.asks size =
        some ((getSizeClass size).value * (getSizeClass size).blockCount) := by
      rw [asks, if_neg hsize, if_neg hhuge, heq]
      rfl
    obtain ⟨slab, i, hoffers, hblock⟩ := offers_grow pool hhuge (hsystem _ hasks)
    refine ⟨_, _, slab, i, Or.inr ⟨rfl, hasks⟩, hoffers, ?_⟩
    · have hat : (pool.grow (getSizeClass size) system).slabAt (getSizeClass size)
          (pool.slabs (getSizeClass size)).length = some slab := hoffers.at_k
      rw [allocate, if_neg hsize]
      simp only
      rw [if_neg hhuge, heq]
      simp only [Function.update_eq_self, createSlab_eq hhuge, hat, Option.map_some, hblock]
      rfl

end Allocate

/-! ### Deallocation -/

lemma findSlabContaining_some {order : List SizeClass} {ptr : ℕ}
    (h : pool.findSlabContaining order ptr = some (sizeClass, k)) :
    ∃ slab, pool.slabAt sizeClass k = some slab ∧ slab.contains ptr = true := by
  obtain ⟨c, -, hc⟩ := List.exists_of_findSome?_eq_some h
  obtain ⟨j, hj, heq⟩ := Option.map_eq_some_iff.mp hc
  cases heq
  obtain ⟨hlt, hcontains, -⟩ := List.findIdx?_eq_some_iff_getElem.mp hj
  exact ⟨_, List.getElem?_eq_getElem hlt, hcontains⟩

lemma findSlabContaining_isSome {order : List SizeClass} {ptr : ℕ} (horder : sizeClass ∈ order)
    (hmem : slab ∈ pool.slabs sizeClass) (hcontains : slab.contains ptr = true) :
    (pool.findSlabContaining order ptr).isSome := by
  rw [findSlabContaining, List.findSome?_isSome_iff]
  refine ⟨sizeClass, horder, ?_⟩
  rw [Option.isSome_map, List.findIdx?_isSome]
  exact List.any_eq_true.mpr ⟨slab, hmem, hcontains⟩

lemma value_injective : Function.Injective SizeClass.value := by
  intro c c' h
  cases c <;> cases c' <;> first | rfl | exact absurd h (by decide)

/-- The search finds the slab of the block, whatever the order of the map. -/
lemma findSlabContaining_block (hshaped : pool.Shaped) (hapart : pool.SlabsApart)
    {order : List SizeClass} (horder : sizeClass ∈ order) (hmem : slab ∈ pool.slabs sizeClass)
    {i : ℕ} (hi : i < slab.blockCount) :
    ∃ k, pool.slabAt sizeClass k = some slab ∧
      pool.findSlabContaining order (slab.memory + i * slab.blockSize) = some (sizeClass, k) := by
  have hsound := (hshaped _ _ hmem).1
  have hcontains := Slab.contains_block hsound hi
  obtain ⟨⟨c, k⟩, hfound⟩ := Option.isSome_iff_exists.mp
    (findSlabContaining_isSome horder hmem hcontains)
  obtain ⟨other, hat, hother⟩ := findSlabContaining_some hfound
  have hmem' := mem_slabs_of_slabAt hat
  obtain ⟨hsound', hsize', -⟩ := hshaped _ _ hmem'
  have hsame : other = slab := by
    by_contra hne
    have hregions := hapart.apart (mem_allSlabs hmem') (mem_allSlabs hmem) hne
    rw [Slab.contains_iff hsound] at hcontains
    rw [Slab.contains_iff hsound'] at hother
    simp only [Region.Apart, Ranges.Apart, Slab.region] at hregions
    omega
  subst hsame
  have hclass : c = sizeClass := value_injective (hsize'.symm.trans (hshaped _ _ hmem).2.1)
  subst hclass
  exact ⟨k, hat, hfound⟩

/-- The pool that has taken back block `i` of a slab. -/
def takeBack (pool : MemoryPool) (sizeClass : SizeClass) (k : ℕ) (slab : Slab) (i : ℕ)
    (size : UInt64) : MemoryPool :=
  ((pool.setSlab sizeClass k (slab.mark i false (slab.freeCount + 1))).countDeallocation
    size).addFreeBlocks 1

section Deallocate

variable {block : PoolBlock} {order : List SizeClass}

lemma deallocate_huge (hptr : block.ptr ≠ 0) (hhuge : block.sizeClass = .huge) :
    pool.deallocate order block.ptr block.size = pool.countDeallocation block.size := by
  rw [deallocate, if_neg hptr]
  exact if_pos hhuge

lemma sizeClass_ne_huge (hshaped : pool.Shaped) {b : Bool} (h : pool.Entry block b) :
    block.sizeClass ≠ .huge := by
  intro hhuge
  obtain ⟨slab, hmem, i, hi, -⟩ := h
  rw [(hshaped _ slab hmem).2.2, hhuge] at hi
  exact absurd hi (Nat.not_lt_zero i)

/-- What `Deallocate` does to a block of a slab depends on its entry alone. -/
lemma deallocate_slab (hshaped : pool.Shaped) (hapart : pool.SlabsApart) {b : Bool}
    (h : pool.Entry block b) (horder : block.sizeClass ∈ order) :
    ∃ k slab i, pool.slabAt block.sizeClass k = some slab ∧ i < slab.blockCount ∧
      block.ptr = slab.memory + i * slab.blockSize ∧ slab.used[i]? = some b ∧
      pool.deallocate order block.ptr block.size =
        if b then pool.takeBack block.sizeClass k slab i block.size else pool := by
  have hhuge : getSizeClass block.size ≠ .huge := sizeClass_ne_huge hshaped h
  obtain ⟨slab, hmem, i, hi, hptr, hused⟩ := h
  have hsound := (hshaped _ _ hmem).1
  obtain ⟨k, hat, hfound⟩ := findSlabContaining_block hshaped hapart horder hmem hi
  refine ⟨k, slab, i, hat, hi, hptr, hused, ?_⟩
  have hne : block.ptr ≠ 0 := by
    have hmemory := hsound.memory_ne_zero
    omega
  rw [deallocate, if_neg hne, if_neg hhuge, hptr, hfound]
  simp only [hat, Option.map_some, hsound.deallocateBlock hi, hused]
  cases b <;> rfl

end Deallocate

end MemoryPool

end TinyWebServer
