import TinyWebServer.Library.Runs
import TinyWebServer.Memory.PoolSlabs

/-!
# The books of the memory pool

A ledger beside the pool: the blocks in use and the slab blocks given back since. The system
allocator is asked for slabs and for large blocks, and answers with memory that nobody holds.
-/

namespace TinyWebServer

structure PoolLedger where
  pool : MemoryPool
  /-- The blocks in use. -/
  live : List PoolBlock
  /-- The slab blocks that were given back and not handed out again. -/
  freed : List PoolBlock

inductive PoolOp
  /-- `Allocate`, with the address the system allocator answers with. -/
  | allocate (size : UInt64) (system : ℕ)
  /-- `Deallocate`, with the order in which the map of the slabs is iterated. -/
  | deallocate (block : PoolBlock) (order : List SizeClass)

namespace PoolLedger

def initial : PoolLedger := ⟨MemoryPool.new, [], []⟩

/-- What the system allocator has handed out and not got back. -/
def regions (s : PoolLedger) : List Region :=
  s.pool.allSlabs.map Slab.region ++
    (s.live.filter (·.sizeClass = .huge)).map fun b => ⟨b.ptr, b.extent⟩

/-- The system allocator answers with aligned memory that nobody holds. -/
def Grants (s : PoolLedger) (r : Region) : Prop :=
  r.Addressable ∧ r.Aligned ∧ ∀ r' ∈ s.regions, r.Apart r'

instance (s : PoolLedger) (r : Region) : Decidable (s.Grants r) :=
  inferInstanceAs (Decidable (_ ∧ _))

/-- Every class with slabs has an entry in the map. -/
def Lists (s : PoolLedger) (order : List SizeClass) : Prop :=
  ∀ sizeClass ∈ [SizeClass.small, .medium, .large, .huge],
    s.pool.slabs sizeClass ≠ [] → sizeClass ∈ order

instance (s : PoolLedger) (order : List SizeClass) : Decidable (s.Lists order) :=
  inferInstanceAs (Decidable (∀ _ ∈ _, _))

def allocate (s : PoolLedger) (size : UInt64) (system : ℕ) : PoolLedger :=
  match s.pool.allocate (some system) size with
  | (pool, some ptr) => ⟨pool, ⟨ptr, size⟩ :: s.live, s.freed.filter (·.ptr ≠ ptr)⟩
  | (pool, none) => { s with pool := pool }

def deallocate (s : PoolLedger) (block : PoolBlock) (order : List SizeClass) : PoolLedger where
  pool := s.pool.deallocate order block.ptr block.size
  live := s.live.erase block
  freed := if block ∈ s.live ∧ block.sizeClass ≠ .huge then block :: s.freed else s.freed

/-- A block is given back by whoever has it, or once more after that. -/
def step (s : PoolLedger) : PoolOp → Option PoolLedger
  | .allocate size system =>
    if ∀ length ∈ s.pool.asks size, s.Grants ⟨system, length⟩ then some (s.allocate size system)
    else none
  | .deallocate block order =>
    if (block ∈ s.live ∨ block ∈ s.freed) ∧ s.Lists order then some (s.deallocate block order)
    else none

end PoolLedger

namespace PoolLedger

open MemoryPool

/-- The books of the pool agree with the slabs and with the blocks in use. -/
structure Inv (s : PoolLedger) : Prop where
  shaped : s.pool.Shaped
  regions_apart : s.regions.Pairwise Region.Apart
  addressable : ∀ r ∈ s.regions, r.Addressable
  live_entry : ∀ block ∈ s.live, block.sizeClass ≠ .huge → s.pool.Entry block true
  freed_entry : ∀ block ∈ s.freed, s.pool.Entry block false
  live_apart : s.live.Pairwise PoolBlock.Apart
  size_pos : ∀ block ∈ s.live, 0 < block.size.toNat
  freeBlocks : s.pool.stats.freeBlocks = UInt64.ofNat s.pool.freeCounts
  allocatedBlocks : s.pool.stats.allocatedBlocks = UInt64.ofNat s.live.length
  currentUsedBytes : s.pool.stats.currentUsedBytes =
    UInt64.ofNat (s.live.map fun block => block.size.toNat).sum

lemma inv_initial : initial.Inv where
  shaped _ _ hmem := by cases hmem
  regions_apart := List.Pairwise.nil
  addressable _ hmem := by cases hmem
  live_entry _ hmem := by cases hmem
  freed_entry _ hmem := by cases hmem
  live_apart := List.Pairwise.nil
  size_pos _ hmem := by cases hmem
  freeBlocks := rfl
  allocatedBlocks := rfl
  currentUsedBytes := rfl

variable {s : PoolLedger}

lemma Inv.slabsApart (h : s.Inv) : s.pool.SlabsApart := (List.pairwise_append.mp h.regions_apart).1

lemma getSizeClass_le {size : UInt64} (h : getSizeClass size ≠ .huge) :
    size.toNat ≤ (getSizeClass size).value := by
  unfold getSizeClass at h ⊢
  split_ifs at h ⊢ with h₁ h₂ h₃
  · exact h₁
  · exact h₂
  · exact h₃
  · exact absurd rfl h

lemma size_le_extent (block : PoolBlock) : block.size.toNat ≤ block.extent := by
  rw [PoolBlock.extent]
  split_ifs with hhuge
  · exact le_rfl
  · exact getSizeClass_le hhuge

lemma ptr_ne_of_apart {block block' : PoolBlock} (hpos : 0 < block.size.toNat)
    (hpos' : 0 < block'.size.toNat) (h : block.Apart block') : block.ptr ≠ block'.ptr := by
  have hextent := size_le_extent block
  have hextent' := size_le_extent block'
  rcases h with h | h <;> omega

/-- The ledger with one more slab in its pool. -/
def grow (s : PoolLedger) (sizeClass : SizeClass) (memory : ℕ) : PoolLedger :=
  { s with pool := s.pool.grow sizeClass memory }

lemma regions_grow {sizeClass : SizeClass} (hne : sizeClass ≠ .huge) (memory : ℕ) :
    (s.grow sizeClass memory).regions.Perm
      (⟨memory, sizeClass.value * sizeClass.blockCount⟩ :: s.regions) :=
  List.Perm.append_right _ ((allSlabs_grow hne memory).map Slab.region)

lemma Inv.grow (h : s.Inv) {sizeClass : SizeClass} (hne : sizeClass ≠ .huge) {memory : ℕ}
    (hgrants : s.Grants ⟨memory, sizeClass.value * sizeClass.blockCount⟩) :
    (s.grow sizeClass memory).Inv where
  shaped := by
    intro otherClass slab hmem
    have hpos : memory ≠ 0 := by
      have hlower := hgrants.1.1
      simp only at hlower
      omega
    simp only [PoolLedger.grow, slabs_grow hne] at hmem
    by_cases hclass : otherClass = sizeClass
    · subst hclass
      rw [Function.update_self, List.mem_append, List.mem_singleton] at hmem
      rcases hmem with hmem | rfl
      · exact h.shaped _ slab hmem
      · exact ⟨Slab.sound_new hpos (value_pos _), rfl, rfl⟩
    · rw [Function.update_of_ne hclass] at hmem
      exact h.shaped _ slab hmem
  regions_apart := by
    have hsymm : Std.Symm Region.Apart := ⟨fun _ _ h => Ranges.Apart.symm _ _ h⟩
    rw [(regions_grow hne memory).pairwise_iff fun h => Ranges.Apart.symm _ _ h,
      List.pairwise_cons]
    exact ⟨hgrants.2.2, h.regions_apart⟩
  addressable := by
    intro r hmem
    rw [(regions_grow hne memory).mem_iff, List.mem_cons] at hmem
    rcases hmem with rfl | hmem
    · exact hgrants.1
    · exact h.addressable r hmem
  live_entry block hmem hhuge := Entry.grow hne (h.live_entry block hmem hhuge)
  freed_entry block hmem := Entry.grow hne (h.freed_entry block hmem)
  live_apart := h.live_apart
  size_pos := h.size_pos
  freeBlocks := by
    have hsum : (s.pool.grow sizeClass memory).freeCounts =
        sizeClass.blockCount + s.pool.freeCounts :=
      ((allSlabs_grow hne memory).map Slab.freeCount).sum_eq
    have hstats : (s.pool.grow sizeClass memory).stats.freeBlocks =
        s.pool.stats.freeBlocks + UInt64.ofNat sizeClass.blockCount := by
      cases sizeClass with
      | huge => exact absurd rfl hne
      | _ => rfl
    simp only [PoolLedger.grow]
    rw [hstats, hsum, h.freeBlocks, Nat.add_comm, UInt64.ofNat_add]
  allocatedBlocks := by
    cases sizeClass <;> exact h.allocatedBlocks
  currentUsedBytes := by
    cases sizeClass <;> exact h.currentUsedBytes

/-! ### Handing out a block -/

/-- The ledger behind a block that was handed out. -/
def enter (s : PoolLedger) (pool : MemoryPool) (block : PoolBlock) : PoolLedger :=
  ⟨pool, block :: s.live, s.freed.filter (·.ptr ≠ block.ptr)⟩

lemma map_region_handOut {pool : MemoryPool} {sizeClass : SizeClass} {k i : ℕ} {slab : Slab}
    (hat : pool.slabAt sizeClass k = some slab) (size : UInt64) :
    (pool.handOut sizeClass k slab i size).allSlabs.map Slab.region =
      pool.allSlabs.map Slab.region :=
  map_region_setSlab hat rfl

/-- The block of a slab, not handed out yet, is apart from every block in use. -/
lemma Inv.apart_live (h : s.Inv) {block : PoolBlock} (hentry : s.pool.Entry block false) :
    ∀ block' ∈ s.live, block.Apart block' := by
  intro block' hmem
  by_cases hhuge : block'.sizeClass = .huge
  · obtain ⟨slab, hslab, i, hi, hptr, -, -, hextent⟩ := h.shaped.entry hentry
    have hregion : slab.region ∈ s.pool.allSlabs.map Slab.region :=
      List.mem_map_of_mem (mem_allSlabs hslab)
    have hlarge : (⟨block'.ptr, block'.extent⟩ : Region) ∈
        (s.live.filter (·.sizeClass = .huge)).map fun b => ⟨b.ptr, b.extent⟩ :=
      List.mem_map.mpr ⟨block', List.mem_filter.mpr ⟨hmem, decide_eq_true hhuge⟩, rfl⟩
    have hapart := (List.pairwise_append.mp h.regions_apart).2.2 _ hregion _ hlarge
    have hwithin := Slab.block_within hi
    simp only [Region.Apart, PoolBlock.Apart, Ranges.Apart, Slab.region] at hapart ⊢
    omega
  · exact hentry.apart h.shaped h.slabsApart (h.live_entry block' hmem hhuge) Bool.false_ne_true

lemma toNat_pos {size : UInt64} (hsize : size ≠ 0) : 0 < size.toNat := by
  rw [Nat.pos_iff_ne_zero]
  exact fun hzero => hsize (UInt64.toNat_inj.mp hzero)

lemma allocatedBlocks_cons (h : s.Inv) (block : PoolBlock) :
    s.pool.stats.allocatedBlocks + 1 = UInt64.ofNat (block :: s.live).length := by
  rw [h.allocatedBlocks]
  exact (UInt64.ofNat_add ..).symm

lemma currentUsedBytes_cons (h : s.Inv) (block : PoolBlock) :
    s.pool.stats.currentUsedBytes + block.size =
      UInt64.ofNat ((block :: s.live).map fun block => block.size.toNat).sum := by
  rw [h.currentUsedBytes, List.map_cons, List.sum_cons, Nat.add_comm, UInt64.ofNat_add,
    UInt64.ofNat_toNat]

lemma freeCounts_handOut {pool : MemoryPool} {sizeClass : SizeClass} {k i : ℕ} {slab : Slab}
    (hoffers : Offers (pool.slabs sizeClass) k slab i) (size : UInt64) :
    (pool.handOut sizeClass k slab i size).freeCounts + 1 = pool.freeCounts := by
  have hsum := freeCounts_setSlab hoffers.at_k (slab.mark i true (slab.freeCount - 1))
  have hpos := hoffers.freeCount_pos
  change (pool.setSlab sizeClass k (slab.mark i true (slab.freeCount - 1))).freeCounts + 1 = _
  simp only [Slab.mark] at hsum ⊢
  omega

lemma Inv.handOut (h : s.Inv) {size : UInt64} (hsize : size ≠ 0)
    (hhuge : getSizeClass size ≠ .huge) {k i : ℕ} {slab : Slab}
    (hoffers : Offers (s.pool.slabs (getSizeClass size)) k slab i) :
    (s.enter (s.pool.handOut (getSizeClass size) k slab i size)
      ⟨slab.memory + i * slab.blockSize, size⟩).Inv := by
  have hat : s.pool.slabAt (getSizeClass size) k = some slab := hoffers.at_k
  have hslab := h.shaped _ _ (mem_slabs_of_slabAt hat)
  have hentry : s.pool.Entry ⟨slab.memory + i * slab.blockSize, size⟩ false :=
    ⟨slab, mem_slabs_of_slabAt hat, i, hoffers.index_lt, rfl, hoffers.unused⟩
  have hpos := toNat_pos hsize
  have hregions : (s.enter (s.pool.handOut (getSizeClass size) k slab i size)
      ⟨slab.memory + i * slab.blockSize, size⟩).regions = s.regions := by
    rw [regions, enter, map_region_handOut hat,
      List.filter_cons_of_neg (by simp [PoolBlock.sizeClass, hhuge])]
    rfl
  have hapart := h.apart_live hentry
  constructor
  case shaped =>
    exact h.shaped.setSlab (hslab.1.mark_true hoffers.unused) hat rfl rfl
  case regions_apart =>
    rw [hregions]
    exact h.regions_apart
  case addressable =>
    rw [hregions]
    exact h.addressable
  case live_entry =>
    intro block hmem hhuge'
    rcases List.mem_cons.mp hmem with rfl | hmem
    · exact entry_setSlab hat hoffers.index_lt hslab.1.length_used rfl
    · refine (h.live_entry block hmem hhuge').setSlab hat ?_
      exact (ptr_ne_of_apart hpos (h.size_pos block hmem) (hapart block hmem)).symm
  case freed_entry =>
    intro block hmem
    obtain ⟨hmem, hne⟩ := List.mem_filter.mp hmem
    exact (h.freed_entry block hmem).setSlab hat (of_decide_eq_true hne)
  case live_apart => exact List.pairwise_cons.mpr ⟨hapart, h.live_apart⟩
  case size_pos => exact List.forall_mem_cons.mpr ⟨hpos, h.size_pos⟩
  case freeBlocks =>
    have hsum := freeCounts_handOut hoffers size
    change s.pool.stats.freeBlocks - 1 = _
    rw [h.freeBlocks, ← hsum, UInt64.ofNat_add]
    exact add_sub_cancel_right _ _
  case allocatedBlocks => exact allocatedBlocks_cons h _
  case currentUsedBytes => exact currentUsedBytes_cons h ⟨slab.memory + i * slab.blockSize, size⟩

/-- Memory that the system grants is apart from every block in use. -/
lemma Inv.apart_of_grants (h : s.Inv) {size : UInt64} (hhuge : getSizeClass size = .huge)
    {system : ℕ} (hgrants : s.Grants ⟨system, size.toNat⟩) :
    ∀ block ∈ s.live, (⟨system, size⟩ : PoolBlock).Apart block := by
  have hextent : (⟨system, size⟩ : PoolBlock).extent = size.toNat := if_pos hhuge
  intro block hmem
  by_cases hlarge : block.sizeClass = .huge
  · have hmem' : (⟨block.ptr, block.extent⟩ : Region) ∈ s.regions :=
      List.mem_append_right _ (List.mem_map.mpr
        ⟨block, List.mem_filter.mpr ⟨hmem, decide_eq_true hlarge⟩, rfl⟩)
    have happart := hgrants.2.2 _ hmem'
    simp only [Region.Apart, PoolBlock.Apart, Ranges.Apart, hextent] at happart ⊢
    exact happart
  · obtain ⟨slab, hslab, i, hi, hptr, -, -, hextent'⟩ :=
      h.shaped.entry (h.live_entry block hmem hlarge)
    have hmem' : slab.region ∈ s.regions :=
      List.mem_append_left _ (List.mem_map_of_mem (mem_allSlabs hslab))
    have happart := hgrants.2.2 _ hmem'
    have hwithin := Slab.block_within hi
    simp only [Region.Apart, PoolBlock.Apart, Ranges.Apart, Slab.region, hextent] at happart ⊢
    omega

/-- A large block is memory nobody held before. -/
lemma Inv.large (h : s.Inv) {size : UInt64} (hsize : size ≠ 0) (hhuge : getSizeClass size = .huge)
    {system : ℕ} (hgrants : s.Grants ⟨system, size.toNat⟩) :
    (s.enter (s.pool.countAllocation size) ⟨system, size⟩).Inv := by
  have hpos := toNat_pos hsize
  have hextent : (⟨system, size⟩ : PoolBlock).extent = size.toNat := if_pos hhuge
  have hregions : (s.enter (s.pool.countAllocation size) ⟨system, size⟩).regions.Perm
      (⟨system, size.toNat⟩ :: s.regions) := by
    rw [regions, enter, List.filter_cons_of_pos (by simp [PoolBlock.sizeClass, hhuge]),
      List.map_cons, hextent]
    exact List.perm_middle
  have hapart := h.apart_of_grants hhuge hgrants
  constructor
  case shaped => exact h.shaped
  case regions_apart =>
    rw [hregions.pairwise_iff fun h => Ranges.Apart.symm _ _ h, List.pairwise_cons]
    exact ⟨hgrants.2.2, h.regions_apart⟩
  case addressable =>
    intro r hmem
    rw [hregions.mem_iff, List.mem_cons] at hmem
    rcases hmem with rfl | hmem
    · exact hgrants.1
    · exact h.addressable r hmem
  case live_entry =>
    intro block hmem hhuge'
    rcases List.mem_cons.mp hmem with rfl | hmem
    · exact absurd hhuge hhuge'
    · exact h.live_entry block hmem hhuge'
  case freed_entry =>
    intro block hmem
    exact h.freed_entry block (List.mem_filter.mp hmem).1
  case live_apart => exact List.pairwise_cons.mpr ⟨hapart, h.live_apart⟩
  case size_pos => exact List.forall_mem_cons.mpr ⟨hpos, h.size_pos⟩
  case freeBlocks => exact h.freeBlocks
  case allocatedBlocks => exact allocatedBlocks_cons h _
  case currentUsedBytes => exact currentUsedBytes_cons h ⟨system, size⟩

/-! ### Taking back a block -/

section Deallocate

variable {block : PoolBlock} {order : List SizeClass}

lemma allocatedBlocks_erase (h : s.Inv) (hmem : block ∈ s.live) :
    s.pool.stats.allocatedBlocks - 1 = UInt64.ofNat (s.live.erase block).length := by
  have hlength : s.live.length = (s.live.erase block).length + 1 :=
    (List.perm_cons_erase hmem).length_eq
  rw [h.allocatedBlocks, hlength, UInt64.ofNat_add]
  exact add_sub_cancel_right _ _

lemma currentUsedBytes_erase (h : s.Inv) (hmem : block ∈ s.live) :
    s.pool.stats.currentUsedBytes - block.size =
      UInt64.ofNat ((s.live.erase block).map fun block => block.size.toNat).sum := by
  have hsum := ((List.perm_cons_erase hmem).map fun block => block.size.toNat).sum_eq
  rw [List.map_cons, List.sum_cons, Nat.add_comm] at hsum
  rw [h.currentUsedBytes, hsum, UInt64.ofNat_add, UInt64.ofNat_toNat]
  exact add_sub_cancel_right _ _

/-- A block that is in use only once is apart from the others in use. -/
lemma Inv.apart_erase (h : s.Inv) (hmem : block ∈ s.live) :
    ∀ block' ∈ s.live.erase block, block.Apart block' := by
  have hsymm : ∀ {b b' : PoolBlock}, b.Apart b' → b'.Apart b := fun h => Ranges.Apart.symm _ _ h
  exact (List.pairwise_cons.mp
    (((List.perm_cons_erase hmem).pairwise_iff hsymm).mp h.live_apart)).1

lemma Inv.ptr_ne_zero (h : s.Inv) (hmem : block ∈ s.live) (hhuge : block.sizeClass = .huge) :
    block.ptr ≠ 0 := by
  have hregion : (⟨block.ptr, block.extent⟩ : Region) ∈ s.regions :=
    List.mem_append_right _ (List.mem_map.mpr
      ⟨block, List.mem_filter.mpr ⟨hmem, decide_eq_true hhuge⟩, rfl⟩)
  have hlower := (h.addressable _ hregion).1
  simp only at hlower
  omega

lemma Inv.takeBackLarge (h : s.Inv) (hmem : block ∈ s.live) (hhuge : block.sizeClass = .huge) :
    (s.deallocate block order).Inv := by
  have hsub : (s.live.erase block).Sublist s.live := List.erase_sublist
  have hptr : block.ptr ≠ 0 := h.ptr_ne_zero hmem hhuge
  have hfreed : (s.deallocate block order).freed = s.freed := if_neg fun h => h.2 hhuge
  have hpool : (s.deallocate block order).pool = s.pool.countDeallocation block.size :=
    deallocate_huge hptr hhuge
  have hregions : (s.deallocate block order).regions.Sublist s.regions := by
    rw [regions, hpool]
    exact (List.Sublist.refl _).append ((hsub.filter _).map _)
  constructor
  case shaped =>
    rw [hpool]
    exact h.shaped
  case regions_apart => exact h.regions_apart.sublist hregions
  case addressable => exact fun r hr => h.addressable r (hregions.subset hr)
  case live_entry =>
    intro block' hmem' hhuge'
    rw [hpool]
    exact h.live_entry block' (hsub.subset hmem') hhuge'
  case freed_entry =>
    rw [hpool, hfreed]
    exact h.freed_entry
  case live_apart => exact h.live_apart.sublist hsub
  case size_pos => exact fun block' hmem' => h.size_pos block' (hsub.subset hmem')
  case freeBlocks =>
    rw [hpool]
    exact h.freeBlocks
  case allocatedBlocks =>
    rw [hpool]
    exact allocatedBlocks_erase h hmem
  case currentUsedBytes =>
    rw [hpool]
    exact currentUsedBytes_erase h hmem

lemma mem_order (hlists : s.Lists order) {b : Bool} (hentry : s.pool.Entry block b) :
    block.sizeClass ∈ order := by
  obtain ⟨slab, hmem, -⟩ := hentry
  refine hlists _ ?_ (List.ne_nil_of_mem hmem)
  cases block.sizeClass <;> decide

/-- A block given back before could have the address of one in use only if it had its entry. -/
lemma Inv.freed_ptr_ne (h : s.Inv) (hmem : block ∈ s.live) (hhuge : block.sizeClass ≠ .huge)
    {block' : PoolBlock} (hmem' : block' ∈ s.freed) : block'.ptr ≠ block.ptr := by
  intro hsame
  have hentry := h.live_entry block hmem hhuge
  have hentry' := h.freed_entry block' hmem'
  have hapart := hentry'.apart h.shaped h.slabsApart hentry Bool.false_ne_true
  obtain ⟨slab', _, _, _, _, _, hsound', hextent'⟩ := h.shaped.entry hentry'
  obtain ⟨slab, _, _, _, _, _, hsound, hextent⟩ := h.shaped.entry hentry
  have hpos := hsound.blockSize_pos
  have hpos' := hsound'.blockSize_pos
  rw [PoolBlock.Apart, Ranges.Apart, hsame] at hapart
  omega

lemma freeCounts_takeBack {pool : MemoryPool} {sizeClass : SizeClass} {k i : ℕ} {slab : Slab}
    (hat : pool.slabAt sizeClass k = some slab) (size : UInt64) :
    (pool.takeBack sizeClass k slab i size).freeCounts = pool.freeCounts + 1 := by
  have hsum := freeCounts_setSlab hat (slab.mark i false (slab.freeCount + 1))
  change (pool.setSlab sizeClass k (slab.mark i false (slab.freeCount + 1))).freeCounts = _
  simp only [Slab.mark] at hsum ⊢
  omega

lemma Inv.takeBack (h : s.Inv) (hmem : block ∈ s.live) (hhuge : block.sizeClass ≠ .huge)
    (hlists : s.Lists order) : (s.deallocate block order).Inv := by
  have hsub : (s.live.erase block).Sublist s.live := List.erase_sublist
  have hentry := h.live_entry block hmem hhuge
  obtain ⟨k, slab, i, hat, hi, hptr, hused, heq⟩ :=
    deallocate_slab h.shaped h.slabsApart hentry (mem_order hlists hentry)
  have hslab := h.shaped _ _ (mem_slabs_of_slabAt hat)
  have hfreed : (s.deallocate block order).freed = block :: s.freed := if_pos ⟨hmem, hhuge⟩
  have hpool : (s.deallocate block order).pool =
      s.pool.takeBack block.sizeClass k slab i block.size := heq
  have hregions : (s.deallocate block order).regions.Sublist s.regions := by
    rw [regions, hpool]
    have hslabs : (s.pool.takeBack block.sizeClass k slab i block.size).allSlabs.map Slab.region =
        s.pool.allSlabs.map Slab.region :=
      map_region_setSlab hat rfl
    rw [hslabs]
    exact (List.Sublist.refl _).append ((hsub.filter _).map _)
  have hother : ∀ block' ∈ s.live.erase block, block'.ptr ≠ slab.memory + i * slab.blockSize := by
    intro block' hmem'
    rw [← hptr]
    exact (ptr_ne_of_apart (h.size_pos block hmem) (h.size_pos block' (hsub.subset hmem'))
      (h.apart_erase hmem block' hmem')).symm
  constructor
  case shaped =>
    rw [hpool]
    exact h.shaped.setSlab (hslab.1.mark_false hused) hat rfl rfl
  case regions_apart => exact h.regions_apart.sublist hregions
  case addressable => exact fun r hr => h.addressable r (hregions.subset hr)
  case live_entry =>
    intro block' hmem' hhuge'
    rw [hpool]
    exact (h.live_entry block' (hsub.subset hmem') hhuge').setSlab hat (hother block' hmem')
  case freed_entry =>
    rw [hpool, hfreed, List.forall_mem_cons]
    refine ⟨entry_setSlab hat hi hslab.1.length_used hptr, ?_⟩
    intro block' hmem'
    by_cases hsame : block'.ptr = slab.memory + i * slab.blockSize
    · exact absurd (hsame.trans hptr.symm) (h.freed_ptr_ne hmem hhuge hmem')
    · exact (h.freed_entry block' hmem').setSlab hat hsame
  case live_apart => exact h.live_apart.sublist hsub
  case size_pos => exact fun block' hmem' => h.size_pos block' (hsub.subset hmem')
  case freeBlocks =>
    rw [hpool, freeCounts_takeBack hat, UInt64.ofNat_add, ← h.freeBlocks]
    rfl
  case allocatedBlocks =>
    rw [hpool]
    exact allocatedBlocks_erase h hmem
  case currentUsedBytes =>
    rw [hpool]
    exact currentUsedBytes_erase h hmem

/-- Giving back a block once more changes nothing in the pool. -/
lemma Inv.deallocate_freed (h : s.Inv) (hmem : block ∈ s.freed) (hlists : s.Lists order) :
    s.pool.deallocate order block.ptr block.size = s.pool := by
  have hentry := h.freed_entry block hmem
  obtain ⟨k, slab, i, -, -, -, -, heq⟩ :=
    deallocate_slab h.shaped h.slabsApart hentry (mem_order hlists hentry)
  exact heq

lemma Inv.deallocate_of_not_live (h : s.Inv) (hmem : block ∈ s.freed) (hlive : block ∉ s.live)
    (hlists : s.Lists order) : s.deallocate block order = s := by
  rw [PoolLedger.deallocate, h.deallocate_freed hmem hlists, List.erase_of_not_mem hlive,
    if_neg fun h => hlive h.1]

lemma Inv.deallocate (h : s.Inv) (hmem : block ∈ s.live ∨ block ∈ s.freed)
    (hlists : s.Lists order) : (s.deallocate block order).Inv := by
  by_cases hlive : block ∈ s.live
  · by_cases hhuge : block.sizeClass = .huge
    · exact h.takeBackLarge hlive hhuge
    · exact h.takeBack hlive hhuge hlists
  · rw [h.deallocate_of_not_live (hmem.resolve_left hlive) hlive hlists]
    exact h

end Deallocate

/-- What the system allocator grants is not the null pointer. -/
lemma Grants.ne_zero {system length : ℕ} (h : s.Grants ⟨system, length⟩) : system ≠ 0 := by
  have hlower := h.1.1
  simp only at hlower
  omega

lemma Inv.allocate (h : s.Inv) {size : UInt64} {system : ℕ}
    (hgrants : ∀ length ∈ s.pool.asks size, s.Grants ⟨system, length⟩) :
    (s.allocate size system).Inv := by
  have hsystem : ∀ length ∈ s.pool.asks size, system ≠ 0 :=
    fun length hasks => (hgrants length hasks).ne_zero
  by_cases hsize : size = 0
  · subst hsize
    exact h
  by_cases hhuge : getSizeClass size = .huge
  · obtain ⟨hasks, heq⟩ := allocate_huge s.pool system hsize hhuge
    rw [PoolLedger.allocate, heq]
    exact h.large hsize hhuge (hgrants _ hasks)
  · obtain ⟨base, k, slab, i, hbase, hoffers, heq⟩ :=
      allocate_slab h.shaped hsystem hsize hhuge
    rw [PoolLedger.allocate, heq]
    rcases hbase with rfl | ⟨rfl, hasks⟩
    · exact h.handOut hsize hhuge hoffers
    · exact (h.grow hhuge (hgrants _ hasks)).handOut hsize hhuge hoffers

/-- A step is an allocation with memory that was granted, or a block is given back. -/
lemma step_cases {op : PoolOp} {t : PoolLedger} (h : s.step op = some t) :
    (∃ size system, (∀ length ∈ s.pool.asks size, s.Grants ⟨system, length⟩) ∧
      t = s.allocate size system) ∨
    ∃ block order, (block ∈ s.live ∨ block ∈ s.freed) ∧ s.Lists order ∧
      t = s.deallocate block order := by
  cases op with
  | allocate size system =>
    simp only [PoolLedger.step] at h
    split_ifs at h with hgrants
    exact Or.inl ⟨size, system, hgrants, (Option.some.inj h).symm⟩
  | deallocate block order =>
    simp only [PoolLedger.step] at h
    split_ifs at h with hgiven
    exact Or.inr ⟨block, order, hgiven.1, hgiven.2, (Option.some.inj h).symm⟩

lemma Inv.step (h : s.Inv) {op : PoolOp} {t : PoolLedger} (hstep : s.step op = some t) :
    t.Inv := by
  obtain ⟨size, system, hgrants, rfl⟩ | ⟨block, order, hmem, hlists, rfl⟩ := step_cases hstep
  · exact h.allocate hgrants
  · exact h.deallocate hmem hlists

lemma inv_run {ops : List PoolOp} (h : Runs.run step initial ops = some s) : s.Inv :=
  Runs.invariant_run step (fun _ _ _ hinv hstep => hinv.step hstep) inv_initial h

/-- What the pool owes to those who use it. -/
structure Balanced (s : PoolLedger) : Prop where
  apart : s.live.Pairwise PoolBlock.Apart
  large_enough : ∀ block ∈ s.live, block.size.toNat ≤ block.extent
  in_slab : ∀ block ∈ s.live, block.sizeClass ≠ .huge →
    ∃ slab ∈ s.pool.slabs block.sizeClass, block.extent = slab.blockSize ∧
      slab.memory ≤ block.ptr ∧
      block.ptr + block.extent ≤ slab.memory + slab.blockSize * slab.blockCount
  freeCount : ∀ sizeClass, ∀ slab ∈ s.pool.slabs sizeClass,
    slab.used.length = slab.blockCount ∧ slab.freeCount = slab.used.count false
  freeBlocks : s.pool.stats.freeBlocks.toNat = s.pool.freeCounts
  allocatedBlocks : s.pool.stats.allocatedBlocks.toNat = s.live.length
  currentUsedBytes :
    s.pool.stats.currentUsedBytes.toNat = (s.live.map fun block => block.size.toNat).sum
  freed_again : ∀ block ∈ s.freed, ∀ order, s.Lists order →
    s.pool.deallocate order block.ptr block.size = s.pool

/-- The blocks in use do not need more room than the address space has. -/
lemma Inv.sum_extent_lt (h : s.Inv) : (s.live.map PoolBlock.extent).sum < 2 ^ 64 := by
  have hwithin : ∀ block ∈ s.live,
      Ranges.Within PoolBlock.ptr PoolBlock.extent 1 (2 ^ 64) block := by
    intro block hmem
    by_cases hhuge : block.sizeClass = .huge
    · exact h.addressable ⟨block.ptr, block.extent⟩ (List.mem_append_right _ (List.mem_map.mpr
        ⟨block, List.mem_filter.mpr ⟨hmem, decide_eq_true hhuge⟩, rfl⟩))
    · obtain ⟨slab, hslab, i, hi, hptr, -, -, hextent⟩ :=
        h.shaped.entry (h.live_entry block hmem hhuge)
      have hregion := h.addressable slab.region
        (List.mem_append_left _ (List.mem_map_of_mem (mem_allSlabs hslab)))
      have hblock := Slab.block_within hi
      simp only [Region.Addressable, Ranges.Within, Slab.region] at hregion ⊢
      omega
  have hsum := Ranges.sum_length_le _ _ h.live_apart hwithin
  omega

/-- There are not as many free blocks as the slabs have bytes. -/
lemma Inv.freeCounts_lt (h : s.Inv) : s.pool.freeCounts < 2 ^ 64 := by
  have hregions := List.pairwise_append.mp h.regions_apart
  have hsum := Ranges.sum_length_le Region.start Region.length hregions.1
    fun r hr => h.addressable r (List.mem_append_left _ hr)
  have hle : s.pool.freeCounts ≤ ((s.pool.allSlabs.map Slab.region).map Region.length).sum := by
    rw [freeCounts, List.map_map]
    apply List.sum_le_sum
    intro slab hmem
    obtain ⟨sizeClass, hmem⟩ := exists_of_mem_allSlabs hmem
    obtain ⟨hsound, -, -⟩ := h.shaped sizeClass slab hmem
    calc slab.freeCount = slab.used.count false := hsound.freeCount_eq
      _ ≤ slab.used.length := List.count_le_length
      _ = slab.blockCount := hsound.length_used
      _ ≤ slab.blockSize * slab.blockCount := Nat.le_mul_of_pos_left _ hsound.blockSize_pos
  omega

lemma Inv.balanced (h : s.Inv) : s.Balanced where
  apart := h.live_apart
  large_enough block _ := size_le_extent block
  in_slab := by
    intro block hmem hhuge
    obtain ⟨slab, hslab, i, hi, hptr, -, -, hextent⟩ :=
      h.shaped.entry (h.live_entry block hmem hhuge)
    have hwithin := Slab.block_within hi
    refine ⟨slab, hslab, hextent, ?_, ?_⟩ <;> omega
  freeCount sizeClass slab hmem :=
    ⟨(h.shaped sizeClass slab hmem).1.length_used, (h.shaped sizeClass slab hmem).1.freeCount_eq⟩
  freeBlocks := by
    rw [h.freeBlocks, UInt64.toNat_ofNat_of_lt' h.freeCounts_lt]
  allocatedBlocks := by
    have hle : s.live.length ≤ (s.live.map PoolBlock.extent).sum := by
      have hlength : (s.live.map PoolBlock.extent).length = s.live.length := List.length_map ..
      rw [← hlength]
      apply List.length_le_sum_of_one_le
      intro n hn
      obtain ⟨block, hmem, rfl⟩ := List.mem_map.mp hn
      exact (h.size_pos block hmem).trans_le (size_le_extent block)
    rw [h.allocatedBlocks, UInt64.toNat_ofNat_of_lt' (hle.trans_lt h.sum_extent_lt)]
  currentUsedBytes := by
    have hle : (s.live.map fun block => block.size.toNat).sum ≤
        (s.live.map PoolBlock.extent).sum :=
      List.sum_le_sum fun block _ => size_le_extent block
    rw [h.currentUsedBytes, UInt64.toNat_ofNat_of_lt' (hle.trans_lt h.sum_extent_lt)]
  freed_again block hmem order hlists := h.deallocate_freed hmem hlists

/-- After any allocations and deallocations no two blocks overlap and the books balance. -/
theorem balanced_run {ops : List PoolOp} (h : Runs.run step initial ops = some s) : s.Balanced :=
  (inv_run h).balanced

/-- A block is allocated, given back, given back again and another one allocated in its place. -/
theorem balanced_run_reuse :
    ∃ s, Runs.run step initial
        [.allocate 40 4096, .allocate 5000 65536, .deallocate ⟨4096, 40⟩ [.small],
          .deallocate ⟨4096, 40⟩ [.small], .allocate 64 0, .deallocate ⟨65536, 5000⟩ [.small]] =
        some s ∧ s.Balanced := by
  have hrun : (Runs.run step initial
      [.allocate 40 4096, .allocate 5000 65536, .deallocate ⟨4096, 40⟩ [.small],
        .deallocate ⟨4096, 40⟩ [.small], .allocate 64 0,
        .deallocate ⟨65536, 5000⟩ [.small]]).isSome := by
    rfl
  obtain ⟨s, hs⟩ := Option.isSome_iff_exists.mp hrun
  exact ⟨s, hs, balanced_run hs⟩

end PoolLedger

end TinyWebServer
