import TinyWebServer.Library.Stock
import TinyWebServer.Memory.PoolLedger

/-!
# When the memory pool grows

The slabs of a size class are crates of blocks. The search over the slabs finds a free block if
there is one, so the class gets a slab only when all its blocks are in use.
-/

namespace TinyWebServer

namespace MemoryPool

/-- The search misses no slab that has a free block. -/
lemma freeCount_of_allocateFrom {slabs : List Slab} (h : ∀ slab ∈ slabs, slab.Sound)
    (hnone : (allocateFrom slabs).2 = none) : ∀ slab ∈ slabs, slab.freeCount = 0 := by
  induction slabs with
  | nil => exact fun _ hmem => absurd hmem List.not_mem_nil
  | cons slab slabs ih =>
    rw [List.forall_mem_cons] at h ⊢
    have hfull : slab.freeCount = 0 := by
      by_contra hne
      have hfree := Nat.pos_of_ne_zero hne
      obtain ⟨i, -, -, heq⟩ := h.1.allocateBlock hfree
      rw [allocateFrom, if_pos hfree, heq] at hnone
      contradiction
    refine ⟨hfull, ih h.2 ?_⟩
    rw [allocateFrom, if_neg (by omega)] at hnone
    exact hnone

/-- The pool asks for a slab only if every slab of the class is full. -/
lemma Shaped.full_of_asks {pool : MemoryPool} (h : pool.Shaped) {size : UInt64} {length : ℕ}
    (hasks : pool.asks size = some length) (hhuge : getSizeClass size ≠ .huge) :
    ∀ slab ∈ pool.slabs (getSizeClass size), slab.freeCount = 0 := by
  apply freeCount_of_allocateFrom fun slab hmem => (h _ slab hmem).1
  by_contra hsome
  rw [asks, if_neg hhuge, if_pos (Option.isSome_iff_ne_none.mpr hsome), ite_self] at hasks
  contradiction

end MemoryPool

namespace PoolLedger

open MemoryPool

/-- The free blocks in the slabs of a class. -/
def freeIn (pool : MemoryPool) (sizeClass : SizeClass) : ℕ :=
  ((pool.slabs sizeClass).map Slab.freeCount).sum

/-- The blocks of a class in use. -/
def liveIn (s : PoolLedger) (sizeClass : SizeClass) : ℕ :=
  s.live.countP (·.sizeClass = sizeClass)

def stock (sizeClass : SizeClass) (s : PoolLedger) : Stock where
  crates := (s.pool.slabs sizeClass).length
  free := freeIn s.pool sizeClass
  out := s.liveIn sizeClass

variable {s : PoolLedger} {sizeClass : SizeClass}

/-! ### One class -/

lemma liveIn_enter_self (s : PoolLedger) (pool : MemoryPool) (ptr : ℕ) (size : UInt64) :
    (s.enter pool ⟨ptr, size⟩).liveIn (getSizeClass size) = s.liveIn (getSizeClass size) + 1 :=
  List.countP_cons_of_pos (decide_eq_true rfl)

lemma liveIn_enter_of_ne (pool : MemoryPool) (ptr : ℕ) {size : UInt64}
    (hne : sizeClass ≠ getSizeClass size) :
    (s.enter pool ⟨ptr, size⟩).liveIn sizeClass = s.liveIn sizeClass :=
  List.countP_cons_of_neg fun hclass => hne (of_decide_eq_true hclass).symm

lemma slabs_handOut_of_ne {pool : MemoryPool} {other : SizeClass} {k i : ℕ} {slab : Slab}
    {size : UInt64} (hne : sizeClass ≠ other) :
    (pool.handOut other k slab i size).slabs sizeClass = pool.slabs sizeClass :=
  slabs_setSlab_of_ne hne _

lemma freeIn_setSlab {pool : MemoryPool} {k : ℕ} {slab : Slab}
    (hat : pool.slabAt sizeClass k = some slab) (slab' : Slab) :
    freeIn (pool.setSlab sizeClass k slab') sizeClass + slab.freeCount =
        freeIn pool sizeClass + slab'.freeCount ∧
      ((pool.setSlab sizeClass k slab').slabs sizeClass).length =
        (pool.slabs sizeClass).length := by
  rw [freeIn, freeIn, slabs_setSlab]
  exact ⟨sum_map_set Slab.freeCount hat slab', List.length_set ..⟩

lemma freeIn_handOut {pool : MemoryPool} {k i : ℕ} {slab : Slab}
    (hoffers : Offers (pool.slabs sizeClass) k slab i) (size : UInt64) :
    freeIn (pool.handOut sizeClass k slab i size) sizeClass + 1 = freeIn pool sizeClass ∧
      ((pool.handOut sizeClass k slab i size).slabs sizeClass).length =
        (pool.slabs sizeClass).length := by
  obtain ⟨hsum, hlength⟩ := freeIn_setSlab hoffers.at_k (slab.mark i true (slab.freeCount - 1))
  have hpos := hoffers.freeCount_pos
  refine ⟨?_, hlength⟩
  change freeIn (pool.setSlab sizeClass k _) sizeClass + 1 = _
  simp only [Slab.mark] at hsum ⊢
  omega

lemma freeIn_takeBack {pool : MemoryPool} {k : ℕ} {slab : Slab}
    (hat : pool.slabAt sizeClass k = some slab) (i : ℕ) (size : UInt64) :
    freeIn (pool.takeBack sizeClass k slab i size) sizeClass = freeIn pool sizeClass + 1 ∧
      ((pool.takeBack sizeClass k slab i size).slabs sizeClass).length =
        (pool.slabs sizeClass).length := by
  obtain ⟨hsum, hlength⟩ := freeIn_setSlab hat (slab.mark i false (slab.freeCount + 1))
  refine ⟨?_, hlength⟩
  change freeIn (pool.setSlab sizeClass k _) sizeClass = _
  simp only [Slab.mark] at hsum ⊢
  omega

lemma freeIn_grow (pool : MemoryPool) (hne : sizeClass ≠ .huge) (memory : ℕ) :
    freeIn (pool.grow sizeClass memory) sizeClass =
        freeIn pool sizeClass + sizeClass.blockCount ∧
      ((pool.grow sizeClass memory).slabs sizeClass).length =
        (pool.slabs sizeClass).length + 1 := by
  rw [freeIn, freeIn, slabs_grow hne, Function.update_self, List.map_append, List.sum_append]
  exact ⟨rfl, List.length_append⟩

lemma stock_eq_of {t : PoolLedger} (hslabs : t.pool.slabs sizeClass = s.pool.slabs sizeClass)
    (hlive : t.liveIn sizeClass = s.liveIn sizeClass) : stock sizeClass t = stock sizeClass s := by
  rw [stock, stock, freeIn, freeIn, hslabs, hlive]

/-! ### One call -/

/-- An allocation takes a free block of its class, and fetches a slab if there is none. -/
lemma Inv.stock_allocate (h : s.Inv) (hne : sizeClass ≠ .huge) {size : UInt64} {system : ℕ}
    (hgrants : ∀ length ∈ s.pool.asks size, s.Grants ⟨system, length⟩) :
    Stock.Step sizeClass.blockCount (stock sizeClass s)
      (stock sizeClass (s.allocate size system)) := by
  by_cases hsize : size = 0
  · subst hsize
    exact .keep rfl
  by_cases hhuge : getSizeClass size = .huge
  · obtain ⟨-, heq⟩ := allocate_huge s.pool system hsize hhuge
    rw [PoolLedger.allocate, heq]
    exact .keep (stock_eq_of rfl (liveIn_enter_of_ne _ _ (hhuge ▸ hne)))
  have hsystem : ∀ length ∈ s.pool.asks size, system ≠ 0 :=
    fun length hasks => (hgrants length hasks).ne_zero
  obtain ⟨base, k, slab, i, hbase, hoffers, heq⟩ := allocate_slab h.shaped hsystem hsize hhuge
  have hentered : s.allocate size system =
      s.enter (base.handOut (getSizeClass size) k slab i size)
        ⟨slab.memory + i * slab.blockSize, size⟩ := by
    rw [PoolLedger.allocate, heq]
    rfl
  rw [hentered]
  by_cases hclass : sizeClass = getSizeClass size
  · subst hclass
    obtain ⟨hfree, hlength⟩ := freeIn_handOut hoffers size
    have hlive := liveIn_enter_self s (base.handOut (getSizeClass size) k slab i size)
      (slab.memory + i * slab.blockSize) size
    rcases hbase with rfl | ⟨rfl, hasks⟩
    · exact .handOut hlength hfree hlive
    · obtain ⟨hfree', hlength'⟩ := freeIn_grow s.pool hne system
      have hempty : freeIn s.pool (getSizeClass size) = 0 := by
        rw [freeIn, List.sum_eq_zero_iff, List.forall_mem_map]
        exact h.shaped.full_of_asks hasks hhuge
      refine .fetch hempty (hlength.trans hlength') ?_ hlive
      rw [hempty, Nat.zero_add] at hfree'
      exact hfree.trans hfree'
  · refine .keep (stock_eq_of ?_ (liveIn_enter_of_ne _ _ hclass))
    refine (slabs_handOut_of_ne hclass).trans ?_
    rcases hbase with rfl | ⟨rfl, -⟩
    · rfl
    · rw [slabs_grow hhuge, Function.update_of_ne hclass]

/-- A block in use that is given back is free again. -/
lemma Inv.stock_deallocate (h : s.Inv) (hne : sizeClass ≠ .huge) {block : PoolBlock}
    {order : List SizeClass} (hmem : block ∈ s.live ∨ block ∈ s.freed) (hlists : s.Lists order) :
    Stock.Step sizeClass.blockCount (stock sizeClass s)
      (stock sizeClass (s.deallocate block order)) := by
  by_cases hlive : block ∈ s.live
  · have hcount : s.liveIn sizeClass =
        (s.live.erase block).countP (·.sizeClass = sizeClass) +
          if block.sizeClass = sizeClass then 1 else 0 := by
      rw [liveIn, (List.perm_cons_erase hlive).countP_eq, List.countP_cons]
      simp only [decide_eq_true_eq]
    by_cases hhuge : block.sizeClass = .huge
    · have hptr : block.ptr ≠ 0 := h.ptr_ne_zero hlive hhuge
      rw [if_neg (hhuge ▸ hne.symm)] at hcount
      refine .keep (stock_eq_of ?_ hcount.symm)
      rw [PoolLedger.deallocate, deallocate_huge hptr hhuge]
      rfl
    · have hentry := h.live_entry block hlive hhuge
      obtain ⟨k, slab, i, hat, -, -, -, heq⟩ :=
        deallocate_slab h.shaped h.slabsApart hentry (mem_order hlists hentry)
      have hpool : (s.deallocate block order).pool =
          s.pool.takeBack block.sizeClass k slab i block.size := heq
      by_cases hclass : block.sizeClass = sizeClass
      · subst hclass
        rw [if_pos rfl] at hcount
        obtain ⟨hfree, hlength⟩ := freeIn_takeBack hat i block.size
        rw [← hpool] at hfree hlength
        exact .takeBack hlength hfree hcount.symm
      · rw [if_neg hclass] at hcount
        refine .keep (stock_eq_of ?_ hcount.symm)
        rw [hpool]
        exact slabs_setSlab_of_ne (Ne.symm hclass) _
  · rw [h.deallocate_of_not_live (hmem.resolve_left hlive) hlive hlists]
    exact .keep rfl

lemma Inv.stock_step (h : s.Inv) (hne : sizeClass ≠ .huge) {op : PoolOp} {t : PoolLedger}
    (hstep : s.step op = some t) :
    Stock.Step sizeClass.blockCount (stock sizeClass s) (stock sizeClass t) := by
  obtain ⟨size, system, hgrants, rfl⟩ | ⟨block, order, hmem, hlists, rfl⟩ := step_cases hstep
  · exact h.stock_allocate hne hgrants
  · exact h.stock_deallocate hne hmem hlists

/-- Behind any calls a class has as many slabs as the greatest number of its blocks that were in
use at a time needs. -/
theorem slabs_run {ops : List PoolOp} (h : Runs.run step initial ops = some s) :
    ∀ sizeClass ≠ .huge, ∃ peak,
      Runs.IsPeak step (fun t => t.liveIn sizeClass) initial ops peak ∧
        (s.pool.slabs sizeClass).length = peak ⌈/⌉ sizeClass.blockCount := by
  intro sizeClass hne
  obtain ⟨peak, hpeak, haccounts⟩ := Stock.accounts_run (stock sizeClass)
    (blockCount_pos hne) (fun _ _ _ hinv hstep => hinv.step hstep)
    (fun _ _ _ hinv hstep => hinv.stock_step hne hstep) inv_initial rfl h
  exact ⟨peak, hpeak, haccounts.crates⟩

/-- One block is in use at a time, and one slab is enough for all of them. -/
theorem slabs_run_reuse :
    ∃ s, Runs.run step initial
        [.allocate 40 4096, .deallocate ⟨4096, 40⟩ [.small], .allocate 64 0] = some s ∧
      ∀ sizeClass ≠ .huge, ∃ peak,
        Runs.IsPeak step (fun t => t.liveIn sizeClass) initial
            [.allocate 40 4096, .deallocate ⟨4096, 40⟩ [.small], .allocate 64 0] peak ∧
          (s.pool.slabs sizeClass).length = peak ⌈/⌉ sizeClass.blockCount := by
  have hrun : (Runs.run step initial
      [.allocate 40 4096, .deallocate ⟨4096, 40⟩ [.small], .allocate 64 0]).isSome := by
    rfl
  obtain ⟨s, hs⟩ := Option.isSome_iff_exists.mp hrun
  exact ⟨s, hs, slabs_run hs⟩

end PoolLedger

end TinyWebServer
