import Mathlib

/-!
# The memory pool

Blocks of up to 1 KB come out of slabs, one list of slabs for each size class; anything larger goes
straight to the system allocator. Addresses are numbers, 0 is the null pointer.
-/

namespace TinyWebServer

inductive SizeClass
  | small
  | medium
  | large
  | huge
  deriving DecidableEq

namespace SizeClass

/-- The value of the enumerator. -/
def value : SizeClass → ℕ
  | small => 64
  | medium => 256
  | large => 1024
  | huge => 1025

/-- How many blocks `CreateSlab` asks for. It makes no slab for the last class. -/
def blockCount : SizeClass → ℕ
  | small => 128
  | medium => 64
  | large => 16
  | huge => 0

end SizeClass

structure Slab where
  memory : ℕ
  blockSize : ℕ
  blockCount : ℕ
  used : List Bool
  freeCount : ℕ
  deriving DecidableEq

namespace Slab

/-- The constructor, with the memory that `aligned_alloc` returned. -/
def new (memory blockSize blockCount : ℕ) : Slab where
  memory := memory
  blockSize := blockSize
  blockCount := blockCount
  used := List.replicate blockCount false
  freeCount := blockCount

def contains (slab : Slab) (ptr : ℕ) : Bool :=
  slab.memory ≠ 0 ∧ slab.memory ≤ ptr ∧ ptr < slab.memory + slab.blockSize * slab.blockCount

/-- The first free block, and the null pointer if there is none. -/
def allocateBlock (slab : Slab) : Slab × Option ℕ :=
  if slab.freeCount = 0 then (slab, none)
  else
    match (List.range slab.blockCount).find? fun i => slab.used[i]? = some false with
    | some i =>
      ({ slab with used := slab.used.set i true, freeCount := slab.freeCount - 1 },
        some (slab.memory + i * slab.blockSize))
    | none => (slab, none)

def deallocateBlock (slab : Slab) (ptr : ℕ) : Slab × Bool :=
  if slab.contains ptr then
    let index := (ptr - slab.memory) / slab.blockSize
    if slab.blockCount ≤ index ∨ slab.used[index]? ≠ some true then (slab, false)
    else ({ slab with used := slab.used.set index false, freeCount := slab.freeCount + 1 }, true)
  else (slab, false)

end Slab

/-- The counters are of type `size_t`. -/
structure PoolStats where
  totalAllocatedBytes : UInt64
  totalFreedBytes : UInt64
  currentUsedBytes : UInt64
  slabCount : UInt64
  freeBlocks : UInt64
  allocatedBlocks : UInt64
  deriving DecidableEq

/-- A size class without an entry in `slabs_` has no slabs. -/
structure MemoryPool where
  slabs : SizeClass → List Slab
  stats : PoolStats

namespace MemoryPool

def new : MemoryPool := ⟨fun _ => [], ⟨0, 0, 0, 0, 0, 0⟩⟩

def getSizeClass (size : UInt64) : SizeClass :=
  if size.toNat ≤ SizeClass.small.value then .small
  else if size.toNat ≤ SizeClass.medium.value then .medium
  else if size.toNat ≤ SizeClass.large.value then .large
  else .huge

/-- What the pointer to a slab of the pool stands for: its size class and its place in the list. -/
def slabAt (pool : MemoryPool) (sizeClass : SizeClass) (k : ℕ) : Option Slab :=
  (pool.slabs sizeClass)[k]?

def setSlab (pool : MemoryPool) (sizeClass : SizeClass) (k : ℕ) (slab : Slab) : MemoryPool :=
  { pool with
    slabs := Function.update pool.slabs sizeClass ((pool.slabs sizeClass).set k slab) }

/-- The statistics that every successful allocation updates. -/
def countAllocation (pool : MemoryPool) (size : UInt64) : MemoryPool :=
  { pool with
    stats := { pool.stats with
      totalAllocatedBytes := pool.stats.totalAllocatedBytes + size
      currentUsedBytes := pool.stats.currentUsedBytes + size
      allocatedBlocks := pool.stats.allocatedBlocks + 1 } }

/-- The statistics that every deallocation updates. -/
def countDeallocation (pool : MemoryPool) (size : UInt64) : MemoryPool :=
  { pool with
    stats := { pool.stats with
      totalFreedBytes := pool.stats.totalFreedBytes + size
      currentUsedBytes := pool.stats.currentUsedBytes - size
      allocatedBlocks := pool.stats.allocatedBlocks - 1 } }

def addFreeBlocks (pool : MemoryPool) (n : UInt64) : MemoryPool :=
  { pool with stats := { pool.stats with freeBlocks := pool.stats.freeBlocks + n } }

def subFreeBlocks (pool : MemoryPool) (n : UInt64) : MemoryPool :=
  { pool with stats := { pool.stats with freeBlocks := pool.stats.freeBlocks - n } }

/-- The new slab goes to the end of its list. `memory` is what `aligned_alloc` returns; without
memory the constructor throws and there is no slab. -/
def createSlab (pool : MemoryPool) (sizeClass : SizeClass) (memory : Option ℕ) :
    MemoryPool × Option ℕ :=
  match sizeClass, memory with
  | .huge, _ => (pool, none)
  | _, none => (pool, none)
  | sizeClass, some memory =>
    let slab := Slab.new memory sizeClass.value sizeClass.blockCount
    ({ slabs := Function.update pool.slabs sizeClass (pool.slabs sizeClass ++ [slab])
       stats := { pool.stats with
        slabCount := pool.stats.slabCount + 1
        freeBlocks := pool.stats.freeBlocks + UInt64.ofNat sizeClass.blockCount } },
      some (pool.slabs sizeClass).length)

/-- The loop of `FindSlabContaining`. `order` is the order in which the map is iterated. -/
def findSlabContaining (pool : MemoryPool) (order : List SizeClass) (ptr : ℕ) :
    Option (SizeClass × ℕ) :=
  order.findSome? fun sizeClass =>
    ((pool.slabs sizeClass).findIdx? (·.contains ptr)).map fun k => (sizeClass, k)

/-- The loop of `Allocate` over the slabs of one class. -/
def allocateFrom : List Slab → List Slab × Option ℕ
  | [] => ([], none)
  | slab :: slabs =>
    let (slab, ptr) := if 0 < slab.freeCount then slab.allocateBlock else (slab, none)
    match ptr with
    | some ptr => (slab :: slabs, some ptr)
    | none =>
      let (slabs, ptr) := allocateFrom slabs
      (slab :: slabs, ptr)

/-- `system` is what the system allocator returns if it is asked for memory. -/
def allocate (pool : MemoryPool) (system : Option ℕ) (size : UInt64) : MemoryPool × Option ℕ :=
  if size = 0 then (pool, none)
  else
    let sizeClass := getSizeClass size
    if sizeClass = .huge then
      match system with
      | some ptr => (pool.countAllocation size, some ptr)
      | none => (pool, none)
    else
      match allocateFrom (pool.slabs sizeClass) with
      | (slabs, some ptr) =>
        ((({ pool with slabs := Function.update pool.slabs sizeClass slabs }).countAllocation
          size).subFreeBlocks 1, some ptr)
      | (slabs, none) =>
        let pool := { pool with slabs := Function.update pool.slabs sizeClass slabs }
        match pool.createSlab sizeClass system with
        | (pool, none) => (pool, none)
        | (pool, some k) =>
          match (pool.slabAt sizeClass k).map Slab.allocateBlock with
          | some (slab, some ptr) =>
            (((pool.setSlab sizeClass k slab).countAllocation size).subFreeBlocks 1, some ptr)
          | some (slab, none) => (pool.setSlab sizeClass k slab, none)
          | none => (pool, none)

def deallocate (pool : MemoryPool) (order : List SizeClass) (ptr : ℕ) (size : UInt64) :
    MemoryPool :=
  if ptr = 0 then pool
  else if getSizeClass size = .huge then pool.countDeallocation size
  else
    match pool.findSlabContaining order ptr with
    -- The pointer goes to `std::free`, which no slab notices.
    | none => pool
    | some (sizeClass, k) =>
      match (pool.slabAt sizeClass k).map fun slab => slab.deallocateBlock ptr with
      | some (slab, true) =>
        ((pool.setSlab sizeClass k slab).countDeallocation size).addFreeBlocks 1
      | _ => pool

end MemoryPool

end TinyWebServer
