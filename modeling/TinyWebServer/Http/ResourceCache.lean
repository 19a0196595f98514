import TinyWebServer.Http.StaticResource
import TinyWebServer.Library.Fitting
import TinyWebServer.Library.Ranges
import TinyWebServer.Library.Runs

/-!
# The nodes of the resource cache

The cache as its threads share it: list nodes with an identity, a map from paths to nodes, and a
size counter that wraps. A call of `GetResource` is two sections under the lock, between which other
threads run.
-/

namespace TinyWebServer

/-- A mapped file and the address that `mmap` gave it. -/
structure MappedResource extends StaticResource where
  addr : ℕ
  deriving DecidableEq

namespace MappedResource

/-- Two mappings do not overlap. -/
abbrev Apart : MappedResource → MappedResource → Prop := Ranges.Apart (·.addr) (·.size)

/-- A mapping has its place in the address space, and not at the null pointer. -/
abbrev Placed : MappedResource → Prop := Ranges.Within (·.addr) (·.size) 1 (2 ^ 64)

end MappedResource

/-- A node of `lru_list_`. -/
structure CacheNode where
  /-- Tells the nodes apart; what a list iterator points to. -/
  node : ℕ
  path : Bytes
  resource : MappedResource
  deriving DecidableEq

def CacheNode.size (item : CacheNode) : ℕ := item.resource.size

structure ResourceCache where
  maxCacheSize : UInt64
  currentCacheSize : UInt64
  lruList : List CacheNode
  cacheMap : Bytes → Option ℕ
  totalRequests : ℕ
  cacheHits : ℕ
  /-- An iterator was followed to a node that is gone. -/
  fault : Bool

namespace ResourceCache

def new : ResourceCache :=
  { maxCacheSize := 1024 * 1024 * 512, currentCacheSize := 0, lruList := []
    cacheMap := fun _ => none, totalRequests := 0, cacheHits := 0, fault := false }

def setCacheLimit (c : ResourceCache) (maxMemBytes : UInt64) : ResourceCache :=
  { c with maxCacheSize := maxMemBytes }

/-- The node behind an iterator. -/
def deref (c : ResourceCache) (node : ℕ) : Option CacheNode := c.lruList.find? (·.node = node)

def evict (c : ResourceCache) : ResourceCache :=
  match c.lruList.getLast? with
  | none => c
  | some last =>
    { c with
      currentCacheSize := c.currentCacheSize - .ofNat last.size
      cacheMap := Function.update c.cacheMap last.path none
      lruList := c.lruList.dropLast }

/-- Every round takes a node out, so that as many rounds as there are nodes are enough. -/
def makeRoom (size : UInt64) : ℕ → ResourceCache → ResourceCache
  | 0, c => c
  | rounds + 1, c =>
    if c.maxCacheSize < c.currentCacheSize + size ∧ c.lruList ≠ [] then
      makeRoom size rounds c.evict
    else c

/-- The first section: a hit moves the node to the front. -/
def lookup (c : ResourceCache) (path : Bytes) : Option MappedResource × ResourceCache :=
  let c := { c with totalRequests := c.totalRequests + 1 }
  match c.cacheMap path with
  | none => (none, c)
  | some node =>
    match c.deref node with
    | none => (none, { c with fault := true })
    | some item =>
      (some item.resource,
        { c with
          lruList := item :: c.lruList.eraseP (·.node = node), cacheHits := c.cacheHits + 1 })

/-- What follows a successful load: the new node comes to the front. -/
def insert (c : ResourceCache) (path : Bytes) (resource : MappedResource) (node : ℕ) :
    ResourceCache :=
  let c := makeRoom (.ofNat resource.size) c.lruList.length c
  { c with
    lruList := ⟨node, path, resource⟩ :: c.lruList
    cacheMap := Function.update c.cacheMap path (some node)
    currentCacheSize := c.currentCacheSize + .ofNat resource.size }

/-- The second section, with what `Load_` returns if it comes to that and the node that the list
allocates for it. -/
def loadAndInsert (c : ResourceCache) (path : Bytes) (loaded : Option MappedResource) (node : ℕ) :
    Option MappedResource × ResourceCache :=
  match c.cacheMap path with
  | some node' =>
    match c.deref node' with
    | none => (none, { c with fault := true })
    | some item => (some item.resource, c)
  | none =>
    match loaded with
    | none => (none, c)
    | some resource => (some resource, c.insert path resource node)

/-- What the system guarantees: a new mapping overlaps none that is there, and an allocation gives
no node that is there. -/
def Fresh (c : ResourceCache) (loaded : Option MappedResource) (node : ℕ) : Prop :=
  (∀ resource ∈ loaded, resource.Placed ∧ ∀ item ∈ c.lruList, resource.Apart item.resource) ∧
    ∀ item ∈ c.lruList, item.node ≠ node

instance (c : ResourceCache) (loaded : Option MappedResource) (node : ℕ) :
    Decidable (c.Fresh loaded node) := inferInstanceAs (Decidable (_ ∧ _))

/-! ### What the sections keep -/

/-- The list, the map and the counter belong together. -/
structure Consistent (c : ResourceCache) : Prop where
  paths_nodup : (c.lruList.map (·.path)).Nodup
  nodes_nodup : (c.lruList.map (·.node)).Nodup
  cacheMap_iff : ∀ path node,
    c.cacheMap path = some node ↔ ∃ item ∈ c.lruList, item.path = path ∧ item.node = node
  currentCacheSize : c.currentCacheSize.toNat = Fitting.total CacheNode.size c.lruList

/-- The same with the places of the mappings, which keep the counter from wrapping. -/
structure Inv (c : ResourceCache) : Prop extends Consistent c where
  placed : ∀ item ∈ c.lruList, item.resource.Placed
  apart : c.lruList.Pairwise fun item item' => item.resource.Apart item'.resource
  fault : c.fault = false

variable {c : ResourceCache} {path : Bytes} {node : ℕ} {resource : MappedResource}

lemma inv_new (maxMemBytes : UInt64) : (new.setCacheLimit maxMemBytes).Inv where
  paths_nodup := List.nodup_nil
  nodes_nodup := List.nodup_nil
  cacheMap_iff := by simp [new, setCacheLimit]
  currentCacheSize := rfl
  placed := by simp [new, setCacheLimit]
  apart := List.Pairwise.nil
  fault := rfl

/-- Mappings that lie apart leave the counter below its end. -/
lemma total_lt {items : List CacheNode} (hplaced : ∀ item ∈ items, item.resource.Placed)
    (hapart : items.Pairwise fun item item' => item.resource.Apart item'.resource) :
    Fitting.total CacheNode.size items < 2 ^ 64 := by
  have hle : Fitting.total CacheNode.size items ≤ 2 ^ 64 - 1 :=
    Ranges.sum_length_le (fun item : CacheNode => item.resource.addr) CacheNode.size hapart hplaced
  omega

/-- The order of the list is of no concern. -/
lemma Inv.of_perm (h : c.Inv) {items : List CacheNode} (hperm : items.Perm c.lruList)
    (totalRequests cacheHits : ℕ) :
    Inv { c with lruList := items, totalRequests := totalRequests, cacheHits := cacheHits } where
  paths_nodup := (hperm.map _).nodup_iff.mpr h.paths_nodup
  nodes_nodup := (hperm.map _).nodup_iff.mpr h.nodes_nodup
  cacheMap_iff := by simpa only [hperm.mem_iff] using h.cacheMap_iff
  currentCacheSize := h.currentCacheSize.trans (hperm.map _).sum_eq.symm
  placed := fun item hitem => h.placed item (hperm.mem_iff.mp hitem)
  apart := hperm.symm.pairwise h.apart fun hapart => hapart.symm
  fault := h.fault

lemma Inv.cacheMap_of_mem (h : c.Inv) {item : CacheNode} (hitem : item ∈ c.lruList) :
    c.cacheMap item.path = some item.node :=
  (h.cacheMap_iff item.path item.node).mpr ⟨item, hitem, rfl, rfl⟩

/-- An iterator of the map leads to a node of the list. -/
lemma Inv.deref (h : c.Inv) (hmap : c.cacheMap path = some node) :
    ∃ item before behind, c.deref node = some item ∧ item.path = path ∧
      c.lruList = before ++ item :: behind ∧
      c.lruList.eraseP (·.node = node) = before ++ behind := by
  obtain ⟨item, hitem, rfl, rfl⟩ := (h.cacheMap_iff path node).mp hmap
  have hfound : (c.deref item.node).isSome := by
    rw [ResourceCache.deref, List.find?_isSome]
    exact ⟨item, hitem, decide_eq_true rfl⟩
  obtain ⟨found, hfound⟩ := Option.isSome_iff_exists.mp hfound
  obtain ⟨hnode, before, behind, hlist, hbefore⟩ := List.find?_eq_some_iff_append.mp hfound
  have heq : found = item := by
    have hmem : found ∈ c.lruList := List.mem_of_find?_eq_some hfound
    exact List.inj_on_of_nodup_map h.nodes_nodup hmem hitem (of_decide_eq_true hnode)
  subst heq
  refine ⟨found, before, behind, hfound, rfl, hlist, ?_⟩
  rw [hlist, List.eraseP_append_right _ fun b hb => by simpa using hbefore b hb,
    List.eraseP_cons_of_pos (p := fun item : CacheNode => decide (item.node = found.node)) hnode]

/-- A hit or a miss moves a node and counts. -/
lemma lookup_eq (h : c.Inv) (path : Bytes) :
    ∃ items totalRequests cacheHits, items.Perm c.lruList ∧ (c.lookup path).2 =
      { c with lruList := items, totalRequests := totalRequests, cacheHits := cacheHits } := by
  rw [lookup]
  cases hmap : c.cacheMap path with
  | none => exact ⟨_, _, _, List.Perm.refl _, rfl⟩
  | some node =>
    obtain ⟨item, before, behind, hfound, -, hlist, herase⟩ := h.deref hmap
    have hfound' : ({ c with totalRequests := c.totalRequests + 1 } : ResourceCache).deref node =
      some item := hfound
    simp only [hfound']
    refine ⟨_, _, _, ?_, rfl⟩
    rw [herase, hlist]
    exact List.perm_middle.symm

lemma inv_lookup (h : c.Inv) (path : Bytes) : (c.lookup path).2.Inv := by
  obtain ⟨items, totalRequests, cacheHits, hperm, heq⟩ := lookup_eq h path
  rw [heq]
  exact h.of_perm hperm totalRequests cacheHits

/-! ### Eviction -/

lemma evict_of_snoc {items : List CacheNode} {last : CacheNode}
    (hlist : c.lruList = items ++ [last]) :
    c.evict = { c with
      currentCacheSize := c.currentCacheSize - .ofNat last.size
      cacheMap := Function.update c.cacheMap last.path none, lruList := items } := by
  simp only [evict, hlist, List.getLast?_concat, List.dropLast_concat]

/-- The map without the path of the last node is the map of the other nodes. -/
lemma Inv.cacheMap_snoc (h : c.Inv) {items : List CacheNode} {last : CacheNode}
    (hlist : c.lruList = items ++ [last]) (path : Bytes) (node : ℕ) :
    Function.update c.cacheMap last.path none path = some node ↔
      ∃ item ∈ items, item.path = path ∧ item.node = node := by
  have hpaths := h.paths_nodup
  rw [hlist, List.map_append, List.nodup_append] at hpaths
  have hgone : ∀ item ∈ items, item.path ≠ last.path := fun item hitem =>
    hpaths.2.2 _ (List.mem_map_of_mem hitem) _ (List.mem_singleton_self _)
  rw [Function.update_apply]
  split_ifs with hpath
  · refine iff_of_false (by simp) ?_
    rintro ⟨item, hitem, rfl, -⟩
    exact hgone item hitem hpath
  · rw [h.cacheMap_iff, hlist]
    constructor
    · rintro ⟨item, hitem, rfl, rfl⟩
      rcases List.mem_append.mp hitem with hitem | hitem
      · exact ⟨item, hitem, rfl, rfl⟩
      · rw [List.mem_singleton] at hitem
        exact absurd (congrArg CacheNode.path hitem) hpath
    · rintro ⟨item, hitem, rfl, rfl⟩
      exact ⟨item, List.mem_append_left _ hitem, rfl, rfl⟩

/-- The counter covers the node that goes, so that it does not wrap below zero. -/
lemma Inv.currentCacheSize_sub (h : c.Inv) {items : List CacheNode} {last : CacheNode}
    (hlist : c.lruList = items ++ [last]) :
    (c.currentCacheSize - .ofNat last.size).toNat = Fitting.total CacheNode.size items := by
  have htotal := h.currentCacheSize
  have hlt := total_lt h.placed h.apart
  rw [hlist, Fitting.total_append, Fitting.total_cons, Fitting.total_nil, Nat.add_zero]
    at htotal hlt
  have hlast : (UInt64.ofNat last.size).toNat = last.size := by
    rw [UInt64.toNat_ofNat']
    exact Nat.mod_eq_of_lt ((Nat.le_add_left _ _).trans_lt hlt)
  have hle : UInt64.ofNat last.size ≤ c.currentCacheSize := by
    rw [UInt64.le_iff_toNat_le, hlast, htotal]
    exact Nat.le_add_left _ _
  rw [UInt64.toNat_sub_of_le _ _ hle, hlast, htotal]
  exact Nat.add_sub_cancel _ _

lemma inv_evict (h : c.Inv) : c.evict.Inv := by
  rcases List.eq_nil_or_concat' c.lruList with hnil | ⟨items, last, hlist⟩
  · rw [evict, hnil]
    exact h
  · have hsub : items.Sublist c.lruList := hlist ▸ List.sublist_append_left items [last]
    rw [evict_of_snoc hlist]
    exact ⟨⟨h.paths_nodup.sublist (hsub.map _), h.nodes_nodup.sublist (hsub.map _),
        h.cacheMap_snoc hlist, h.currentCacheSize_sub hlist⟩,
      fun item hitem => h.placed item (hsub.subset hitem), h.apart.sublist hsub, h.fault⟩

lemma makeRoom_induction {P : ResourceCache → Prop} (hevict : ∀ c, P c → P c.evict) (size : UInt64)
    (rounds : ℕ) (hc : P c) : P (makeRoom size rounds c) := by
  induction rounds generalizing c with
  | zero => exact hc
  | succ rounds ih =>
    rw [makeRoom]
    split_ifs
    · exact ih (hevict c hc)
    · exact hc

lemma inv_makeRoom (h : c.Inv) (size : UInt64) (rounds : ℕ) : (makeRoom size rounds c).Inv :=
  makeRoom_induction (P := Inv) (fun _ => inv_evict) size rounds h

lemma evict_isPrefix (c : ResourceCache) : c.evict.lruList <+: c.lruList := by
  rw [evict]
  cases c.lruList.getLast? with
  | none => exact List.prefix_rfl
  | some last => exact List.dropLast_prefix _

/-- What is left is a beginning of the list. -/
lemma makeRoom_isPrefix (c : ResourceCache) (size : UInt64) (rounds : ℕ) :
    (makeRoom size rounds c).lruList <+: c.lruList :=
  makeRoom_induction (P := fun d => d.lruList <+: c.lruList)
    (fun d hd => (evict_isPrefix d).trans hd) size rounds List.prefix_rfl

/-! ### Insertion -/

/-- A new node for a path that the map does not know. -/
lemma inv_push (h : c.Inv) (hpath : c.cacheMap path = none)
    (hfresh : c.Fresh (some resource) node) :
    Inv { c with
      lruList := ⟨node, path, resource⟩ :: c.lruList
      cacheMap := Function.update c.cacheMap path (some node)
      currentCacheSize := c.currentCacheSize + .ofNat resource.size } := by
  obtain ⟨hplaced, hapart⟩ := hfresh.1 resource rfl
  have hnew : ∀ item ∈ c.lruList, item.path ≠ path := by
    intro item hitem heq
    have hsome := h.cacheMap_of_mem hitem
    rw [heq, hpath] at hsome
    contradiction
  have hplaced' : ∀ item ∈ (⟨node, path, resource⟩ : CacheNode) :: c.lruList,
      item.resource.Placed := List.forall_mem_cons.mpr ⟨hplaced, h.placed⟩
  have hapart' : ((⟨node, path, resource⟩ : CacheNode) :: c.lruList).Pairwise
      fun item item' => item.resource.Apart item'.resource :=
    List.pairwise_cons.mpr ⟨hapart, h.apart⟩
  refine ⟨⟨?_, ?_, ?_, ?_⟩, hplaced', hapart', h.fault⟩
  · rw [List.map_cons, List.nodup_cons]
    refine ⟨fun hmem => ?_, h.paths_nodup⟩
    obtain ⟨item, hitem, heq⟩ := List.mem_map.mp hmem
    exact hnew item hitem heq
  · rw [List.map_cons, List.nodup_cons]
    refine ⟨fun hmem => ?_, h.nodes_nodup⟩
    obtain ⟨item, hitem, heq⟩ := List.mem_map.mp hmem
    exact hfresh.2 item hitem heq
  · intro path' node'
    dsimp only
    rw [Function.update_apply]
    simp only [List.exists_mem_cons_iff]
    split_ifs with heq
    · subst heq
      have hnone : ¬ ∃ item ∈ c.lruList, item.path = path' ∧ item.node = node' := by
        rintro ⟨item, hitem, hold, -⟩
        exact hnew item hitem hold
      simp only [true_and, hnone, or_false, Option.some.injEq]
    · rw [h.cacheMap_iff]
      simp only [Ne.symm heq, false_and, false_or]
  · have hlt := total_lt hplaced' hapart'
    have htotal := h.currentCacheSize
    rw [Fitting.total_cons] at hlt
    dsimp only
    rw [UInt64.toNat_add, UInt64.toNat_ofNat', htotal, Nat.add_mod_mod, Fitting.total_cons,
      Nat.add_comm]
    exact Nat.mod_eq_of_lt hlt

/-- Fewer nodes leave room for what there was room for. -/
lemma Fresh.of_subset {loaded : Option MappedResource} {d : ResourceCache}
    (h : c.Fresh loaded node) (hsub : d.lruList ⊆ c.lruList) : d.Fresh loaded node :=
  ⟨fun resource hresource => ⟨(h.1 resource hresource).1,
      fun item hitem => (h.1 resource hresource).2 item (hsub hitem)⟩,
    fun item hitem => h.2 item (hsub hitem)⟩

/-- An evicted path is not in the map any more, and no path comes to it. -/
lemma cacheMap_makeRoom (hpath : c.cacheMap path = none) (size : UInt64) (rounds : ℕ) :
    (makeRoom size rounds c).cacheMap path = none := by
  refine makeRoom_induction (P := fun d => d.cacheMap path = none) (fun d hd => ?_) size rounds
    hpath
  rw [evict]
  cases d.lruList.getLast? with
  | none => exact hd
  | some last =>
    dsimp only
    rw [Function.update_apply]
    split_ifs
    · rfl
    · exact hd

lemma inv_insert (h : c.Inv) (hpath : c.cacheMap path = none)
    (hfresh : c.Fresh (some resource) node) : (c.insert path resource node).Inv :=
  inv_push (inv_makeRoom h _ _) (cacheMap_makeRoom hpath _ _)
    (hfresh.of_subset (makeRoom_isPrefix c _ _).subset)

/-- The section does one of three things: it hands out a node of the list, it gives up, or it
inserts what was loaded. -/
lemma loadAndInsert_cases (h : c.Inv) (path : Bytes) (loaded : Option MappedResource) (node : ℕ) :
    (∃ item ∈ c.lruList, item.path = path ∧
      c.loadAndInsert path loaded node = (some item.resource, c)) ∨
    (c.cacheMap path = none ∧ loaded = none ∧ c.loadAndInsert path loaded node = (none, c)) ∨
    ∃ resource, c.cacheMap path = none ∧ loaded = some resource ∧
      c.loadAndInsert path loaded node = (some resource, c.insert path resource node) := by
  cases hmap : c.cacheMap path with
  | some node' =>
    obtain ⟨item, before, behind, hfound, hpath, hlist, -⟩ := h.deref hmap
    refine .inl ⟨item, ?_, hpath, ?_⟩
    · rw [hlist]
      exact List.mem_append_right _ List.mem_cons_self
    · simp only [loadAndInsert, hmap, hfound]
  | none =>
    cases loaded with
    | none => exact .inr (.inl ⟨rfl, rfl, by simp only [loadAndInsert, hmap]⟩)
    | some resource => exact .inr (.inr ⟨resource, rfl, rfl, by simp only [loadAndInsert, hmap]⟩)

end ResourceCache

/-- The cache and the threads between the two sections of a call, with the path each of them has
missed. -/
structure CacheThreads where
  cache : ResourceCache
  missed : ℕ → Option Bytes

namespace CacheThreads

/-- One section of a call of `GetResource`. -/
inductive Section where
  | lookup (thread : ℕ) (path : Bytes)
  | loadAndInsert (thread : ℕ) (loaded : Option MappedResource) (node : ℕ)

/-- The singleton behind a `SetCacheLimit`. -/
def new (maxMemBytes : UInt64) : CacheThreads :=
  ⟨ResourceCache.new.setCacheLimit maxMemBytes, fun _ => none⟩

/-- A thread begins a call if it is in none, and goes on with the call that it is in. -/
def step (s : CacheThreads) : Section → Option CacheThreads
  | .lookup thread path =>
    match s.missed thread with
    | some _ => none
    | none =>
      let result := s.cache.lookup path
      let missed := if result.1.isNone then some path else none
      some ⟨result.2, Function.update s.missed thread missed⟩
  | .loadAndInsert thread loaded node =>
    match s.missed thread with
    | none => none
    | some path =>
      if s.cache.Fresh loaded node then
        some ⟨(s.cache.loadAndInsert path loaded node).2, Function.update s.missed thread none⟩
      else none

/-! ### Every interleaving -/

/-- What a section does to the cache. -/
inductive Stepped (s : CacheThreads) : Section → CacheThreads → Prop where
  | lookup (thread : ℕ) (path : Bytes) (missed : ℕ → Option Bytes) :
      Stepped s (.lookup thread path) ⟨(s.cache.lookup path).2, missed⟩
  | found {thread : ℕ} {path : Bytes} (loaded : Option MappedResource) (node : ℕ)
      (missed : ℕ → Option Bytes) : s.missed thread = some path → s.cache.cacheMap path ≠ none →
      Stepped s (.loadAndInsert thread loaded node) ⟨s.cache, missed⟩
  | failed (thread node : ℕ) (missed : ℕ → Option Bytes) :
      Stepped s (.loadAndInsert thread none node) ⟨s.cache, missed⟩
  | insert {thread : ℕ} {path : Bytes} {resource : MappedResource} {node : ℕ}
      (missed : ℕ → Option Bytes) : s.missed thread = some path → s.cache.cacheMap path = none →
      s.cache.Fresh (some resource) node →
      Stepped s (.loadAndInsert thread (some resource) node)
        ⟨s.cache.insert path resource node, missed⟩

lemma stepped_of_step {s t : CacheThreads} {m : Section} (h : s.cache.Inv)
    (hstep : s.step m = some t) : s.Stepped m t := by
  cases m with
  | lookup thread path =>
    rw [step] at hstep
    split at hstep
    · contradiction
    · cases hstep
      exact .lookup thread path _
  | loadAndInsert thread loaded node =>
    rw [step] at hstep
    split at hstep
    · contradiction
    · rename_i path hmissed
      split_ifs at hstep with hfresh
      cases hstep
      rcases ResourceCache.loadAndInsert_cases h path loaded node with
        ⟨item, hitem, hpath, heq⟩ | ⟨-, rfl, heq⟩ | ⟨resource, hpath, rfl, heq⟩
      · rw [heq]
        refine .found loaded node _ hmissed ?_
        rw [← hpath, h.cacheMap_of_mem hitem]
        simp
      · rw [heq]
        exact .failed thread node _
      · rw [heq]
        exact .insert _ hmissed hpath hfresh

lemma inv_step (s : CacheThreads) (m : Section) (t : CacheThreads) (h : s.cache.Inv)
    (hstep : s.step m = some t) : t.cache.Inv := by
  cases stepped_of_step h hstep with
  | lookup thread path _ => exact ResourceCache.inv_lookup h path
  | found => exact h
  | failed => exact h
  | insert _ _ hpath hfresh => exact ResourceCache.inv_insert h hpath hfresh

/-- Whatever the threads do, the list, the map and the counter of the cache belong together. -/
theorem consistent_run {maxMemBytes : UInt64} {ms : List Section} {s : CacheThreads}
    (h : Runs.run step (new maxMemBytes) ms = some s) : s.cache.Consistent :=
  (Runs.invariant_run step inv_step (P := fun s => s.cache.Inv)
    (ResourceCache.inv_new maxMemBytes) h).toConsistent

/-- A file of three bytes at the second page. -/
def readme : MappedResource := { content := [72, 105, 33], path := bytes "readme", addr := 4096 }

/-- Two threads miss the same path before one of them inserts it. -/
def race : List Section :=
  [.lookup 0 (bytes "readme"), .lookup 1 (bytes "readme"), .loadAndInsert 0 (some readme) 0,
    .loadAndInsert 1 none 1]

theorem consistent_run_race :
    ∃ s, Runs.run step (new 4) race = some s ∧ s.cache.Consistent := by
  have hrun : (Runs.run step (new 4) race).isSome = true := by decide +kernel
  obtain ⟨s, hs⟩ := Option.isSome_iff_exists.mp hrun
  exact ⟨s, hs, consistent_run hs⟩

end CacheThreads

end TinyWebServer
