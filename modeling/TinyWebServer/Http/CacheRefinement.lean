import TinyWebServer.Http.CacheLimit

/-!
# The resource cache without its nodes

A connection sees the cache as a list of resources with the paths that are in the map. The cache
with its nodes and its wrapping counter represents such a list, and its two sections do to the list
what the functions of the connection's view do.
-/

namespace TinyWebServer

def CacheNode.item (n : CacheNode) : CacheItem := ⟨n.path, n.resource.toStaticResource⟩

namespace ResourceCache

/-- The two caches hold the same resources in the same order. -/
structure Represents (c : ResourceCache) (m : StaticResourceManager) : Prop where
  maxCacheSize : m.maxCacheSize = c.maxCacheSize.toNat
  currentCacheSize : m.currentCacheSize = c.currentCacheSize.toNat
  lruList : m.lruList = c.lruList.map CacheNode.item
  cacheMap : ∀ path, path ∈ m.cacheMap ↔ c.cacheMap path ≠ none
  totalRequests : m.totalRequests = c.totalRequests
  cacheHits : m.cacheHits = c.cacheHits

variable {c : ResourceCache} {m : StaticResourceManager} {path : Bytes} {node : ℕ}
  {resource : MappedResource}

lemma represents_new : new.Represents .new where
  maxCacheSize := rfl
  currentCacheSize := rfl
  lruList := rfl
  cacheMap := by simp [new, StaticResourceManager.new]
  totalRequests := rfl
  cacheHits := rfl

/-! ### Lookup -/

lemma Represents.cached_of_none (h : c.Represents m) (hpath : c.cacheMap path = none) :
    m.cached path = none := by
  rw [StaticResourceManager.cached, if_neg]
  rw [h.cacheMap, hpath]
  exact not_not.mpr rfl

/-- No other node has the path. -/
lemma Inv.path_ne (hinv : c.Inv) {item : CacheNode} {before behind : List CacheNode}
    (hlist : c.lruList = before ++ item :: behind) :
    ∀ other ∈ before ++ behind, other.path ≠ item.path := by
  have hperm : (item :: (before ++ behind)).Perm c.lruList := hlist ▸ List.perm_middle.symm
  have hnodup := (hperm.map CacheNode.path).nodup_iff.mpr hinv.paths_nodup
  rw [List.map_cons, List.nodup_cons] at hnodup
  intro other hother heq
  exact hnodup.1 (heq ▸ List.mem_map_of_mem hother)

lemma Represents.cached_of_split (h : c.Represents m) (hinv : c.Inv) {item : CacheNode}
    {before behind : List CacheNode} (hlist : c.lruList = before ++ item :: behind) :
    m.cached item.path = some item.item := by
  have hmem : item ∈ c.lruList := hlist ▸ List.mem_append_right _ List.mem_cons_self
  have hknown : item.path ∈ m.cacheMap := by
    rw [h.cacheMap, hinv.cacheMap_of_mem hmem]
    simp
  have hbefore : (before.map CacheNode.item).find? (·.path = item.path) = none := by
    simp only [List.find?_eq_none, List.forall_mem_map, decide_eq_true_eq]
    intro other hother
    exact hinv.path_ne hlist other (List.mem_append_left _ hother)
  rw [StaticResourceManager.cached, if_pos hknown, h.lruList, hlist, List.map_append,
    List.find?_append, hbefore, Option.none_or, List.map_cons]
  exact List.find?_cons_of_pos (decide_eq_true rfl)

lemma filter_items (hinv : c.Inv) {item : CacheNode} {before behind : List CacheNode}
    (hlist : c.lruList = before ++ item :: behind) :
    (c.lruList.map CacheNode.item).filter (·.path ≠ item.path) =
      (before ++ behind).map CacheNode.item := by
  have hkeep : ∀ l : List CacheNode, (∀ other ∈ l, other ∈ before ++ behind) →
      (l.map CacheNode.item).filter (·.path ≠ item.path) = l.map CacheNode.item := by
    intro l hl
    simp only [List.filter_eq_self, List.forall_mem_map, decide_eq_true_eq]
    intro other hother
    exact hinv.path_ne hlist other (hl other hother)
  have hdrop : (item.item :: behind.map CacheNode.item).filter (·.path ≠ item.path) =
      (behind.map CacheNode.item).filter (·.path ≠ item.path) := by
    apply List.filter_cons_of_neg
    simp [CacheNode.item]
  rw [hlist, List.map_append, List.map_cons, List.filter_append, hdrop,
    hkeep before fun _ => List.mem_append_left _, hkeep behind fun _ => List.mem_append_right _,
    List.map_append]

/-- The first section. -/
theorem represents_lookup (h : c.Represents m) (hinv : c.Inv) (path : Bytes) :
    (c.lookup path).2.Represents (m.lookup path).2 ∧
      (m.lookup path).1 = (c.lookup path).1.map (·.toStaticResource) := by
  have hcount : ({ c with totalRequests := c.totalRequests + 1 } : ResourceCache).Represents
      { m with totalRequests := m.totalRequests + 1 } :=
    ⟨h.maxCacheSize, h.currentCacheSize, h.lruList, h.cacheMap, congrArg (· + 1) h.totalRequests,
      h.cacheHits⟩
  have hinv' : ({ c with totalRequests := c.totalRequests + 1 } : ResourceCache).Inv :=
    hinv.of_perm (List.Perm.refl _) _ _
  rw [lookup, StaticResourceManager.lookup]
  cases hmap : c.cacheMap path with
  | none =>
    simp only [hcount.cached_of_none hmap]
    exact ⟨hcount, rfl⟩
  | some node =>
    obtain ⟨item, before, behind, hfound, rfl, hlist, herase⟩ := hinv'.deref hmap
    have hlist' : c.lruList = before ++ item :: behind := hlist
    have herase' : c.lruList.eraseP (·.node = node) = before ++ behind := herase
    simp only [hfound, hcount.cached_of_split hinv' hlist, herase']
    refine ⟨⟨h.maxCacheSize, h.currentCacheSize, ?_, h.cacheMap, hcount.totalRequests,
      congrArg (· + 1) h.cacheHits⟩, rfl⟩
    dsimp only
    rw [h.lruList, filter_items hinv hlist', List.map_cons]

/-! ### Insertion -/

lemma represents_evict (h : c.Represents m) (hinv : c.Inv) : c.evict.Represents m.evict := by
  rcases List.eq_nil_or_concat' c.lruList with hnil | ⟨items, last, hlist⟩
  · have hnil' : m.lruList = [] := by rw [h.lruList, hnil, List.map_nil]
    simp only [evict, hnil, StaticResourceManager.evict, hnil', List.getLast?_nil]
    exact h
  have hlist' : m.lruList = items.map CacheNode.item ++ [last.item] := by
    rw [h.lruList, hlist, List.map_append, List.map_singleton]
  rw [evict_of_snoc hlist]
  simp only [StaticResourceManager.evict, hlist', List.getLast?_concat, List.dropLast_concat]
  refine ⟨h.maxCacheSize, ?_, rfl, ?_, h.totalRequests, h.cacheHits⟩
  · have hwhole := hinv.currentCacheSize
    rw [hlist, Fitting.total_append, Fitting.total_cons, Fitting.total_nil, Nat.add_zero] at hwhole
    dsimp only
    rw [hinv.currentCacheSize_sub hlist, h.currentCacheSize, hwhole]
    exact Nat.add_sub_cancel _ _
  · intro path
    dsimp only
    rw [List.mem_filter, h.cacheMap, Function.update_apply]
    by_cases hpath : path = last.path
    · simp [hpath, CacheNode.item]
    · simp [hpath, CacheNode.item]

/-- The two loops stop at the same node as long as the counter cannot wrap. -/
lemma represents_makeRoom (h : c.Represents m) (hinv : c.Inv) {size : ℕ}
    (hroom : Fitting.total CacheNode.size c.lruList + size < 2 ^ 64) (rounds : ℕ) :
    (makeRoom (.ofNat size) rounds c).Represents
      (StaticResourceManager.makeRoom size rounds m) := by
  induction rounds generalizing c m with
  | zero => exact h
  | succ rounds ih =>
    have hsum : (c.currentCacheSize + .ofNat size).toNat = c.currentCacheSize.toNat + size := by
      rw [UInt64.toNat_add, UInt64.toNat_ofNat', Nat.add_mod_mod, hinv.currentCacheSize]
      exact Nat.mod_eq_of_lt hroom
    have hloop : (m.maxCacheSize < m.currentCacheSize + size ∧ m.lruList ≠ []) ↔
        (c.maxCacheSize < c.currentCacheSize + .ofNat size ∧ c.lruList ≠ []) := by
      rw [UInt64.lt_iff_toNat_lt, hsum, h.maxCacheSize, h.currentCacheSize, h.lruList, ne_eq,
        List.map_eq_nil_iff]
    rw [makeRoom, StaticResourceManager.makeRoom]
    by_cases hmore : c.maxCacheSize < c.currentCacheSize + .ofNat size ∧ c.lruList ≠ []
    · rw [if_pos hmore, if_pos (hloop.mpr hmore)]
      have hless := Fitting.total_le_of_isPrefix CacheNode.size (evict_isPrefix c)
      exact ih (represents_evict h hinv) (inv_evict hinv)
        ((Nat.add_le_add_right hless size).trans_lt hroom)
    · rw [if_neg hmore, if_neg (hloop.not.mpr hmore)]
      exact h

lemma total_add_lt (hinv : c.Inv) (hfresh : c.Fresh (some resource) node) :
    Fitting.total CacheNode.size c.lruList + resource.size < 2 ^ 64 := by
  obtain ⟨hplaced, hapart⟩ := hfresh.1 resource rfl
  have hplaced' : ∀ item ∈ (⟨node, [], resource⟩ : CacheNode) :: c.lruList,
      item.resource.Placed := List.forall_mem_cons.mpr ⟨hplaced, hinv.placed⟩
  have hlt := total_lt hplaced' (List.pairwise_cons.mpr ⟨hapart, hinv.apart⟩)
  rwa [Fitting.total_cons, Nat.add_comm] at hlt

/-- The second section, when the file is what `Load_` has mapped. -/
theorem represents_loadAndInsert (h : c.Represents m) (hinv : c.Inv) {disk : Disk}
    {loaded : Option MappedResource}
    (hload : (StaticResourceManager.load disk path).1 = loaded.map (·.toStaticResource))
    (hfresh : c.Fresh loaded node) :
    (c.loadAndInsert path loaded node).2.Represents
        (StaticResourceManager.loadAndInsert disk path m).1.2 ∧
      (StaticResourceManager.loadAndInsert disk path m).1.1 =
        (c.loadAndInsert path loaded node).1.map (·.toStaticResource) := by
  cases hmap : c.cacheMap path with
  | some node' =>
    obtain ⟨item, before, behind, hfound, rfl, hlist, -⟩ := hinv.deref hmap
    simp only [StaticResourceManager.loadAndInsert, loadAndInsert, hmap, hfound,
      h.cached_of_split hinv hlist]
    exact ⟨h, rfl⟩
  | none =>
    rcases hdisk : StaticResourceManager.load disk path with ⟨file, accessed⟩
    rw [hdisk] at hload
    dsimp only at hload
    subst hload
    simp only [StaticResourceManager.loadAndInsert, loadAndInsert, hmap, hdisk,
      h.cached_of_none hmap]
    cases loaded with
    | none => exact ⟨h, rfl⟩
    | some resource =>
      have hlength : m.lruList.length = c.lruList.length := by rw [h.lruList, List.length_map]
      have hmade := represents_makeRoom h hinv (total_add_lt hinv hfresh) c.lruList.length
      have hinserted := (inv_insert hinv hmap hfresh).currentCacheSize
      have hmadeInv := inv_makeRoom hinv (.ofNat resource.size) c.lruList.length
      simp only [Option.map_some, hlength]
      refine ⟨⟨hmade.maxCacheSize, ?_, ?_, ?_, hmade.totalRequests, hmade.cacheHits⟩, trivial⟩
      · rw [hinserted, insert, Fitting.total_cons, ← hmadeInv.currentCacheSize, Nat.add_comm,
          ← hmade.currentCacheSize]
        rfl
      · rw [insert, List.map_cons, ← hmade.lruList]
        rfl
      · intro path'
        rw [insert]
        dsimp only
        rw [Function.update_apply]
        by_cases hpath : path' = path
        · simp [hpath]
        · simp [hpath, hmade.cacheMap]

/-- A call that no other thread interrupts. -/
def getResource (c : ResourceCache) (path : Bytes) (loaded : Option MappedResource) (node : ℕ) :
    Option MappedResource × ResourceCache :=
  match c.lookup path with
  | (some resource, c) => (some resource, c)
  | (none, c) => c.loadAndInsert path loaded node

/-- Such a call is the call that a connection sees. -/
theorem represents_getResource (h : c.Represents m) (hinv : c.Inv) {disk : Disk}
    {loaded : Option MappedResource}
    (hload : (StaticResourceManager.load disk path).1 = loaded.map (·.toStaticResource))
    (hfresh : c.Fresh loaded node) :
    (c.getResource path loaded node).2.Represents
        (StaticResourceManager.getResource disk path m).1.2 ∧
      (StaticResourceManager.getResource disk path m).1.1 =
        (c.getResource path loaded node).1.map (·.toStaticResource) := by
  obtain ⟨items, totalRequests, cacheHits, hperm, heq⟩ := lookup_eq hinv path
  have hinvLooked := inv_lookup hinv path
  have hfreshLooked : (c.lookup path).2.Fresh loaded node := by
    rw [heq]
    exact hfresh.of_subset hperm.subset
  obtain ⟨hlooked, hresult⟩ := represents_lookup h hinv path
  rw [getResource, StaticResourceManager.getResource]
  rcases hsection : c.lookup path with ⟨found, c'⟩
  rcases hview : m.lookup path with ⟨found', m'⟩
  rw [hsection, hview] at hlooked hresult
  rw [hsection] at hinvLooked hfreshLooked
  dsimp only at hresult
  subst hresult
  cases found with
  | some resource => exact ⟨hlooked, rfl⟩
  | none => exact represents_loadAndInsert hlooked hinvLooked hload hfreshLooked

end ResourceCache

end TinyWebServer
