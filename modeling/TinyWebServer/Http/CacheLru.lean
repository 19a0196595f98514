import TinyWebServer.Http.CacheRefinement
import TinyWebServer.Library.Lru

/-!
# The resource cache as an LRU cache

Calls of `GetResource` that follow one another make of the list, the map of iterators and the
running sum what a reference cache makes of its entries. The file system stays as it is.
-/

namespace TinyWebServer

/-- The path and the resource of a node. -/
def CacheNode.entry (n : CacheNode) : Bytes × MappedResource := (n.path, n.resource)

namespace ResourceCache

/-- The size that the cache counts for a resource. -/
abbrev mappedSize (resource : MappedResource) : ℕ := resource.size

/-- The same entries in the same order, and the same counters. -/
structure CachesAs (c : ResourceCache) (s : Lru Bytes MappedResource) : Prop where
  entries : s.entries = c.lruList.map CacheNode.entry
  requests : s.requests = c.totalRequests
  hits : s.hits = c.cacheHits

variable {c : ResourceCache} {s : Lru Bytes MappedResource} {path : Bytes} {node : ℕ}
  {loaded : Option MappedResource}

lemma total_entries (items : List CacheNode) :
    Fitting.total (Lru.entrySize mappedSize) (items.map CacheNode.entry) =
      Fitting.total CacheNode.size items := by
  rw [Fitting.total, Fitting.total, List.map_map]
  rfl

lemma lruList_evict (c : ResourceCache) : c.evict.lruList = c.lruList.dropLast := by
  rcases List.eq_nil_or_concat' c.lruList with hnil | ⟨items, last, hlist⟩
  · rw [evict, hnil]
    simp [hnil]
  · rw [evict_of_snoc hlist, hlist, List.dropLast_concat]

/-- The loop evicts as many nodes from the back as it takes. -/
lemma entries_makeRoom (hinv : c.Inv) {size : ℕ}
    (hroom : Fitting.total CacheNode.size c.lruList + size < 2 ^ 64) {rounds : ℕ}
    (hrounds : c.lruList.length ≤ rounds) :
    (makeRoom (.ofNat size) rounds c).lruList.map CacheNode.entry =
      Lru.keep mappedSize c.maxCacheSize.toNat size (c.lruList.map CacheNode.entry) := by
  induction rounds generalizing c with
  | zero =>
    rw [makeRoom, List.length_eq_zero_iff.mp (Nat.le_zero.mp hrounds), List.map_nil, Lru.keep_nil]
  | succ rounds ih =>
    have hsum : (c.currentCacheSize + .ofNat size).toNat =
        Fitting.total CacheNode.size c.lruList + size := by
      rw [UInt64.toNat_add, UInt64.toNat_ofNat', Nat.add_mod_mod, hinv.currentCacheSize]
      exact Nat.mod_eq_of_lt hroom
    rw [makeRoom]
    split_ifs with hloop <;> rw [UInt64.lt_iff_toNat_lt, hsum] at hloop
    · have hless := Fitting.total_le_of_isPrefix CacheNode.size (evict_isPrefix c)
      rw [ih (inv_evict hinv) (by omega) (by rw [length_evict]; omega), maxCacheSize_evict,
        lruList_evict, List.map_dropLast, Lru.keep_dropLast]
      rw [total_entries]
      exact hloop.1
    · rw [not_and_or, not_not, Nat.not_lt] at hloop
      rcases hloop with hfits | hnil
      · rw [Lru.keep_of_le]
        rwa [total_entries]
      · rw [hnil, List.map_nil, Lru.keep_nil]

lemma counters_makeRoom (c : ResourceCache) (size : UInt64) (rounds : ℕ) :
    (makeRoom size rounds c).totalRequests = c.totalRequests ∧
      (makeRoom size rounds c).cacheHits = c.cacheHits := by
  refine makeRoom_induction (c := c)
    (P := fun d => d.totalRequests = c.totalRequests ∧ d.cacheHits = c.cacheHits)
    (fun d hd => ?_) size rounds ⟨rfl, rfl⟩
  rw [evict]
  cases d.lruList.getLast? <;> exact hd

/-- A call that no other thread interrupts returns what the reference cache does, and leaves the
entries that it leaves. -/
structure AnswersAs (c : ResourceCache) (s : Lru Bytes MappedResource) (path : Bytes)
    (loaded : Option MappedResource) (node : ℕ) : Prop where
  cachesAs : (c.getResource path loaded node).2.CachesAs
    (s.access mappedSize c.maxCacheSize.toNat path loaded).2
  returned : (c.getResource path loaded node).1 =
    (s.access mappedSize c.maxCacheSize.toNat path loaded).1
  inv : (c.getResource path loaded node).2.Inv
  maxCacheSize : (c.getResource path loaded node).2.maxCacheSize = c.maxCacheSize

lemma CachesAs.absent (h : c.CachesAs s) (hinv : c.Inv) (hmap : c.cacheMap path = none) :
    ∀ entry ∈ s.entries, entry.1 ≠ path := by
  rw [h.entries, List.forall_mem_map]
  intro item hitem heq
  have hsome := hinv.cacheMap_of_mem hitem
  rw [show item.path = path from heq, hmap] at hsome
  contradiction

/-- The request is counted before anything is loaded. -/
lemma getResource_miss (hmap : c.cacheMap path = none) :
    c.getResource path loaded node =
      match loaded with
      | none => (none, { c with totalRequests := c.totalRequests + 1 })
      | some resource => (some resource,
          ({ c with totalRequests := c.totalRequests + 1 } : ResourceCache).insert path resource
            node) := by
  have hlookup : c.lookup path = (none, { c with totalRequests := c.totalRequests + 1 }) := by
    simp only [lookup, hmap]
  rw [getResource, hlookup]
  cases loaded <;> simp only [loadAndInsert, hmap]

lemma answersAs_miss (h : c.CachesAs s) (hinv : c.Inv) (hmap : c.cacheMap path = none)
    (hfresh : c.Fresh loaded node) : c.AnswersAs s path loaded node := by
  have hcount : ({ c with totalRequests := c.totalRequests + 1 } : ResourceCache).Inv :=
    hinv.of_perm (List.Perm.refl _) _ _
  constructor <;> rw [getResource_miss hmap]
  case cachesAs =>
    rw [Lru.access_miss (h.absent hinv hmap)]
    cases loaded with
    | none => exact ⟨h.entries, congrArg (· + 1) h.requests, h.hits⟩
    | some resource =>
      have hentries := entries_makeRoom hcount (total_add_lt hcount hfresh) le_rfl
      have hcounters := counters_makeRoom { c with totalRequests := c.totalRequests + 1 }
        (.ofNat resource.size) c.lruList.length
      refine ⟨?_, ?_, ?_⟩
      · simp only [insert, List.map_cons, hentries, h.entries, Option.elim_some]
        rfl
      · exact (congrArg (· + 1) h.requests).trans hcounters.1.symm
      · exact h.hits.trans hcounters.2.symm
  case returned =>
    rw [Lru.access_miss (h.absent hinv hmap)]
    cases loaded <;> rfl
  case inv =>
    cases loaded with
    | none => exact hcount
    | some resource => exact inv_insert hcount hmap hfresh
  case maxCacheSize =>
    cases loaded with
    | none => rfl
    | some resource => exact maxCacheSize_insert _ _ _ _

lemma answersAs_hit (h : c.CachesAs s) (hinv : c.Inv) {node' : ℕ}
    (hmap : c.cacheMap path = some node') : c.AnswersAs s path loaded node := by
  obtain ⟨item, before, behind, hfound, rfl, hlist, herase⟩ := hinv.deref hmap
  have hlookup : c.lookup item.path = (some item.resource,
      { c with
        totalRequests := c.totalRequests + 1
        lruList := item :: (before ++ behind), cacheHits := c.cacheHits + 1 }) := by
    have hfound' : ({ c with totalRequests := c.totalRequests + 1 } : ResourceCache).deref node' =
      some item := hfound
    simp only [lookup, hmap, hfound', herase]
  have hlooked := inv_lookup hinv item.path
  rw [hlookup] at hlooked
  have hentries : s.entries = before.map CacheNode.entry ++
      (item.path, item.resource) :: behind.map CacheNode.entry := by
    rw [h.entries, hlist, List.map_append, List.map_cons]
    rfl
  have hne : ∀ entry ∈ before.map CacheNode.entry ++ behind.map CacheNode.entry,
      entry.1 ≠ item.path := by
    rw [← List.map_append, List.forall_mem_map]
    exact hinv.path_ne hlist
  constructor <;> rw [getResource, hlookup]
  case cachesAs =>
    rw [Lru.access_hit hentries hne]
    refine ⟨?_, congrArg (· + 1) h.requests, congrArg (· + 1) h.hits⟩
    rw [List.map_cons, List.map_append]
    rfl
  case returned => rw [Lru.access_hit hentries hne]
  case inv => exact hlooked

lemma answersAs_getResource (h : c.CachesAs s) (hinv : c.Inv)
    (hfresh : c.cacheMap path = none → c.Fresh loaded node) : c.AnswersAs s path loaded node := by
  cases hmap : c.cacheMap path with
  | none => exact answersAs_miss h hinv hmap (hfresh hmap)
  | some node' => exact answersAs_hit h hinv hmap

end ResourceCache

/-! ### Runs -/

/-- A call of `GetResource`, with the address and the list node that it is given on a miss. -/
structure CacheCall where
  path : Bytes
  addr : ℕ
  node : ℕ

/-- What `Load_` makes of the path. -/
def CacheCall.loaded (disk : Disk) (call : CacheCall) : Option MappedResource :=
  (StaticResourceManager.load disk call.path).1.map fun resource => ⟨resource, call.addr⟩

/-- The cache behind some calls, and what they have returned. -/
structure Served where
  cache : ResourceCache
  returned : List (Option MappedResource)

namespace Served

open ResourceCache

/-- One call; only on a miss a file is mapped and a node allocated. -/
def serve (disk : Disk) (t : Served) (call : CacheCall) : Option Served :=
  if t.cache.cacheMap call.path = none → t.cache.Fresh (call.loaded disk) call.node then
    let result := t.cache.getResource call.path (call.loaded disk) call.node
    some ⟨result.2, t.returned ++ [result.1]⟩
  else none

/-- The same call of the reference cache. -/
def accessCall (disk : Disk) (limit : ℕ)
    (t : Lru Bytes MappedResource × List (Option MappedResource)) (call : CacheCall) :
    Lru Bytes MappedResource × List (Option MappedResource) :=
  let result := t.1.access mappedSize limit call.path (call.loaded disk)
  (result.2, t.2 ++ [result.1])

/-- The caches agree, and so does what they have returned. -/
structure Agrees (limit : UInt64) (t : Served)
    (r : Lru Bytes MappedResource × List (Option MappedResource)) : Prop where
  cachesAs : t.cache.CachesAs r.1
  inv : t.cache.Inv
  maxCacheSize : t.cache.maxCacheSize = limit
  returned : t.returned = r.2

lemma Agrees.serve {disk : Disk} {limit : UInt64} {t u : Served}
    {r : Lru Bytes MappedResource × List (Option MappedResource)} {call : CacheCall}
    (h : Agrees limit t r) (hstep : serve disk t call = some u) :
    Agrees limit u (accessCall disk limit.toNat r call) := by
  rw [Served.serve] at hstep
  split_ifs at hstep with hfresh
  cases hstep
  obtain ⟨hcaches, hresult, hinv, hmax⟩ := answersAs_getResource h.cachesAs h.inv hfresh
  rw [h.maxCacheSize] at hcaches hresult
  refine ⟨hcaches, hinv, hmax.trans h.maxCacheSize, ?_⟩
  dsimp only [accessCall]
  rw [h.returned, hresult]

lemma agrees_run {disk : Disk} {maxMemBytes : UInt64} {calls : List CacheCall} {t : Served}
    (h : Runs.run (serve disk) ⟨ResourceCache.new.setCacheLimit maxMemBytes, []⟩ calls = some t) :
    Agrees maxMemBytes t (calls.foldl (accessCall disk maxMemBytes.toNat) (Lru.new, [])) := by
  refine Runs.run_simulates (serve disk) (fun s r call u hR hu => Agrees.serve hR hu) ?_ h
  exact ⟨⟨rfl, rfl, rfl⟩, inv_new maxMemBytes, rfl, rfl⟩

/-- Behind every run of calls the cache holds the entries of the reference cache in their order,
the map knows their paths, the counters are the same, and so is what the calls have returned. -/
theorem lru_run {disk : Disk} {maxMemBytes : UInt64} {calls : List CacheCall} {t : Served}
    (h : Runs.run (serve disk) ⟨ResourceCache.new.setCacheLimit maxMemBytes, []⟩ calls = some t) :
    let reference := calls.foldl (accessCall disk maxMemBytes.toNat) (Lru.new, [])
    t.cache.lruList.map CacheNode.entry = reference.1.entries ∧
      (∀ path, t.cache.cacheMap path ≠ none ↔ path ∈ reference.1.entries.map Prod.fst) ∧
      t.cache.totalRequests = reference.1.requests ∧ t.cache.cacheHits = reference.1.hits ∧
      t.returned = reference.2 := by
  have hagrees := agrees_run h
  refine ⟨hagrees.cachesAs.entries.symm, fun path => ?_, hagrees.cachesAs.requests.symm,
    hagrees.cachesAs.hits.symm, hagrees.returned⟩
  rw [hagrees.cachesAs.entries, List.map_map, Option.ne_none_iff_exists']
  simp only [hagrees.inv.cacheMap_iff, List.mem_map]
  constructor
  · rintro ⟨node, item, hitem, rfl, -⟩
    exact ⟨item, hitem, rfl⟩
  · rintro ⟨item, hitem, rfl⟩
    exact ⟨item.node, item, hitem, rfl, rfl⟩

/-- A small file under every path. -/
def threeBytes : Disk := fun _ => .regular ⟨[72, 105, 33], 0, true⟩

/-- Three files of three bytes and a limit of seven: the third one takes the place of the first,
which is not in the cache any more when it is asked for again. -/
def fourCalls : List CacheCall :=
  [⟨bytes "a", 4096, 0⟩, ⟨bytes "b", 8192, 1⟩, ⟨bytes "c", 12288, 2⟩, ⟨bytes "a", 16384, 3⟩]

theorem lru_run_fourCalls :
    ∃ t, Runs.run (serve threeBytes) ⟨ResourceCache.new.setCacheLimit 7, []⟩ fourCalls = some t ∧
      t.cache.lruList.map CacheNode.entry =
        (fourCalls.foldl (accessCall threeBytes 7) (Lru.new, [])).1.entries := by
  have hrun : (Runs.run (serve threeBytes) ⟨ResourceCache.new.setCacheLimit 7, []⟩
      fourCalls).isSome = true := by
    decide +kernel
  obtain ⟨t, ht⟩ := Option.isSome_iff_exists.mp hrun
  exact ⟨t, ht, (lru_run ht).1⟩

/-- Every call returns the file of its path, from the cache or not. -/
theorem returned_run {disk : Disk} {maxMemBytes : UInt64} {calls : List CacheCall} {t : Served}
    (h : Runs.run (serve disk) ⟨ResourceCache.new.setCacheLimit maxMemBytes, []⟩ calls = some t) :
    t.returned.map (Option.map (·.toStaticResource)) =
      calls.map fun call => (StaticResourceManager.load disk call.path).1 := by
  rw [(agrees_run h).returned]
  clear h
  have hload : ∀ call : CacheCall, (call.loaded disk).map (·.toStaticResource) =
      (StaticResourceManager.load disk call.path).1 := by
    intro call
    rw [CacheCall.loaded, Option.map_map]
    exact Option.map_id'
  suffices hall : ∀ (r : Lru Bytes MappedResource × List (Option MappedResource)),
      (∀ entry ∈ r.1.entries,
        (StaticResourceManager.load disk entry.1).1 = some entry.2.toStaticResource) →
      (calls.foldl (accessCall disk maxMemBytes.toNat) r).2.map
          (Option.map (·.toStaticResource)) =
        r.2.map (Option.map (·.toStaticResource)) ++
          calls.map fun call => (StaticResourceManager.load disk call.path).1 from
    hall (Lru.new, []) nofun
  intro r hr
  induction calls generalizing r with
  | nil => simp
  | cons call calls ih =>
    obtain ⟨hreturned, hentries⟩ := Lru.access_loaded mappedSize maxMemBytes.toNat
      (fun path => (StaticResourceManager.load disk path).1) hr (hload call)
    rw [List.foldl_cons, ih _ hentries, accessCall, List.map_append, List.map_cons, List.map_cons,
      List.map_nil, hreturned, List.append_assoc]
    rfl

end Served

end TinyWebServer
