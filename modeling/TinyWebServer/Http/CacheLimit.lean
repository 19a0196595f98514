import TinyWebServer.Http.ResourceCache

/-!
# The limit of the resource cache

Eviction stops when the new resource fits or when nothing is left to evict, and the resource is
inserted either way. The limit is kept until a resource comes that is larger than the limit itself.
-/

namespace TinyWebServer

namespace ResourceCache

variable {c : ResourceCache} {path : Bytes} {node : ℕ} {resource : MappedResource}

@[simp]
lemma maxCacheSize_evict (c : ResourceCache) : c.evict.maxCacheSize = c.maxCacheSize := by
  rw [evict]
  cases c.lruList.getLast? <;> rfl

@[simp]
lemma length_evict (c : ResourceCache) : c.evict.lruList.length = c.lruList.length - 1 := by
  rw [evict]
  cases hlast : c.lruList.getLast? with
  | none =>
    rw [List.getLast?_eq_none_iff] at hlast
    simp [hlast]
  | some last => exact List.length_dropLast

@[simp]
lemma maxCacheSize_makeRoom (c : ResourceCache) (size : UInt64) (rounds : ℕ) :
    (makeRoom size rounds c).maxCacheSize = c.maxCacheSize :=
  makeRoom_induction (P := fun d => d.maxCacheSize = c.maxCacheSize)
    (fun d hd => (maxCacheSize_evict d).trans hd) size rounds rfl

/-- With as many rounds as there are nodes, the loop ends as in the source. -/
lemma makeRoom_exit (size : UInt64) {rounds : ℕ} (hrounds : c.lruList.length ≤ rounds) :
    (makeRoom size rounds c).currentCacheSize + size ≤ c.maxCacheSize ∨
      (makeRoom size rounds c).lruList = [] := by
  induction rounds generalizing c with
  | zero =>
    right
    exact List.eq_nil_of_length_eq_zero (Nat.le_zero.mp hrounds)
  | succ rounds ih =>
    rw [makeRoom]
    split_ifs with hloop
    · rw [← maxCacheSize_evict c]
      apply ih
      rw [length_evict]
      exact Nat.sub_le_of_le_add hrounds
    · rw [not_and_or, not_not, UInt64.not_lt] at hloop
      exact hloop

@[simp]
lemma maxCacheSize_insert (c : ResourceCache) (path : Bytes) (resource : MappedResource)
    (node : ℕ) : (c.insert path resource node).maxCacheSize = c.maxCacheSize :=
  maxCacheSize_makeRoom c _ _

/-- What is inserted either fits or is alone. -/
lemma insert_exit (c : ResourceCache) (path : Bytes) (resource : MappedResource) (node : ℕ) :
    (c.insert path resource node).currentCacheSize ≤ c.maxCacheSize ∨
      (c.insert path resource node).lruList = [⟨node, path, resource⟩] := by
  rcases makeRoom_exit (c := c) (.ofNat resource.size) le_rfl with hfits | hnil
  · exact .inl hfits
  · right
    rw [insert]
    dsimp only
    rw [hnil]

/-- An insertion keeps the limit if and only if the resource alone does. -/
lemma insert_le_iff (h : c.Inv) (hpath : c.cacheMap path = none)
    (hfresh : c.Fresh (some resource) node) :
    (c.insert path resource node).currentCacheSize ≤ c.maxCacheSize ↔
      resource.size ≤ c.maxCacheSize.toNat := by
  have htotal := (inv_insert h hpath hfresh).currentCacheSize
  constructor
  · intro hle
    have hcons : (c.insert path resource node).currentCacheSize.toNat =
        resource.size + Fitting.total CacheNode.size
          (makeRoom (.ofNat resource.size) c.lruList.length c).lruList := htotal
    rw [UInt64.le_iff_toNat_le, hcons] at hle
    exact (Nat.le_add_right _ _).trans hle
  · intro hle
    rcases insert_exit c path resource node with hfits | halone
    · exact hfits
    · rw [UInt64.le_iff_toNat_le, htotal, halone]
      exact hle

end ResourceCache

namespace CacheThreads

/-- The section inserts a resource that is larger than the whole cache may be. -/
def Overfills (s : CacheThreads) : Section → Prop
  | .lookup _ _ => False
  | .loadAndInsert thread loaded _ =>
    ∃ path resource, s.missed thread = some path ∧ s.cache.cacheMap path = none ∧
      loaded = some resource ∧ s.cache.maxCacheSize.toNat < resource.size

/-- The counter is within the limit. -/
def WithinLimit (s : CacheThreads) : Prop := s.cache.currentCacheSize ≤ s.cache.maxCacheSize

/-- Nobody sets another limit. -/
lemma maxCacheSize_step {s t : CacheThreads} {m : Section} (h : s.cache.Inv)
    (hstep : s.step m = some t) : t.cache.maxCacheSize = s.cache.maxCacheSize := by
  cases stepped_of_step h hstep with
  | lookup thread path _ =>
    obtain ⟨items, totalRequests, cacheHits, -, heq⟩ := ResourceCache.lookup_eq h path
    rw [heq]
  | found => rfl
  | failed => rfl
  | insert => exact ResourceCache.maxCacheSize_insert _ _ _ _

/-- A section exceeds the limit if and only if it inserts a resource larger than that. -/
lemma withinLimit_step_iff (s : CacheThreads) (m : Section) (t : CacheThreads) (h : s.cache.Inv)
    (hs : s.WithinLimit) (hstep : s.step m = some t) : t.WithinLimit ↔ ¬ s.Overfills m := by
  rw [WithinLimit, maxCacheSize_step h hstep]
  cases stepped_of_step h hstep with
  | lookup thread path _ =>
    obtain ⟨items, totalRequests, cacheHits, -, heq⟩ := ResourceCache.lookup_eq h path
    rw [heq]
    exact iff_of_true hs not_false
  | found loaded node _ hmissed hfound =>
    refine iff_of_true hs ?_
    rintro ⟨path', resource, hmissed', hnone, -⟩
    obtain rfl := Option.some.inj (hmissed.symm.trans hmissed')
    exact hfound hnone
  | failed thread node _ =>
    refine iff_of_true hs ?_
    rintro ⟨path, resource, -, -, hloaded, -⟩
    contradiction
  | @insert thread path resource node _ hmissed hpath hfresh =>
    change (s.cache.insert path resource node).currentCacheSize ≤ _ ↔ _
    rw [ResourceCache.insert_le_iff h hpath hfresh]
    constructor
    · rintro hle ⟨path', resource', -, -, hloaded, hlt⟩
      obtain rfl := Option.some.inj hloaded
      exact absurd hle (not_le.mpr hlt)
    · intro hfits
      by_contra hlarge
      exact hfits ⟨path, resource, hmissed, hpath, rfl, not_le.mp hlarge⟩

/-- The limit holds throughout a run if and only if no call of the run inserts a resource that is
larger than the limit. -/
theorem currentCacheSize_le_iff {maxMemBytes : UInt64} {ms : List Section} {t : CacheThreads}
    (h : Runs.run step (new maxMemBytes) ms = some t) :
    (∀ ms' u, ms' <+: ms → Runs.run step (new maxMemBytes) ms' = some u → u.WithinLimit) ↔
      ∀ ms' m u, ms' ++ [m] <+: ms → Runs.run step (new maxMemBytes) ms' = some u →
        ¬ u.Overfills m :=
  Runs.forall_run_iff step (I := fun s => s.cache.Inv) inv_step withinLimit_step_iff
    (ResourceCache.inv_new maxMemBytes) UInt64.zero_le h

lemma maxCacheSize_run {maxMemBytes : UInt64} {ms : List Section} {s : CacheThreads}
    (h : Runs.run step (new maxMemBytes) ms = some s) : s.cache.maxCacheSize = maxMemBytes :=
  (Runs.invariant_run step (P := fun s => s.cache.Inv ∧ s.cache.maxCacheSize = maxMemBytes)
    (fun s m t hs hstep => ⟨inv_step s m t hs.1 hstep, (maxCacheSize_step hs.1 hstep).trans hs.2⟩)
    ⟨ResourceCache.inv_new maxMemBytes, rfl⟩ h).2

/-- Three bytes under a limit of four. -/
theorem currentCacheSize_le_race :
    ∃ t, Runs.run step (new 4) race = some t ∧
      ∀ ms' u, ms' <+: race → Runs.run step (new 4) ms' = some u → u.WithinLimit := by
  have hrun : (Runs.run step (new 4) race).isSome = true := by decide +kernel
  obtain ⟨t, ht⟩ := Option.isSome_iff_exists.mp hrun
  refine ⟨t, ht, (currentCacheSize_le_iff ht).mpr ?_⟩
  intro ms' m u hbegins hu
  have hmem := Runs.mem_of_snoc_isPrefix hbegins
  have hlimit := maxCacheSize_run hu
  simp only [race, List.mem_cons, List.not_mem_nil, or_false] at hmem
  rcases hmem with rfl | rfl | rfl | rfl
  · exact not_false
  · exact not_false
  · rintro ⟨path, resource, -, -, hloaded, hlarge⟩
    obtain rfl := Option.some.inj hloaded
    rw [hlimit] at hlarge
    exact absurd hlarge (by decide)
  · rintro ⟨path, resource, -, -, hloaded, -⟩
    contradiction

/-- Three bytes under a limit of two. -/
theorem currentCacheSize_gt_race :
    ¬ ∀ (maxMemBytes : UInt64) (ms : List Section) (s : CacheThreads),
      Runs.run step (new maxMemBytes) ms = some s → s.WithinLimit := by
  intro h
  have hrun : (Runs.run step (new 2) race).any
      (fun s => s.cache.maxCacheSize < s.cache.currentCacheSize) = true := by decide +kernel
  obtain ⟨s, hs, hlarge⟩ := (Option.any_eq_true _ _).mp hrun
  exact UInt64.not_le.mpr (of_decide_eq_true hlarge) (h 2 race s hs)

/-- Over the limit the cache holds a single resource. -/
theorem withinLimit_or_single {maxMemBytes : UInt64} {ms : List Section} {s : CacheThreads}
    (h : Runs.run step (new maxMemBytes) ms = some s) :
    s.WithinLimit ∨ ∃ item, s.cache.lruList = [item] := by
  refine (Runs.invariant_run step
    (P := fun s => s.cache.Inv ∧ (s.WithinLimit ∨ ∃ item, s.cache.lruList = [item]))
    (fun s m t hs hstep => ⟨inv_step s m t hs.1 hstep, ?_⟩)
    ⟨ResourceCache.inv_new maxMemBytes, .inl UInt64.zero_le⟩ h).2
  obtain ⟨hinv, hs⟩ := hs
  rw [WithinLimit, maxCacheSize_step hinv hstep]
  cases stepped_of_step hinv hstep with
  | lookup thread path _ =>
    obtain ⟨items, totalRequests, cacheHits, hperm, heq⟩ := ResourceCache.lookup_eq hinv path
    rw [heq]
    rcases hs with hs | ⟨item, hitem⟩
    · exact .inl hs
    · exact .inr ⟨item, List.perm_singleton.mp (hitem ▸ hperm)⟩
  | found => exact hs
  | failed => exact hs
  | insert =>
    rcases ResourceCache.insert_exit s.cache _ _ _ with hfits | halone
    · exact .inl hfits
    · exact .inr ⟨_, halone⟩

end CacheThreads

end TinyWebServer
