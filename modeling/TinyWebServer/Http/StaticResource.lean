import TinyWebServer.Http.FileSystem

/-!
# The cache of static resources

Mapped files in the order of their last use, up to a limit of bytes. `lookup` and `loadAndInsert`
are the two sections of `GetResource` under the lock.
-/

namespace TinyWebServer

/-- A mapped file. -/
structure StaticResource where
  content : Bytes
  path : Bytes
  deriving DecidableEq

def StaticResource.size (resource : StaticResource) : ℕ := resource.content.length

structure CacheItem where
  path : Bytes
  resource : StaticResource
  deriving DecidableEq

structure StaticResourceManager where
  maxCacheSize : ℕ
  currentCacheSize : ℕ
  /-- The item used last comes first. -/
  lruList : List CacheItem
  /-- The keys of the map from paths to nodes of the list. -/
  cacheMap : List Bytes
  totalRequests : ℕ
  cacheHits : ℕ
  deriving DecidableEq

namespace StaticResourceManager

def new : StaticResourceManager :=
  { maxCacheSize := 1024 * 1024 * 512, currentCacheSize := 0, lruList := [], cacheMap := []
    totalRequests := 0, cacheHits := 0 }

/-- The node that the map holds for a path. -/
def cached (m : StaticResourceManager) (path : Bytes) : Option CacheItem :=
  if path ∈ m.cacheMap then m.lruList.find? (·.path = path) else none

/-- An empty file cannot be mapped. -/
def load (disk : Disk) (path : Bytes) : Option StaticResource × List Bytes :=
  match disk (Bytes.cstr path) with
  | .regular file =>
    (if file.readable ∧ file.content ≠ [] then some ⟨file.content, path⟩ else none,
      [Bytes.cstr path])
  | _ => (none, [Bytes.cstr path])

def evict (m : StaticResourceManager) : StaticResourceManager :=
  match m.lruList.getLast? with
  | none => m
  | some last =>
    { m with
      currentCacheSize := m.currentCacheSize - last.resource.size
      cacheMap := m.cacheMap.filter (· ≠ last.path)
      lruList := m.lruList.dropLast }

/-- Evict until `size` more bytes fit or nothing is left; every round takes an item out, so that
as many rounds as there are items are enough. -/
def makeRoom (size : ℕ) : ℕ → StaticResourceManager → StaticResourceManager
  | 0, m => m
  | rounds + 1, m =>
    if m.maxCacheSize < m.currentCacheSize + size ∧ m.lruList ≠ [] then
      makeRoom size rounds m.evict
    else m

def lookup (m : StaticResourceManager) (path : Bytes) :
    Option StaticResource × StaticResourceManager :=
  let m := { m with totalRequests := m.totalRequests + 1 }
  match m.cached path with
  | none => (none, m)
  | some item =>
    (some item.resource,
      { m with
        lruList := item :: m.lruList.filter (·.path ≠ path)
        cacheHits := m.cacheHits + 1 })

/-- A resource that is in the cache by now is returned as it is. -/
def loadAndInsert (disk : Disk) (path : Bytes) (m : StaticResourceManager) :
    (Option StaticResource × StaticResourceManager) × List Bytes :=
  match m.cached path with
  | some item => ((some item.resource, m), [])
  | none =>
    match load disk path with
    | (none, accessed) => ((none, m), accessed)
    | (some resource, accessed) =>
      let m := makeRoom resource.size m.lruList.length m
      ((some resource,
        { m with
          lruList := ⟨path, resource⟩ :: m.lruList
          cacheMap := path :: m.cacheMap.filter (· ≠ path)
          currentCacheSize := m.currentCacheSize + resource.size }), accessed)

def getResource (disk : Disk) (path : Bytes) (m : StaticResourceManager) :
    (Option StaticResource × StaticResourceManager) × List Bytes :=
  match m.lookup path with
  | (some resource, m) => ((some resource, m), [])
  | (none, m) => loadAndInsert disk path m

lemma load_accessed (disk : Disk) (path : Bytes) : (load disk path).2 = [Bytes.cstr path] := by
  rw [load]
  cases disk (Bytes.cstr path) <;> rfl

/-- The cache opens no path but the one it was asked for. -/
lemma getResource_accessed (disk : Disk) (path : Bytes) (m : StaticResourceManager) {p : Bytes}
    (h : p ∈ (getResource disk path m).2) : p = Bytes.cstr path := by
  simp only [getResource] at h
  split at h
  · simp at h
  · rw [loadAndInsert] at h
    split at h
    · simp at h
    · have hload := load_accessed disk path
      split at h
      · rename_i heq
        rw [heq] at hload
        rw [hload] at h
        simpa using h
      · rename_i heq
        rw [heq] at hload
        rw [hload] at h
        simpa using h

end StaticResourceManager

end TinyWebServer
