import TinyWebServer.Library.Bytes

/-!
# The file system behind the server

A file system that stays as it is while requests are handled. A system call sees a path up to its
first NUL. Operations return the paths they passed to the kernel.
-/

namespace TinyWebServer

structure File where
  content : Bytes
  /-- Nanoseconds on the file clock. -/
  lastWriteTime : ℤ
  /-- Whether `open` and `mmap` succeed on it. -/
  readable : Bool
  deriving DecidableEq

/-- What `stat` reports. -/
inductive FileStatus where
  | notFound
  | regular (file : File)
  | other
  /-- Any error but a missing file: `std::filesystem::status` throws. -/
  | failed
  deriving DecidableEq

/-- The status of every path a system call can name. -/
abbrev Disk := Bytes → FileStatus

namespace Disk

/-- `fs::exists(path) && fs::is_regular_file(path)`: the file if there is one, and `none` where
the status throws. -/
def existingFile (disk : Disk) (path : Bytes) : Option (Option File) × List Bytes :=
  let path := Bytes.cstr path
  match disk path with
  | .failed => (none, [path])
  | .notFound => (some none, [path])
  | .other => (some none, [path, path])
  | .regular file => (some (some file), [path, path])

/-- The kernel sees no path but the one it was asked about, and it sees that one. -/
lemma existingFile_accessed (disk : Disk) (path p : Bytes) :
    p ∈ (disk.existingFile path).2 ↔ p = Bytes.cstr path := by
  simp only [existingFile]
  cases disk (Bytes.cstr path) <;> simp

end Disk

end TinyWebServer
