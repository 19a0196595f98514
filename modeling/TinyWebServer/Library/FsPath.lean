import TinyWebServer.Library.Bytes

/-!
# POSIX paths

`std::filesystem::path` on POSIX: a path string is cut into an optional root directory and the
file names behind it, where a trailing separator shows as an empty last name. Composition with
`operator/` and `lexically_normal` work on these components.
-/

/-- A path cut into its components. -/
structure FsPath where
  rooted : Bool
  names : List Bytes
  deriving DecidableEq

namespace FsPath

def dot : Bytes := bytes "."
def dotdot : Bytes := bytes ".."

/-- `fs::path(s)`: runs of separators count as one. -/
def ofBytes (s : Bytes) : FsPath :=
  let names := (s.splitOn Bytes.slash).filter (· ≠ [])
  { rooted := s.head? = some Bytes.slash
    names := if s.getLast? = some Bytes.slash ∧ names ≠ [] then names ++ [[]] else names }

/-- What iteration over the path yields. -/
def elements (p : FsPath) : List Bytes :=
  (if p.rooted then [[Bytes.slash]] else []) ++ p.names

/-- The names without the empty one that a trailing separator leaves. -/
def filenames (p : FsPath) : List Bytes :=
  if p.names.getLast? = some [] then p.names.dropLast else p.names

/-- `p / q`. -/
def append (p q : FsPath) : FsPath :=
  if q.rooted then q
  else if q.names = [] then
    { p with names := if p.filenames = [] then [] else p.filenames ++ [[]] }
  else { p with names := p.filenames ++ q.names }

/-- One name of `lexically_normal`. The stack holds the names kept so far, the last one on top;
the flag says whether the result ends in a separator at this point. -/
def normalStep (rooted : Bool) (acc : List Bytes × Bool) (name : Bytes) : List Bytes × Bool :=
  if name = dotdot then
    match acc.1 with
    | [] => if rooted then ([], false) else ([dotdot], false)
    | top :: below => if top = dotdot then (dotdot :: top :: below, false) else (below, below ≠ [])
  else if name = dot ∨ name = [] then (acc.1, acc.1 ≠ [])
  else (name :: acc.1, false)

/-- `p.lexically_normal()`. -/
def lexicallyNormal (p : FsPath) : FsPath :=
  if p.names = [] then p
  else
    let (stack, trailing) := p.names.foldl (normalStep p.rooted) ([], false)
    if stack = [] then (if p.rooted then ⟨true, []⟩ else ⟨false, [dot]⟩)
    else if trailing ∧ stack.head? ≠ some dotdot then ⟨p.rooted, stack.reverse ++ [[]]⟩
    else ⟨p.rooted, stack.reverse⟩

example : (ofBytes (bytes "./public/")).lexicallyNormal = ⟨false, [bytes "public", []]⟩ := by
  decide

end FsPath
