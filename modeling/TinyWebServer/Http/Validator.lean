import TinyWebServer.Error
import TinyWebServer.Http.Request
import TinyWebServer.Library.FsPath

/-!
# The request validator

Checks a parsed request in a fixed order: the method, the path, the size of the headers and the
announced size of the body. A path is accepted in its normalised form.
-/

namespace TinyWebServer

structure ValidationResult where
  valid : Bool
  error : Error
  normalizedPath : Bytes
  deriving DecidableEq

structure RequestValidator where
  rootDir : Bytes
  maxRequestSize : ℕ
  maxHeadersSize : ℕ
  allowedMethods : List Bytes

namespace RequestValidator

/-- A validator with the default limits. -/
def new (rootDir : Bytes) : RequestValidator :=
  { rootDir := rootDir, maxRequestSize := 64 * 1024, maxHeadersSize := 8 * 1024
    allowedMethods := [bytes "GET", bytes "POST", bytes "HEAD", bytes "OPTIONS"] }

def isMethodAllowed (v : RequestValidator) (method : Bytes) : Bool :=
  v.allowedMethods.contains method

/-- The string in front of the first occurrence of a byte. -/
def cutAt (c : UInt8) (s : Bytes) : Bytes :=
  match Bytes.findByte c s with
  | none => s
  | some pos => s.take pos

/-- The components behind those in `parts`; `none` for a step above the root. -/
def resolve (parts : List Bytes) : List Bytes → Option (List Bytes)
  | [] => some parts
  | part :: rest =>
    if part = [] ∨ part = bytes "." then resolve parts rest
    else if part = bytes ".." then
      if parts = [] then none else resolve parts.dropLast rest
    else resolve (parts ++ [part]) rest

/-- The empty string stands for a path that is refused. -/
def normalizePath (path : Bytes) : Bytes :=
  if path = [] then []
  else
    let cleanPath := cutAt 35 (cutAt 63 path)
    if cleanPath = [] ∨ cleanPath = [Bytes.slash] then bytes "."
    else
      match resolve [] (Bytes.getlines Bytes.slash cleanPath) with
      | none => []
      | some [] => bytes "."
      | some parts => List.intercalate [Bytes.slash] parts

/-- The elements of the root are compared with those of the request, one by one. -/
def isPathWithinRoot (v : RequestValidator) (normalizedPath : Bytes) : Bool :=
  let rootPath := (FsPath.ofBytes v.rootDir).lexicallyNormal
  let requestPath := (rootPath.append (FsPath.ofBytes normalizedPath)).lexicallyNormal
  rootPath.elements.isPrefixOf requestPath.elements

def calculateHeadersSize (headers : List (Bytes × Bytes)) : ℕ :=
  (headers.map fun header => header.1.length + header.2.length + 4).sum + 2

/-- A result that refuses the request. -/
def refuse (code : WebError) (message : Bytes) : ValidationResult := ⟨false, ⟨code, message⟩, []⟩

def validatePath (v : RequestValidator) (path : Bytes) : ValidationResult :=
  let normalized := normalizePath path
  if normalized = [] then refuse .kInvalidPath (bytes "Invalid path: " ++ path)
  else if ¬ v.isPathWithinRoot normalized then
    refuse .kInvalidPath (bytes "Path traversal attempt detected: " ++ path)
  else ⟨true, .success, normalized⟩

def validateHeaders (v : RequestValidator) (headers : List (Bytes × Bytes)) (contentLength : ℤ) :
    ValidationResult :=
  let headersSize := calculateHeadersSize headers
  if v.maxHeadersSize < headersSize then
    refuse .kRequestTooLarge (bytes "HTTP headers too large: " ++ Bytes.ofNat headersSize ++
      bytes " > " ++ Bytes.ofNat v.maxHeadersSize)
  else if 0 < contentLength ∧ v.maxRequestSize < contentLength.toNat then
    refuse .kRequestTooLarge (bytes "Request body too large: " ++ Bytes.ofInt contentLength ++
      bytes " > " ++ Bytes.ofNat v.maxRequestSize)
  else ⟨true, .success, []⟩

def validateRequest (v : RequestValidator) (request : HttpRequest) : ValidationResult :=
  if ¬ v.isMethodAllowed request.method then
    refuse .kUnsupportedMethod (bytes "HTTP method not allowed: " ++ request.method)
  else
    let pathResult := v.validatePath request.path
    if ¬ pathResult.valid then pathResult
    else
      let headersResult := v.validateHeaders request.headers request.getContentLength
      if ¬ headersResult.valid then headersResult
      else ⟨true, .success, pathResult.normalizedPath⟩

/-! ### Normalised paths -/

/-- A name that stands for itself in a path. -/
structure IsName (name : Bytes) : Prop where
  ne_nil : name ≠ []
  ne_dot : name ≠ bytes "."
  ne_dotdot : name ≠ bytes ".."
  no_slash : Bytes.slash ∉ name

lemma isName_of_mem_resolve {parts rest out : List Bytes} (h : resolve parts rest = some out)
    (hparts : ∀ name ∈ parts, IsName name) (hrest : ∀ name ∈ rest, Bytes.slash ∉ name) :
    ∀ name ∈ out, IsName name := by
  induction rest generalizing parts with
  | nil =>
    cases h
    exact hparts
  | cons part rest ih =>
    have hrest' := fun name hn => hrest name (List.mem_cons_of_mem part hn)
    rw [resolve] at h
    split_ifs at h with hskip hup hempty
    · exact ih h hparts hrest'
    · exact ih h (fun name hn => hparts name (List.dropLast_subset _ hn)) hrest'
    · refine ih h ?_ hrest'
      intro name hname
      rcases List.mem_append.mp hname with hname | hname
      · exact hparts name hname
      · rw [List.mem_singleton.mp hname]
        rw [not_or] at hskip
        exact ⟨hskip.1, hskip.2, hup, hrest part (List.mem_cons_self ..)⟩

/-- A normalised path is a single dot or a list of names. -/
lemma normalizePath_cases {path : Bytes} (h : normalizePath path ≠ []) :
    normalizePath path = bytes "." ∨
      ∃ names, names ≠ [] ∧ (∀ name ∈ names, IsName name) ∧
        normalizePath path = List.intercalate [Bytes.slash] names := by
  simp only [normalizePath] at h ⊢
  by_cases hempty : path = []
  · rw [if_pos hempty] at h
    exact absurd rfl h
  rw [if_neg hempty] at h ⊢
  by_cases hroot : cutAt 35 (cutAt 63 path) = [] ∨ cutAt 35 (cutAt 63 path) = [Bytes.slash]
  · rw [if_pos hroot]
    exact Or.inl rfl
  · rw [if_neg hroot] at h ⊢
    cases hresolve : resolve [] (Bytes.getlines Bytes.slash (cutAt 35 (cutAt 63 path))) with
    | none =>
      rw [hresolve] at h
      exact absurd rfl h
    | some names =>
      have hnames := isName_of_mem_resolve hresolve (fun _ hn => nomatch hn)
        (fun _ hn => Bytes.notMem_of_mem_getlines hn)
      cases names with
      | nil => exact Or.inl rfl
      | cons name names => exact Or.inr ⟨name :: names, List.cons_ne_nil _ _, hnames, rfl⟩

/-! ### Accepted requests -/

lemma validatePath_valid {v : RequestValidator} {path : Bytes}
    (h : (v.validatePath path).valid = true) :
    (v.validatePath path).normalizedPath = normalizePath path ∧ normalizePath path ≠ [] := by
  simp only [validatePath] at h ⊢
  by_cases hempty : normalizePath path = []
  · rw [if_pos hempty] at h
    cases h
  rw [if_neg hempty] at h ⊢
  by_cases hroot : v.isPathWithinRoot (normalizePath path) = true
  · rw [if_neg (not_not.mpr hroot)]
    exact ⟨rfl, hempty⟩
  · rw [if_pos hroot] at h
    cases h

/-- An accepted request comes with the normalised form of its path, which is not empty. -/
lemma validateRequest_valid {v : RequestValidator} {request : HttpRequest}
    (h : (v.validateRequest request).valid = true) :
    (v.validateRequest request).normalizedPath = normalizePath request.path ∧
      normalizePath request.path ≠ [] := by
  simp only [validateRequest] at h ⊢
  by_cases hmethod : v.isMethodAllowed request.method = true
  · rw [if_neg (not_not.mpr hmethod)] at h ⊢
    by_cases hpath : (v.validatePath request.path).valid = true
    · rw [if_neg (not_not.mpr hpath)] at h ⊢
      by_cases hheaders : (v.validateHeaders request.headers request.getContentLength).valid = true
      · rw [if_neg (not_not.mpr hheaders)]
        exact validatePath_valid hpath
      · rw [if_pos hheaders] at h
        exact absurd h hheaders
    · rw [if_pos hpath] at h
      exact absurd h hpath
  · rw [if_pos hmethod] at h
    cases h

end RequestValidator

end TinyWebServer
