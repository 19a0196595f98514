import TinyWebServer.Http.PathNormalisation

/-!
# The check against the root

`IsPathWithinRoot` compares the elements of two normal paths. Whether it lets a normalised path
through depends on how the root is spelled.
-/

namespace TinyWebServer

namespace RequestValidator

open Resolution FsPath

/-- The root ends with a name, or it is the root directory or a directory above the current one. -/
def RootFits (root : Bytes) : Prop :=
  EndsOrdinary (root.splitOn Bytes.slash) ∨
    resolved (root.splitOn Bytes.slash) = [] ∧
      (root.head? = some Bytes.slash ∨ Climbs (root.splitOn Bytes.slash))

instance (root : Bytes) : Decidable (RootFits root) := inferInstanceAs (Decidable (_ ∨ _))

lemma validatePath_valid_iff (v : RequestValidator) (path : Bytes) :
    (v.validatePath path).valid = true ↔
      normalizePath path ≠ [] ∧ v.isPathWithinRoot (normalizePath path) = true := by
  simp only [validatePath]
  by_cases hempty : normalizePath path = []
  · rw [if_pos hempty]
    simp [refuse, hempty]
  · rw [if_neg hempty]
    by_cases hroot : v.isPathWithinRoot (normalizePath path) = true
    · simp [hempty, hroot]
    · simp [refuse, hroot]

/-! ### The two paths -/

/-- Where the components of the root lead. -/
def rootPlace (root : Bytes) : Place Bytes :=
  ⟨excess ((root.splitOn Bytes.slash).map stepOf), resolved (root.splitOn Bytes.slash)⟩

lemma isOrdinary_rootPlace (root : Bytes) : ∀ name ∈ (rootPlace root).names, IsOrdinary name :=
  fun _ hname => isOrdinary_of_mem_resolved hname

lemma lexicallyNormal_root {root : Bytes} (hroot : root ≠ []) :
    (ofBytes root).lexicallyNormal =
      ⟨(ofBytes root).rooted, namesOf (ofBytes root).rooted (rootPlace root) ++
        trailOf (EndsOrdinary (ofBytes root).names) (rootPlace root)⟩ := by
  refine lexicallyNormal_eq _ (ofBytes_ne_nil hroot) ?_
  rw [walk_ofBytes, walk_start]
  rfl

/-- The names of a normalised path. -/
def requestNames (names : List Bytes) : List Bytes := if names = [] then [dot] else names

lemma ofBytes_joined {names : List Bytes} (hordinary : ∀ name ∈ names, IsOrdinary name)
    (hslash : ∀ name ∈ names, Bytes.slash ∉ name) :
    ofBytes (joined names) = ⟨false, requestNames names⟩ := by
  rw [joined, requestNames]
  split_ifs with hempty
  · decide
  · exact ofBytes_intercalate hempty fun name hname =>
      ⟨(hordinary name hname).1, hslash name hname⟩

lemma walk_requestNames {names : List Bytes} (hordinary : ∀ name ∈ names, IsOrdinary name)
    (p : Place Bytes) : p.walk ((requestNames names).map stepOf) = ⟨p.above, p.names ++ names⟩ := by
  rw [requestNames]
  split_ifs with hempty
  · rw [hempty, List.append_nil]
    rfl
  · rw [map_stepOf hordinary, Place.walk_downs]

lemma endsOrdinary_requestNames {names : List Bytes}
    (hordinary : ∀ name ∈ names, IsOrdinary name) (front : List Bytes) :
    EndsOrdinary (front ++ requestNames names) ↔ names ≠ [] := by
  rw [requestNames]
  split_ifs with hempty
  · refine iff_of_false ?_ (not_not.mpr hempty)
    rintro ⟨name, hname, hordinary'⟩
    rw [List.getLast?_concat] at hname
    exact hordinary'.2.1 (Option.some.inj hname).symm
  · refine iff_of_true ?_ hempty
    refine ⟨names.getLast hempty, ?_, hordinary _ (List.getLast_mem hempty)⟩
    rw [List.getLast?_append, List.getLast?_eq_some_getLast hempty]
    rfl

/-- The root with the request's names behind it, normalised again. -/
lemma lexicallyNormal_request {rooted : Bool} {w : Place Bytes} {ends : Prop} [Decidable ends]
    (hw : ∀ name ∈ w.names, IsOrdinary name) {names : List Bytes}
    (hordinary : ∀ name ∈ names, IsOrdinary name) :
    ((⟨rooted, namesOf rooted w ++ trailOf ends w⟩ : FsPath).append
        ⟨false, requestNames names⟩).lexicallyNormal =
      ⟨rooted, namesOf rooted ⟨w.above, w.names ++ names⟩ ++
        trailOf (names ≠ []) ⟨w.above, w.names ++ names⟩⟩ := by
  have hne : requestNames names ≠ [] := by
    rw [requestNames]
    split_ifs with hempty
    · simp
    · exact hempty
  have happend : (⟨rooted, namesOf rooted w ++ trailOf ends w⟩ : FsPath).append
      ⟨false, requestNames names⟩ = ⟨rooted, namesOf rooted w ++ requestNames names⟩ := by
    rw [FsPath.append, if_neg (by simp), if_neg hne, filenames_normal hw]
  have hwalk : Place.start.walk ((namesOf rooted w ++ requestNames names).map stepOf) =
      ⟨if rooted then 0 else w.above, w.names ++ names⟩ := by
    rw [List.map_append, Place.walk_append, walk_namesOf hw, walk_requestNames hordinary]
  rw [happend, lexicallyNormal_eq _ (Or.inl (by simp [hne])) hwalk]
  dsimp only
  congr 2
  · cases rooted <;> rfl
  · simp only [trailOf, endsOrdinary_requestNames hordinary]

/-! ### The comparison -/

/-- The request goes on where the root ends, unless something stands there. -/
lemma isPrefix_request_iff {rooted : Bool} {w : Place Bytes} {ends : Prop} [Decidable ends]
    {names : List Bytes} (hordinary : ∀ name ∈ names, IsOrdinary name) :
    namesOf rooted w ++ trailOf ends w <+:
        namesOf rooted ⟨w.above, w.names ++ names⟩ ++
          trailOf (names ≠ []) ⟨w.above, w.names ++ names⟩ ↔
      names = [] ∨
        if upsOf rooted w ++ w.names = [] then rooted = true else ends ∨ w.names = [] := by
  by_cases hnames : names = []
  · refine iff_of_true ?_ (Or.inl hnames)
    subst hnames
    rw [List.append_nil, List.prefix_append_right_inj, trailOf, trailOf]
    by_cases hnone : w.names = []
    · rw [if_pos (Or.inr hnone)]
      exact List.nil_prefix
    · rw [if_neg (show ¬ (([] : List Bytes) ≠ [] ∨ w.names = []) by simp [hnone])]
      split_ifs
      · exact List.nil_prefix
      · exact List.prefix_refl _
  · obtain ⟨name, rest, rfl⟩ := List.exists_cons_of_ne_nil hnames
    have hname := hordinary name List.mem_cons_self
    have hups : upsOf rooted ⟨w.above, w.names ++ name :: rest⟩ = upsOf rooted w := rfl
    have htrail : trailOf (name :: rest ≠ []) ⟨w.above, w.names ++ name :: rest⟩ = [] :=
      if_pos (Or.inl hnames)
    have hnext : namesOf rooted ⟨w.above, w.names ++ name :: rest⟩ =
        upsOf rooted w ++ w.names ++ name :: rest := by
      rw [namesOf, hups, if_neg (by simp), List.append_assoc]
    rw [or_iff_right hnames, htrail, List.append_nil, hnext, namesOf, trailOf]
    by_cases hempty : upsOf rooted w ++ w.names = []
    · have hnone : w.names = [] := (List.append_eq_nil_iff.mp hempty).2
      rw [if_pos hempty, if_pos hempty, if_pos (Or.inr hnone), hempty, List.append_nil]
      cases rooted with
      | true => simp
      | false =>
        refine iff_of_false ?_ Bool.false_ne_true
        intro hprefix
        exact hname.2.1 (List.cons_prefix_cons.mp hprefix).1.symm
    · rw [if_neg hempty, if_neg hempty, List.prefix_append_right_inj]
      split_ifs with hkeeps
      · exact iff_of_true List.nil_prefix hkeeps
      · refine iff_of_false ?_ hkeeps
        intro hprefix
        exact hname.1 (List.cons_prefix_cons.mp hprefix).1.symm

lemma upsOf_eq_nil_iff (rooted : Bool) (w : Place Bytes) :
    upsOf rooted w = [] ↔ rooted = true ∨ w.above = 0 := by
  cases rooted <;> simp [upsOf]

/-- What stands where the root ends, by the spelling of the root. -/
lemma rootFits_iff {root : Bytes} (hroot : root ≠ []) :
    RootFits root ↔
      if upsOf (ofBytes root).rooted (rootPlace root) ++ (rootPlace root).names = [] then
        (ofBytes root).rooted = true
      else EndsOrdinary (ofBytes root).names ∨ (rootPlace root).names = [] := by
  have hrooted : (ofBytes root).rooted = true ↔ root.head? = some Bytes.slash := by
    simp [ofBytes]
  have hclimbs : Climbs (root.splitOn Bytes.slash) ↔ 0 < (rootPlace root).above :=
    (climbs_iff _).trans (escapes_iff _)
  have hends : EndsOrdinary (root.splitOn Bytes.slash) → (rootPlace root).names ≠ [] :=
    EndsOrdinary.survivors_ne_nil
  rw [RootFits, endsOrdinary_ofBytes hroot, ← hrooted, hclimbs]
  change EndsOrdinary (root.splitOn Bytes.slash) ∨ (rootPlace root).names = [] ∧ _ ↔ _
  have hstart : upsOf (ofBytes root).rooted (rootPlace root) ++ (rootPlace root).names = [] ↔
      ((ofBytes root).rooted = true ∨ (rootPlace root).above = 0) ∧
        (rootPlace root).names = [] := by
    rw [List.append_eq_nil_iff, upsOf_eq_nil_iff]
  by_cases hnone : (rootPlace root).names = []
  · rw [or_iff_right fun h => hends h hnone, and_iff_right hnone]
    by_cases hup : (ofBytes root).rooted = true ∨ (rootPlace root).above = 0
    · rw [if_pos (hstart.mpr ⟨hup, hnone⟩)]
      exact or_iff_left_of_imp fun h => hup.resolve_right h.ne'
    · rw [if_neg fun h => hup (hstart.mp h).1]
      have habove := Nat.pos_of_ne_zero fun h => hup (Or.inr h)
      exact iff_of_true (Or.inr habove) (Or.inr hnone)
  · rw [if_neg fun h => hnone (hstart.mp h).2]
    simp [hnone]

/-- For a root and a path with a normal form, the path is accepted if and only if it leads to the
root itself or the root ends with a name, is the root directory or lies above the current one. -/
theorem validatePath_iff_rootFits (v : RequestValidator) {path : Bytes} (hroot : v.rootDir ≠ [])
    (hpath : normalizePath path ≠ []) :
    (v.validatePath path).valid = true ↔
      resolved (components path) = [] ∨ RootFits v.rootDir := by
  have heq : normalizePath path = joined (resolved (components path)) := by
    rw [normalizePath_eq, if_neg ((normalizePath_eq_nil_iff path).not.mp hpath)]
  have hordinary : ∀ name ∈ resolved (components path), IsOrdinary name :=
    fun name hname => isOrdinary_of_mem_resolved hname
  rw [validatePath_valid_iff, and_iff_right hpath, isPathWithinRoot, List.isPrefixOf_iff_prefix,
    heq, lexicallyNormal_root hroot,
    ofBytes_joined hordinary fun name hname => (notMem_of_mem_resolved hname).2.2,
    lexicallyNormal_request (isOrdinary_rootPlace _) hordinary, elements, elements,
    List.prefix_append_right_inj, isPrefix_request_iff hordinary, rootFits_iff hroot]

/-- A root with a trailing slash. -/
def slashed : RequestValidator := new (bytes "./public/")

/-- Every request for a page under it is refused. -/
theorem slashed_refuses :
    normalizePath (bytes "/index.html") = bytes "index.html" ∧
      (slashed.validatePath (bytes "/index.html")).valid = false := by
  have hnormal : normalizePath (bytes "/index.html") = bytes "index.html" := by decide
  refine ⟨hnormal, ?_⟩
  rw [← Bool.not_eq_true, validatePath_valid_iff, not_and]
  intro _
  rw [hnormal]
  decide

theorem slashed_iff :
    (slashed.validatePath (bytes "/index.html")).valid = true ↔
      resolved (components (bytes "/index.html")) = [] ∨ RootFits (bytes "./public/") :=
  validatePath_iff_rootFits slashed (by decide) (by decide)

example : RootFits (bytes "./public") ∧ RootFits (bytes "/") ∧ RootFits (bytes "..") := by decide

end RequestValidator

end TinyWebServer
