import TinyWebServer.Http.Validator
import TinyWebServer.Library.FsNormal

/-!
# Normalised paths as resolved walks

`NormalizePath` is a stack machine over the components of a path. It stops where the components
lead above the root, and otherwise comes to the names that no later `..` takes back.
-/

namespace TinyWebServer

namespace RequestValidator

open Resolution FsPath

/-- The components of a path, in front of its query string and its fragment. -/
def components (path : Bytes) : List Bytes :=
  ((path.takeWhile fun b => b ≠ 63).takeWhile fun b => b ≠ 35).splitOn Bytes.slash

/-- Some beginning of the components has more `..` than ordinary components. -/
def Climbs (parts : List Bytes) : Prop :=
  ∃ front ∈ parts.inits, front.countP (fun part => IsOrdinary part) < front.count dotdot

instance (parts : List Bytes) : Decidable (Climbs parts) :=
  inferInstanceAs (Decidable (∃ front ∈ parts.inits,
    front.countP (fun part => IsOrdinary part) < front.count dotdot))

/-- The components that no later part takes back. -/
def resolved (parts : List Bytes) : List Bytes := survivors (parts.map stepOf)

lemma isOrdinary_of_mem_resolved {parts : List Bytes} {name : Bytes} (h : name ∈ resolved parts) :
    IsOrdinary name :=
  isOrdinary_of_mem_survivors h

lemma mem_of_mem_resolved {parts : List Bytes} {name : Bytes} (h : name ∈ resolved parts) :
    name ∈ parts := by
  obtain ⟨part, hpart, hstep⟩ := List.mem_map.mp (down_mem_of_mem_survivors h)
  obtain ⟨-, rfl⟩ := isOrdinary_of_stepOf hstep
  exact hpart

/-! ### Counting -/

lemma ups_map_stepOf (parts : List Bytes) : ups (parts.map stepOf) = parts.count dotdot := by
  induction parts with
  | nil => rfl
  | cons part parts ih =>
    rw [ups] at ih ⊢
    rw [List.map_cons, List.map_cons, List.sum_cons, ih, List.count_cons, Nat.add_comm]
    congr 1
    by_cases hup : part = dotdot
    · simp [hup, Step.ups]
    · by_cases hstay : part = dot ∨ part = []
      · simp [stepOf, hup, hstay, Step.ups]
      · simp [stepOf, hup, hstay, Step.ups]

lemma downs_map_stepOf (parts : List Bytes) :
    downs (parts.map stepOf) = parts.countP fun part => IsOrdinary part := by
  induction parts with
  | nil => rfl
  | cons part parts ih =>
    rw [downs] at ih ⊢
    rw [List.map_cons, List.map_cons, List.sum_cons, ih, List.countP_cons, Nat.add_comm]
    congr 1
    by_cases hpart : IsOrdinary part
    · simp [hpart, stepOf_of_isOrdinary hpart, Step.downs]
    · cases hstep : stepOf part with
      | down a => exact absurd (isOrdinary_of_stepOf hstep).1 hpart
      | stay => simp [hpart, Step.downs]
      | up => simp [hpart, Step.downs]

lemma climbs_iff (parts : List Bytes) : Climbs parts ↔ Escapes (parts.map stepOf) := by
  rw [Escapes, List.map_inits]
  simp only [List.mem_map, exists_exists_and_eq_and, ups_map_stepOf, downs_map_stepOf]
  rfl

/-! ### The stack machine -/

lemma cutAt_eq (c : UInt8) (s : Bytes) : cutAt c s = s.takeWhile fun b => b ≠ c := by
  induction s with
  | nil => rfl
  | cons b s ih =>
    rw [cutAt] at ih
    rw [cutAt, Bytes.findByte]
    by_cases hb : b = c
    · simp [hb]
    · rw [if_neg hb, List.takeWhile_cons_of_pos (by simpa using hb), ← ih]
      cases Bytes.findByte c s with
      | none => rfl
      | some pos => rfl

/-- `resolve` walks, and refuses a place above the root. -/
lemma resolve_eq (parts rest : List Bytes) :
    resolve parts rest =
      if ((⟨0, parts⟩ : Place Bytes).walk (rest.map stepOf)).above = 0 then
        some ((⟨0, parts⟩ : Place Bytes).walk (rest.map stepOf)).names
      else none := by
  induction rest generalizing parts with
  | nil => simp [resolve]
  | cons part rest ih =>
    rw [resolve, List.map_cons, Place.walk_cons]
    by_cases hstay : part = [] ∨ part = bytes "."
    · have hstep : stepOf part = .stay := by
        rcases hstay with rfl | rfl <;> rfl
      rw [if_pos hstay, hstep, Place.next, ih]
    · rw [if_neg hstay]
      by_cases hup : part = bytes ".."
      · have hstep : stepOf part = .up := by rw [hup]; rfl
        rw [if_pos hup, hstep, Place.next]
        dsimp only
        by_cases hempty : parts = []
        · rw [if_pos hempty, if_pos hempty]
          have habove := congrArg Place.above
            (Place.walk_eq (⟨0 + 1, []⟩ : Place Bytes) (rest.map stepOf))
          dsimp only at habove
          rw [if_neg (by omega)]
        · rw [if_neg hempty, if_neg hempty]
          exact ih _
      · rw [not_or] at hstay
        rw [if_neg hup, stepOf_of_isOrdinary ⟨hstay.1, hstay.2, hup⟩, Place.next, ih]

/-- The pieces that `getline` extracts are the components, without an empty last one. -/
lemma splitOn_eq_getlines (c : UInt8) (s : Bytes) :
    s.splitOn c = Bytes.getlines c s ∨ s.splitOn c = Bytes.getlines c s ++ [[]] := by
  induction s with
  | nil => exact Or.inr rfl
  | cons b s ih =>
    rw [List.splitOn_cons_eq_if_modifyHead, Bytes.getlines]
    by_cases hb : b = c
    · rw [if_pos hb, if_pos (by simpa using hb)]
      exact ih.imp (congrArg (List.cons [])) (congrArg (List.cons []))
    · rw [if_neg hb, if_neg (by simpa using hb)]
      have hne := List.splitOn_ne_nil c s
      cases hlines : Bytes.getlines c s with
      | nil =>
        rw [hlines] at ih
        rw [ih.resolve_left hne]
        exact Or.inl rfl
      | cons line lines =>
        rw [hlines] at ih
        rcases ih with ih | ih
        · exact Or.inl (by rw [ih]; rfl)
        · exact Or.inr (by rw [ih]; rfl)

lemma resolve_getlines (s : Bytes) :
    resolve [] (Bytes.getlines Bytes.slash s) =
      if Climbs (s.splitOn Bytes.slash) then none else some (resolved (s.splitOn Bytes.slash)) := by
  have hwalk : Place.start.walk ((Bytes.getlines Bytes.slash s).map stepOf) =
      Place.start.walk ((s.splitOn Bytes.slash).map stepOf) := by
    rcases splitOn_eq_getlines Bytes.slash s with h | h
    · rw [h]
    · rw [h, List.map_append, Place.walk_append]
      rfl
  have hclimbs := (climbs_iff (s.splitOn Bytes.slash)).trans (escapes_iff _)
  rw [resolve_eq]
  change (if (Place.start.walk _).above = 0 then some (Place.start.walk _).names else none) = _
  rw [hwalk, walk_start]
  dsimp only
  by_cases hexcess : excess ((s.splitOn Bytes.slash).map stepOf) = 0
  · rw [if_pos hexcess, if_neg (fun h => (hclimbs.mp h).ne' hexcess)]
    rfl
  · rw [if_neg hexcess, if_pos (hclimbs.mpr (Nat.pos_of_ne_zero hexcess))]

/-! ### The normalised path -/

/-- The resolved components with single slashes between them; a dot stands for none. -/
def joined (names : List Bytes) : Bytes :=
  if names = [] then bytes "." else List.intercalate [Bytes.slash] names

lemma joined_ne_nil {names : List Bytes} (h : ∀ name ∈ names, IsOrdinary name) :
    joined names ≠ [] := by
  rw [joined]
  split_ifs with hempty
  · decide
  · obtain ⟨name, rest, rfl⟩ := List.exists_cons_of_ne_nil hempty
    have hname := (h name List.mem_cons_self).1
    by_cases hrest : rest = []
    · rw [hrest, List.intercalate_singleton]
      exact hname
    · rw [List.intercalate_cons_of_ne_nil hrest]
      simp [hname]

lemma normalizePath_eq (path : Bytes) :
    normalizePath path =
      if path = [] ∨ Climbs (components path) then [] else joined (resolved (components path)) := by
  have hclean : cutAt 35 (cutAt 63 path) =
      (path.takeWhile fun b => b ≠ 63).takeWhile fun b => b ≠ 35 := by
    rw [cutAt_eq, cutAt_eq]
  simp only [normalizePath]
  by_cases hempty : path = []
  · rw [if_pos hempty, if_pos (Or.inl hempty)]
  · rw [if_neg hempty]
    by_cases hroot : cutAt 35 (cutAt 63 path) = [] ∨ cutAt 35 (cutAt 63 path) = [Bytes.slash]
    · have hparts : components path = [[]] ∨ components path = [[], []] := by
        rw [components, ← hclean]
        rcases hroot with h | h
        · rw [h]
          exact Or.inl (by decide)
        · rw [h]
          exact Or.inr (by decide)
      have hstays : ¬ Climbs (components path) ∧ resolved (components path) = [] := by
        rcases hparts with h | h <;> rw [h] <;> decide
      rw [if_pos hroot, if_neg (not_or.mpr ⟨hempty, hstays.1⟩), hstays.2]
      rfl
    · rw [if_neg hroot, resolve_getlines, hclean, ← components]
      by_cases hclimbs : Climbs (components path)
      · rw [if_pos hclimbs, if_pos (Or.inr hclimbs)]
      · rw [if_neg hclimbs, if_neg (not_or.mpr ⟨hempty, hclimbs⟩)]
        cases resolved (components path) with
        | nil => rfl
        | cons name names => rfl

/-- The empty string stands for exactly the paths that lead above the root. -/
lemma normalizePath_eq_nil_iff (path : Bytes) :
    normalizePath path = [] ↔ path = [] ∨ Climbs (components path) := by
  rw [normalizePath_eq]
  split_ifs with h
  · exact iff_of_true rfl h
  · exact iff_of_false (joined_ne_nil fun name hname => isOrdinary_of_mem_resolved hname) h

/-! ### Normalising again -/

lemma subset_intercalate (sep : Bytes) {names : List Bytes} {name : Bytes} (h : name ∈ names) :
    name ⊆ List.intercalate sep names := by
  induction names with
  | nil => cases h
  | cons first rest ih =>
    by_cases hrest : rest = []
    · subst hrest
      rw [List.mem_singleton.mp h, List.intercalate_singleton]
      exact List.Subset.refl _
    · rw [List.intercalate_cons_of_ne_nil hrest]
      rcases List.mem_cons.mp h with rfl | h
      · rw [List.append_assoc]
        exact List.subset_append_left _ _
      · exact List.Subset.trans (ih h) (List.subset_append_right _ _)

lemma notMem_of_mem_resolved {path name : Bytes} (h : name ∈ resolved (components path)) :
    (63 : UInt8) ∉ name ∧ (35 : UInt8) ∉ name ∧ Bytes.slash ∉ name := by
  have hname := mem_of_mem_resolved h
  have hsubset := subset_intercalate [Bytes.slash] hname
  rw [components, List.intercalate_splitOn] at hsubset
  refine ⟨fun hmem => ?_, fun hmem => ?_, ?_⟩
  · have hquery := List.mem_takeWhile_imp ((List.takeWhile_prefix _).subset (hsubset hmem))
    simp at hquery
  · have hfragment := List.mem_takeWhile_imp (hsubset hmem)
    simp at hfragment
  · have hline : name ∈ Bytes.getlines Bytes.slash
        ((path.takeWhile fun b => b ≠ 63).takeWhile fun b => b ≠ 35) := by
      rw [components] at hname
      rcases splitOn_eq_getlines Bytes.slash
        ((path.takeWhile fun b => b ≠ 63).takeWhile fun b => b ≠ 35) with heq | heq
      · rwa [heq] at hname
      · rw [heq, List.mem_append, List.mem_singleton] at hname
        exact hname.resolve_right (isOrdinary_of_mem_resolved h).1
    exact Bytes.notMem_of_mem_getlines hline

lemma mem_intercalate {sep : Bytes} {names : List Bytes} {b : UInt8}
    (h : b ∈ List.intercalate sep names) : b ∈ sep ∨ ∃ name ∈ names, b ∈ name := by
  induction names with
  | nil => cases h
  | cons first rest ih =>
    by_cases hrest : rest = []
    · subst hrest
      rw [List.intercalate_singleton] at h
      exact Or.inr ⟨first, List.mem_singleton_self _, h⟩
    · rw [List.intercalate_cons_of_ne_nil hrest, List.mem_append, List.mem_append] at h
      rcases h with (h | h) | h
      · exact Or.inr ⟨first, List.mem_cons_self, h⟩
      · exact Or.inl h
      · refine (ih h).imp_right ?_
        rintro ⟨name, hname, hb⟩
        exact ⟨name, List.mem_cons_of_mem _ hname, hb⟩

/-- The components of joined names are these names. -/
lemma components_slash_intercalate {names : List Bytes} (hne : names ≠ [])
    (hplain : ∀ name ∈ names, (63 : UInt8) ∉ name ∧ (35 : UInt8) ∉ name ∧ Bytes.slash ∉ name) :
    components (Bytes.slash :: List.intercalate [Bytes.slash] names) = [] :: names := by
  have hbytes : ∀ b ∈ Bytes.slash :: List.intercalate [Bytes.slash] names, b ≠ 63 ∧ b ≠ 35 := by
    intro b hb
    rcases List.mem_cons.mp hb with rfl | hb
    · decide
    · rcases mem_intercalate hb with hb | ⟨name, hname, hb⟩
      · rw [List.mem_singleton.mp hb]
        decide
      · obtain ⟨hquery, hfragment, -⟩ := hplain name hname
        exact ⟨fun h => hquery (h ▸ hb), fun h => hfragment (h ▸ hb)⟩
  have hquery := List.takeWhile_eq_self_iff.mpr fun b hb => decide_eq_true (hbytes b hb).1
  have hfragment := List.takeWhile_eq_self_iff.mpr fun b hb => decide_eq_true (hbytes b hb).2
  rw [components, hquery, hfragment, List.splitOn_cons_eq_if_modifyHead, if_pos (by simp),
    List.splitOn_intercalate _ (fun name hname => (hplain name hname).2.2) hne]

lemma normalizePath_slash_joined {names : List Bytes} (hordinary : ∀ name ∈ names, IsOrdinary name)
    (hplain : ∀ name ∈ names, (63 : UInt8) ∉ name ∧ (35 : UInt8) ∉ name ∧ Bytes.slash ∉ name) :
    normalizePath (Bytes.slash :: joined names) = joined names := by
  by_cases hne : names = []
  · rw [hne]
    decide
  · have hsteps : ([] :: names).map stepOf = .stay :: names.map Step.down := by
      rw [List.map_cons, stepOf_nil, map_stepOf hordinary]
    have hclimbs : ¬ Climbs ([] :: names) := by
      rw [climbs_iff, escapes_iff, hsteps, excess, excess_downs]
      exact Nat.lt_irrefl 0
    have hresolved : resolved ([] :: names) = names := by
      rw [resolved, hsteps, survivors, survivors_downs]
    have hparts : components (Bytes.slash :: joined names) = [] :: names := by
      rw [joined, if_neg hne, components_slash_intercalate hne hplain]
    rw [normalizePath_eq, hparts, hresolved, if_neg]
    exact not_or.mpr ⟨List.cons_ne_nil _ _, hclimbs⟩

/-- `NormalizePath` refuses exactly the paths that lead above the root somewhere, and gives the
resolved names for the others. What it gives is its own normal form. -/
theorem normalizePath_spec (path : Bytes) :
    (normalizePath path = [] ↔ path = [] ∨ Climbs (components path)) ∧
      (normalizePath path ≠ [] →
        normalizePath path =
            (if resolved (components path) = [] then bytes "."
            else List.intercalate [Bytes.slash] (resolved (components path))) ∧
          (∀ name ∈ resolved (components path),
            name ≠ [] ∧ name ≠ bytes "." ∧ name ≠ bytes "..") ∧
          normalizePath (Bytes.slash :: normalizePath path) = normalizePath path) := by
  refine ⟨normalizePath_eq_nil_iff path, fun hne => ?_⟩
  have heq : normalizePath path = joined (resolved (components path)) := by
    rw [normalizePath_eq, if_neg ((normalizePath_eq_nil_iff path).not.mp hne)]
  have hordinary : ∀ name ∈ resolved (components path), IsOrdinary name :=
    fun name hname => isOrdinary_of_mem_resolved hname
  refine ⟨heq, hordinary, ?_⟩
  rw [heq]
  exact normalizePath_slash_joined hordinary fun name hname => notMem_of_mem_resolved hname

example : normalizePath (bytes "//a/./b/../c?x=/..") = bytes "a/c" := by decide

end RequestValidator

end TinyWebServer
