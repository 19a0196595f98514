import TinyWebServer.Library.Fitting

/-!
# Least recently used caches

A cache that holds values up to a limit on the sum of their sizes. What has not been used for the
longest time goes first, and no more goes than has to.
-/

/-- A cache with its counters; the entry used last comes first. -/
structure Lru (κ ν : Type*) where
  entries : List (κ × ν)
  requests : ℕ
  hits : ℕ

namespace Lru

open Fitting

variable {κ ν : Type*} [DecidableEq κ] (size : ν → ℕ) (limit : ℕ)

def new : Lru κ ν := ⟨[], 0, 0⟩

abbrev entrySize (entry : κ × ν) : ℕ := size entry.2

/-- The entries that stay to make room: the longest run of recent ones that fits together with
`need` more, and none if that alone is too much. -/
def keep (need : ℕ) (entries : List (κ × ν)) : List (κ × ν) :=
  if limit < need then [] else fitting (entrySize size) (limit - need) entries

/-- A hit moves the entry to the front. A miss inserts what was loaded, if anything was. -/
def access (s : Lru κ ν) (key : κ) (loaded : Option ν) : Option ν × Lru κ ν :=
  match s.entries.find? (·.1 = key) with
  | some entry =>
    (some entry.2,
      { entries := entry :: s.entries.filter (·.1 ≠ key)
        requests := s.requests + 1, hits := s.hits + 1 })
  | none =>
    match loaded with
    | none => (none, { s with requests := s.requests + 1 })
    | some value =>
      (some value,
        { s with
          entries := (key, value) :: keep size limit (size value) s.entries
          requests := s.requests + 1 })

variable {size limit}

omit [DecidableEq κ] in
lemma keep_nil (need : ℕ) : keep size limit need ([] : List (κ × ν)) = [] := by
  rw [keep]
  split_ifs <;> rfl

omit [DecidableEq κ] in
lemma keep_of_le {need : ℕ} {entries : List (κ × ν)}
    (h : total (entrySize size) entries + need ≤ limit) :
    keep size limit need entries = entries := by
  rw [keep, if_neg (by omega), fitting_of_total_le]
  omega

omit [DecidableEq κ] in
/-- What is too large may as well lose its last entry. -/
lemma keep_dropLast {need : ℕ} {entries : List (κ × ν)}
    (h : limit < total (entrySize size) entries + need) :
    keep size limit need entries.dropLast = keep size limit need entries := by
  rw [keep, keep]
  split_ifs with hlarge
  · rfl
  · exact fitting_dropLast _ (by omega)

variable {s : Lru κ ν} {key : κ}

lemma access_hit {value : ν} {before behind : List (κ × ν)}
    (hentries : s.entries = before ++ (key, value) :: behind)
    (hne : ∀ entry ∈ before ++ behind, entry.1 ≠ key) (loaded : Option ν) :
    s.access size limit key loaded =
      (some value,
        { entries := (key, value) :: (before ++ behind)
          requests := s.requests + 1, hits := s.hits + 1 }) := by
  rw [List.forall_mem_append] at hne
  have hfind : s.entries.find? (·.1 = key) = some (key, value) := by
    rw [hentries, List.find?_append,
      List.find?_eq_none.mpr fun entry h => by simpa using hne.1 entry h, Option.none_or]
    exact List.find?_cons_of_pos (decide_eq_true rfl)
  have hkeep : ∀ l : List (κ × ν), (∀ entry ∈ l, entry.1 ≠ key) →
      l.filter (·.1 ≠ key) = l := fun l h =>
    List.filter_eq_self.mpr fun entry hentry => decide_eq_true (h entry hentry)
  simp only [access, hfind]
  rw [hentries, List.filter_append, List.filter_cons_of_neg (by simp), hkeep _ hne.1,
    hkeep _ hne.2]

lemma access_miss (hne : ∀ entry ∈ s.entries, entry.1 ≠ key) (loaded : Option ν) :
    s.access size limit key loaded =
      (loaded,
        { s with
          entries := loaded.elim s.entries fun value =>
            (key, value) :: keep size limit (size value) s.entries
          requests := s.requests + 1 }) := by
  have hfind : s.entries.find? (·.1 = key) = none :=
    List.find?_eq_none.mpr fun entry h => by simpa using hne entry h
  simp only [access, hfind]
  cases loaded <;> rfl

omit [DecidableEq κ] in
lemma keep_subset (need : ℕ) (entries : List (κ × ν)) :
    keep size limit need entries ⊆ entries := by
  rw [keep]
  split_ifs
  · exact List.nil_subset _
  · exact (fitting_isPrefix _ _ _).subset

variable (size limit) in
/-- A cache that holds for every key what is loaded for it returns what is loaded. -/
lemma access_loaded {ω : Type*} (load : κ → Option ω) {f : ν → ω}
    (h : ∀ entry ∈ s.entries, load entry.1 = some (f entry.2)) {loaded : Option ν}
    (hloaded : loaded.map f = load key) :
    (s.access size limit key loaded).1.map f = load key ∧
      ∀ entry ∈ (s.access size limit key loaded).2.entries,
        load entry.1 = some (f entry.2) := by
  by_cases hne : ∀ entry ∈ s.entries, entry.1 ≠ key
  · rw [access_miss hne]
    refine ⟨hloaded, ?_⟩
    cases loaded with
    | none => exact h
    | some value =>
      rw [Option.elim_some, List.forall_mem_cons]
      exact ⟨hloaded.symm, fun entry hentry => h entry (keep_subset _ _ hentry)⟩
  · push Not at hne
    obtain ⟨hit, hfind⟩ : ∃ hit, s.entries.find? (·.1 = key) = some hit := by
      obtain ⟨entry, hentry, hkey⟩ := hne
      rw [← Option.isSome_iff_exists, List.find?_isSome]
      exact ⟨entry, hentry, decide_eq_true hkey⟩
    have hmem : hit ∈ s.entries := List.mem_of_find?_eq_some hfind
    have hkey : hit.1 = key := by simpa using List.find?_some hfind
    simp only [access, hfind, Option.map_some, List.forall_mem_cons]
    exact ⟨hkey ▸ (h hit hmem).symm, h hit hmem, fun entry hentry =>
      h entry (List.mem_of_mem_filter hentry)⟩

end Lru
