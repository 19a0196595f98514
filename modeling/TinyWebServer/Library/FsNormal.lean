import TinyWebServer.Library.FsPath
import TinyWebServer.Library.Resolution

/-!
# Normal paths as walks

The names of a path are the steps of a walk, and `lexically_normal` says where the walk ends.
-/

namespace FsPath

open Resolution

/-- What a component of a path does. -/
def stepOf (name : Bytes) : Step Bytes :=
  if name = dotdot then .up else if name = dot ∨ name = [] then .stay else .down name

/-- A component that stands for itself. -/
def IsOrdinary (name : Bytes) : Prop := name ≠ [] ∧ name ≠ dot ∧ name ≠ dotdot

instance (name : Bytes) : Decidable (IsOrdinary name) :=
  inferInstanceAs (Decidable (_ ∧ _ ∧ _))

/-- The last component stands for itself. -/
def EndsOrdinary (names : List Bytes) : Prop := ∃ name ∈ names.getLast?, IsOrdinary name

instance (names : List Bytes) : Decidable (EndsOrdinary names) :=
  inferInstanceAs (Decidable (∃ name ∈ names.getLast?, IsOrdinary name))

lemma stepOf_of_isOrdinary {name : Bytes} (h : IsOrdinary name) : stepOf name = .down name := by
  rw [stepOf, if_neg h.2.2, if_neg (by simp [h.1, h.2.1])]

lemma isOrdinary_of_stepOf {name a : Bytes} (h : stepOf name = .down a) :
    IsOrdinary name ∧ name = a := by
  rw [stepOf] at h
  split_ifs at h with hup hstay
  rw [not_or] at hstay
  exact ⟨⟨hstay.2, hstay.1, hup⟩, Step.down.inj h⟩

lemma map_stepOf {names : List Bytes} (h : ∀ name ∈ names, IsOrdinary name) :
    names.map stepOf = names.map Step.down :=
  List.map_congr_left fun name hname => stepOf_of_isOrdinary (h name hname)

@[simp] lemma stepOf_nil : stepOf [] = .stay := rfl

@[simp] lemma stepOf_dot : stepOf dot = .stay := rfl

@[simp] lemma stepOf_dotdot : stepOf dotdot = .up := rfl

/-- A walk ends at ordinary names. -/
lemma isOrdinary_of_mem_survivors {names : List Bytes} {name : Bytes}
    (h : name ∈ survivors (names.map stepOf)) : IsOrdinary name := by
  obtain ⟨part, -, hpart⟩ := List.mem_map.mp (down_mem_of_mem_survivors h)
  obtain ⟨hordinary, rfl⟩ := isOrdinary_of_stepOf hpart
  exact hordinary

/-- Behind an ordinary last component there is a name. -/
lemma EndsOrdinary.survivors_ne_nil {names : List Bytes} (h : EndsOrdinary names) :
    survivors (names.map stepOf) ≠ [] := by
  obtain ⟨name, hlast, hname⟩ := h
  obtain ⟨front, rfl⟩ := List.getLast?_eq_some_iff.mp hlast
  have hwalk := walk_start ((front ++ [name]).map stepOf)
  rw [List.map_append, Place.walk_append, List.map_singleton, stepOf_of_isOrdinary hname,
    Place.walk_cons, Place.walk_nil, Place.next] at hwalk
  have hnames := congrArg Place.names hwalk
  dsimp only at hnames
  rw [List.map_append, List.map_singleton, stepOf_of_isOrdinary hname, ← hnames]
  simp

/-- Empty components do not count. -/
lemma walk_filter (names : List Bytes) (p : Place Bytes) :
    p.walk ((names.filter (· ≠ [])).map stepOf) = p.walk (names.map stepOf) := by
  induction names generalizing p with
  | nil => rfl
  | cons name names ih =>
    by_cases hempty : name = []
    · rw [List.filter_cons_of_neg (by simp [hempty]), ih, hempty]
      rfl
    · rw [List.filter_cons_of_pos (by simp [hempty]), List.map_cons, List.map_cons,
        Place.walk_cons, Place.walk_cons, ih]

/-! ### The components of a string -/

lemma getLast?_splitOn_eq_nil_iff {s : Bytes} (hne : s ≠ []) :
    (s.splitOn Bytes.slash).getLast? = some [] ↔ s.getLast? = some Bytes.slash := by
  induction s with
  | nil => exact absurd rfl hne
  | cons b s ih =>
    rw [List.splitOn_cons_eq_if_modifyHead]
    have hsplit := List.splitOn_ne_nil Bytes.slash s
    cases s with
    | nil =>
      by_cases hb : b = Bytes.slash
      · simp [hb]
      · simp [hb]
    | cons c s =>
      rw [List.getLast?_cons_cons, ← ih (List.cons_ne_nil _ _)]
      obtain ⟨part, parts, hparts⟩ := List.exists_cons_of_ne_nil hsplit
      rw [hparts]
      split_ifs
      · rw [List.getLast?_cons_cons]
      · cases parts with
        | nil =>
          have hne' : part ≠ [] := by
            rintro rfl
            have hjoin : List.intercalate [Bytes.slash] ((c :: s).splitOn Bytes.slash) = c :: s :=
              List.intercalate_splitOn Bytes.slash
            rw [hparts] at hjoin
            simp at hjoin
          simp [hne']
        | cons part' parts => rw [List.modifyHead_cons, List.getLast?_cons_cons,
            List.getLast?_cons_cons]

lemma walk_ofBytes (s : Bytes) (p : Place Bytes) :
    p.walk ((ofBytes s).names.map stepOf) = p.walk ((s.splitOn Bytes.slash).map stepOf) := by
  simp only [ofBytes]
  split_ifs
  · rw [List.map_append, Place.walk_append, walk_filter]
    rfl
  · rw [walk_filter]

lemma endsOrdinary_ofBytes {s : Bytes} (hne : s ≠ []) :
    EndsOrdinary (ofBytes s).names ↔ EndsOrdinary (s.splitOn Bytes.slash) := by
  have hlast := getLast?_splitOn_eq_nil_iff hne
  obtain ⟨front, part, hparts⟩ :=
    (List.eq_nil_or_concat _).resolve_left (List.splitOn_ne_nil Bytes.slash s)
  rw [List.concat_eq_append] at hparts
  simp only [ofBytes, EndsOrdinary]
  rw [hparts, List.getLast?_concat] at hlast ⊢
  by_cases hpart : part = []
  · -- A trailing separator: neither list ends with a name.
    subst hpart
    have hslash := hlast.mp rfl
    refine iff_of_false ?_ ?_
    · rw [hslash]
      split_ifs with htrailing
      · simp [IsOrdinary]
      · have hnames : (front ++ [[]]).filter (fun name => decide (name ≠ [])) = [] := by
          simpa using htrailing
        rw [hnames]
        simp
    · simp [IsOrdinary]
  · have hslash : s.getLast? ≠ some Bytes.slash := by
      intro h
      exact hpart (Option.some.inj (hlast.mpr h))
    rw [if_neg (fun h => hslash h.1), List.filter_append, List.filter_singleton,
      decide_eq_true hpart]
    simp

/-! ### Normal paths -/

/-- The stack of `lexically_normal` where a walk is: below the root nothing is above. -/
def stackOf (rooted : Bool) (p : Place Bytes) : List Bytes :=
  p.names.reverse ++ if rooted then [] else List.replicate p.above dotdot

lemma normalStep_stackOf (rooted : Bool) {p : Place Bytes} (hp : dotdot ∉ p.names) (flag : Bool)
    (name : Bytes) :
    (normalStep rooted (stackOf rooted p, flag) name).1 = stackOf rooted (p.next (stepOf name)) := by
  obtain ⟨above, names⟩ := p
  simp only [normalStep, stepOf]
  by_cases hup : name = dotdot
  · rw [if_pos hup, if_pos hup]
    rcases List.eq_nil_or_concat names with rfl | ⟨front, top, rfl⟩
    · cases rooted with
      | true => simp [stackOf, Place.next]
      | false =>
        cases above with
        | zero => simp [stackOf, Place.next]
        | succ above => simp [stackOf, Place.next, List.replicate_succ]
    · have htop : top ≠ dotdot := by
        rintro rfl
        exact hp (by simp)
      simp [stackOf, Place.next, htop]
  · rw [if_neg hup, if_neg hup]
    by_cases hstay : name = dot ∨ name = []
    · rw [if_pos hstay, if_pos hstay]
      rfl
    · rw [if_neg hstay, if_neg hstay]
      simp [stackOf, Place.next]

lemma dotdot_notMem_walk (names : List Bytes) :
    dotdot ∉ (Place.start.walk (names.map stepOf)).names := by
  rw [walk_start]
  intro hmem
  exact (isOrdinary_of_mem_survivors hmem).2.2 rfl

lemma foldl_normalStep (rooted : Bool) (names : List Bytes) :
    (names.foldl (normalStep rooted) ([], false)).1 =
      stackOf rooted (Place.start.walk (names.map stepOf)) := by
  induction names using List.reverseRecOn with
  | nil =>
    cases rooted <;> rfl
  | append_singleton names name ih =>
    rw [List.foldl_append, List.map_append, Place.walk_append]
    have hstep := normalStep_stackOf rooted (dotdot_notMem_walk names)
      (names.foldl (normalStep rooted) ([], false)).2 name
    rw [← ih] at hstep
    exact hstep

/-- The flag is set behind a last component that is no name, unless only `..` is left. -/
lemma normalStep_flag (rooted : Bool) (acc : List Bytes × Bool) (name : Bytes) :
    ((normalStep rooted acc name).2 = true ∧
        (normalStep rooted acc name).1.head? ≠ some dotdot) ↔
      ¬ IsOrdinary name ∧ (normalStep rooted acc name).1 ≠ [] ∧
        (normalStep rooted acc name).1.head? ≠ some dotdot := by
  rw [← and_assoc]
  refine and_congr_left fun hhead => ?_
  by_cases hup : name = dotdot
  · have hname : ¬ IsOrdinary name := fun h => h.2.2 hup
    rw [and_iff_right hname]
    cases hacc : acc.1 with
    | nil =>
      simp only [normalStep, if_pos hup, hacc] at hhead ⊢
      cases rooted with
      | true => simp
      | false => exact absurd rfl hhead
    | cons top below =>
      simp only [normalStep, if_pos hup, hacc] at hhead ⊢
      by_cases htop : top = dotdot
      · simp [htop] at hhead
      · simp [htop]
  · by_cases hstay : name = dot ∨ name = []
    · have hname : ¬ IsOrdinary name := by
        rcases hstay with h | h
        · exact fun hordinary => hordinary.2.1 h
        · exact fun hordinary => hordinary.1 h
      simp [normalStep, hup, hstay, hname]
    · rw [not_or] at hstay
      have hname : IsOrdinary name := ⟨hstay.2, hstay.1, hup⟩
      simp [normalStep, hup, hstay, hname]

/-- The components `..` that lead to where a walk is, if there is a way above the start. -/
def upsOf (rooted : Bool) (p : Place Bytes) : List Bytes :=
  if rooted then [] else List.replicate p.above dotdot

lemma reverse_stackOf (rooted : Bool) (p : Place Bytes) :
    (stackOf rooted p).reverse = upsOf rooted p ++ p.names := by
  cases rooted <;> simp [stackOf, upsOf]

lemma head?_stackOf {rooted : Bool} {p : Place Bytes} (hp : dotdot ∉ p.names)
    (hne : stackOf rooted p ≠ []) : (stackOf rooted p).head? ≠ some dotdot ↔ p.names ≠ [] := by
  obtain ⟨above, names⟩ := p
  rcases List.eq_nil_or_concat names with rfl | ⟨front, top, rfl⟩
  · cases rooted with
    | true => exact absurd rfl hne
    | false =>
      cases above with
      | zero => exact absurd rfl hne
      | succ above => simp [stackOf, List.replicate_succ]
  · have htop : top ≠ dotdot := by
      rintro rfl
      exact hp (by simp)
    simp [stackOf, htop]

/-- The names that lead to where a walk is; a single dot where it has not moved. -/
def namesOf (rooted : Bool) (p : Place Bytes) : List Bytes :=
  if upsOf rooted p ++ p.names = [] then if rooted then [] else [dot]
  else upsOf rooted p ++ p.names

/-- A trailing separator follows a name that does not come last. -/
def trailOf (ends : Prop) [Decidable ends] (p : Place Bytes) : List Bytes :=
  if ends ∨ p.names = [] then [] else [[]]

/-- The normal form of a path names the place where its components lead. -/
theorem lexicallyNormal_eq (p : FsPath) (h : p.names ≠ [] ∨ p.rooted = true) {w : Place Bytes}
    (hw : Place.start.walk (p.names.map stepOf) = w) :
    p.lexicallyNormal = ⟨p.rooted, namesOf p.rooted w ++ trailOf (EndsOrdinary p.names) w⟩ := by
  rcases List.eq_nil_or_concat p.names with hnames | ⟨front, last, hnames⟩
  · have hrooted := h.resolve_left (not_not.mpr hnames)
    rw [hnames] at hw
    subst hw
    obtain ⟨rooted, names⟩ := p
    subst hnames hrooted
    rfl
  · rw [List.concat_eq_append] at hnames
    have hstack := foldl_normalStep p.rooted p.names
    rw [hw] at hstack
    have hdotdot : dotdot ∉ w.names := hw ▸ dotdot_notMem_walk p.names
    have hlast : p.names.foldl (normalStep p.rooted) ([], false) =
        normalStep p.rooted (front.foldl (normalStep p.rooted) ([], false)) last := by
      rw [hnames, List.foldl_append]
      rfl
    have hflag := normalStep_flag p.rooted (front.foldl (normalStep p.rooted) ([], false)) last
    rw [← hlast, hstack] at hflag
    have hends : EndsOrdinary p.names ↔ IsOrdinary last := by
      rw [EndsOrdinary, hnames, List.getLast?_concat]
      simp
    rw [namesOf, ← reverse_stackOf, trailOf, lexicallyNormal, if_neg (by simp [hnames])]
    dsimp only
    rw [hstack]
    by_cases hempty : stackOf p.rooted w = []
    · have hnone : w.names = [] := by
        have happend := reverse_stackOf p.rooted w
        rw [hempty, List.reverse_nil] at happend
        exact (List.append_eq_nil_iff.mp happend.symm).2
      rw [if_pos hempty, if_pos (List.reverse_eq_nil_iff.mpr hempty), if_pos (Or.inr hnone),
        List.append_nil]
      cases p.rooted <;> rfl
    · rw [if_neg hempty, if_neg (mt List.reverse_eq_nil_iff.mp hempty)]
      have hhead := head?_stackOf hdotdot hempty
      by_cases hkeeps : EndsOrdinary p.names ∨ w.names = []
      · rw [if_pos hkeeps, List.append_nil, if_neg]
        rw [hflag, ← hends, hhead]
        rintro ⟨hnot, -, hne⟩
        exact hkeeps.elim hnot hne
      · rw [not_or] at hkeeps
        rw [if_neg (not_or.mpr hkeeps), if_pos]
        rw [hflag, ← hends, hhead]
        exact ⟨hkeeps.1, hempty, hkeeps.2⟩

/-! ### Paths put behind each other -/

section Append

variable {rooted : Bool} {w : Place Bytes} {ends : Prop} [Decidable ends]

lemma nil_notMem_namesOf (hw : ∀ name ∈ w.names, IsOrdinary name) : [] ∉ namesOf rooted w := by
  have hups : [] ∉ upsOf rooted w ++ w.names := by
    rw [List.mem_append, not_or]
    refine ⟨fun hmem => ?_, fun hmem => (hw [] hmem).1 rfl⟩
    cases rooted with
    | true => simp [upsOf] at hmem
    | false => exact absurd (List.eq_of_mem_replicate hmem) (by decide)
  rw [namesOf]
  split_ifs
  · simp
  · decide
  · exact hups

lemma filenames_normal (hw : ∀ name ∈ w.names, IsOrdinary name) :
    filenames ⟨rooted, namesOf rooted w ++ trailOf ends w⟩ = namesOf rooted w := by
  have hlast : (namesOf rooted w).getLast? ≠ some [] := fun h =>
    nil_notMem_namesOf hw (List.mem_of_getLast? h)
  rw [filenames, trailOf]
  by_cases hkeeps : ends ∨ w.names = []
  · rw [if_pos hkeeps, List.append_nil, if_neg hlast]
  · rw [if_neg hkeeps, List.getLast?_concat, if_pos rfl, List.dropLast_concat]

/-- The names lead back to the place. -/
lemma walk_namesOf (hw : ∀ name ∈ w.names, IsOrdinary name) :
    Place.start.walk ((namesOf rooted w).map stepOf) =
      ⟨if rooted then 0 else w.above, w.names⟩ := by
  have hups : Place.start.walk ((upsOf rooted w ++ w.names).map stepOf) =
      ⟨if rooted then 0 else w.above, w.names⟩ := by
    rw [List.map_append, map_stepOf hw, Place.walk_append, Place.start]
    cases rooted with
    | true => simp [upsOf]
    | false => simp [upsOf, List.map_replicate, Place.walk_ups]
  rw [namesOf]
  split_ifs at hups ⊢ with hempty
  · rw [hempty] at hups
    exact hups
  · rw [hempty] at hups
    exact hups
  · exact hups
  · exact hups

end Append

lemma ofBytes_ne_nil {s : Bytes} (hne : s ≠ []) :
    (ofBytes s).names ≠ [] ∨ (ofBytes s).rooted = true := by
  obtain ⟨b, t, rfl⟩ := List.exists_cons_of_ne_nil hne
  by_cases hb : b = Bytes.slash
  · exact Or.inr (by simp [ofBytes, hb])
  · left
    obtain ⟨part, parts, hparts⟩ := List.exists_cons_of_ne_nil (List.splitOn_ne_nil Bytes.slash t)
    have hfilter : ((b :: t).splitOn Bytes.slash).filter (fun name => decide (name ≠ [])) ≠ [] := by
      rw [List.splitOn_cons_eq_if_modifyHead, if_neg (by simpa using hb), hparts,
        List.modifyHead_cons, List.filter_cons_of_pos (by simp)]
      exact List.cons_ne_nil _ _
    simp only [ofBytes]
    split_ifs
    · simp
    · exact hfilter

/-- Names joined by separators make a relative path of these names. -/
lemma ofBytes_intercalate {names : List Bytes} (hne : names ≠ [])
    (hnames : ∀ name ∈ names, name ≠ [] ∧ Bytes.slash ∉ name) :
    ofBytes (List.intercalate [Bytes.slash] names) = ⟨false, names⟩ := by
  have hsplit := List.splitOn_intercalate Bytes.slash (fun name h => (hnames name h).2) hne
  have hfilter : names.filter (fun name => decide (name ≠ [])) = names :=
    List.filter_eq_self.mpr fun name h => decide_eq_true (hnames name h).1
  have hempty : List.intercalate [Bytes.slash] names ≠ [] := by
    intro h
    rw [h, List.splitOn_nil] at hsplit
    exact (hnames [] (hsplit ▸ List.mem_singleton_self _)).1 rfl
  have hlast : (List.intercalate [Bytes.slash] names).getLast? ≠ some Bytes.slash := by
    intro h
    rw [← getLast?_splitOn_eq_nil_iff hempty, hsplit] at h
    exact (hnames [] (List.mem_of_getLast? h)).1 rfl
  have hhead : (List.intercalate [Bytes.slash] names).head? ≠ some Bytes.slash := by
    intro h
    obtain ⟨t, ht⟩ := List.head?_eq_some_iff.mp h
    rw [ht, List.splitOn_cons_eq_if_modifyHead, if_pos (by simp)] at hsplit
    exact (hnames [] (hsplit ▸ List.mem_cons_self)).1 rfl
  simp only [ofBytes, hsplit, hfilter]
  rw [if_neg (fun h => hlast h.1), decide_eq_false hhead]

end FsPath
