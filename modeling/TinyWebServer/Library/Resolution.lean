import Mathlib

/-!
# Lexical resolution

A walk through a tree of names, in which each step stays, goes up, or goes down to a name. Where it
ends is known without walking: the walk leaves its start upwards as far as its ups outnumber its
downs in some beginning of it, and the names it ends below are those that no later part takes back.
-/

namespace Resolution

inductive Step (α : Type*) where
  | stay
  | up
  | down (a : α)
  deriving DecidableEq

variable {α : Type*}

def Step.ups : Step α → ℕ
  | .up => 1
  | _ => 0

def Step.downs : Step α → ℕ
  | .down _ => 1
  | _ => 0

def ups (steps : List (Step α)) : ℕ := (steps.map Step.ups).sum

def downs (steps : List (Step α)) : ℕ := (steps.map Step.downs).sum

/-- Some beginning of the walk has more ups than downs. -/
def Escapes (steps : List (Step α)) : Prop := ∃ front ∈ steps.inits, downs front < ups front

instance (steps : List (Step α)) : Decidable (Escapes steps) :=
  inferInstanceAs (Decidable (∃ front ∈ steps.inits, downs front < ups front))

/-- The names that no later part of the walk takes back. -/
def survivors : List (Step α) → List α
  | [] => []
  | .stay :: steps => survivors steps
  | .up :: steps => survivors steps
  | .down a :: steps => if Escapes steps then survivors steps else a :: survivors steps

/-- Where a walk is: so many levels above its start, and below that at a list of names. -/
@[ext] structure Place (α : Type*) where
  above : ℕ
  names : List α

namespace Place

def start : Place α := ⟨0, []⟩

def next (p : Place α) : Step α → Place α
  | .stay => p
  | .up => if p.names = [] then ⟨p.above + 1, []⟩ else ⟨p.above, p.names.dropLast⟩
  | .down a => ⟨p.above, p.names ++ [a]⟩

def walk (p : Place α) (steps : List (Step α)) : Place α := steps.foldl next p

@[simp] lemma walk_nil (p : Place α) : p.walk [] = p := rfl

@[simp] lemma walk_cons (p : Place α) (step : Step α) (steps : List (Step α)) :
    p.walk (step :: steps) = (p.next step).walk steps := rfl

lemma walk_append (p : Place α) (steps steps' : List (Step α)) :
    p.walk (steps ++ steps') = (p.walk steps).walk steps' :=
  List.foldl_append

@[simp] lemma walk_downs (p : Place α) (names : List α) :
    p.walk (names.map Step.down) = ⟨p.above, p.names ++ names⟩ := by
  induction names generalizing p with
  | nil => simp
  | cons a names ih => simp [next, ih]

/-- From a start without names, each up leads one level above it. -/
lemma walk_ups (n k : ℕ) :
    (⟨n, []⟩ : Place α).walk (List.replicate k Step.up) = ⟨n + k, []⟩ := by
  induction k generalizing n with
  | zero => rfl
  | succ k ih =>
    rw [List.replicate_succ, walk_cons, next, if_pos rfl, ih, Nat.add_assoc, Nat.add_comm 1]

end Place

/-! ### How far up -/

/-- By how much the ups outnumber the downs at most, in a beginning of the walk. -/
def excess : List (Step α) → ℕ
  | [] => 0
  | .stay :: steps => excess steps
  | .up :: steps => excess steps + 1
  | .down _ :: steps => excess steps - 1

lemma lt_excess_iff (steps : List (Step α)) (k : ℕ) :
    k < excess steps ↔ ∃ front ∈ steps.inits, downs front + k < ups front := by
  induction steps generalizing k with
  | nil => simp [excess, ups, downs]
  | cons step steps ih =>
    simp only [List.inits_cons, List.mem_cons, List.mem_map, exists_eq_or_imp,
      exists_exists_and_eq_and, ups, downs, List.map_cons, List.sum_cons, List.map_nil,
      List.sum_nil] at ih ⊢
    cases step with
    | stay => simpa [excess, Step.ups, Step.downs] using ih k
    | up =>
      cases k with
      | zero =>
        refine iff_of_true (by simp [excess]) (Or.inr ⟨[], by simp, ?_⟩)
        simp [Step.ups, Step.downs]
      | succ k =>
        rw [excess, Nat.succ_lt_succ_iff, ih k]
        simp only [Step.ups, Step.downs, Nat.not_lt_zero, false_or, zero_add]
        refine exists_congr fun front => and_congr_right fun _ => ?_
        omega
    | down a =>
      rw [excess, show k < excess steps - 1 ↔ k + 1 < excess steps by omega, ih (k + 1)]
      simp only [Step.ups, Step.downs, Nat.not_lt_zero, false_or, zero_add]
      refine exists_congr fun front => and_congr_right fun _ => ?_
      omega

/-- The walk escapes if and only if it ends above its start. -/
lemma escapes_iff (steps : List (Step α)) : Escapes steps ↔ 0 < excess steps :=
  (lt_excess_iff steps 0).symm

/-! ### Where the walk ends -/

/-- From any place: the walk takes back as many of the names as it goes up. -/
theorem Place.walk_eq (p : Place α) (steps : List (Step α)) :
    p.walk steps = ⟨p.above + (excess steps - p.names.length),
      p.names.take (p.names.length - excess steps) ++ survivors steps⟩ := by
  induction steps generalizing p with
  | nil => simp [excess, survivors]
  | cons step steps ih =>
    rw [walk_cons, ih]
    cases step with
    | stay => rfl
    | up =>
      rw [next, excess, survivors]
      split_ifs with hempty
      · rw [hempty]
        ext1
        · simp only [List.length_nil]
          omega
        · simp
      · have hpos := List.length_pos_iff.mpr hempty
        ext1
        · simp only [List.length_dropLast]
          omega
        · simp only [List.length_dropLast]
          rw [List.dropLast_eq_take, List.take_take]
          congr 2
          omega
    | down a =>
      rw [next, excess, survivors]
      ext1
      · simp only [List.length_append, List.length_singleton]
        omega
      · simp only [List.length_append, List.length_singleton]
        split_ifs with hescapes
        · rw [escapes_iff] at hescapes
          rw [List.take_append_of_le_length (by omega)]
          congr 2
          omega
        · rw [escapes_iff, Nat.pos_iff_ne_zero, not_not] at hescapes
          rw [hescapes, List.take_of_length_le (by simp), List.take_of_length_le (by simp),
            List.append_assoc]
          rfl

/-- From the start the walk ends above it or at the names that survive. -/
theorem walk_start (steps : List (Step α)) :
    Place.start.walk steps = ⟨excess steps, survivors steps⟩ := by
  rw [Place.walk_eq]
  simp [Place.start]

/-! ### Surviving names -/

lemma excess_downs (names : List α) : excess (names.map Step.down) = 0 := by
  have hwalk := walk_start (names.map Step.down)
  rw [Place.walk_downs] at hwalk
  exact (congrArg Place.above hwalk).symm

lemma survivors_downs (names : List α) : survivors (names.map Step.down) = names := by
  have hwalk := walk_start (names.map Step.down)
  rw [Place.walk_downs] at hwalk
  exact (congrArg Place.names hwalk).symm

lemma down_mem_of_mem_survivors {steps : List (Step α)} {a : α} (h : a ∈ survivors steps) :
    Step.down a ∈ steps := by
  induction steps with
  | nil => simp [survivors] at h
  | cons step steps ih =>
    cases step with
    | stay => exact List.mem_cons_of_mem _ (ih h)
    | up => exact List.mem_cons_of_mem _ (ih h)
    | down b =>
      rw [survivors] at h
      split_ifs at h with hescapes
      · exact List.mem_cons_of_mem _ (ih h)
      · rcases List.mem_cons.mp h with rfl | h
        · exact List.mem_cons_self
        · exact List.mem_cons_of_mem _ (ih h)

end Resolution
