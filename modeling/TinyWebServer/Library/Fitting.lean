import Mathlib

/-!
# The longest run that fits a limit

A list whose elements have sizes, with the elements that are to stay longest at the front. Dropping
elements off the back until what is left fits a limit leaves the longest beginning that fits.
-/

namespace Fitting

variable {α : Type*} (size : α → ℕ)

def total (l : List α) : ℕ := (l.map size).sum

@[simp]
lemma total_nil : total size [] = 0 := rfl

@[simp]
lemma total_cons (a : α) (l : List α) : total size (a :: l) = size a + total size l :=
  List.sum_cons

@[simp]
lemma total_append (l l' : List α) : total size (l ++ l') = total size l + total size l' := by
  rw [total, List.map_append, List.sum_append, total, total]

lemma total_le_of_isPrefix {l l' : List α} (h : l <+: l') : total size l ≤ total size l' := by
  obtain ⟨rest, rfl⟩ := h
  rw [total_append]
  exact Nat.le_add_right _ _

lemma length_mul_le_total {least : ℕ} {l : List α} (h : ∀ a ∈ l, least ≤ size a) :
    l.length * least ≤ total size l := by
  induction l with
  | nil => simp
  | cons a l ih =>
    rw [List.forall_mem_cons] at h
    rw [List.length_cons, Nat.succ_mul, total_cons, Nat.add_comm]
    exact Nat.add_le_add h.1 (ih h.2)

/-- The longest beginning whose sizes add up to no more than the limit. -/
def fitting : ℕ → List α → List α
  | _, [] => []
  | limit, a :: l => if size a ≤ limit then a :: fitting (limit - size a) l else []

lemma fitting_isPrefix (limit : ℕ) (l : List α) : fitting size limit l <+: l := by
  induction l generalizing limit with
  | nil => exact List.nil_prefix
  | cons a l ih =>
    rw [fitting]
    split_ifs
    · exact List.cons_prefix_cons.mpr ⟨rfl, ih _⟩
    · exact List.nil_prefix

lemma total_fitting_le (limit : ℕ) (l : List α) : total size (fitting size limit l) ≤ limit := by
  induction l generalizing limit with
  | nil => exact Nat.zero_le _
  | cons a l ih =>
    rw [fitting]
    split_ifs with h
    · rw [total_cons]
      have := ih (limit - size a)
      omega
    · exact Nat.zero_le _

/-- No beginning that fits is longer. -/
lemma isPrefix_fitting {limit : ℕ} {l l' : List α} (h : l' <+: l) (hfits : total size l' ≤ limit) :
    l' <+: fitting size limit l := by
  induction l generalizing limit l' with
  | nil =>
    rw [List.prefix_nil.mp h]
    exact List.nil_prefix
  | cons a l ih =>
    cases l' with
    | nil => exact List.nil_prefix
    | cons b l' =>
      obtain ⟨rfl, hrest⟩ := List.cons_prefix_cons.mp h
      rw [total_cons] at hfits
      rw [fitting, if_pos (Nat.le_of_add_right_le hfits)]
      exact List.cons_prefix_cons.mpr ⟨rfl, ih hrest (Nat.le_sub_of_add_le' hfits)⟩

lemma fitting_of_total_le {limit : ℕ} {l : List α} (h : total size l ≤ limit) :
    fitting size limit l = l :=
  (fitting_isPrefix size limit l).eq_of_length_le
    (isPrefix_fitting size (List.prefix_refl l) h).length_le

/-- A list that does not fit may as well lose its last element. -/
lemma fitting_dropLast {limit : ℕ} {l : List α} (h : limit < total size l) :
    fitting size limit l.dropLast = fitting size limit l := by
  induction l generalizing limit with
  | nil => rfl
  | cons a l ih =>
    cases l with
    | nil =>
      rw [total_cons, total_nil, Nat.add_zero] at h
      rw [List.dropLast_singleton, fitting, fitting, if_neg (Nat.not_le.mpr h)]
    | cons b l =>
      rw [List.dropLast_cons_cons, fitting, fitting]
      split_ifs with hfits
      · rw [ih]
        rw [total_cons] at h
        omega
      · rfl

lemma fitting_cons {limit : ℕ} {a : α} (h : size a ≤ limit) (l : List α) :
    fitting size limit (a :: l) = a :: fitting size (limit - size a) l := if_pos h

lemma fitting_map {β : Type*} {size' : β → ℕ} (f : α → β) {l : List α}
    (h : ∀ a ∈ l, size' (f a) = size a) (limit : ℕ) :
    (fitting size limit l).map f = fitting size' limit (l.map f) := by
  induction l generalizing limit with
  | nil => rfl
  | cons a l ih =>
    rw [List.forall_mem_cons] at h
    rw [List.map_cons, fitting, fitting, h.1]
    split_ifs
    · rw [List.map_cons, ih h.2]
    · rfl

end Fitting
