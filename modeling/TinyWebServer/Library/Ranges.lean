import Mathlib

/-!
# Ranges that lie apart

Things that occupy ranges of natural numbers. As long as no two of them overlap, they do not occupy
more in all than the space they lie in.
-/

namespace Ranges

variable {α : Type*} (start length : α → ℕ)

/-- The two ranges do not overlap. -/
def Apart (a b : α) : Prop := start a + length a ≤ start b ∨ start b + length b ≤ start a

instance (a b : α) : Decidable (Apart start length a b) :=
  inferInstanceAs (Decidable (_ ∨ _))

lemma Apart.symm {a b : α} (h : Apart start length a b) : Apart start length b a := Or.symm h

/-- The range lies between two bounds. -/
def Within (lo hi : ℕ) (a : α) : Prop := lo ≤ start a ∧ start a + length a ≤ hi

instance (lo hi : ℕ) (a : α) : Decidable (Within start length lo hi a) :=
  inferInstanceAs (Decidable (_ ∧ _))

/-- The numbers of a range. -/
def occupied (a : α) : Finset ℕ := Finset.Ico (start a) (start a + length a)

lemma card_occupied (a : α) : (occupied start length a).card = length a := by
  rw [occupied, Nat.card_Ico, Nat.add_sub_cancel_left]

lemma disjoint_occupied {a b : α} (h : Apart start length a b) :
    Disjoint (occupied start length a) (occupied start length b) := by
  rcases h with h | h
  · exact Finset.Ico_disjoint_Ico_consecutive _ _ _ |>.mono_right (Finset.Ico_subset_Ico_left h)
  · exact (Finset.Ico_disjoint_Ico_consecutive _ _ _ |>.mono_right
      (Finset.Ico_subset_Ico_left h)).symm

/-- The numbers of all ranges of a list. -/
def allOccupied : List α → Finset ℕ
  | [] => ∅
  | a :: l => occupied start length a ∪ allOccupied l

lemma disjoint_allOccupied {a : α} {l : List α} (h : ∀ b ∈ l, Apart start length a b) :
    Disjoint (occupied start length a) (allOccupied start length l) := by
  induction l with
  | nil => exact Finset.disjoint_empty_right _
  | cons b l ih =>
    rw [List.forall_mem_cons] at h
    exact Finset.disjoint_union_right.mpr ⟨disjoint_occupied start length h.1, ih h.2⟩

lemma card_allOccupied {l : List α} (h : l.Pairwise (Apart start length)) :
    (allOccupied start length l).card = (l.map length).sum := by
  induction l with
  | nil => rfl
  | cons a l ih =>
    rw [List.pairwise_cons] at h
    rw [allOccupied, Finset.card_union_of_disjoint (disjoint_allOccupied start length h.1),
      card_occupied, ih h.2, List.map_cons, List.sum_cons]

lemma allOccupied_subset {lo hi : ℕ} {l : List α} (h : ∀ a ∈ l, Within start length lo hi a) :
    allOccupied start length l ⊆ Finset.Ico lo hi := by
  induction l with
  | nil => exact Finset.empty_subset _
  | cons a l ih =>
    rw [List.forall_mem_cons] at h
    exact Finset.union_subset (Finset.Ico_subset_Ico h.1.1 h.1.2) (ih h.2)

/-- Ranges apart from each other have no more room than there is. -/
theorem sum_length_le {lo hi : ℕ} {l : List α} (hapart : l.Pairwise (Apart start length))
    (hwithin : ∀ a ∈ l, Within start length lo hi a) : (l.map length).sum ≤ hi - lo := by
  have hcard := Finset.card_le_card (allOccupied_subset start length hwithin)
  rwa [card_allOccupied start length hapart, Nat.card_Ico] at hcard

end Ranges
