import Mathlib

/-!
# What is left of a queue's history

A queue is filled at one end and loses its oldest elements at the other. The journal keeps every
element that was ever inserted, in the order of the insertions, with a mark on those that are still
there.
-/

namespace Journal

variable {α : Type*}

inductive Event (α : Type*) where
  | insert (a : α)
  | evict
  | clear

/-- Take the mark off the oldest element that has one. -/
def unmarkOldest : List (α × Bool) → List (α × Bool)
  | [] => []
  | (a, true) :: journal => (a, false) :: journal
  | (a, false) :: journal => (a, false) :: unmarkOldest journal

def record (journal : List (α × Bool)) : Event α → List (α × Bool)
  | .insert a => journal ++ [(a, true)]
  | .evict => unmarkOldest journal
  | .clear => journal.map fun entry => (entry.1, false)

def ofEvents (events : List (Event α)) : List (α × Bool) := events.foldl record []

/-- The marked elements, the one inserted last at the front. -/
def survivors (journal : List (α × Bool)) : List α :=
  ((journal.filter fun entry => entry.2).map fun entry => entry.1).reverse

@[simp]
lemma survivors_insert (journal : List (α × Bool)) (a : α) :
    survivors (record journal (.insert a)) = a :: survivors journal := by
  simp [survivors, record]

@[simp]
lemma survivors_clear (journal : List (α × Bool)) : survivors (record journal .clear) = [] := by
  simp [survivors, record, List.filter_map, Function.comp_def]

lemma filter_unmarkOldest (journal : List (α × Bool)) :
    ((unmarkOldest journal).filter fun entry => entry.2) =
      (journal.filter fun entry => entry.2).tail := by
  induction journal with
  | nil => rfl
  | cons entry journal ih =>
    obtain ⟨a, marked⟩ := entry
    cases marked with
    | true => simp [unmarkOldest]
    | false => simpa [unmarkOldest] using ih

@[simp]
lemma survivors_evict (journal : List (α × Bool)) :
    survivors (record journal .evict) = (survivors journal).dropLast := by
  rw [survivors, record, filter_unmarkOldest, List.map_tail, survivors, List.dropLast_reverse]

end Journal
