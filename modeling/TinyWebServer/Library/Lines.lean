import Mathlib

/-!
# Lines with an end

Lines that are written one behind another, each with an end mark. Whoever splits a front part of
the text at the marks finds the first lines whole, and in the last piece what there is of the next.
-/

namespace Lines

variable {α : Type*}

/-- The text of the lines. -/
def ended (mark : α) (lines : List (List α)) : List α := lines.flatMap (· ++ [mark])

/-- The pieces of a text that breaks off somewhere in the lines. -/
def BreaksOff (lines pieces : List (List α)) : Prop :=
  ∃ k ≤ lines.length, ∃ part, part <+: lines.getD k [] ∧ pieces = lines.take k ++ [part]

variable {mark : α} {lines pieces : List (List α)}

@[simp] lemma ended_nil : ended mark ([] : List (List α)) = [] := rfl

@[simp] lemma ended_cons (line : List α) (lines : List (List α)) :
    ended mark (line :: lines) = line ++ mark :: ended mark lines := by
  simp [ended]

lemma BreaksOff.cons (h : BreaksOff lines pieces) (line : List α) :
    BreaksOff (line :: lines) (line :: pieces) := by
  obtain ⟨k, hk, part, hpart, rfl⟩ := h
  exact ⟨k + 1, Nat.succ_le_succ hk, part, hpart, rfl⟩

lemma BreaksOff.first {line part : List α} (h : part <+: line) (lines : List (List α)) :
    BreaksOff (line :: lines) [part] :=
  ⟨0, Nat.zero_le _, part, h, rfl⟩

/-- All pieces but the last are lines. -/
lemma BreaksOff.dropLast (h : BreaksOff lines pieces) : pieces.dropLast <+: lines := by
  obtain ⟨k, -, part, -, rfl⟩ := h
  rw [List.dropLast_concat]
  exact List.take_prefix k lines

variable [DecidableEq α] {text : List α}

lemma splitOn_ended (h : ∀ line ∈ lines, mark ∉ line) :
    (ended mark lines).splitOn mark = lines ++ [[]] := by
  induction lines with
  | nil => simp
  | cons line lines ih =>
    rw [List.forall_mem_cons] at h
    rw [ended_cons, List.splitOn_append_cons_self_of_not_mem h.1, ih h.2, List.cons_append]

/-- A text that splits into lines and nothing behind the last mark is the text of these lines. -/
lemma eq_ended_of_splitOn (h : text.splitOn mark = lines ++ [[]]) : text = ended mark lines := by
  have hjoin : [mark].intercalate (text.splitOn mark) = text := List.intercalate_splitOn mark
  rw [← hjoin, h]
  clear h hjoin
  induction lines with
  | nil => simp
  | cons line lines ih =>
    rw [List.cons_append, List.intercalate_cons_of_ne_nil (by simp), ih]
    simp

/-- No piece that a text splits into has the mark. -/
lemma notMem_of_splitOn : ∀ piece ∈ text.splitOn mark, mark ∉ piece := by
  induction text with
  | nil => simp
  | cons b text ih =>
    rw [List.splitOn_cons_eq_if_modifyHead]
    split_ifs with hb
    · exact List.forall_mem_cons.mpr ⟨List.not_mem_nil, ih⟩
    · have hne : mark ≠ b := fun heq => hb (beq_iff_eq.mpr heq.symm)
      obtain ⟨first, rest, hsplit⟩ := List.exists_cons_of_ne_nil (List.splitOn_ne_nil mark text)
      rw [hsplit, List.forall_mem_cons] at ih
      rw [hsplit, List.modifyHead_cons, List.forall_mem_cons]
      exact ⟨List.not_mem_cons_of_ne_of_not_mem hne ih.1, ih.2⟩

/-- Lines without the mark are found again, and no others are. -/
theorem splitOn_ended_iff : text.splitOn mark = lines ++ [[]] ↔
    text = ended mark lines ∧ ∀ line ∈ lines, mark ∉ line := by
  constructor
  · intro h
    have hnot : ∀ piece ∈ text.splitOn mark, mark ∉ piece := notMem_of_splitOn
    rw [h] at hnot
    exact ⟨eq_ended_of_splitOn h, fun line hline => hnot line (List.mem_append_left _ hline)⟩
  · rintro ⟨rfl, h⟩
    exact splitOn_ended h

/-- A front part of the text breaks off somewhere in the lines. -/
theorem breaksOff_of_prefix (h : ∀ line ∈ lines, mark ∉ line) {part : List α}
    (hpart : part <+: ended mark lines) : BreaksOff lines (part.splitOn mark) := by
  induction lines generalizing part with
  | nil =>
    rw [ended_nil, List.prefix_nil] at hpart
    subst hpart
    exact ⟨0, le_rfl, [], List.prefix_rfl, rfl⟩
  | cons line lines ih =>
    rw [List.forall_mem_cons] at h
    rw [ended_cons] at hpart
    have hline : line <+: line ++ mark :: ended mark lines := List.prefix_append ..
    have hwithin : ∀ {part}, part <+: line →
        BreaksOff (line :: lines) (part.splitOn mark) := by
      intro part hpart
      rw [List.splitOn_eq_singleton fun hmark => h.1 (hpart.subset hmark)]
      exact .first hpart lines
    -- the part ends within the first line, or it goes on behind the mark
    rcases List.prefix_or_prefix_of_prefix hpart hline with hfirst | ⟨rest, rfl⟩
    · exact hwithin hfirst
    · rw [List.prefix_append_right_inj, List.prefix_cons_iff] at hpart
      rcases hpart with rfl | ⟨rest, rfl, hrest⟩
      · rw [List.append_nil]
        exact hwithin List.prefix_rfl
      · rw [List.splitOn_append_cons_self_of_not_mem h.1]
        exact (ih h.2 hrest).cons line

end Lines
