import Mathlib

/-!
# Parse loops over a growing buffer

A server reads bytes into a buffer and takes complete messages off its front: each turn of the
loop either finds too little to work on, or stops on an error with the buffer untouched, or
consumes a prefix and moves to a new state. When the verdict of a turn does not change as more
bytes arrive behind the ones it looked at, the loop does not see how its input was cut.
-/

namespace ParseLoop

/-- What one turn of a parse loop finds at the front of the buffer. -/
inductive Turn (σ ε : Type*) where
  | wait : Turn σ ε
  | fail : ε → Turn σ ε
  | consume : ℕ → σ → Turn σ ε

/-- A parse loop: its turn, and the facts that later bytes do not change what a turn decided. -/
structure Machine (σ α ε : Type*) where
  turn : σ → List α → Turn σ ε
  consume_pos : ∀ {s buf n t}, turn s buf = .consume n t → 0 < n ∧ n ≤ buf.length
  consume_append : ∀ {s buf n t} (more : List α), turn s buf = .consume n t →
    turn s (buf ++ more) = .consume n t
  fail_append : ∀ {s buf e} (more : List α), turn s buf = .fail e →
    turn s (buf ++ more) = .fail e

/-- Where a run of the loop stopped: the state, the bytes left over, and the error if any. -/
structure Outcome (σ α ε : Type*) where
  state : σ
  rest : List α
  error : Option ε

namespace Machine

variable {σ α ε : Type*} (m : Machine σ α ε)

/-- Run the loop until a turn waits or fails. -/
def drain (s : σ) (buf : List α) : Outcome σ α ε :=
  match _h : m.turn s buf with
  | .wait => ⟨s, buf, none⟩
  | .fail e => ⟨s, buf, some e⟩
  | .consume n t => drain t (buf.drop n)
termination_by buf.length
decreasing_by
  have := m.consume_pos _h
  simp only [List.length_drop]
  omega

lemma drain_of_wait {s : σ} {buf : List α} (h : m.turn s buf = .wait) :
    m.drain s buf = ⟨s, buf, none⟩ := by
  rw [drain]
  split <;> simp_all

lemma drain_of_fail {s : σ} {buf : List α} {e : ε} (h : m.turn s buf = .fail e) :
    m.drain s buf = ⟨s, buf, some e⟩ := by
  rw [drain]
  split <;> simp_all

lemma drain_of_consume {s t : σ} {buf : List α} {n : ℕ} (h : m.turn s buf = .consume n t) :
    m.drain s buf = m.drain t (buf.drop n) := by
  conv_lhs => rw [drain]
  split <;> simp_all

/-- Induction along the turns of a run. -/
lemma drain_induction {P : σ → List α → Prop}
    (wait : ∀ s buf, m.turn s buf = .wait → P s buf)
    (fail : ∀ s buf e, m.turn s buf = .fail e → P s buf)
    (consume : ∀ s buf n t, m.turn s buf = .consume n t → P t (buf.drop n) → P s buf)
    (s : σ) (buf : List α) : P s buf := by
  induction hlen : buf.length using Nat.strongRecOn generalizing s buf with
  | ind len ih =>
    cases h : m.turn s buf with
    | wait => exact wait s buf h
    | fail e => exact fail s buf e h
    | consume n t =>
      have hn := m.consume_pos h
      refine consume s buf n t h (ih (buf.drop n).length ?_ t _ rfl)
      simp only [List.length_drop]
      omega

/-- A run stops at a turn that waits, or at one that fails with the run's error. -/
lemma turn_drain (s : σ) (buf : List α) :
    m.turn (m.drain s buf).state (m.drain s buf).rest =
      match (m.drain s buf).error with
      | none => .wait
      | some e => .fail e := by
  induction s, buf using m.drain_induction with
  | wait s buf h => rw [m.drain_of_wait h]; exact h
  | fail s buf e h => rw [m.drain_of_fail h]; exact h
  | consume s buf n t h ih => rw [m.drain_of_consume h]; exact ih

/-- A property every consuming turn preserves holds where a run stops. -/
lemma drain_preserves {P : σ → Prop}
    (hstep : ∀ s buf n t, m.turn s buf = .consume n t → P s → P t)
    (s : σ) (buf : List α) (hs : P s) : P (m.drain s buf).state := by
  induction s, buf using m.drain_induction with
  | wait s buf h => rw [m.drain_of_wait h]; exact hs
  | fail s buf e h => rw [m.drain_of_fail h]; exact hs
  | consume s buf n t h ih =>
    rw [m.drain_of_consume h]
    exact ih (hstep s buf n t h hs)

/-- Draining a longer buffer is draining the shorter one and then going on with the rest. -/
theorem drain_append (s : σ) (buf more : List α) :
    m.drain s (buf ++ more) =
      m.drain (m.drain s buf).state ((m.drain s buf).rest ++ more) := by
  induction s, buf using m.drain_induction with
  | wait s buf h => rw [m.drain_of_wait h]
  | fail s buf e h => rw [m.drain_of_fail h]
  | consume s buf n t h ih =>
    have hn := (m.consume_pos h).2
    rw [m.drain_of_consume h, m.drain_of_consume (m.consume_append more h),
      List.drop_append_of_le_length hn]
    exact ih

/-- One read: the chunk goes behind the bytes left over, and the loop runs again. -/
def feed (o : Outcome σ α ε) (chunk : List α) : Outcome σ α ε :=
  m.drain o.state (o.rest ++ chunk)

/-- Feeding a non-empty list of chunks is feeding their concatenation. -/
theorem foldl_feed (o : Outcome σ α ε) {chunks : List (List α)} (hne : chunks ≠ []) :
    chunks.foldl m.feed o = m.feed o chunks.flatten := by
  induction chunks generalizing o with
  | nil => exact absurd rfl hne
  | cons chunk chunks ih =>
    rw [List.foldl_cons, List.flatten_cons]
    by_cases hnil : chunks = []
    · simp [hnil]
    · rw [ih _ hnil]
      simp only [feed, ← List.append_assoc, m.drain_append o.state (o.rest ++ chunk)]

end Machine

/-- A loop with a bound on its turns does not see the bound where each turn that is not the last
one makes the rest smaller and the bound is larger than the rest. -/
lemma eq_of_bound_lt {σ β : Type*} {loop : ℕ → σ → β} {goes : σ → Prop} {next : σ → σ}
    (size : σ → ℕ) (hsize : ∀ s, goes s → size (next s) < size s)
    (hturn : ∀ n m s, (goes s → loop n (next s) = loop m (next s)) → loop (n + 1) s = loop (m + 1) s)
    {n m : ℕ} {s : σ} (hn : size s < n) (hm : size s < m) : loop n s = loop m s := by
  induction n generalizing m s with
  | zero => exact absurd hn (Nat.not_lt_zero _)
  | succ n ih =>
    cases m with
    | zero => exact absurd hm (Nat.not_lt_zero _)
    | succ m =>
      apply hturn
      intro hgoes
      have hless := hsize s hgoes
      exact ih (by omega) (by omega)

end ParseLoop
