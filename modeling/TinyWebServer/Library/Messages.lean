import TinyWebServer.Library.ParseLoop

/-!
# Streams of messages

A parse loop that takes each of a list of messages as a whole reads any front part of the stream
they make as the messages that are complete in it, however the part is cut.
-/

namespace ParseLoop

namespace Machine

variable {σ α ε : Type*} (m : Machine σ α ε)

/-- The loop waits for the whole of a message, takes it, and goes on to the next state. -/
structure Reads (s : σ) (message : List α) (t : σ) : Prop where
  takes : m.turn s message = .consume message.length t
  waits : ∀ part, part <+: message → part ≠ message → m.turn s part = .wait

/-- A run of a loop that started on an empty buffer. -/
def run (s : σ) (chunks : List (List α)) : Outcome σ α ε := chunks.foldl m.feed ⟨s, [], none⟩

/-- The number of messages that are complete in a part of the stream. -/
structure Complete (messages : List (List α)) (part : List α) (k : ℕ) : Prop where
  le_length : k ≤ messages.length
  isPrefix : (messages.take k).flatten <+: part
  last : k < messages.length → ¬ (messages.take (k + 1)).flatten <+: part

variable {m}

lemma Reads.ne_nil {s t : σ} {message : List α} (h : m.Reads s message t) : message ≠ [] := by
  rintro rfl
  exact (m.consume_pos h.takes).1.ne rfl

lemma Complete.cons {messages : List (List α)} {rest message : List α} {k : ℕ}
    (h : Complete messages rest k) : Complete (message :: messages) (message ++ rest) (k + 1) where
  le_length := Nat.succ_le_succ h.le_length
  isPrefix := by
    rw [List.take_succ_cons, List.flatten_cons, List.prefix_append_right_inj]
    exact h.isPrefix
  last hlt := by
    rw [List.take_succ_cons, List.flatten_cons, List.prefix_append_right_inj]
    exact h.last (Nat.lt_of_succ_lt_succ hlt)

/-- Of the whole stream every message is complete. -/
lemma Complete.eq_length {messages : List (List α)} {k : ℕ}
    (h : Complete messages messages.flatten k) : k = messages.length := by
  by_contra hne
  refine h.last (lt_of_le_of_ne h.le_length hne) ?_
  conv_rhs => rw [← List.take_append_drop (k + 1) messages, List.flatten_append]
  apply List.prefix_append

/-- Messages that come later are not complete in a part that ends before them. -/
lemma Complete.append {messages more : List (List α)} {part : List α} {k : ℕ}
    (h : Complete messages part k) (hpart : part <+: messages.flatten)
    (hmore : ∀ message ∈ more, message ≠ []) : Complete (messages ++ more) part k where
  le_length := h.le_length.trans (by rw [List.length_append]; exact Nat.le_add_right ..)
  isPrefix := by
    rw [List.take_append_of_le_length h.le_length]
    exact h.isPrefix
  last hlt := by
    rcases h.le_length.lt_or_eq with hwithin | rfl
    · rw [List.take_append_of_le_length hwithin]
      exact h.last hwithin
    · cases more with
      | nil => simp at hlt
      | cons message more =>
        intro hlater
        rw [List.take_length_add_append, List.flatten_append, List.take_succ_cons, List.take_zero,
          List.flatten_singleton] at hlater
        have hlen := hlater.length_le.trans hpart.length_le
        have hpos := List.length_pos_of_ne_nil (hmore message (List.mem_cons_self ..))
        rw [List.length_append] at hlen
        omega

/-- A front part of a message and what follows it lies within the message or begins with it. -/
lemma prefix_append_cases {part message rest : List α} (h : part <+: message ++ rest) :
    (part <+: message ∧ part ≠ message) ∨ ∃ tail, part = message ++ tail ∧ tail <+: rest := by
  rcases Nat.lt_or_ge part.length message.length with hshort | hlong
  · refine .inl ⟨List.prefix_of_prefix_length_le h (List.prefix_append ..) hshort.le, ?_⟩
    rintro rfl
    exact hshort.false
  · obtain ⟨tail, rfl⟩ := List.prefix_of_prefix_length_le (List.prefix_append ..) h hlong
    exact .inr ⟨tail, rfl, (List.prefix_append_right_inj message).mp h⟩

/-- The loop goes through the complete messages and waits behind them. -/
lemma drain_messages {messages : List (List α)} {state : ℕ → σ}
    (h : ∀ i (hi : i < messages.length), m.Reads (state i) messages[i] (state (i + 1)))
    (hend : m.turn (state messages.length) [] = .wait) {part : List α}
    (hpart : part <+: messages.flatten) :
    ∃ k, Complete messages part k ∧ (m.drain (state 0) part).state = state k ∧
      (m.drain (state 0) part).error = none := by
  induction messages generalizing state part with
  | nil =>
    rw [List.flatten_nil, List.prefix_nil] at hpart
    subst hpart
    rw [List.length_nil] at hend
    rw [m.drain_of_wait hend]
    exact ⟨0, ⟨le_refl _, List.nil_prefix, fun hlt => absurd hlt (Nat.not_lt_zero _)⟩, rfl, rfl⟩
  | cons message messages ih =>
    have hfirst : m.Reads (state 0) message (state 1) := h 0 (Nat.zero_lt_succ _)
    rw [List.flatten_cons] at hpart
    rcases prefix_append_cases hpart with ⟨hwithin, hne⟩ | ⟨tail, rfl, htail⟩
    · rw [m.drain_of_wait (hfirst.waits part hwithin hne)]
      refine ⟨0, ⟨Nat.zero_le _, List.nil_prefix, fun _ hmessage => ?_⟩, rfl, rfl⟩
      rw [List.take_succ_cons, List.take_zero, List.flatten_singleton] at hmessage
      exact hne (hwithin.eq_of_length_le hmessage.length_le)
    · have hrest : ∀ i (hi : i < messages.length),
          m.Reads (state (i + 1)) messages[i] (state (i + 1 + 1)) :=
        fun i hi => h (i + 1) (Nat.succ_lt_succ hi)
      obtain ⟨k, hcomplete, hstate, herror⟩ := ih hrest hend htail
      rw [m.drain_of_consume (m.consume_append tail hfirst.takes), List.drop_left]
      exact ⟨k + 1, hcomplete.cons, hstate, herror⟩

/-- The same for any cut of the part. -/
theorem run_messages {messages : List (List α)} {state : ℕ → σ}
    (h : ∀ i (hi : i < messages.length), m.Reads (state i) messages[i] (state (i + 1)))
    (hend : m.turn (state messages.length) [] = .wait) {chunks : List (List α)}
    (hchunks : chunks.flatten <+: messages.flatten) :
    ∃ k, Complete messages chunks.flatten k ∧ (m.run (state 0) chunks).state = state k ∧
      (m.run (state 0) chunks).error = none := by
  by_cases hnil : chunks = []
  · have hstart : m.turn (state 0) [] = .wait := by
      cases messages with
      | nil => exact hend
      | cons message messages =>
        have hfirst : m.Reads (state 0) message (state 1) := h 0 (Nat.zero_lt_succ _)
        exact hfirst.waits [] List.nil_prefix hfirst.ne_nil.symm
    have hdrain := drain_messages h hend (List.nil_prefix : [] <+: messages.flatten)
    rw [m.drain_of_wait hstart] at hdrain
    rw [hnil]
    exact hdrain
  · have hfeed : m.run (state 0) chunks = m.drain (state 0) chunks.flatten := by
      rw [run, m.foldl_feed _ hnil]
      rfl
    rw [hfeed]
    exact drain_messages h hend hchunks

end Machine

/-- A property that follows from that of all elements in front holds of every element. -/
lemma forall_mem_of_front {α : Type*} {P : α → Prop} {l : List α}
    (h : ∀ before a after, l = before ++ a :: after → (∀ b ∈ before, P b) → P a) :
    ∀ a ∈ l, P a := by
  induction l using List.reverseRecOn with
  | nil => simp
  | append_singleton init last ih =>
    have hinit : ∀ a ∈ init, P a := by
      apply ih
      rintro before a after rfl
      exact h before a (after ++ [last]) (by simp)
    rw [List.forall_mem_append, List.forall_mem_singleton]
    exact ⟨hinit, h init last [] rfl hinit⟩

end ParseLoop
