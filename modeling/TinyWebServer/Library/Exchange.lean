import TinyWebServer.Library.Runs

/-!
# Two parties that answer each other

Two parties send messages to each other over channels that keep their order and lose nothing. A
party takes what the other one has sent, one message after another, and sends the answers that it
owes. Nothing is owed for an answer, so that an exchange comes to rest.
-/

namespace Exchange

inductive Party where
  | client | server
  deriving DecidableEq

namespace Party

def other : Party → Party
  | client => server
  | server => client

@[simp] lemma other_other (p : Party) : p.other.other = p := by cases p <;> rfl

@[simp] lemma other_ne (p : Party) : p.other ≠ p := by cases p <;> decide

@[simp] lemma ne_other (p : Party) : p ≠ p.other := p.other_ne.symm

lemma eq_or_eq_other (p q : Party) : q = p ∨ q = p.other := by
  cases p <;> cases q <;> simp [other]

/-- What holds of one party and of the other one holds of both. -/
lemma forall_iff (p : Party) {P : Party → Prop} : (∀ q, P q) ↔ P p ∧ P p.other := by
  constructor
  · intro h
    exact ⟨h p, h p.other⟩
  · rintro ⟨hp, hother⟩ q
    rcases eq_or_eq_other p q with rfl | rfl
    · exact hp
    · exact hother

end Party

/-- What is owed for a message, and which messages are answers. -/
structure Rules (M : Type*) where
  answers : M → List M
  isAnswer : M → Bool
  isAnswer_of_mem : ∀ {m a}, a ∈ answers m → isAnswer a
  answers_of_isAnswer : ∀ {m}, isAnswer m → answers m = []

/-- What each party has sent, and how many messages of the other one it has taken. -/
structure State (M : Type*) where
  sent : Party → List M
  taken : Party → ℕ

variable {M : Type*}

namespace State

/-- What is on the way to a party. -/
def pending (s : State M) (p : Party) : List M := (s.sent p.other).drop (s.taken p)

/-- A party sends messages. -/
def post (s : State M) (p : Party) (ms : List M) : State M :=
  { s with sent := Function.update s.sent p (s.sent p ++ ms) }

@[simp] lemma taken_post (s : State M) (p : Party) (ms : List M) : (s.post p ms).taken = s.taken :=
  rfl

@[simp] lemma sent_post (s : State M) (p : Party) (ms : List M) :
    (s.post p ms).sent p = s.sent p ++ ms := Function.update_self ..

@[simp] lemma sent_other_post (s : State M) (p : Party) (ms : List M) :
    (s.post p ms).sent p.other = s.sent p.other := Function.update_of_ne p.other_ne ..

@[simp] lemma post_nil (s : State M) (p : Party) : s.post p [] = s := by
  rw [post, List.append_nil, Function.update_eq_self]

@[simp] lemma pending_post (s : State M) (p : Party) (ms : List M) :
    (s.post p ms).pending p = s.pending p := by
  rw [pending, pending, sent_other_post, taken_post]

lemma post_post (s : State M) (p : Party) (ms ms' : List M) :
    (s.post p ms).post p ms' = s.post p (ms ++ ms') := by
  simp only [post, Function.update_self, Function.update_idem, List.append_assoc]

/-- A party takes the next `n` messages and sends what it owes for them. -/
def takes (s : State M) (R : Rules M) (p : Party) (n : ℕ) : State M :=
  { s with taken := Function.update s.taken p (s.taken p + n) }.post p
    (((s.pending p).take n).flatMap R.answers)

end State

inductive Move (M : Type*) where
  | ask (p : Party) (m : M)
  | take (p : Party)

/-- Of its own accord a party sends no answer. A party can take a message when there is one. -/
def step (R : Rules M) (s : State M) : Move M → Option (State M)
  | .ask p m => if R.isAnswer m then none else some (s.post p [m])
  | .take p => if s.pending p = [] then none else some (s.takes R p 1)

variable {R : Rules M} {s : State M} {p : Party}

/-! ### Taking several messages -/

@[simp] lemma taken_takes (n : ℕ) : (s.takes R p n).taken p = s.taken p + n :=
  Function.update_self ..

@[simp] lemma taken_other_takes (n : ℕ) : (s.takes R p n).taken p.other = s.taken p.other :=
  Function.update_of_ne p.other_ne ..

@[simp] lemma sent_takes (n : ℕ) :
    (s.takes R p n).sent p = s.sent p ++ ((s.pending p).take n).flatMap R.answers :=
  State.sent_post _ _ _

@[simp] lemma sent_other_takes (n : ℕ) : (s.takes R p n).sent p.other = s.sent p.other :=
  State.sent_other_post _ _ _

/-- What a party has taken is no longer on its way to it. -/
@[simp] lemma pending_takes (n : ℕ) : (s.takes R p n).pending p = (s.pending p).drop n := by
  rw [State.pending, State.pending, sent_other_takes, taken_takes, List.drop_drop]

lemma takes_zero : s.takes R p 0 = s := by
  rw [State.takes, Nat.add_zero, Function.update_eq_self]
  exact State.post_nil s p

/-- Taking some messages and then others is taking them all. -/
lemma takes_takes (n k : ℕ) : (s.takes R p n).takes R p k = s.takes R p (n + k) := by
  have hanswers : ((s.pending p).take (n + k)).flatMap R.answers =
      ((s.pending p).take n).flatMap R.answers ++
        (((s.pending p).drop n).take k).flatMap R.answers := by
    rw [List.take_add, List.flatMap_append]
  rw [State.takes, pending_takes, taken_takes, State.takes, State.takes, hanswers,
    ← State.post_post, Nat.add_assoc]
  simp only [State.post, Function.update_idem]

/-- As many messages as are on the way can be taken one after another. -/
lemma run_take {n : ℕ} (h : n ≤ (s.pending p).length) :
    Runs.run (step R) s (List.replicate n (.take p)) = some (s.takes R p n) := by
  induction n generalizing s with
  | zero => rw [takes_zero, List.replicate_zero, Runs.run]
  | succ n ih =>
    have hsome : s.pending p ≠ [] := by
      intro hnil
      simp [hnil] at h
    have hrest : n ≤ ((s.takes R p 1).pending p).length := by
      rw [pending_takes, List.length_drop]
      omega
    rw [List.replicate_succ, Runs.run, step, if_neg hsome, Option.bind_some, ih hrest, takes_takes,
      Nat.add_comm]

/-- Messages that are no answers can be sent one after another. -/
lemma run_ask {ms : List M} (h : ∀ m ∈ ms, ¬ R.isAnswer m) :
    Runs.run (step R) s (ms.map (.ask p)) = some (s.post p ms) := by
  induction ms generalizing s with
  | nil => rw [State.post_nil, List.map_nil, Runs.run]
  | cons m ms ih =>
    rw [List.forall_mem_cons] at h
    rw [List.map_cons, Runs.run, step, if_neg h.1, Option.bind_some, ih h.2, State.post_post,
      List.singleton_append]

/-! ### What has been answered -/

/-- The answers that a party has sent are the ones that it owes for what it has taken. -/
structure Balanced (R : Rules M) (s : State M) : Prop where
  taken_le : ∀ p, s.taken p ≤ (s.sent p.other).length
  answered : ∀ p, (s.sent p).filter R.isAnswer =
    ((s.sent p.other).take (s.taken p)).flatMap R.answers

namespace Balanced

lemma filter_answers (R : Rules M) (ms : List M) :
    (ms.flatMap R.answers).filter R.isAnswer = ms.flatMap R.answers := by
  rw [List.filter_eq_self]
  intro a ha
  obtain ⟨m, -, ha⟩ := List.mem_flatMap.mp ha
  exact R.isAnswer_of_mem ha

/-- Nothing is owed for answers. -/
lemma answers_answers (R : Rules M) (ms : List M) :
    (ms.flatMap R.answers).flatMap R.answers = [] := by
  rw [List.flatMap_eq_nil_iff]
  intro a ha
  obtain ⟨m, -, ha⟩ := List.mem_flatMap.mp ha
  exact R.answers_of_isAnswer (R.isAnswer_of_mem ha)

lemma start : Balanced R ⟨fun _ => [], fun _ => 0⟩ where
  taken_le := fun _ => le_rfl
  answered := fun _ => rfl

lemma ask (hs : Balanced R s) {m : M} (hm : ¬ R.isAnswer m) : Balanced R (s.post p [m]) := by
  constructor
  · rw [Party.forall_iff p]
    constructor
    · rw [State.sent_other_post]
      exact hs.taken_le p
    · rw [Party.other_other, State.sent_post, State.taken_post, List.length_append]
      have := hs.taken_le p.other
      rw [Party.other_other] at this
      exact Nat.le_add_right_of_le this
  · have hother := hs.answered p.other
    have hle := hs.taken_le p.other
    rw [Party.other_other] at hother hle
    rw [Party.forall_iff p]
    constructor
    · rw [State.sent_post, State.sent_other_post, List.filter_append, hs.answered p]
      simp [hm]
    · rw [Party.other_other, State.sent_post, State.sent_other_post, State.taken_post,
        List.take_append_of_le_length hle, hother]

lemma takes (hs : Balanced R s) {n : ℕ} (hn : n ≤ (s.pending p).length) :
    Balanced R (s.takes R p n) := by
  have hle := hs.taken_le p
  have hother := hs.answered p.other
  have hleOther := hs.taken_le p.other
  rw [Party.other_other] at hother hleOther
  rw [State.pending, List.length_drop] at hn
  constructor
  · rw [Party.forall_iff p]
    constructor
    · rw [taken_takes, sent_other_takes]
      omega
    · rw [Party.other_other, taken_other_takes, sent_takes, List.length_append]
      exact Nat.le_add_right_of_le hleOther
  · rw [Party.forall_iff p]
    constructor
    · rw [sent_takes, sent_other_takes, taken_takes, List.filter_append, filter_answers,
        hs.answered p, ← List.flatMap_append, State.pending, List.take_add]
    · rw [Party.other_other, sent_takes, sent_other_takes, taken_other_takes,
        List.take_append_of_le_length hleOther, hother]

lemma step (hs : Balanced R s) {t : State M} {m : Move M} (h : Exchange.step R s m = some t) :
    Balanced R t := by
  cases m with
  | ask p m =>
    rw [Exchange.step] at h
    split_ifs at h with hm
    cases h
    exact hs.ask hm
  | take p =>
    rw [Exchange.step] at h
    split_ifs at h with hnil
    cases h
    exact hs.takes (List.length_pos_of_ne_nil hnil)

/-- The answers of a run are those that are owed for what was taken. -/
theorem reachable {t : State M} (hs : Balanced R s) (h : Runs.Reachable (Exchange.step R) s t) :
    Balanced R t :=
  h.invariant _ (fun _ _ _ hu hstep => hu.step hstep) hs

/-- A party for which nothing is on the way has answered everything. -/
lemma answered_of_pending_eq_nil (hs : Balanced R s) (h : s.pending p = []) :
    (s.sent p).filter R.isAnswer = (s.sent p.other).flatMap R.answers := by
  rw [hs.answered p, List.take_of_length_le]
  exact List.drop_eq_nil_iff.mp h

/-- What a party sends comes behind what is on its way already. -/
lemma pending_other_post (hs : Balanced R s) (ms : List M) :
    (s.post p ms).pending p.other = s.pending p.other ++ ms := by
  have hle := hs.taken_le p.other
  rw [Party.other_other] at hle
  rw [State.pending, State.pending, Party.other_other, State.sent_post, State.taken_post,
    List.drop_append_of_le_length hle]

lemma pending_other_takes (hs : Balanced R s) (n : ℕ) :
    (s.takes R p n).pending p.other =
      s.pending p.other ++ ((s.pending p).take n).flatMap R.answers := by
  have hle := hs.taken_le p.other
  rw [Party.other_other] at hle
  rw [State.pending, State.pending, Party.other_other, sent_takes, taken_other_takes,
    List.drop_append_of_le_length hle]

/-- What a party has taken of the other one does not depend on what comes behind it. -/
lemma take_append (hs : Balanced R s) (ms : List M) :
    (s.sent p ++ ms).take (s.taken p.other) = (s.sent p).take (s.taken p.other) := by
  have hle := hs.taken_le p.other
  rw [Party.other_other] at hle
  exact List.take_append_of_le_length hle

end Balanced

/-! ### How an exchange comes to rest -/

/-- A party takes everything that is on its way to it. -/
def takesAll (R : Rules M) (s : State M) (p : Party) : State M := s.takes R p (s.pending p).length

@[simp] lemma pending_takesAll (s : State M) (p : Party) : (takesAll R s p).pending p = [] := by
  rw [takesAll, pending_takes, List.drop_length]

lemma Balanced.takesAll (hs : Balanced R s) (p : Party) : Balanced R (takesAll R s p) :=
  hs.takes le_rfl

lemma Balanced.pending_other_takesAll (hs : Balanced R s) (p : Party) :
    (Exchange.takesAll R s p).pending p.other =
      s.pending p.other ++ (s.pending p).flatMap R.answers := by
  rw [Exchange.takesAll, hs.pending_other_takes, List.take_length]

/-- When no party asks anything, three times of taking everything are enough: there are answers to
what was on its way, and none to the answers. -/
theorem pending_settled (hs : Balanced R s) (p q : Party) :
    (takesAll R (takesAll R (takesAll R s p) p.other) p).pending q = [] := by
  have hfirst := hs.takesAll p
  have hsecond := hfirst.takesAll p.other
  have howed : (takesAll R (takesAll R s p) p.other).pending p =
      (s.pending p.other).flatMap R.answers := by
    have h := hfirst.pending_other_takesAll p.other
    rw [Party.other_other, pending_takesAll, hs.pending_other_takesAll, List.flatMap_append,
      Balanced.answers_answers, List.append_nil, List.nil_append] at h
    exact h
  rcases p.eq_or_eq_other q with rfl | rfl
  · exact pending_takesAll _ _
  · rw [hsecond.pending_other_takesAll, pending_takesAll, howed, Balanced.answers_answers,
      List.append_nil]

end Exchange
