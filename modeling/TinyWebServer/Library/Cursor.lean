import TinyWebServer.Library.Bytes

/-!
# Programs that read through a cursor

A cursor is a position in a memory and the number of bytes that are left there. A program examines
bytes, moves the cursor and may fail; the addresses that it examined are recorded with its result.
A program is specified by a condition on how it ends, and the rules carry along that it examines
nothing but the bytes that are left to it and that the cursor only moves towards their end.
-/

structure Cursor where
  data : ℕ
  remaining : ℕ

namespace Cursor

/-- The address behind the last byte. -/
def stop (c : Cursor) : ℕ := c.data + c.remaining

def advance (c : Cursor) (n : ℕ) : Cursor := ⟨c.data + n, c.remaining - n⟩

lemma stop_advance {c : Cursor} {n : ℕ} (h : n ≤ c.remaining) : (c.advance n).stop = c.stop := by
  simp only [stop, advance]
  omega

/-- The bytes from an address on. -/
def slice (mem : ℕ → UInt8) : ℕ → ℕ → Bytes
  | _, 0 => []
  | a, n + 1 => mem a :: slice mem (a + 1) n

/-- The bytes that are left. -/
def rest (mem : ℕ → UInt8) (c : Cursor) : Bytes := slice mem c.data c.remaining

variable {mem : ℕ → UInt8}

lemma length_slice (a n : ℕ) : (slice mem a n).length = n := by
  induction n generalizing a with
  | zero => rfl
  | succ n ih => rw [slice, List.length_cons, ih]

lemma length_rest (c : Cursor) : (c.rest mem).length = c.remaining := length_slice _ _

lemma rest_of_remaining_eq_zero {c : Cursor} (h : c.remaining = 0) : c.rest mem = [] := by
  rw [rest, h, slice]

lemma rest_eq_cons {c : Cursor} (h : 0 < c.remaining) :
    c.rest mem = mem c.data :: (c.advance 1).rest mem := by
  obtain ⟨n, hn⟩ := Nat.exists_eq_add_of_le' h
  rw [rest, hn, slice, rest, advance, hn, Nat.add_sub_cancel]

lemma take_slice {a n k : ℕ} (h : k ≤ n) : (slice mem a n).take k = slice mem a k := by
  induction k generalizing a n with
  | zero => rw [List.take_zero, slice]
  | succ k ih =>
    obtain ⟨n, rfl⟩ := Nat.exists_eq_add_of_le' (Nat.one_le_of_lt h)
    rw [slice, slice, List.take_succ_cons, ih (by omega)]

lemma drop_slice {a n k : ℕ} (h : k ≤ n) : (slice mem a n).drop k = slice mem (a + k) (n - k) := by
  induction k generalizing a n with
  | zero => rfl
  | succ k ih =>
    obtain ⟨n, rfl⟩ := Nat.exists_eq_add_of_le' (Nat.one_le_of_lt h)
    rw [slice, List.drop_succ_cons, ih (by omega), Nat.add_right_comm, Nat.add_assoc,
      Nat.add_sub_add_right]

lemma drop_rest {c : Cursor} {k : ℕ} (h : k ≤ c.remaining) :
    (c.rest mem).drop k = (c.advance k).rest mem := drop_slice h

end Cursor

/-- How a program ends. A loop whose turns are counted may use up its count. -/
inductive Ending (ε α : Type) where
  | ok (value : α)
  | failed (err : ε)
  | outOfFuel

/-- What is known after a program. -/
structure Reading (σ ε α : Type) where
  outcome : Ending ε α
  state : σ
  cursor : Cursor
  /-- The addresses of the bytes that the program has looked at. -/
  examined : List ℕ

/-- A program over a memory, a state of its own and a cursor. -/
def Reader (σ ε α : Type) : Type := (ℕ → UInt8) → σ → Cursor → Reading σ ε α

namespace Reader

variable {σ ε α β : Type}

def ret (value : α) : Reader σ ε α := fun _ s c => ⟨.ok value, s, c, []⟩

def andThen (p : Reader σ ε α) (f : α → Reader σ ε β) : Reader σ ε β := fun mem s c =>
  let first := p mem s c
  match first.outcome with
  | .ok value =>
    let second := f value mem first.state first.cursor
    { second with examined := first.examined ++ second.examined }
  | .failed err => ⟨.failed err, first.state, first.cursor, first.examined⟩
  | .outOfFuel => ⟨.outOfFuel, first.state, first.cursor, first.examined⟩

instance : Monad (Reader σ ε) where
  pure := ret
  bind := andThen

def fail (err : ε) : Reader σ ε α := fun _ s c => ⟨.failed err, s, c, []⟩

def outOfFuel : Reader σ ε α := fun _ s c => ⟨.outOfFuel, s, c, []⟩

def remaining : Reader σ ε ℕ := fun _ s c => ⟨.ok c.remaining, s, c, []⟩

/-- `data[0]`. -/
def first : Reader σ ε UInt8 := fun mem s c => ⟨.ok (mem c.data), s, c, [c.data]⟩

/-- `data += n` and `remaining -= n`. -/
def advance (n : ℕ) : Reader σ ε Unit := fun _ s c => ⟨.ok (), s, c.advance n, []⟩

/-- A copy of `n` bytes from the cursor on. -/
def assign (n : ℕ) : Reader σ ε Bytes := fun mem s c =>
  ⟨.ok (Cursor.slice mem c.data n), s, c, List.range' c.data n⟩

def getState : Reader σ ε σ := fun _ s c => ⟨.ok s, s, c, []⟩

def setState (s : σ) : Reader σ ε Unit := fun _ _ c => ⟨.ok (), s, c, []⟩

/-! ### What a program ensures -/

/-- The program looks at nothing but the bytes that are left, the end of these stays where it is,
and the program ends as the condition says. -/
structure Ensures (mem : ℕ → UInt8) (p : Reader σ ε α) (s : σ) (c : Cursor)
    (Q : Ending ε α → σ → Cursor → Prop) : Prop where
  examined : ∀ a ∈ (p mem s c).examined, c.data ≤ a ∧ a < c.stop
  data_le : c.data ≤ (p mem s c).cursor.data
  stop_eq : (p mem s c).cursor.stop = c.stop
  post : Q (p mem s c).outcome (p mem s c).state (p mem s c).cursor

variable {mem : ℕ → UInt8} {s : σ} {c : Cursor} {Q : Ending ε α → σ → Cursor → Prop}

/-- A program that looks at nothing and stays where it is. -/
lemma ensures_of_still {p : Reader σ ε α} (hexamined : (p mem s c).examined = [])
    (hcursor : (p mem s c).cursor = c)
    (hpost : Q (p mem s c).outcome (p mem s c).state c) : p.Ensures mem s c Q where
  examined := by simp [hexamined]
  data_le := by rw [hcursor]
  stop_eq := by rw [hcursor]
  post := by rwa [hcursor]

lemma ensures_pure {value : α} (h : Q (.ok value) s c) :
    (pure value : Reader σ ε α).Ensures mem s c Q := ensures_of_still rfl rfl h

lemma ensures_fail {err : ε} (h : Q (.failed err) s c) :
    (fail err : Reader σ ε α).Ensures mem s c Q := ensures_of_still rfl rfl h

/-- A program followed by another one. -/
lemma ensures_bind {p : Reader σ ε β} {f : β → Reader σ ε α}
    {R : Ending ε β → σ → Cursor → Prop} (hp : p.Ensures mem s c R)
    (hok : ∀ value s' c', c.data ≤ c'.data → c'.stop = c.stop → R (.ok value) s' c' →
      (f value).Ensures mem s' c' Q)
    (hfailed : ∀ err s' c', R (.failed err) s' c' → Q (.failed err) s' c')
    (hfuel : ∀ s' c', R .outOfFuel s' c' → Q .outOfFuel s' c') :
    (p >>= f).Ensures mem s c Q := by
  obtain ⟨hexamined, hdata, hstop, hpost⟩ := hp
  have hbind : (p >>= f) mem s c = p.andThen f mem s c := rfl
  rw [andThen] at hbind
  cases hout : (p mem s c).outcome with
  | ok value =>
    rw [hout] at hpost hbind
    obtain ⟨hexamined', hdata', hstop', hpost'⟩ := hok value _ _ hdata hstop hpost
    constructor <;> rw [hbind]
    · intro a ha
      rcases List.mem_append.mp ha with ha | ha
      · exact hexamined a ha
      · obtain ⟨hlower, hupper⟩ := hexamined' a ha
        exact ⟨hdata.trans hlower, hstop ▸ hupper⟩
    · exact hdata.trans hdata'
    · exact hstop'.trans hstop
    · exact hpost'
  | failed err =>
    rw [hout] at hpost hbind
    constructor <;> rw [hbind]
    · exact hexamined
    · exact hdata
    · exact hstop
    · exact hfailed _ _ _ hpost
  | outOfFuel =>
    rw [hout] at hpost hbind
    constructor <;> rw [hbind]
    · exact hexamined
    · exact hdata
    · exact hstop
    · exact hfuel _ _ hpost

/-- A first step that always succeeds. -/
lemma ensures_step {p : Reader σ ε β} {f : β → Reader σ ε α} {value : β} {s' : σ} {c' : Cursor}
    (hp : p.Ensures mem s c fun out s₁ c₁ => out = .ok value ∧ s₁ = s' ∧ c₁ = c')
    (h : (f value).Ensures mem s' c' Q) : (p >>= f).Ensures mem s c Q := by
  refine ensures_bind hp ?_ ?_ ?_
  · rintro _ _ _ - - ⟨hvalue, rfl, rfl⟩
    cases hvalue
    exact h
  · rintro _ _ _ ⟨hout, -⟩
    cases hout
  · rintro _ _ ⟨hout, -⟩
    cases hout

lemma ensures_remaining_bind {f : ℕ → Reader σ ε α}
    (h : (f c.remaining).Ensures mem s c Q) : (remaining >>= f).Ensures mem s c Q :=
  ensures_step (ensures_of_still rfl rfl ⟨rfl, rfl, rfl⟩) h

/-- A routine that first tests whether any byte is left. -/
lemma ensures_test_remaining {p q : Reader σ ε α} (hp : c.rest mem = [] → p.Ensures mem s c Q)
    (hq : 0 < c.remaining → c.rest mem = mem c.data :: (c.advance 1).rest mem →
      q.Ensures mem s c Q) :
    (remaining >>= fun n => if n = 0 then p else q).Ensures mem s c Q := by
  apply ensures_remaining_bind
  rcases Nat.eq_zero_or_pos c.remaining with hzero | hpos
  · rw [if_pos hzero]
    exact hp (Cursor.rest_of_remaining_eq_zero hzero)
  · rw [if_neg hpos.ne']
    exact hq hpos (Cursor.rest_eq_cons hpos)

lemma ensures_getState_bind {f : σ → Reader σ ε α} (h : (f s).Ensures mem s c Q) :
    (getState >>= f).Ensures mem s c Q :=
  ensures_step (ensures_of_still rfl rfl ⟨rfl, rfl, rfl⟩) h

lemma ensures_setState_bind {f : Unit → Reader σ ε α} {s' : σ}
    (h : (f ()).Ensures mem s' c Q) : (setState s' >>= f).Ensures mem s c Q :=
  ensures_step (ensures_of_still rfl rfl ⟨rfl, rfl, rfl⟩) h

lemma ensures_first_bind {f : UInt8 → Reader σ ε α} (hpos : 0 < c.remaining)
    (h : (f (mem c.data)).Ensures mem s c Q) : (first >>= f).Ensures mem s c Q := by
  refine ensures_step ⟨?_, le_refl _, rfl, rfl, rfl, rfl⟩ h
  intro a ha
  rw [List.mem_singleton.mp ha]
  exact ⟨le_refl _, Nat.lt_add_of_pos_right hpos⟩

lemma ensures_advance_bind {f : Unit → Reader σ ε α} {n : ℕ} (hn : n ≤ c.remaining)
    (h : (f ()).Ensures mem s (c.advance n) Q) : (advance n >>= f).Ensures mem s c Q :=
  ensures_step ⟨by simp [advance], Nat.le_add_right _ _, Cursor.stop_advance hn, rfl, rfl, rfl⟩ h

lemma ensures_assign_bind {f : Bytes → Reader σ ε α} {n : ℕ} (hn : n ≤ c.remaining)
    (h : (f (Cursor.slice mem c.data n)).Ensures mem s c Q) :
    (assign n >>= f).Ensures mem s c Q := by
  refine ensures_step ⟨?_, le_refl _, rfl, rfl, rfl, rfl⟩ h
  intro a ha
  have hrange : c.data ≤ a ∧ a < c.data + n := List.mem_range'_1.mp ha
  rw [Cursor.stop]
  omega

lemma Ensures.mono {p : Reader σ ε α} {R : Ending ε α → σ → Cursor → Prop}
    (h : p.Ensures mem s c Q) (himp : ∀ out s' c', Q out s' c' → R out s' c') :
    p.Ensures mem s c R :=
  ⟨h.examined, h.data_le, h.stop_eq, himp _ _ _ h.post⟩

end Reader
