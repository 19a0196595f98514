import Mathlib

/-!
# Heap order

Keys in the places `0`, `1`, `2` and so on, where the places `2 * i + 1` and `2 * i + 2` are below
the place `i`. A key that is out of order goes to its place by swaps with a neighbour, up or down.
-/

namespace HeapOrder

section Swap

variable {β : Type*} (f : ℕ → β) {i j k : ℕ}

lemma comp_swap_left : (f ∘ Equiv.swap i j) i = f j := by
  rw [Function.comp_apply, Equiv.swap_apply_left]

lemma comp_swap_right : (f ∘ Equiv.swap i j) j = f i := by
  rw [Function.comp_apply, Equiv.swap_apply_right]

lemma comp_swap_of_ne (hki : k ≠ i) (hkj : k ≠ j) : (f ∘ Equiv.swap i j) k = f k := by
  rw [Function.comp_apply, Equiv.swap_apply_of_ne_of_ne hki hkj]

end Swap

variable {β : Type*} [LinearOrder β] {n : ℕ} {f g : ℕ → β} {i j : ℕ}

/-- The place above another one; the topmost place counts as above itself. -/
def parent (i : ℕ) : ℕ := (i - 1) / 2

lemma parent_lt (h : 0 < i) : parent i < i := by
  rw [parent]
  omega

/-- Of the first `n` keys none is smaller than the one above it. -/
def Ordered (n : ℕ) (f : ℕ → β) : Prop := ∀ j, 0 < j → j < n → f (parent j) ≤ f j

/-- The key at a place is not smaller than the one above it. -/
def Above (f : ℕ → β) (i : ℕ) : Prop := 0 < i → f (parent i) ≤ f i

/-- The key at a place is not larger than those below it. -/
def Below (n : ℕ) (f : ℕ → β) (i : ℕ) : Prop := ∀ j, 0 < j → j < n → parent j = i → f i ≤ f j

/-- The order holds where the place `i` is left out: for the other pairs, and from the place above
it to those below it. -/
structure OrderedBut (n : ℕ) (f : ℕ → β) (i : ℕ) : Prop where
  apart : ∀ j, 0 < j → j < n → j ≠ i → parent j ≠ i → f (parent j) ≤ f j
  around : ∀ j, 0 < j → j < n → parent j = i → 0 < i → f (parent i) ≤ f j

/-- The topmost key is the least. -/
lemma Ordered.least (h : Ordered n f) (hi : i < n) : f 0 ≤ f i := by
  induction i using Nat.strongRecOn with
  | ind i ih =>
    rcases Nat.eq_zero_or_pos i with rfl | hpos
    · exact le_rfl
    · have hlt := parent_lt hpos
      exact (ih (parent i) hlt (hlt.trans hi)).trans (h i hpos hi)

lemma Ordered.congr (h : Ordered n f) (hfg : ∀ j < n, g j = f j) : Ordered n g := by
  intro j hpos hj
  rw [hfg j hj, hfg _ ((parent_lt hpos).trans hj)]
  exact h j hpos hj

lemma Ordered.mono {k : ℕ} (h : Ordered n f) (hk : k ≤ n) : Ordered k f :=
  fun j hpos hj => h j hpos (hj.trans_le hk)

/-- Another key at one place leaves the order around it. -/
lemma Ordered.orderedBut (h : Ordered n f) (hfg : ∀ j < n, j ≠ i → g j = f j) :
    OrderedBut n g i := by
  constructor
  · intro j hpos hj hji hparent
    rw [hfg j hj hji, hfg _ ((parent_lt hpos).trans hj) hparent]
    exact h j hpos hj
  · intro j hpos hj hparent hi
    have hij : i < j := hparent ▸ parent_lt hpos
    have hup := parent_lt hi
    rw [hfg j hj hij.ne', hfg _ (by omega) hup.ne]
    have hstep := h j hpos hj
    rw [hparent] at hstep
    exact (h i hi (hij.trans hj)).trans hstep

/-- A key that fits on both sides is at its place. -/
lemma OrderedBut.ordered (h : OrderedBut n f i) (habove : Above f i) (hbelow : Below n f i) :
    Ordered n f := by
  intro j hpos hj
  by_cases hji : j = i
  · subst hji
    exact habove hpos
  · by_cases hparent : parent j = i
    · rw [hparent]
      exact hbelow j hpos hj hparent
    · exact h.apart j hpos hj hji hparent

/-- When a key has gone up, nothing below its new place is smaller than the key it has passed. -/
lemma OrderedBut.passed_le (h : OrderedBut n f i) (hpos : 0 < i) (hj : 0 < j) (hjn : j < n)
    (hparent : parent j = parent i) : f (parent i) ≤ (f ∘ Equiv.swap i (parent i)) j := by
  by_cases hji : j = i
  · rw [hji, comp_swap_left]
  · have hjp : j ≠ parent i := by
      rintro rfl
      exact (parent_lt hj).ne hparent
    rw [comp_swap_of_ne f hji hjp, ← hparent]
    exact h.apart j hj hjn hji (hparent ▸ (parent_lt hpos).ne)

/-- A key that is smaller than the one above it goes up. -/
lemma OrderedBut.rise (h : OrderedBut n f i) (hpos : 0 < i) (hi : i < n)
    (hlt : f i < f (parent i)) :
    OrderedBut n (f ∘ Equiv.swap i (parent i)) (parent i) ∧
      Below n (f ∘ Equiv.swap i (parent i)) (parent i) := by
  have hup := parent_lt hpos
  refine ⟨⟨?_, ?_⟩, ?_⟩
  · intro j hj hjn hjp hparent
    by_cases hji : j = i
    · exact absurd (congrArg parent hji) hparent
    rw [comp_swap_of_ne f hji hjp]
    by_cases hji' : parent j = i
    · rw [hji', comp_swap_left]
      exact h.around j hj hjn hji' hpos
    · rw [comp_swap_of_ne f hji' hparent]
      exact h.apart j hj hjn hji hji'
  · intro j hj hjn hparent hp
    have hup' := parent_lt hp
    rw [comp_swap_of_ne f (by omega) hup'.ne]
    have hgrand : f (parent (parent i)) ≤ f (parent i) :=
      h.apart (parent i) hp (hup.trans hi) hup.ne (by omega)
    exact hgrand.trans (h.passed_le hpos hj hjn hparent)
  · intro j hj hjn hparent
    rw [comp_swap_right]
    exact hlt.le.trans (h.passed_le hpos hj hjn hparent)

/-- A key that is larger than the smaller one of those below it goes down. -/
lemma OrderedBut.sink (h : OrderedBut n f i) (hpos : 0 < j) (hj : j < n) (hparent : parent j = i)
    (hleast : ∀ k, 0 < k → k < n → parent k = i → f j ≤ f k) (hlt : f j < f i) :
    OrderedBut n (f ∘ Equiv.swap i j) j ∧ Above (f ∘ Equiv.swap i j) j := by
  have hij : i < j := hparent ▸ parent_lt hpos
  refine ⟨⟨?_, ?_⟩, ?_⟩
  · intro k hk hkn hkj hkp
    by_cases hki : k = i
    · subst hki
      have hup := parent_lt hk
      rw [comp_swap_left, comp_swap_of_ne f hup.ne (by omega)]
      exact h.around j hpos hj hparent hk
    · rw [comp_swap_of_ne f hki hkj]
      by_cases hkp' : parent k = i
      · rw [hkp', comp_swap_left]
        exact hleast k hk hkn hkp'
      · rw [comp_swap_of_ne f hkp' hkp]
        exact h.apart k hk hkn hki hkp'
  · intro k hk hkn hkp _
    have hjk : j < k := hkp ▸ parent_lt hk
    rw [hparent, comp_swap_left, comp_swap_of_ne f (by omega) hjk.ne']
    have hstep := h.apart k hk hkn (by omega) (by omega)
    rwa [hkp] at hstep
  · intro _
    rw [hparent, comp_swap_left, comp_swap_right]
    exact hlt.le

end HeapOrder
