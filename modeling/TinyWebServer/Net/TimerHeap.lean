import TinyWebServer.Library.HeapOrder
import TinyWebServer.Net.ExpiredTimers

/-!
# The order of the timer heap

Every call on the manager leaves the timer that expires first at the front, and changes the timer
of one descriptor only.
-/

namespace TinyWebServer

namespace TimerManager

open HeapOrder

variable {κ : Type*} {m : TimerManager κ}

/-- No timer expires before the one above it. -/
def IsHeap (m : TimerManager κ) : Prop :=
  ∀ (i : ℕ) (above node : TimerNode κ), 0 < i → m.heap[(i - 1) / 2]? = some above →
    m.heap[i]? = some node → above.expire ≤ node.expire

/-- The expiry of the timer at a place, if there is one. -/
def keys (m : TimerManager κ) (i : ℕ) : ℤ := m.heap[i]?.elim 0 (·.expire)

lemma keys_of_getElem? {i : ℕ} {node : TimerNode κ} (h : m.heap[i]? = some node) :
    m.keys i = node.expire := by
  rw [keys, h]
  rfl

lemma isHeap_iff : m.IsHeap ↔ Ordered m.heap.length m.keys := by
  constructor
  · intro h i hpos hi
    have hup := List.getElem?_eq_getElem ((parent_lt hpos).trans hi)
    have hnode := List.getElem?_eq_getElem hi
    rw [keys_of_getElem? hup, keys_of_getElem? hnode]
    exact h i _ _ hpos hup hnode
  · intro h i above node hpos hup hnode
    obtain ⟨hi, -⟩ := List.getElem?_eq_some_iff.mp hnode
    have hstep := h i hpos hi
    rwa [parent, keys_of_getElem? hup, keys_of_getElem? hnode] at hstep

/-- The front timer expires first. -/
lemma IsHeap.front_le (h : m.IsHeap) {front : TimerNode κ} (hfront : m.heap.head? = some front)
    {node : TimerNode κ} (hnode : node ∈ m.heap) : front.expire ≤ node.expire := by
  obtain ⟨i, hi⟩ := List.mem_iff_getElem?.mp hnode
  rw [List.head?_eq_getElem?] at hfront
  obtain ⟨hlt, -⟩ := List.getElem?_eq_some_iff.mp hi
  have hleast := (isHeap_iff.mp h).least hlt
  rwa [keys_of_getElem? hfront, keys_of_getElem? hi] at hleast

/-! ### The sifts -/

lemma less_eq {i j : ℕ} (hi : i < m.heap.length) (hj : j < m.heap.length) :
    m.less i j = true ↔ m.keys i < m.keys j := by
  have hi' := List.getElem?_eq_getElem hi
  have hj' := List.getElem?_eq_getElem hj
  simp only [less, hi', hj', keys_of_getElem? hi', keys_of_getElem? hj', decide_eq_true_eq]

lemma length_swapNode (i j : ℕ) : (m.swapNode i j).heap.length = m.heap.length :=
  (perm_swapNode i j).length_eq

lemma keys_swapNode {i j : ℕ} (hi : i < m.heap.length) (hj : j < m.heap.length) :
    (m.swapNode i j).keys = m.keys ∘ Equiv.swap i j := by
  funext k
  rw [Function.comp_apply, keys, keys,
    getElem?_swapNode (List.getElem?_eq_getElem hi) (List.getElem?_eq_getElem hj)]

/-- A timer that fits on the places below it goes up as far as it must. -/
lemma ordered_siftupLoop {fuel i n : ℕ} (hi : i < n) (hn : n ≤ m.heap.length) (hfuel : i ≤ fuel)
    (h : OrderedBut n m.keys i) (hbelow : Below n m.keys i) :
    Ordered n (siftupLoop fuel m i).keys := by
  induction fuel generalizing m i with
  | zero =>
    refine h.ordered (fun hpos => ?_) hbelow
    omega
  | succ fuel ih =>
    rw [siftupLoop]
    by_cases hpos : 0 < i
    · have hup : (i - 1) / 2 < i := parent_lt hpos
      rw [if_pos hpos]
      dsimp only
      by_cases hless : m.less i ((i - 1) / 2) = true
      · rw [if_pos hless]
        rw [less_eq (by omega) (by omega)] at hless
        obtain ⟨hbut, hbelow'⟩ := h.rise hpos hi hless
        have hkeys := keys_swapNode (show i < m.heap.length by omega)
          (show (i - 1) / 2 < m.heap.length by omega)
        apply ih (by omega) (by rwa [length_swapNode]) (by omega)
        · rw [hkeys]
          exact hbut
        · rw [hkeys]
          exact hbelow'
      · rw [if_neg hless]
        rw [less_eq (by omega) (by omega), not_lt] at hless
        exact h.ordered (fun _ => hless) hbelow
    · rw [if_neg hpos]
      exact h.ordered (fun hpos' => absurd hpos' hpos) hbelow

/-- The place below `i` with the earlier timer. -/
def lowerPlace (m : TimerManager κ) (n i : ℕ) : ℕ :=
  if i * 2 + 1 + 1 < n ∧ m.less (i * 2 + 1 + 1) (i * 2 + 1) then i * 2 + 1 + 1 else i * 2 + 1

lemma siftdownLoop_succ (n fuel i : ℕ) :
    siftdownLoop n (fuel + 1) m i =
      if i * 2 + 1 < n then
        if m.less (m.lowerPlace n i) i then
          siftdownLoop n fuel (m.swapNode i (m.lowerPlace n i)) (m.lowerPlace n i)
        else (m, i)
      else (m, i) := rfl

lemma lowerPlace_spec {n i : ℕ} (hn : n ≤ m.heap.length) (hi : i * 2 + 1 < n) :
    m.lowerPlace n i < n ∧ parent (m.lowerPlace n i) = i ∧ i < m.lowerPlace n i ∧
      ∀ k, 0 < k → k < n → parent k = i → m.keys (m.lowerPlace n i) ≤ m.keys k := by
  have hchild : ∀ k, 0 < k → parent k = i → k = i * 2 + 1 ∨ k = i * 2 + 1 + 1 := by
    intro k hpos hparent
    rw [parent] at hparent
    omega
  rw [lowerPlace]
  split_ifs with hright
  · obtain ⟨hlt, hless⟩ := hright
    rw [less_eq (by omega) (by omega)] at hless
    refine ⟨hlt, by rw [parent]; omega, by omega, fun k hpos hk hparent => ?_⟩
    rcases hchild k hpos hparent with rfl | rfl
    · exact hless.le
    · exact le_rfl
  · refine ⟨hi, by rw [parent]; omega, by omega, fun k hpos hk hparent => ?_⟩
    rcases hchild k hpos hparent with rfl | rfl
    · exact le_rfl
    · by_contra hlt
      rw [not_le] at hlt
      exact hright ⟨hk, (less_eq (by omega) (by omega)).mpr hlt⟩

/-- A timer that expires later than one below it changes places with the earlier of these. -/
lemma orderedBut_sink {n i : ℕ} (hn : n ≤ m.heap.length) (hchild : i * 2 + 1 < n)
    (hless : m.less (m.lowerPlace n i) i = true) (h : OrderedBut n m.keys i) :
    OrderedBut n (m.swapNode i (m.lowerPlace n i)).keys (m.lowerPlace n i) ∧
      Above (m.swapNode i (m.lowerPlace n i)).keys (m.lowerPlace n i) := by
  obtain ⟨hlt, hparent, hgt, hleast⟩ := lowerPlace_spec hn hchild
  rw [less_eq (by omega) (by omega)] at hless
  rw [keys_swapNode (show i < m.heap.length by omega) (hlt.trans_le hn)]
  exact h.sink (Nat.zero_lt_of_lt hgt) hlt hparent hleast hless

/-- A timer that does not move down fits on the places below it. -/
lemma below_of_not_less {n i : ℕ} (hi : i < n) (hn : n ≤ m.heap.length)
    (hless : i * 2 + 1 < n → ¬ m.less (m.lowerPlace n i) i = true) : Below n m.keys i := by
  intro k hpos hk hparent
  have hchild : i * 2 + 1 < n := by
    rw [parent] at hparent
    omega
  obtain ⟨hlt, -, -, hleast⟩ := lowerPlace_spec hn hchild
  have hstays := hless hchild
  rw [less_eq (by omega) (by omega), not_lt] at hstays
  exact hstays.trans (hleast k hpos hk hparent)

/-- A timer that fits on the place above it goes down as far as it must. -/
lemma ordered_siftdownLoop {n fuel i : ℕ} (hi : i < n) (hn : n ≤ m.heap.length)
    (hfuel : n ≤ i + fuel) (h : OrderedBut n m.keys i) (habove : Above m.keys i) :
    Ordered n (siftdownLoop n fuel m i).1.keys ∧ i ≤ (siftdownLoop n fuel m i).2 := by
  induction fuel generalizing m i with
  | zero => omega
  | succ fuel ih =>
    rw [siftdownLoop_succ]
    split_ifs with hchild hless
    · obtain ⟨hlt, -, hgt, -⟩ := lowerPlace_spec hn hchild
      obtain ⟨hbut, habove'⟩ := orderedBut_sink hn hchild hless h
      obtain ⟨hordered, hle⟩ := ih hlt (by rwa [length_swapNode]) (by omega) hbut habove'
      exact ⟨hordered, hgt.le.trans hle⟩
    · exact ⟨h.ordered habove (below_of_not_less hi hn fun _ => hless), le_rfl⟩
    · exact ⟨h.ordered habove (below_of_not_less hi hn fun hlt => absurd hlt hchild), le_rfl⟩

/-- One way or the other, a timer that has changed comes to its place. -/
lemma ordered_restore {n i : ℕ} (hi : i < n) (hn : n ≤ m.heap.length)
    (h : OrderedBut n m.keys i) : Ordered n (m.restore i n).keys := by
  obtain ⟨fuel, rfl⟩ : ∃ fuel, n = fuel + 1 := ⟨n - 1, by omega⟩
  rw [restore, siftdown, siftdownLoop_succ]
  split_ifs with hchild hless
  · obtain ⟨hlt, -, hgt, -⟩ := lowerPlace_spec hn hchild
    obtain ⟨hbut, habove⟩ := orderedBut_sink hn hchild hless h
    have hfuel : fuel + 1 ≤ m.lowerPlace (fuel + 1) i + fuel := by omega
    obtain ⟨hordered, hle⟩ :=
      ordered_siftdownLoop hlt (by rwa [length_swapNode]) hfuel hbut habove
    dsimp only
    rw [if_pos (decide_eq_true (hgt.trans_le hle))]
    exact hordered
  · dsimp only
    rw [if_neg (by simp)]
    exact ordered_siftupLoop hi hn le_rfl h (below_of_not_less hi hn fun _ => hless)
  · dsimp only
    rw [if_neg (by simp)]
    exact ordered_siftupLoop hi hn le_rfl h
      (below_of_not_less hi hn fun hlt => absurd hlt hchild)

/-! ### The calls -/

lemma isHeap_new : (new : TimerManager κ).IsHeap := by
  intro i above node _ habove
  simp [new] at habove

/-- The timer of a descriptor with another expiry. -/
def reset (fd expire : ℤ) (node : TimerNode κ) : TimerNode κ :=
  if node.fd = fd then { node with expire := expire } else node

lemma Indexed.modify_eq_map (h : m.Indexed) {fd expire : ℤ} {i : ℕ} (hfd : m.ref fd = some i) :
    (m.heap.modify i fun node => { node with expire := expire }) = m.heap.map (reset fd expire) := by
  apply List.ext_getElem?
  intro k
  rw [List.getElem?_modify, List.getElem?_map]
  cases hk : m.heap[k]? with
  | none => rfl
  | some node =>
    have href := h.ref_of_getElem? hk
    simp only [Option.map_eq_map, Option.map_some, reset]
    by_cases hik : i = k
    · obtain ⟨node', hnode', hfd'⟩ := (h fd i).mp hfd
      rw [hik, hk, Option.some.injEq] at hnode'
      subst hnode'
      rw [if_pos hik, if_pos hfd']
    · have hne : node.fd ≠ fd := by
        rintro rfl
        exact hik (Option.some.inj (hfd.symm.trans href))
      rw [if_neg hik, if_neg hne]

lemma Indexed.perm_adjustTimer (h : m.Indexed) (fd timeoutMs now : ℤ) :
    (m.adjustTimer fd timeoutMs now).heap.Perm (m.heap.map (reset fd (expireAt now timeoutMs))) := by
  cases hfd : m.ref fd with
  | none =>
    have hsame : m.heap.map (reset fd (expireAt now timeoutMs)) = m.heap := by
      refine (List.map_congr_left fun node hnode => ?_).trans (List.map_id _)
      refine if_neg fun heq => ?_
      exact (h.ref_ne_none_iff fd).mpr ⟨node, hnode, heq⟩ hfd
    simp only [TimerManager.adjustTimer, hfd, hsame, List.Perm.refl]
  | some i =>
    rw [← h.modify_eq_map hfd]
    exact (h.rearranges_adjustTimer hfd timeoutMs now).perm

lemma IsHeap.adjustTimer (hm : m.IsHeap) (h : m.Indexed) (fd timeoutMs now : ℤ) :
    (m.adjustTimer fd timeoutMs now).IsHeap := by
  have hlength := (h.perm_adjustTimer fd timeoutMs now).length_eq
  rw [List.length_map] at hlength
  cases hfd : m.ref fd with
  | none =>
    simp only [TimerManager.adjustTimer, hfd]
    exact hm
  | some i =>
    obtain ⟨node, hnode, -⟩ := (h fd i).mp hfd
    obtain ⟨hi, -⟩ := List.getElem?_eq_some_iff.mp hnode
    rw [isHeap_iff] at hm ⊢
    rw [hlength]
    simp only [TimerManager.adjustTimer, hfd, List.length_modify]
    refine ordered_restore hi (by rw [List.length_modify]) (hm.orderedBut fun j hj hji => ?_)
    rw [keys, keys]
    dsimp only
    rw [List.getElem?_modify]
    simp only [if_neg (Ne.symm hji)]
    cases m.heap[j]? <;> rfl

lemma Indexed.perm_addTimer (h : m.Indexed) {fd : ℤ} (hfd : m.ref fd = none) (timeoutMs : ℤ)
    (cb : Option κ) (now : ℤ) :
    (m.addTimer fd timeoutMs cb now).heap.Perm (m.heap ++ [⟨fd, expireAt now timeoutMs, cb⟩]) :=
  (h.rearranges_addTimer hfd timeoutMs cb now).perm

lemma addTimer_of_ne_none {fd : ℤ} (hfd : m.ref fd ≠ none) (timeoutMs : ℤ) (cb : Option κ)
    (now : ℤ) : m.addTimer fd timeoutMs cb now = m.adjustTimer fd timeoutMs now := by
  obtain ⟨i, hi⟩ := Option.ne_none_iff_exists'.mp hfd
  simp only [addTimer, hi]

lemma IsHeap.addTimer (hm : m.IsHeap) (h : m.Indexed) (fd timeoutMs : ℤ) (cb : Option κ)
    (now : ℤ) : (m.addTimer fd timeoutMs cb now).IsHeap := by
  by_cases hfd : m.ref fd = none
  · have hlength := (h.perm_addTimer hfd timeoutMs cb now).length_eq
    rw [List.length_append, List.length_singleton] at hlength
    rw [isHeap_iff] at hm ⊢
    rw [hlength]
    simp only [TimerManager.addTimer, hfd, siftup, List.length_append, List.length_singleton,
      Nat.add_sub_cancel]
    refine ordered_siftupLoop (Nat.lt_succ_self _) (by simp) le_rfl ?_ ?_
    · -- The new timer comes behind a heap.
      constructor
      · intro j hpos hj hne _
        have hup := parent_lt hpos
        rw [keys, keys]
        dsimp only
        rw [List.getElem?_append_left (by omega), List.getElem?_append_left (by omega)]
        exact hm j hpos (by omega)
      · intro j hpos hj hparent
        have hup := parent_lt hpos
        omega
    · intro j hpos hj hparent
      have hup := parent_lt hpos
      omega
  · rw [addTimer_of_ne_none hfd]
    exact hm.adjustTimer h fd timeoutMs now

/-- The timer that `del_` takes out, and the others. -/
lemma Indexed.perm_del (h : m.Indexed) {i : ℕ} {node : TimerNode κ} (hi : m.heap[i]? = some node) :
    m.heap.Perm (node :: (m.del i).heap) := by
  obtain ⟨hmoved, hlast⟩ := h.moveLast hi
  rw [h.del_eq hi]
  refine hmoved.perm.symm.trans ?_
  have hsplit : (m.moveLast i).heap = (m.moveLast i).heap.dropLast ++ [node] := by
    obtain ⟨front, hfront⟩ := List.getLast?_eq_some_iff.mp hlast
    rw [hfront, List.dropLast_concat]
  have hswap : ((m.moveLast i).heap.dropLast ++ [node]).Perm
      (node :: (m.moveLast i).heap.dropLast) := List.perm_append_singleton _ _
  rwa [← hsplit] at hswap

lemma IsHeap.del (hm : m.IsHeap) (h : m.Indexed) {i : ℕ} {node : TimerNode κ}
    (hi : m.heap[i]? = some node) : (m.del i).IsHeap := by
  obtain ⟨hlt, -⟩ := List.getElem?_eq_some_iff.mp hi
  rw [isHeap_iff] at hm
  have hordered : Ordered (m.heap.length - 1) (m.moveLast i).keys := by
    rw [TimerManager.moveLast]
    split_ifs with hlast
    · refine ordered_restore hlast (by rw [length_swapNode]; omega) ?_
      have hfront : Ordered (m.heap.length - 1) m.keys := hm.mono (Nat.sub_le _ _)
      refine hfront.orderedBut fun j hj hji => ?_
      rw [keys_swapNode hlt (by omega), comp_swap_of_ne _ hji hj.ne]
    · exact hm.mono (Nat.sub_le _ _)
  have hlength := (h.moveLast hi).1.perm.length_eq
  rw [isHeap_iff, h.del_eq hi]
  dsimp only
  rw [List.length_dropLast, hlength]
  refine hordered.congr fun j hj => ?_
  rw [keys, keys]
  dsimp only
  rw [List.getElem?_dropLast, if_pos (by omega)]

lemma IsHeap.removeTimer (hm : m.IsHeap) (h : m.Indexed) (fd : ℤ) : (m.removeTimer fd).IsHeap := by
  cases hfd : m.ref fd with
  | none =>
    simp only [TimerManager.removeTimer, hfd]
    exact hm
  | some i =>
    obtain ⟨node, hnode, -⟩ := (h fd i).mp hfd
    simp only [TimerManager.removeTimer, hfd]
    exact hm.del h hnode

lemma IsHeap.apply (hm : m.IsHeap) (h : m.Indexed) (call : TimerCall κ) :
    (m.apply call).IsHeap := by
  cases call with
  | add fd timeoutMs cb now => exact hm.addTimer h fd timeoutMs cb now
  | adjust fd timeoutMs now => exact hm.adjustTimer h fd timeoutMs now
  | remove fd => exact hm.removeTimer h fd

end TimerManager

end TinyWebServer
