import TinyWebServer.Net.TimerManager

/-!
# The index of the timer heap

The map of the manager finds exactly the timers of its heap, whatever is called.
-/

namespace TinyWebServer

namespace TimerManager

variable {κ : Type*} {m : TimerManager κ}

/-- The map finds exactly the timers of the heap, each at its place. -/
def Indexed (m : TimerManager κ) : Prop :=
  ∀ fd i, m.ref fd = some i ↔ ∃ node, m.heap[i]? = some node ∧ node.fd = fd

lemma indexed_new : (new : TimerManager κ).Indexed := by
  intro fd i
  simp [new]

lemma Indexed.ref_of_getElem? (h : m.Indexed) {i : ℕ} {node : TimerNode κ}
    (hi : m.heap[i]? = some node) : m.ref node.fd = some i :=
  (h node.fd i).mpr ⟨node, hi, rfl⟩

/-- No descriptor has two timers. -/
lemma Indexed.eq_of_fd_eq (h : m.Indexed) {i j : ℕ} {a b : TimerNode κ}
    (hi : m.heap[i]? = some a) (hj : m.heap[j]? = some b) (hfd : a.fd = b.fd) : i = j := by
  have ha := h.ref_of_getElem? hi
  have hb := h.ref_of_getElem? hj
  rw [hfd, hb] at ha
  exact (Option.some.inj ha).symm

lemma Indexed.ref_ne_none_iff (h : m.Indexed) (fd : ℤ) :
    m.ref fd ≠ none ↔ ∃ node ∈ m.heap, node.fd = fd := by
  rw [Option.ne_none_iff_exists']
  constructor
  · rintro ⟨i, hi⟩
    obtain ⟨node, hnode, hfd⟩ := (h fd i).mp hi
    exact ⟨node, List.mem_of_getElem? hnode, hfd⟩
  · rintro ⟨node, hmem, rfl⟩
    obtain ⟨i, hi⟩ := List.mem_iff_getElem?.mp hmem
    exact ⟨i, h.ref_of_getElem? hi⟩

/-! ### The sifts -/

/-- The timers are the same in another order, and the map has followed. -/
structure Rearranges (m m' : TimerManager κ) : Prop where
  indexed : m'.Indexed
  perm : m'.heap.Perm m.heap

lemma Rearranges.refl (h : m.Indexed) : Rearranges m m := ⟨h, List.Perm.refl _⟩

lemma Rearranges.trans {m' m'' : TimerManager κ} (h : Rearranges m m') (h' : Rearranges m' m'') :
    Rearranges m m'' :=
  ⟨h'.indexed, h'.perm.trans h.perm⟩

lemma Rearranges.ref_ne_none_iff {m' : TimerManager κ} (h : Rearranges m m') (hm : m.Indexed)
    (fd : ℤ) : m'.ref fd ≠ none ↔ m.ref fd ≠ none := by
  rw [h.indexed.ref_ne_none_iff, hm.ref_ne_none_iff]
  simp only [h.perm.mem_iff]

lemma swapNode_eq {i j : ℕ} {a b : TimerNode κ} (hi : m.heap[i]? = some a)
    (hj : m.heap[j]? = some b) :
    m.swapNode i j =
      { heap := (m.heap.set i b).set j a
        ref := Function.update (Function.update m.ref b.fd (some i)) a.fd (some j) } := by
  simp only [swapNode, hi, hj]

lemma swapNode_cases (i j : ℕ) :
    (∃ a b, m.heap[i]? = some a ∧ m.heap[j]? = some b) ∨ m.swapNode i j = m := by
  cases hi : m.heap[i]? with
  | none => exact Or.inr (by simp [swapNode, hi])
  | some a =>
    cases hj : m.heap[j]? with
    | none => exact Or.inr (by simp [swapNode, hi, hj])
    | some b => exact Or.inl ⟨a, b, rfl, rfl⟩

lemma getElem?_swapNode {i j : ℕ} {a b : TimerNode κ} (hi : m.heap[i]? = some a)
    (hj : m.heap[j]? = some b) (k : ℕ) :
    (m.swapNode i j).heap[k]? = m.heap[Equiv.swap i j k]? := by
  obtain ⟨hilt, -⟩ := List.getElem?_eq_some_iff.mp hi
  obtain ⟨hjlt, -⟩ := List.getElem?_eq_some_iff.mp hj
  rw [swapNode_eq hi hj]
  by_cases hkj : k = j
  · subst hkj
    rw [Equiv.swap_apply_right, hi]
    exact List.getElem?_set_self (by rwa [List.length_set])
  · simp only [List.getElem?_set_ne (Ne.symm hkj)]
    by_cases hki : k = i
    · subst hki
      rw [Equiv.swap_apply_left, hj]
      exact List.getElem?_set_self hilt
    · rw [Equiv.swap_apply_of_ne_of_ne hki hkj]
      exact List.getElem?_set_ne (Ne.symm hki)

/-- The map follows the swap. -/
lemma Indexed.ref_swapNode (h : m.Indexed) {i j : ℕ} {a b : TimerNode κ}
    (hi : m.heap[i]? = some a) (hj : m.heap[j]? = some b) (fd : ℤ) :
    (m.swapNode i j).ref fd = (m.ref fd).map (Equiv.swap i j) := by
  have href : (m.swapNode i j).ref fd =
      Function.update (Function.update m.ref b.fd (some i)) a.fd (some j) fd := by
    rw [swapNode_eq hi hj]
  rw [href]
  by_cases ha : fd = a.fd
  · rw [ha, Function.update_self, h.ref_of_getElem? hi]
    simp
  · rw [Function.update_of_ne ha]
    by_cases hb : fd = b.fd
    · rw [hb, Function.update_self, h.ref_of_getElem? hj]
      simp
    · rw [Function.update_of_ne hb]
      cases hfd : m.ref fd with
      | none => rfl
      | some k =>
        obtain ⟨node, hnode, rfl⟩ := (h fd k).mp hfd
        have hki : k ≠ i := by
          rintro rfl
          exact ha (congrArg TimerNode.fd (Option.some.inj (hnode.symm.trans hi)))
        have hkj : k ≠ j := by
          rintro rfl
          exact hb (congrArg TimerNode.fd (Option.some.inj (hnode.symm.trans hj)))
        rw [Option.map_some, Equiv.swap_apply_of_ne_of_ne hki hkj]

lemma perm_swapNode (i j : ℕ) : (m.swapNode i j).heap.Perm m.heap := by
  rcases swapNode_cases (m := m) i j with ⟨a, b, hi, hj⟩ | heq
  · obtain ⟨hilt, rfl⟩ := List.getElem?_eq_some_iff.mp hi
    obtain ⟨hjlt, rfl⟩ := List.getElem?_eq_some_iff.mp hj
    rw [swapNode_eq hi hj]
    exact List.set_set_perm hilt hjlt
  · rw [heq]

lemma Indexed.swapNode (h : m.Indexed) (i j : ℕ) : Rearranges m (m.swapNode i j) := by
  refine ⟨?_, perm_swapNode i j⟩
  rcases swapNode_cases (m := m) i j with ⟨a, b, hi, hj⟩ | heq
  · intro fd k
    rw [h.ref_swapNode hi hj, getElem?_swapNode hi hj, ← h, Option.map_eq_some_iff]
    constructor
    · rintro ⟨l, hl, rfl⟩
      rwa [Equiv.swap_apply_self]
    · intro hk
      exact ⟨_, hk, Equiv.swap_apply_self i j k⟩
  · rw [heq]
    exact h

/-- A swap leaves the other places alone. -/
lemma getElem?_swapNode_of_ne {i j k : ℕ} (hi : k ≠ i) (hj : k ≠ j) :
    (m.swapNode i j).heap[k]? = m.heap[k]? := by
  rcases swapNode_cases (m := m) i j with ⟨a, b, ha, hb⟩ | heq
  · rw [getElem?_swapNode ha hb, Equiv.swap_apply_of_ne_of_ne hi hj]
  · rw [heq]

lemma rearranges_siftupLoop (h : m.Indexed) (fuel i : ℕ) : Rearranges m (siftupLoop fuel m i) := by
  induction fuel generalizing m i with
  | zero => exact Rearranges.refl h
  | succ fuel ih =>
    simp only [siftupLoop]
    split_ifs
    · have hswap := h.swapNode i ((i - 1) / 2)
      exact hswap.trans (ih hswap.indexed _)
    · exact Rearranges.refl h
    · exact Rearranges.refl h

lemma getElem?_siftupLoop (fuel : ℕ) {i k : ℕ} (hk : i < k) :
    (siftupLoop fuel m i).heap[k]? = m.heap[k]? := by
  induction fuel generalizing m i with
  | zero => rfl
  | succ fuel ih =>
    simp only [siftupLoop]
    split_ifs
    · rw [ih (by omega), getElem?_swapNode_of_ne (by omega) (by omega)]
    · rfl
    · rfl

lemma rearranges_siftdownLoop (h : m.Indexed) (n fuel i : ℕ) :
    Rearranges m (siftdownLoop n fuel m i).1 := by
  induction fuel generalizing m i with
  | zero => exact Rearranges.refl h
  | succ fuel ih =>
    simp only [siftdownLoop]
    split_ifs
    · have hswap := h.swapNode i (i * 2 + 1 + 1)
      exact hswap.trans (ih hswap.indexed _)
    · exact Rearranges.refl h
    · have hswap := h.swapNode i (i * 2 + 1)
      exact hswap.trans (ih hswap.indexed _)
    · exact Rearranges.refl h
    · exact Rearranges.refl h

lemma getElem?_siftdownLoop (n fuel : ℕ) {i k : ℕ} (hi : i < n) (hk : n ≤ k) :
    (siftdownLoop n fuel m i).1.heap[k]? = m.heap[k]? := by
  induction fuel generalizing m i with
  | zero => rfl
  | succ fuel ih =>
    simp only [siftdownLoop]
    split_ifs with hlt hnext
    · rw [ih hnext.1, getElem?_swapNode_of_ne (by omega) (by omega)]
    · rfl
    · rw [ih hlt, getElem?_swapNode_of_ne (by omega) (by omega)]
    · rfl
    · rfl

lemma restore_cases (i n : ℕ) :
    m.restore i n = (siftdownLoop n n m i).1 ∨
      m.restore i n = (siftdownLoop n n m i).1.siftup i := by
  by_cases hmoved : i < (siftdownLoop n n m i).2
  · exact Or.inl (by simp [restore, siftdown, hmoved])
  · exact Or.inr (by simp [restore, siftdown, hmoved])

lemma Indexed.restore (h : m.Indexed) (i n : ℕ) : Rearranges m (m.restore i n) := by
  have hdown := rearranges_siftdownLoop h n n i
  rcases restore_cases (m := m) i n with heq | heq
  · rw [heq]
    exact hdown
  · rw [heq]
    exact hdown.trans (rearranges_siftupLoop hdown.indexed _ _)

lemma getElem?_restore {i n k : ℕ} (hi : i < n) (hk : n ≤ k) :
    (m.restore i n).heap[k]? = m.heap[k]? := by
  have hdown := getElem?_siftdownLoop (m := m) n n hi hk
  rcases restore_cases (m := m) i n with heq | heq
  · rw [heq, hdown]
  · rw [heq, siftup, getElem?_siftupLoop _ (hi.trans_le hk), hdown]

/-! ### The calls -/

/-- A timer that changes keeps its place if it keeps its descriptor. -/
lemma Indexed.modify (h : m.Indexed) (i : ℕ) {f : TimerNode κ → TimerNode κ}
    (hf : ∀ node, (f node).fd = node.fd) : ({ m with heap := m.heap.modify i f }).Indexed := by
  intro fd k
  rw [h fd k]
  simp only [List.getElem?_modify]
  constructor
  · rintro ⟨node, hnode, rfl⟩
    by_cases hik : i = k
    · exact ⟨f node, by simp [hik, hnode], hf node⟩
    · exact ⟨node, by simp [hik, hnode], rfl⟩
  · rintro ⟨node, hnode, rfl⟩
    by_cases hik : i = k
    · simp only [if_pos hik] at hnode
      obtain ⟨node', hnode', rfl⟩ := Option.map_eq_some_iff.mp hnode
      exact ⟨node', hnode', (hf node').symm⟩
    · simp only [if_neg hik] at hnode
      exact ⟨node, by simpa using hnode, rfl⟩

/-- The timer of the descriptor gets another expiry and comes to its place. -/
lemma Indexed.rearranges_adjustTimer (h : m.Indexed) {fd : ℤ} {i : ℕ} (hfd : m.ref fd = some i)
    (timeoutMs now : ℤ) :
    Rearranges
      { m with heap := m.heap.modify i fun node => { node with expire := expireAt now timeoutMs } }
      (m.adjustTimer fd timeoutMs now) := by
  have hmodify := h.modify i (f := fun node => { node with expire := expireAt now timeoutMs })
    fun _ => rfl
  simp only [TimerManager.adjustTimer, hfd]
  exact hmodify.restore i _

/-- `AdjustTimer` keeps the descriptors that have timers. -/
lemma Indexed.adjustTimer (h : m.Indexed) (fd timeoutMs now : ℤ) :
    (m.adjustTimer fd timeoutMs now).Indexed ∧
      ∀ g, (m.adjustTimer fd timeoutMs now).ref g ≠ none ↔ m.ref g ≠ none := by
  cases hfd : m.ref fd with
  | none => simp [TimerManager.adjustTimer, hfd, h]
  | some i =>
    have hadjust := h.rearranges_adjustTimer hfd timeoutMs now
    exact ⟨hadjust.indexed, hadjust.ref_ne_none_iff (h.modify i fun _ => rfl)⟩

lemma Indexed.push (h : m.Indexed) (node : TimerNode κ) (hfd : m.ref node.fd = none) :
    Indexed ⟨m.heap ++ [node], Function.update m.ref node.fd (some m.heap.length)⟩ := by
  intro fd i
  simp only [List.getElem?_append, List.getElem?_singleton]
  by_cases hsame : fd = node.fd
  · subst hsame
    rw [Function.update_self]
    constructor
    · intro hi
      cases hi
      exact ⟨node, by simp, rfl⟩
    · rintro ⟨other, hother, hfd'⟩
      split_ifs at hother with hlt hzero
      · exact absurd (h.ref_of_getElem? hother) (by simp [hfd', hfd])
      · exact congrArg some (by omega)
  · rw [Function.update_of_ne hsame, h fd i]
    constructor
    · rintro ⟨other, hother, hfd'⟩
      obtain ⟨hlt, -⟩ := List.getElem?_eq_some_iff.mp hother
      exact ⟨other, by rw [if_pos hlt, hother], hfd'⟩
    · rintro ⟨other, hother, hfd'⟩
      split_ifs at hother with hlt hzero
      · exact ⟨other, hother, hfd'⟩
      · cases hother
        exact absurd hfd'.symm hsame

/-- A new timer comes behind the others and goes to its place. -/
lemma Indexed.rearranges_addTimer (h : m.Indexed) {fd : ℤ} (hfd : m.ref fd = none)
    (timeoutMs : ℤ) (cb : Option κ) (now : ℤ) :
    Rearranges ⟨m.heap ++ [⟨fd, expireAt now timeoutMs, cb⟩],
        Function.update m.ref fd (some m.heap.length)⟩ (m.addTimer fd timeoutMs cb now) := by
  have hpush := h.push ⟨fd, expireAt now timeoutMs, cb⟩ hfd
  simp only [TimerManager.addTimer, hfd, siftup]
  exact rearranges_siftupLoop hpush _ _

/-- `AddTimer` gives a timer to its descriptor and to no other. -/
lemma Indexed.addTimer (h : m.Indexed) (fd timeoutMs : ℤ) (cb : Option κ) (now : ℤ) :
    (m.addTimer fd timeoutMs cb now).Indexed ∧
      ∀ g, (m.addTimer fd timeoutMs cb now).ref g ≠ none ↔ m.ref g ≠ none ∨ g = fd := by
  cases hfd : m.ref fd with
  | some i =>
    have hadjust := h.adjustTimer fd timeoutMs now
    simp only [TimerManager.addTimer, hfd]
    refine ⟨hadjust.1, fun g => (hadjust.2 g).trans ?_⟩
    constructor
    · exact Or.inl
    · rintro (hg | rfl)
      · exact hg
      · simp [hfd]
  | none =>
    have hpush := h.push ⟨fd, expireAt now timeoutMs, cb⟩ hfd
    have hadd := h.rearranges_addTimer hfd timeoutMs cb now
    refine ⟨hadd.indexed, fun g => (hadd.ref_ne_none_iff hpush g).trans ?_⟩
    simp only
    by_cases hg : g = fd
    · simp [hg]
    · simp [hg]

/-- The heap without its last timer. -/
lemma Indexed.pop (h : m.Indexed) {node : TimerNode κ} (hlast : m.heap.getLast? = some node) :
    Indexed ⟨m.heap.dropLast, Function.update m.ref node.fd none⟩ := by
  have hat : m.heap[m.heap.length - 1]? = some node := by
    rw [← List.getLast?_eq_getElem?, hlast]
  intro fd i
  simp only [List.getElem?_dropLast]
  by_cases hsame : fd = node.fd
  · subst hsame
    rw [Function.update_self]
    constructor
    · intro hi
      cases hi
    · rintro ⟨other, hother, hfd⟩
      split_ifs at hother with hlt
      have hplace := h.eq_of_fd_eq hother hat hfd
      omega
  · rw [Function.update_of_ne hsame, h fd i]
    constructor
    · rintro ⟨other, hother, rfl⟩
      obtain ⟨hlt, -⟩ := List.getElem?_eq_some_iff.mp hother
      have hne : i ≠ m.heap.length - 1 := by
        rintro rfl
        exact hsame (congrArg TimerNode.fd (Option.some.inj (hother.symm.trans hat)))
      exact ⟨other, by rw [if_pos (by omega), hother], rfl⟩
    · rintro ⟨other, hother, hfd⟩
      split_ifs at hother with hlt
      exact ⟨other, hother, hfd⟩

/-- The heap when `del_` has brought the timer at a place to the last one. -/
def moveLast (m : TimerManager κ) (i : ℕ) : TimerManager κ :=
  if i < m.heap.length - 1 then
    (m.swapNode i (m.heap.length - 1)).restore i (m.heap.length - 1)
  else m

/-- The timer goes to the last place, and the heap in front of it is put in order. -/
lemma Indexed.moveLast (h : m.Indexed) {i : ℕ} {node : TimerNode κ} (hi : m.heap[i]? = some node) :
    Rearranges m (m.moveLast i) ∧ (m.moveLast i).heap.getLast? = some node := by
  obtain ⟨hlt, -⟩ := List.getElem?_eq_some_iff.mp hi
  rw [TimerManager.moveLast]
  split_ifs with hlast
  · have hswap := h.swapNode i (m.heap.length - 1)
    have hmoved := hswap.trans (hswap.indexed.restore i (m.heap.length - 1))
    have hb := List.getElem?_eq_getElem (show m.heap.length - 1 < m.heap.length by omega)
    refine ⟨hmoved, ?_⟩
    rw [List.getLast?_eq_getElem?, hmoved.perm.length_eq, getElem?_restore hlast le_rfl,
      getElem?_swapNode hi hb, Equiv.swap_apply_right, hi]
  · refine ⟨Rearranges.refl h, ?_⟩
    rw [List.getLast?_eq_getElem?, ← hi]
    congr 1
    omega

lemma Indexed.del_eq (h : m.Indexed) {i : ℕ} {node : TimerNode κ} (hi : m.heap[i]? = some node) :
    m.del i = ⟨(m.moveLast i).heap.dropLast,
      Function.update (m.moveLast i).ref node.fd none⟩ := by
  obtain ⟨hlt, -⟩ := List.getElem?_eq_some_iff.mp hi
  have hlast := (h.moveLast hi).2
  rw [TimerManager.moveLast] at hlast ⊢
  rw [TimerManager.del, if_neg (by omega)]
  simp only [hlast]

/-- `del_` takes out the timer at the given place. -/
lemma Indexed.del (h : m.Indexed) {i : ℕ} {node : TimerNode κ} (hi : m.heap[i]? = some node) :
    (m.del i).Indexed ∧ ∀ g, (m.del i).ref g ≠ none ↔ m.ref g ≠ none ∧ g ≠ node.fd := by
  obtain ⟨hmoved, hlast⟩ := h.moveLast hi
  rw [h.del_eq hi]
  refine ⟨hmoved.indexed.pop hlast, fun g => ?_⟩
  simp only
  by_cases hg : g = node.fd
  · simp [hg]
  · rw [Function.update_of_ne hg, hmoved.ref_ne_none_iff h]
    simp [hg]

lemma del_of_empty (h : m.heap = []) (i : ℕ) : m.del i = m := by
  simp [del, h]

lemma Indexed.removeTimer (h : m.Indexed) (fd : ℤ) :
    (m.removeTimer fd).Indexed ∧
      ∀ g, (m.removeTimer fd).ref g ≠ none ↔ m.ref g ≠ none ∧ g ≠ fd := by
  cases hfd : m.ref fd with
  | none =>
    simp only [TimerManager.removeTimer, hfd]
    refine ⟨h, fun g => ⟨fun hg => ⟨hg, ?_⟩, And.left⟩⟩
    rintro rfl
    exact hg hfd
  | some i =>
    obtain ⟨node, hnode, rfl⟩ := (h fd i).mp hfd
    simp only [TimerManager.removeTimer, hfd]
    exact h.del hnode

/-- A call enters a timer only where it says so. -/
lemma Indexed.apply (h : m.Indexed) (call : TimerCall κ) :
    (m.apply call).Indexed ∧
      ∀ g, (m.apply call).ref g ≠ none → m.ref g ≠ none ∨ .added g ∈ m.events call := by
  cases call with
  | add fd timeoutMs cb now =>
    obtain ⟨hindexed, href⟩ := h.addTimer fd timeoutMs cb now
    refine ⟨hindexed, fun g hg => ?_⟩
    rcases (href g).mp hg with hg | rfl
    · exact Or.inl hg
    · by_cases hfd : m.ref g = none
      · exact Or.inr (by simp [events, hfd])
      · exact Or.inl hfd
  | adjust fd timeoutMs now =>
    obtain ⟨hindexed, href⟩ := h.adjustTimer fd timeoutMs now
    exact ⟨hindexed, fun g hg => Or.inl ((href g).mp hg)⟩
  | remove fd =>
    obtain ⟨hindexed, href⟩ := h.removeTimer fd
    exact ⟨hindexed, fun g hg => Or.inl ((href g).mp hg).1⟩

lemma Indexed.applyAll (h : m.Indexed) (calls : List (TimerCall κ)) :
    (m.applyAll calls).1.Indexed ∧
      ∀ g, (m.applyAll calls).1.ref g ≠ none →
        m.ref g ≠ none ∨ .added g ∈ (m.applyAll calls).2 := by
  induction calls generalizing m with
  | nil => exact ⟨h, fun g hg => Or.inl hg⟩
  | cons call calls ih =>
    obtain ⟨hindexed, href⟩ := h.apply call
    obtain ⟨hindexed', href'⟩ := ih hindexed
    simp only [TimerManager.applyAll]
    refine ⟨hindexed', fun g hg => ?_⟩
    rw [List.mem_append]
    rcases href' g hg with hg | hg
    · rcases href g hg with hg | hg
      · exact Or.inl hg
      · exact Or.inr (Or.inl hg)
    · exact Or.inr (Or.inr hg)

/-- A call takes out a timer only where it says so. -/
lemma Indexed.removed_of_apply (h : m.Indexed) (call : TimerCall κ) {g : ℤ} (hg : m.ref g ≠ none) :
    (m.apply call).ref g ≠ none ∨ .removed g ∈ m.events call := by
  cases call with
  | add fd timeoutMs cb now =>
    exact Or.inl (((h.addTimer fd timeoutMs cb now).2 g).mpr (Or.inl hg))
  | adjust fd timeoutMs now => exact Or.inl (((h.adjustTimer fd timeoutMs now).2 g).mpr hg)
  | remove fd =>
    by_cases hfd : g = fd
    · subst hfd
      exact Or.inr (by simp [events, hg])
    · exact Or.inl (((h.removeTimer fd).2 g).mpr ⟨hg, hfd⟩)

lemma Indexed.removed_of_applyAll (h : m.Indexed) (calls : List (TimerCall κ)) {g : ℤ}
    (hg : m.ref g ≠ none) :
    (m.applyAll calls).1.ref g ≠ none ∨ .removed g ∈ (m.applyAll calls).2 := by
  induction calls generalizing m with
  | nil => exact Or.inl hg
  | cons call calls ih =>
    simp only [TimerManager.applyAll, List.mem_append]
    rcases h.removed_of_apply call hg with hg' | hremoved
    · rcases ih (h.apply call).1 hg' with hthere | hremoved
      · exact Or.inl hthere
      · exact Or.inr (Or.inr hremoved)
    · exact Or.inr (Or.inl hremoved)

/-- Calls from outside do not fire a timer and do not go through the loop. -/
lemma events_applyAll (calls : List (TimerCall κ)) (fd : ℤ) :
    .fired fd ∉ (m.applyAll calls).2 ∧ .deleted fd ∉ (m.applyAll calls).2 := by
  induction calls generalizing m with
  | nil => simp [applyAll]
  | cons call calls ih =>
    have hcall : .fired fd ∉ m.events call ∧ .deleted fd ∉ m.events call := by
      cases call with
      | adjust => simp [events]
      | _ =>
        simp only [events]
        split_ifs <;> simp
    simp only [applyAll, List.mem_append, not_or]
    exact ⟨⟨hcall.1, ih.1⟩, hcall.2, ih.2⟩

end TimerManager

end TinyWebServer
