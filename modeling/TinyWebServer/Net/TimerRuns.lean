import TinyWebServer.Library.Runs
import TinyWebServer.Net.TimerHeap

/-!
# Runs of the timer heap

Calls on the manager and calls of `HandleExpiredTimers` follow each other in any order, and no
callback touches the manager. A book of the pending timers, kept from the calls alone, knows what
is in the heap.
-/

namespace TinyWebServer

/-- A call on the manager, or one of `HandleExpiredTimers` with the times that it reads. -/
inductive TimerMove (κ : Type*)
  | call (call : TimerCall κ)
  | expire (readings : List ℤ)

namespace TimerManager

open Runs

variable {κ : Type*} {m : TimerManager κ}

/-- `HandleExpiredTimers` where no callback touches the manager: the timers that fire, and the
manager behind the loop. Each round that finds a timer reads the clock once. -/
def expire (m : TimerManager κ) : List ℤ → Option (List (TimerNode κ) × TimerManager κ)
  | [] => if m.heap = [] then some ([], m) else none
  | now :: readings =>
    match m.heap.head? with
    | none => none
    | some node =>
      if isPending node now then
        if readings = [] then some ([], m) else none
      else
        match (m.del 0).expire readings with
        | none => none
        | some (fired, m') => some (node :: fired, m')

/-- One move. The clock does not go back in it. -/
def step (m : TimerManager κ) : TimerMove κ → Option (TimerManager κ)
  | .call call => some (m.apply call)
  | .expire readings =>
    if readings.Pairwise (· ≤ ·) then (m.expire readings).map Prod.snd else none

/-- The timers that fire in a move. -/
def firings (m : TimerManager κ) : TimerMove κ → List (TimerNode κ)
  | .call _ => []
  | .expire readings => ((m.expire readings).map Prod.fst).getD []

/-- A world in which no callback touches the manager. -/
def quietWorld (now : ℕ → ℤ) : ExpiryWorld κ := ⟨now, fun _ _ => []⟩

/-! ### The loop, round by round -/

lemma isPending_eq_true (node : TimerNode κ) (now : ℤ) :
    isPending node now = true ↔ 1000000 ≤ node.expire - now := by
  rw [isPending, decide_eq_true_eq]
  by_cases hnonneg : 0 ≤ node.expire - now
  · rw [Int.tdiv_eq_ediv_of_nonneg hnonneg]
    omega
  · have hneg : (node.expire - now).tdiv 1000000 = -((-(node.expire - now)) / 1000000) := by
      rw [← Int.tdiv_eq_ediv_of_nonneg (by omega), Int.neg_tdiv, neg_neg]
    omega

lemma isPending_eq_false (node : TimerNode κ) (now : ℤ) :
    isPending node now = false ↔ node.expire - now < 1000000 := by
  rw [← not_iff_not, Bool.not_eq_false, isPending_eq_true, not_lt]

section Inversion

variable {fired : List (TimerNode κ)} {m' : TimerManager κ} {now : ℤ} {readings : List ℤ}

lemma expire_nil (h : m.expire [] = some (fired, m')) : m.heap = [] ∧ fired = [] ∧ m' = m := by
  rw [expire] at h
  split_ifs at h with hempty
  cases h
  exact ⟨hempty, rfl, rfl⟩

lemma expire_cons (h : m.expire (now :: readings) = some (fired, m')) :
    ∃ node, m.heap.head? = some node ∧
      ((isPending node now = true ∧ readings = [] ∧ fired = [] ∧ m' = m) ∨
        (isPending node now = false ∧
          ∃ fired', fired = node :: fired' ∧ (m.del 0).expire readings = some (fired', m'))) := by
  rw [expire] at h
  cases hfront : m.heap.head? with
  | none => simp [hfront] at h
  | some node =>
    refine ⟨node, rfl, ?_⟩
    simp only [hfront] at h
    split_ifs at h with hpending hlast
    · cases h
      exact Or.inl ⟨hpending, hlast, rfl, rfl⟩
    · rw [Bool.not_eq_true] at hpending
      cases hrest : (m.del 0).expire readings with
      | none => simp [hrest] at h
      | some result =>
        simp only [hrest, Option.some.injEq, Prod.mk.injEq] at h
        obtain ⟨rfl, rfl⟩ := h
        exact Or.inr ⟨hpending, result.1, rfl, rfl⟩

end Inversion

/-- The loop when it stands at a given point. -/
def resume (world : ExpiryWorld κ) (e : ExpiryLoop κ) : ℕ → ExpiryLoop κ
  | 0 => e
  | n + 1 => expiryRound (world.program n) (world.now n) (resume world e n)

lemma handleExpiredTimers_eq_resume (m : TimerManager κ) (world : ExpiryWorld κ) (n : ℕ) :
    m.handleExpiredTimers world n = resume world ⟨m, [], true⟩ n := by
  induction n with
  | zero => rfl
  | succ n ih => rw [handleExpiredTimers, resume, ih]

lemma resume_quietWorld_succ (now : ℕ → ℤ) (e : ExpiryLoop κ) (n : ℕ) :
    resume (quietWorld now) e (n + 1) =
      resume (quietWorld fun i => now (i + 1)) (expiryRound (fun _ => []) (now 0) e) n := by
  induction n with
  | zero => rfl
  | succ n ih => rw [resume, ih, resume, quietWorld, quietWorld]

lemma resume_of_stopped (world : ExpiryWorld κ) {e : ExpiryLoop κ} (h : e.running = false)
    (n : ℕ) : resume world e n = e := by
  induction n with
  | zero => rfl
  | succ n ih =>
    rw [resume, ih, expiryRound, h]
    rfl

lemma runCallback_quiet (node : TimerNode κ) : m.runCallback node (fun _ => []) = (m, []) := by
  cases hcb : node.cb with
  | none => simp only [runCallback, hcb]
  | some cb => simp only [runCallback, hcb, applyAll]

/-- What the loop does with a timer. -/
def firedEvents (node : TimerNode κ) : List TimerEvent := [.fired node.fd, .deleted node.fd]

lemma expiryRound_quiet {node : TimerNode κ} {now : ℤ} (hfront : m.heap.head? = some node)
    (hexpired : isPending node now = false) (es : List TimerEvent) :
    expiryRound (fun _ => []) now ⟨m, es, true⟩ = ⟨m.del 0, es ++ firedEvents node, true⟩ := by
  rw [expiryRound_of_expired rfl hfront hexpired]
  simp only [runCallback_quiet, deletion, hfront, firedEvents]
  rw [List.append_assoc]
  rfl

/-- The rounds of the model are those of the loop. -/
lemma resume_of_expire {now : ℕ → ℤ} {k : ℕ} {fired : List (TimerNode κ)} {m' : TimerManager κ}
    (h : m.expire ((List.range k).map now) = some (fired, m')) {n : ℕ} (hn : k < n)
    (es : List TimerEvent) :
    resume (quietWorld now) ⟨m, es, true⟩ n = ⟨m', es ++ fired.flatMap firedEvents, false⟩ := by
  induction k generalizing m now n fired es with
  | zero =>
    obtain ⟨n, rfl⟩ : ∃ l, n = l + 1 := ⟨n - 1, by omega⟩
    rw [resume_quietWorld_succ]
    obtain ⟨hempty, rfl, rfl⟩ := expire_nil h
    rw [resume_of_stopped _ (by simp [expiryRound, hempty])]
    simp [expiryRound, hempty]
  | succ k ih =>
    obtain ⟨n, rfl⟩ : ∃ l, n = l + 1 := ⟨n - 1, by omega⟩
    rw [resume_quietWorld_succ]
    rw [List.range_succ_eq_map, List.map_cons, List.map_map] at h
    obtain ⟨node, hfront, ⟨hpending, -, rfl, rfl⟩ | ⟨hexpired, fired', rfl, hrest⟩⟩ :=
      expire_cons h
    · rw [resume_of_stopped _ (by simp [expiryRound, hfront, hpending])]
      simp [expiryRound, hfront, hpending]
    · rw [expiryRound_quiet hfront hexpired, List.flatMap_cons, ← List.append_assoc]
      exact ih hrest (Nat.lt_of_succ_lt_succ hn) _

/-- `expire` is the loop of `HandleExpiredTimers`. -/
theorem handleExpiredTimers_of_expire {now : ℕ → ℤ} {k : ℕ} {fired : List (TimerNode κ)}
    {m' : TimerManager κ} (h : m.expire ((List.range k).map now) = some (fired, m')) {n : ℕ}
    (hn : k < n) :
    m.handleExpiredTimers (quietWorld now) n = ⟨m', fired.flatMap firedEvents, false⟩ := by
  rw [handleExpiredTimers_eq_resume, resume_of_expire h hn, List.nil_append]

lemma Indexed.length_del (h : m.Indexed) {node : TimerNode κ} (hfront : m.heap.head? = some node) :
    m.heap.length = (m.del 0).heap.length + 1 := by
  rw [List.head?_eq_getElem?] at hfront
  rw [(h.perm_del hfront).length_eq, List.length_cons]

/-- Whatever the clock shows, the loop comes to an end, after one round for each timer at most. -/
theorem exists_expire (h : m.Indexed) (now : ℕ → ℤ) :
    ∃ k fired m', k ≤ m.heap.length ∧
      m.expire ((List.range k).map now) = some (fired, m') := by
  induction hlength : m.heap.length generalizing m now with
  | zero =>
    rw [List.length_eq_zero_iff] at hlength
    exact ⟨0, [], m, le_rfl, by simp [expire, hlength]⟩
  | succ length ih =>
    obtain ⟨node, hfront⟩ : ∃ node, m.heap.head? = some node := by
      cases hheap : m.heap with
      | nil => simp [hheap] at hlength
      | cons node rest => exact ⟨node, rfl⟩
    by_cases hpending : isPending node (now 0) = true
    · exact ⟨1, [], m, by omega, by simp [expire, hfront, hpending]⟩
    · have hdel := h.length_del hfront
      rw [List.head?_eq_getElem?] at hfront
      obtain ⟨k, fired, m', hk, hexpire⟩ := ih (h.del hfront).1 (now ∘ Nat.succ) (by omega)
      refine ⟨k + 1, node :: fired, m', by omega, ?_⟩
      rw [List.range_succ_eq_map, List.map_cons, List.map_map, expire, List.head?_eq_getElem?,
        hfront]
      simp only [hexpire, if_neg hpending]

/-! ### What fires -/

section Expiry

variable {fired : List (TimerNode κ)} {m' : TimerManager κ} {readings : List ℤ}

/-- The loop takes out the timers that fire, in the order of their expiries, and leaves a heap. -/
structure Expiry (m : TimerManager κ) (fired : List (TimerNode κ)) (m' : TimerManager κ) :
    Prop where
  isHeap : m'.IsHeap
  indexed : m'.Indexed
  perm : m.heap.Perm (fired ++ m'.heap)
  sorted : fired.Pairwise fun a b => a.expire ≤ b.expire

lemma IsHeap.expire (hm : m.IsHeap) (hi : m.Indexed)
    (h : m.expire readings = some (fired, m')) : Expiry m fired m' := by
  induction readings generalizing m fired with
  | nil =>
    obtain ⟨-, rfl, rfl⟩ := expire_nil h
    exact ⟨hm, hi, List.Perm.refl _, List.Pairwise.nil⟩
  | cons now readings ih =>
    obtain ⟨node, hfront, ⟨-, -, rfl, rfl⟩ | ⟨-, fired', rfl, hrest⟩⟩ := expire_cons h
    · exact ⟨hm, hi, List.Perm.refl _, List.Pairwise.nil⟩
    · have hat := hfront
      rw [List.head?_eq_getElem?] at hat
      have hperm := hi.perm_del hat
      have htail := ih (hm.del hi hat) (hi.del hat).1 hrest
      refine ⟨htail.isHeap, htail.indexed, hperm.trans (htail.perm.cons node),
        List.Pairwise.cons (fun later hlater => ?_) htail.sorted⟩
      have hlater' : later ∈ (m.del 0).heap :=
        htail.perm.mem_iff.mpr (List.mem_append_left _ hlater)
      exact hm.front_le hfront (hperm.mem_iff.mpr (List.mem_cons_of_mem _ hlater'))

/-- The last time that the loop reads says which timers have fired. -/
lemma IsHeap.expire_due (hm : m.IsHeap) (hi : m.Indexed) (hclock : readings.Pairwise (· ≤ ·))
    (h : m.expire readings = some (fired, m')) {now : ℤ} (hlast : readings.getLast? = some now) :
    (∀ node ∈ fired, node.expire - now < 1000000) ∧
      ∀ node ∈ m'.heap, 1000000 ≤ node.expire - now := by
  induction readings generalizing m fired with
  | nil => simp at hlast
  | cons first readings ih =>
    obtain ⟨node, hfront, ⟨hpending, rfl, rfl, rfl⟩ | ⟨hexpired, fired', rfl, hrest⟩⟩ :=
      expire_cons h
    · obtain rfl : first = now := by simpa using hlast
      refine ⟨by simp, fun other hother => ?_⟩
      have hle := hm.front_le hfront hother
      rw [isPending_eq_true] at hpending
      omega
    · rw [isPending_eq_false] at hexpired
      cases readings with
      | nil =>
        obtain rfl : first = now := by simpa using hlast
        obtain ⟨hempty, rfl, rfl⟩ := expire_nil hrest
        exact ⟨by simpa using hexpired, by simp [hempty]⟩
      | cons second readings =>
        rw [List.getLast?_cons_cons] at hlast
        have hle := List.rel_of_pairwise_cons hclock (List.mem_of_getLast? hlast)
        rw [List.head?_eq_getElem?] at hfront
        obtain ⟨hfired, hleft⟩ := ih (hm.del hi hfront) (hi.del hfront).1 hclock.of_cons hrest hlast
        refine ⟨?_, hleft⟩
        rw [List.forall_mem_cons]
        exact ⟨by omega, hfired⟩

end Expiry

end TimerManager

/-! ### The book -/

/-- What the calls say of a pending timer: when it is due, and which callbacks the first and the
latest `AddTimer` for it have passed. -/
structure Booking (κ : Type*) where
  expire : ℤ
  first : Option κ
  latest : Option κ

/-- The timer of a descriptor as it is booked. -/
def Booking.node {κ : Type*} (fd : ℤ) (k : Booking κ) : TimerNode κ := ⟨fd, k.expire, k.first⟩

/-- The bookings of the descriptors that have timers. -/
abbrev TimerBook (κ : Type*) := ℤ → Option (Booking κ)

namespace TimerBook

variable {κ : Type*}

/-- Add or update, remove, expire. -/
def record (book : TimerBook κ) : TimerMove κ → TimerBook κ
  | .call (.add fd timeoutMs cb now) =>
    Function.update book fd <| some <|
      match book fd with
      | none => ⟨TimerManager.expireAt now timeoutMs, cb, cb⟩
      | some k => ⟨TimerManager.expireAt now timeoutMs, k.first, cb⟩
  | .call (.adjust fd timeoutMs now) =>
    Function.update book fd <|
      (book fd).map fun k => { k with expire := TimerManager.expireAt now timeoutMs }
  | .call (.remove fd) => Function.update book fd none
  | .expire readings =>
    match readings.getLast? with
    | none => book
    | some now => fun fd => (book fd).filter fun k => 1000000 ≤ k.expire - now

/-- The book behind a run. -/
def of (moves : List (TimerMove κ)) : TimerBook κ := moves.foldl record fun _ => none

/-- For each timer that is due in the move, the latest `AddTimer` has passed the callback of the
first. -/
def FirstIsLatest (book : TimerBook κ) : TimerMove κ → Prop
  | .call _ => True
  | .expire readings =>
    ∀ now, readings.getLast? = some now → ∀ fd k, book fd = some k →
      k.expire - now < 1000000 → k.first = k.latest

end TimerBook

namespace TimerManager

open Runs

variable {κ : Type*} {m : TimerManager κ} {book : TimerBook κ}

/-- The manager keeps a heap, its map finds the timers, and these are the ones of the book. -/
structure Agrees (m : TimerManager κ) (book : TimerBook κ) : Prop where
  isHeap : m.IsHeap
  indexed : m.Indexed
  mem_heap_iff : ∀ node, node ∈ m.heap ↔ ∃ k, book node.fd = some k ∧ k.node node.fd = node

lemma agrees_new : Agrees (new : TimerManager κ) (TimerBook.of []) := by
  refine ⟨isHeap_new, indexed_new, fun node => ?_⟩
  simp [new, TimerBook.of]

/-- No descriptor has two timers. -/
lemma Indexed.nodup_fds (h : m.Indexed) : (m.heap.map (·.fd)).Nodup := by
  rw [List.nodup_iff_getElem?_ne_getElem?]
  intro i j hij hj hsame
  rw [List.length_map] at hj
  simp only [List.getElem?_map, List.getElem?_eq_getElem hj,
    List.getElem?_eq_getElem (hij.trans hj), Option.map_some, Option.some.injEq] at hsame
  exact hij.ne (h.eq_of_fd_eq (List.getElem?_eq_getElem (hij.trans hj))
    (List.getElem?_eq_getElem hj) hsame)

lemma Agrees.ref_ne_none_iff (h : Agrees m book) (fd : ℤ) :
    m.ref fd ≠ none ↔ book fd ≠ none := by
  rw [h.indexed.ref_ne_none_iff, Option.ne_none_iff_exists']
  constructor
  · rintro ⟨node, hnode, rfl⟩
    obtain ⟨k, hk, -⟩ := (h.mem_heap_iff node).mp hnode
    exact ⟨k, hk⟩
  · rintro ⟨k, hk⟩
    exact ⟨k.node fd, (h.mem_heap_iff _).mpr ⟨k, hk, rfl⟩, rfl⟩

lemma Agrees.ref_eq_none_iff (h : Agrees m book) (fd : ℤ) : m.ref fd = none ↔ book fd = none := by
  rw [← not_iff_not]
  exact h.ref_ne_none_iff fd

lemma fd_reset (fd expire : ℤ) (node : TimerNode κ) : (reset fd expire node).fd = node.fd := by
  rw [reset]
  split_ifs <;> rfl

/-- A new expiry in the heap and in the book. -/
lemma Agrees.mem_map_reset_iff (h : Agrees m book) {fd expire : ℤ} {f : Booking κ → Booking κ}
    (hf : ∀ k, (f k).node fd = reset fd expire (k.node fd)) (node : TimerNode κ) :
    node ∈ m.heap.map (reset fd expire) ↔
      ∃ k, Function.update book fd ((book fd).map f) node.fd = some k ∧ k.node node.fd = node := by
  rw [List.mem_map]
  constructor
  · rintro ⟨old, hold, rfl⟩
    obtain ⟨k, hk, hnode⟩ := (h.mem_heap_iff old).mp hold
    rw [fd_reset]
    by_cases hfd : old.fd = fd
    · rw [hfd] at hk hnode ⊢
      refine ⟨f k, ?_, by rw [hf, hnode]⟩
      rw [Function.update_self, hk, Option.map_some]
    · refine ⟨k, ?_, by rw [hnode, reset, if_neg hfd]⟩
      rw [Function.update_of_ne hfd, hk]
  · rintro ⟨k, hk, hnode⟩
    by_cases hfd : node.fd = fd
    · rw [hfd, Function.update_self, Option.map_eq_some_iff] at hk
      obtain ⟨k', hk', rfl⟩ := hk
      refine ⟨k'.node fd, (h.mem_heap_iff _).mpr ⟨k', hk', rfl⟩, ?_⟩
      rw [← hf, ← hfd, hnode]
    · rw [Function.update_of_ne hfd] at hk
      exact ⟨node, (h.mem_heap_iff node).mpr ⟨k, hk, hnode⟩, if_neg hfd⟩

lemma Agrees.adjustTimer (h : Agrees m book) (fd timeoutMs now : ℤ) {f : Booking κ → Booking κ}
    (hf : ∀ k, (f k).node fd = reset fd (expireAt now timeoutMs) (k.node fd)) :
    Agrees (m.adjustTimer fd timeoutMs now) (Function.update book fd ((book fd).map f)) := by
  refine ⟨h.isHeap.adjustTimer h.indexed fd timeoutMs now,
    (h.indexed.adjustTimer fd timeoutMs now).1, fun node => ?_⟩
  rw [(h.indexed.perm_adjustTimer fd timeoutMs now).mem_iff]
  exact h.mem_map_reset_iff hf node

lemma Agrees.addTimer (h : Agrees m book) (fd timeoutMs : ℤ) (cb : Option κ) (now : ℤ) :
    Agrees (m.addTimer fd timeoutMs cb now)
      (book.record (.call (.add fd timeoutMs cb now))) := by
  simp only [TimerBook.record]
  cases hbook : book fd with
  | some k =>
    have href := (h.ref_ne_none_iff fd).mpr (by simp [hbook])
    have hadjust := h.adjustTimer fd timeoutMs now
      (f := fun k => ⟨expireAt now timeoutMs, k.first, cb⟩) fun k => (if_pos rfl).symm
    rw [addTimer_of_ne_none href]
    rwa [hbook] at hadjust
  | none =>
    have href := (h.ref_eq_none_iff fd).mpr hbook
    refine ⟨h.isHeap.addTimer h.indexed fd timeoutMs cb now,
      (h.indexed.addTimer fd timeoutMs cb now).1, fun node => ?_⟩
    rw [(h.indexed.perm_addTimer href timeoutMs cb now).mem_iff, List.mem_append,
      List.mem_singleton]
    by_cases hfd : node.fd = fd
    · have hold : node ∉ m.heap := by
        intro hmem
        obtain ⟨k, hk, -⟩ := (h.mem_heap_iff node).mp hmem
        rw [hfd, hbook] at hk
        cases hk
      simp [hold, hfd, Function.update_self, Booking.node, eq_comm]
    · have hnew : node ≠ ⟨fd, expireAt now timeoutMs, cb⟩ := by
        rintro rfl
        exact hfd rfl
      simp [hnew, Function.update_of_ne hfd, h.mem_heap_iff]

/-- Exactly the timer of the one descriptor goes. -/
lemma Indexed.mem_del_iff (h : m.Indexed) {i : ℕ} {node : TimerNode κ}
    (hi : m.heap[i]? = some node) (other : TimerNode κ) :
    other ∈ (m.del i).heap ↔ other ∈ m.heap ∧ other.fd ≠ node.fd := by
  have hperm := h.perm_del hi
  obtain ⟨hindexed, href⟩ := h.del hi
  constructor
  · intro hother
    refine ⟨hperm.mem_iff.mpr (List.mem_cons_of_mem _ hother), ?_⟩
    exact ((href _).mp ((hindexed.ref_ne_none_iff _).mpr ⟨other, hother, rfl⟩)).2
  · rintro ⟨hother, hfd⟩
    refine List.mem_of_ne_of_mem ?_ (hperm.mem_iff.mp hother)
    rintro rfl
    exact hfd rfl

lemma Agrees.removeTimer (h : Agrees m book) (fd : ℤ) :
    Agrees (m.removeTimer fd) (Function.update book fd none) := by
  refine ⟨h.isHeap.removeTimer h.indexed fd, (h.indexed.removeTimer fd).1, fun node => ?_⟩
  have hmem : node ∈ (m.removeTimer fd).heap ↔ node ∈ m.heap ∧ node.fd ≠ fd := by
    cases href : m.ref fd with
    | none =>
      simp only [TimerManager.removeTimer, href]
      refine ⟨fun hnode => ⟨hnode, ?_⟩, And.left⟩
      rintro rfl
      exact (h.indexed.ref_ne_none_iff node.fd).mpr ⟨node, hnode, rfl⟩ href
    | some i =>
      obtain ⟨front, hfront, rfl⟩ := (h.indexed fd i).mp href
      simp only [TimerManager.removeTimer, href]
      exact h.indexed.mem_del_iff hfront node
  rw [hmem]
  by_cases hfd : node.fd = fd
  · simp [hfd]
  · simp [hfd, h.mem_heap_iff]

/-- A timer stays if it is not due at the last reading. -/
lemma Agrees.mem_expire_iff (h : Agrees m book) {readings : List ℤ}
    (hclock : readings.Pairwise (· ≤ ·)) {fired : List (TimerNode κ)} {m' : TimerManager κ}
    (hexpire : m.expire readings = some (fired, m')) {now : ℤ}
    (hlast : readings.getLast? = some now) (node : TimerNode κ) :
    (node ∈ m'.heap ↔ node ∈ m.heap ∧ 1000000 ≤ node.expire - now) ∧
      (node ∈ fired ↔ node ∈ m.heap ∧ node.expire - now < 1000000) := by
  have hperm := (h.isHeap.expire h.indexed hexpire).perm
  obtain ⟨hfired, hleft⟩ := h.isHeap.expire_due h.indexed hclock hexpire hlast
  have hmem := hperm.mem_iff (a := node)
  rw [List.mem_append] at hmem
  rw [hmem]
  constructor
  · constructor
    · intro hnode
      exact ⟨Or.inr hnode, hleft node hnode⟩
    · rintro ⟨hnode | hnode, hdue⟩
      · exact absurd (hfired node hnode) (not_lt.mpr hdue)
      · exact hnode
  · constructor
    · intro hnode
      exact ⟨Or.inl hnode, hfired node hnode⟩
    · rintro ⟨hnode | hnode, hdue⟩
      · exact hnode
      · exact absurd (hleft node hnode) (not_le.mpr hdue)

lemma Agrees.expire (h : Agrees m book) {readings : List ℤ} (hclock : readings.Pairwise (· ≤ ·))
    {fired : List (TimerNode κ)} {m' : TimerManager κ}
    (hexpire : m.expire readings = some (fired, m')) :
    Agrees m' (book.record (.expire readings)) := by
  have hexpiry := h.isHeap.expire h.indexed hexpire
  cases hlast : readings.getLast? with
  | none =>
    rw [List.getLast?_eq_none_iff] at hlast
    subst hlast
    obtain ⟨-, -, rfl⟩ := expire_nil hexpire
    exact h
  | some now =>
    refine ⟨hexpiry.isHeap, hexpiry.indexed, fun node => ?_⟩
    rw [(h.mem_expire_iff hclock hexpire hlast node).1, h.mem_heap_iff]
    simp only [TimerBook.record, hlast, Option.filter_eq_some_iff, decide_eq_true_eq]
    constructor
    · rintro ⟨⟨k, hk, hnode⟩, hdue⟩
      rw [← hnode] at hdue
      exact ⟨k, ⟨hk, hdue⟩, hnode⟩
    · rintro ⟨k, ⟨hk, hdue⟩, hnode⟩
      refine ⟨⟨k, hk, hnode⟩, ?_⟩
      rw [← hnode]
      exact hdue

lemma step_expire {readings : List ℤ} {m' : TimerManager κ}
    (h : m.step (.expire readings) = some m') :
    readings.Pairwise (· ≤ ·) ∧ ∃ fired, m.expire readings = some (fired, m') := by
  rw [step] at h
  split_ifs at h with hclock
  obtain ⟨result, hresult, rfl⟩ := Option.map_eq_some_iff.mp h
  exact ⟨hclock, result.1, hresult⟩

lemma Agrees.step (h : Agrees m book) {move : TimerMove κ} {m' : TimerManager κ}
    (hstep : m.step move = some m') : Agrees m' (book.record move) := by
  cases move with
  | call call =>
    cases hstep
    cases call with
    | add fd timeoutMs cb now => exact h.addTimer fd timeoutMs cb now
    | adjust fd timeoutMs now => exact h.adjustTimer fd timeoutMs now fun k => (if_pos rfl).symm
    | remove fd => exact h.removeTimer fd
  | expire readings =>
    obtain ⟨hclock, fired, hexpire⟩ := step_expire hstep
    exact h.expire hclock hexpire

lemma agrees_of_run {moves : List (TimerMove κ)} (h : run step new moves = some m) :
    Agrees m (TimerBook.of moves) :=
  run_simulates step (fun _ _ _ _ hagrees hstep => hagrees.step hstep) agrees_new h

/-- After any run the timers make a heap, the map finds each at its place, no descriptor has two,
and the descriptors are those that are booked. -/
theorem heap_of_run {moves : List (TimerMove κ)} (h : run step new moves = some m) :
    m.IsHeap ∧ m.Indexed ∧ (m.heap.map (·.fd)).Nodup ∧
      ∀ fd, fd ∈ m.heap.map (·.fd) ↔ TimerBook.of moves fd ≠ none := by
  have hagrees := agrees_of_run h
  refine ⟨hagrees.isHeap, hagrees.indexed, hagrees.indexed.nodup_fds, fun fd => ?_⟩
  rw [← hagrees.ref_ne_none_iff, hagrees.indexed.ref_ne_none_iff, List.mem_map]

/-- Two timers are added, one of them is adjusted, and the other one fires and is added again. -/
def rearming : List (TimerMove Unit) :=
  [.call (.add 5 20 (some ()) 0), .call (.add 3 40 (some ()) 0), .call (.adjust 5 60 0),
    .expire [41000000, 41000000], .call (.add 3 5 none 41000000)]

theorem heap_of_rearming :
    ∃ m, run step new rearming = some m ∧ m.IsHeap ∧ m.Indexed ∧ (m.heap.map (·.fd)).Nodup ∧
      ∀ fd, fd ∈ m.heap.map (·.fd) ↔ TimerBook.of rearming fd ≠ none :=
  ⟨_, rfl, heap_of_run rfl⟩

/-- Whatever the clock shows in the rounds of `HandleExpiredTimers`, as long as it does not go
back, the call is a move. -/
theorem exists_step_expire (h : m.Indexed) {now : ℕ → ℤ} (hclock : Monotone now) :
    ∃ k m', m.step (.expire ((List.range k).map now)) = some m' := by
  obtain ⟨k, fired, m', -, hexpire⟩ := exists_expire h now
  have hsorted : ((List.range k).map now).Pairwise (· ≤ ·) :=
    List.Pairwise.map now (fun i j hij => hclock hij) List.pairwise_le_range
  refine ⟨k, m', ?_⟩
  rw [step, if_pos hsorted, hexpire, Option.map_some]

/-! ### The callbacks -/

/-- In one move the callbacks that run are the latest ones if and only if they are the first ones,
too. -/
lemma Agrees.latest_iff (h : Agrees m book) {move : TimerMove κ} {m' : TimerManager κ}
    (hstep : m.step move = some m') :
    (∀ node ∈ m.firings move, ∃ k, book node.fd = some k ∧ node.cb = k.latest) ↔
      book.FirstIsLatest move := by
  cases move with
  | call call => simp [firings, TimerBook.FirstIsLatest]
  | expire readings =>
    obtain ⟨hclock, fired, hexpire⟩ := step_expire hstep
    simp only [firings, hexpire, Option.map_some, Option.getD_some, TimerBook.FirstIsLatest]
    cases hlast : readings.getLast? with
    | none =>
      rw [List.getLast?_eq_none_iff] at hlast
      subst hlast
      obtain ⟨-, rfl, -⟩ := expire_nil hexpire
      simp
    | some now =>
      simp only [Option.some.injEq, forall_eq']
      have hfires := fun node => (h.mem_expire_iff hclock hexpire hlast node).2
      constructor
      · intro hall fd k hk hdue
        have hnode : k.node fd ∈ m.heap := (h.mem_heap_iff _).mpr ⟨k, hk, rfl⟩
        obtain ⟨k', hk', hlatest⟩ := hall _ ((hfires _).mpr ⟨hnode, hdue⟩)
        cases hk.symm.trans hk'
        exact hlatest
      · intro hall node hnode
        obtain ⟨hmem, hdue⟩ := (hfires node).mp hnode
        obtain ⟨k, hk, hbooked⟩ := (h.mem_heap_iff node).mp hmem
        refine ⟨k, hk, ?_⟩
        rw [← hbooked] at hdue ⊢
        exact hall node.fd k hk hdue

/-- Along a run, each callback that runs is the one of the latest `AddTimer` for its descriptor if
and only if no timer that fires has been added again with another callback while it was pending. -/
theorem latest_of_run_iff {moves : List (TimerMove κ)} (h : run step new moves = some m) :
    (∀ earlier move u, earlier ++ [move] <+: moves → run step new earlier = some u →
        ∀ node ∈ u.firings move,
          ∃ k, TimerBook.of earlier node.fd = some k ∧ node.cb = k.latest) ↔
      ∀ earlier move, earlier ++ [move] <+: moves →
        (TimerBook.of earlier).FirstIsLatest move := by
  constructor
  · intro hall earlier move hbegins
    obtain ⟨u, v, hu, hstep⟩ := exists_step_of_isPrefix step h hbegins
    exact ((agrees_of_run hu).latest_iff hstep).mp (hall earlier move u hbegins hu)
  · intro hall earlier move u hbegins hu
    obtain ⟨u', v, hu', hstep⟩ := exists_step_of_isPrefix step h hbegins
    cases hu.symm.trans hu'
    exact ((agrees_of_run hu).latest_iff hstep).mpr (hall earlier move hbegins)

/-- A descriptor is added with one callback, and again with another one, and expires. -/
def addedTwice : List (TimerMove ℕ) :=
  [.call (.add 5 0 (some 1) 0), .call (.add 5 0 (some 2) 0), .expire [0]]

/-- The first callback runs. -/
theorem stale_of_addedTwice :
    (∃ m, run step new addedTwice = some m) ∧
      ¬ ∀ earlier move u, earlier ++ [move] <+: addedTwice →
        run step new earlier = some u → ∀ node ∈ u.firings move,
          ∃ k, TimerBook.of earlier node.fd = some k ∧ node.cb = k.latest := by
  refine ⟨⟨_, rfl⟩, fun hall => ?_⟩
  obtain ⟨k, hk, hlatest⟩ := hall
    [.call (.add 5 0 (some 1) 0), .call (.add 5 0 (some 2) 0)] (.expire [0]) _
    (List.prefix_refl _) rfl ⟨5, 0, some 1⟩ (List.mem_singleton_self _)
  cases hk
  cases hlatest

theorem latest_of_addedTwice_iff :
    (∀ earlier move u, earlier ++ [move] <+: addedTwice → run step new earlier = some u →
        ∀ node ∈ u.firings move,
          ∃ k, TimerBook.of earlier node.fd = some k ∧ node.cb = k.latest) ↔
      ∀ earlier move, earlier ++ [move] <+: addedTwice →
        (TimerBook.of earlier).FirstIsLatest move :=
  latest_of_run_iff rfl

end TimerManager

end TinyWebServer
