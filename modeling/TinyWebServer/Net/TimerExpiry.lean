import TinyWebServer.Net.TimerRuns

/-!
# What expires at one time

While the clock stands still, `HandleExpiredTimers` takes out exactly the timers that are due, in
the order of their expiries, and `GetNextTimeout` says how long the first of the others has.
-/

namespace TinyWebServer

/-- The timeout is an `int`, and the time that the clock shows in the call is not later than
`now`. -/
def TimerCall.Admissible {κ : Type*} (now : ℤ) : TimerCall κ → Prop
  | .add _ timeoutMs _ time => -2 ^ 31 ≤ timeoutMs ∧ timeoutMs < 2 ^ 31 ∧ time ≤ now
  | .adjust _ timeoutMs time => -2 ^ 31 ≤ timeoutMs ∧ timeoutMs < 2 ^ 31 ∧ time ≤ now
  | .remove _ => True

instance {κ : Type*} (now : ℤ) : (call : TimerCall κ) → Decidable (call.Admissible now)
  | .add .. => inferInstanceAs (Decidable (_ ∧ _ ∧ _))
  | .adjust .. => inferInstanceAs (Decidable (_ ∧ _ ∧ _))
  | .remove _ => inferInstanceAs (Decidable True)

namespace TimerManager

variable {κ : Type*} {m : TimerManager κ} {now : ℤ}

/-- `GetNextTimeout` once the loop over the expired timers has ended. -/
def nextTimeout (m : TimerManager κ) (now : ℤ) : ℤ :=
  match m.heap.head? with
  | none => -1
  | some node =>
    let res := (node.expire - now).tdiv 1000000
    if res < 0 then 0 else Int.bmod res (2 ^ 32)

/-- `GetNextTimeout`, unless its loop goes on after so many rounds. The last reading of the clock
is `now`. -/
def getNextTimeout (m : TimerManager κ) (world : ExpiryWorld κ) (n : ℕ) (now : ℤ) :
    Option (TimerManager κ × ℤ) :=
  let e := m.handleExpiredTimers world n
  if e.running then none else some (e.manager, e.manager.nextTimeout now)

/-- The states of a manager that anybody has used in any way until the clock shows `now`. -/
inductive ReachableBy (now : ℤ) : TimerManager κ → Prop
  | new : ReachableBy now new
  | apply {m : TimerManager κ} (h : ReachableBy now m) (call : TimerCall κ)
      (hcall : call.Admissible now) : ReachableBy now (m.apply call)
  | expired {m : TimerManager κ} (h : ReachableBy now m) (world : ExpiryWorld κ) (n : ℕ)
      (hcalls : ∀ i cb, ∀ call ∈ world.program i cb, call.Admissible now) :
      ReachableBy now (m.handleExpiredTimers world n).manager

/-- The manager keeps a heap of timers that are due in at most so long as an `int` can say. -/
structure SoundAt (m : TimerManager κ) (now : ℤ) : Prop where
  isHeap : m.IsHeap
  indexed : m.Indexed
  near : ∀ node ∈ m.heap, node.expire - now < 2 ^ 31 * 1000000

lemma soundAt_new : (new : TimerManager κ).SoundAt now :=
  ⟨isHeap_new, indexed_new, by simp [new]⟩

lemma expireAt_near {time timeoutMs : ℤ} (htimeout : timeoutMs < 2 ^ 31) (htime : time ≤ now) :
    expireAt time timeoutMs - now < 2 ^ 31 * 1000000 := by
  rw [expireAt]
  omega

lemma SoundAt.near_adjustTimer (h : m.SoundAt now) (fd : ℤ) {time timeoutMs : ℤ}
    (htimeout : timeoutMs < 2 ^ 31) (htime : time ≤ now) :
    ∀ node ∈ (m.adjustTimer fd timeoutMs time).heap, node.expire - now < 2 ^ 31 * 1000000 := by
  intro node hnode
  rw [(h.indexed.perm_adjustTimer fd timeoutMs time).mem_iff, List.mem_map] at hnode
  obtain ⟨old, hold, rfl⟩ := hnode
  rw [reset]
  split_ifs
  · exact expireAt_near htimeout htime
  · exact h.near old hold

lemma SoundAt.del (h : m.SoundAt now) {i : ℕ} {node : TimerNode κ} (hi : m.heap[i]? = some node) :
    (m.del i).SoundAt now := by
  refine ⟨h.isHeap.del h.indexed hi, (h.indexed.del hi).1, fun other hother => ?_⟩
  exact h.near other ((h.indexed.mem_del_iff hi other).mp hother).1

lemma SoundAt.apply (h : m.SoundAt now) {call : TimerCall κ} (hcall : call.Admissible now) :
    (m.apply call).SoundAt now := by
  refine ⟨h.isHeap.apply h.indexed call, (h.indexed.apply call).1, ?_⟩
  cases call with
  | add fd timeoutMs cb time =>
    obtain ⟨-, htimeout, htime⟩ := hcall
    by_cases href : m.ref fd = none
    · intro node hnode
      rw [TimerManager.apply, (h.indexed.perm_addTimer href timeoutMs cb time).mem_iff,
        List.mem_append, List.mem_singleton] at hnode
      rcases hnode with hnode | rfl
      · exact h.near node hnode
      · exact expireAt_near htimeout htime
    · rw [TimerManager.apply, addTimer_of_ne_none href]
      exact h.near_adjustTimer fd htimeout htime
  | adjust fd timeoutMs time => exact h.near_adjustTimer fd hcall.2.1 hcall.2.2
  | remove fd =>
    cases href : m.ref fd with
    | none =>
      simp only [TimerManager.apply, TimerManager.removeTimer, href]
      exact h.near
    | some i =>
      obtain ⟨node, hnode, -⟩ := (h.indexed fd i).mp href
      simp only [TimerManager.apply, TimerManager.removeTimer, href]
      exact (h.del hnode).near

lemma SoundAt.expiryRound {e : ExpiryLoop κ} (h : e.manager.SoundAt now)
    {program : κ → List (TimerCall κ)} (hcalls : ∀ cb, ∀ call ∈ program cb, call.Admissible now)
    (time : ℤ) : (TimerManager.expiryRound program time e).manager.SoundAt now :=
  expiryRound_keeps (P := fun m => m.SoundAt now)
    (fun cb call hcall _ hm => hm.apply (hcalls cb call hcall)) (fun _ _ hnode hm => hm.del hnode)
    time h

lemma ReachableBy.soundAt (h : m.ReachableBy now) : m.SoundAt now := by
  induction h with
  | new => exact soundAt_new
  | apply _ call hcall ih => exact ih.apply hcall
  | expired _ world n hcalls ih =>
    induction n with
    | zero => exact ih
    | succ n ihn => exact ihn.expiryRound (hcalls n) (world.now n)

/-! ### The loop at one time -/

/-- Where no timer is due, the loop does nothing. -/
lemma handleExpiredTimers_of_pending (hpending : ∀ node ∈ m.heap, 1000000 ≤ node.expire - now)
    {n : ℕ} (hn : m.heap.length < n) :
    m.handleExpiredTimers (quietWorld fun _ => now) n = ⟨m, [], false⟩ := by
  cases hfront : m.heap.head? with
  | none =>
    have hexpire : m.expire ((List.range 0).map fun _ => now) = some ([], m) :=
      if_pos (List.head?_eq_none_iff.mp hfront)
    exact handleExpiredTimers_of_expire hexpire (by omega)
  | some node =>
    have hmem := List.mem_of_head? hfront
    have hnode := (isPending_eq_true node now).mpr (hpending node hmem)
    have hexpire : m.expire ((List.range 1).map fun _ => now) = some ([], m) := by
      simp [expire, hfront, hnode]
    have hlength := List.length_pos_of_mem hmem
    exact handleExpiredTimers_of_expire hexpire (by omega)

/-- The first of the timers says how long there is time. -/
lemma SoundAt.nextTimeout_eq (h : m.SoundAt now)
    (hpending : ∀ node ∈ m.heap, 1000000 ≤ node.expire - now) {node : TimerNode κ}
    (hnode : node ∈ m.heap) (hfirst : ∀ other ∈ m.heap, node.expire ≤ other.expire) :
    m.nextTimeout now = (node.expire - now) / 1000000 := by
  cases hfront : m.heap.head? with
  | none =>
    rw [List.head?_eq_none_iff] at hfront
    simp [hfront] at hnode
  | some front =>
    have hmem := List.mem_of_head? hfront
    have hsame : front.expire = node.expire :=
      le_antisymm (h.isHeap.front_le hfront hnode) (hfirst front hmem)
    have hdue := hpending node hnode
    have hnear := h.near node hnode
    simp only [nextTimeout, hfront, hsame]
    rw [Int.tdiv_eq_ediv_of_nonneg (by omega), if_neg (by omega)]
    exact Int.bmod_eq_of_le_mul_two (by omega) (by omega)

/-- One time decides of every timer. -/
lemma SoundAt.expire_due (h : m.SoundAt now) {k : ℕ} {fired : List (TimerNode κ)}
    {m' : TimerManager κ}
    (hexpire : m.expire ((List.range k).map fun _ => now) = some (fired, m')) :
    (∀ node ∈ fired, node.expire - now < 1000000) ∧
      ∀ node ∈ m'.heap, 1000000 ≤ node.expire - now := by
  cases k with
  | zero =>
    obtain ⟨hempty, rfl, rfl⟩ := expire_nil hexpire
    simp [hempty]
  | succ k =>
    have hclock : ((List.range (k + 1)).map fun _ => now).Pairwise (· ≤ ·) :=
      List.Pairwise.map _ (fun _ _ _ => le_rfl) List.pairwise_le_range
    refine h.isHeap.expire_due h.indexed hclock hexpire ?_
    rw [List.range_succ, List.map_append, List.map_singleton, List.getLast?_concat]

lemma perm_filter {xs ys zs : List (TimerNode κ)} {p : TimerNode κ → Bool}
    (h : xs.Perm (ys ++ zs)) (hys : ∀ y ∈ ys, p y = true) (hzs : ∀ z ∈ zs, p z = false) :
    ys.Perm (xs.filter p) := by
  have hfilter := h.filter p
  have hnone : zs.filter p = [] := List.filter_eq_nil_iff.mpr fun z hz => by simp [hzs z hz]
  rw [List.filter_append, List.filter_eq_self.mpr hys, hnone, List.append_nil] at hfilter
  exact hfilter.symm

/-- At one time exactly the timers that are due fire, each once and the earlier ones first, all
others stay as they are, and the next timeout is the time to the first of these. -/
theorem expires_exactly (h : m.ReachableBy now) :
    ∃ (fired : List (TimerNode κ)) (m' : TimerManager κ) (timeout : ℤ),
      (∀ n, m.heap.length < n →
        m.handleExpiredTimers (quietWorld fun _ => now) n =
            ⟨m', fired.flatMap firedEvents, false⟩ ∧
          m'.getNextTimeout (quietWorld fun _ => now) n now = some (m', timeout)) ∧
      fired.Perm (m.heap.filter fun node => node.expire - now < 1000000) ∧
      (fired.Pairwise fun a b => a.expire ≤ b.expire) ∧
      m'.heap.Perm (m.heap.filter fun node => 1000000 ≤ node.expire - now) ∧ m'.Indexed ∧
      (timeout = -1 ↔ m'.heap = []) ∧
      ∀ node ∈ m'.heap, (∀ other ∈ m'.heap, node.expire ≤ other.expire) →
        timeout = (node.expire - now) / 1000000 := by
  have hsound := h.soundAt
  obtain ⟨k, fired, m', hk, hexpire⟩ := exists_expire hsound.indexed fun _ => now
  have hexpiry := hsound.isHeap.expire hsound.indexed hexpire
  obtain ⟨hfired, hleft⟩ := hsound.expire_due hexpire
  have hloop : ∀ n, m.heap.length < n → m.handleExpiredTimers (quietWorld fun _ => now) n =
      ⟨m', fired.flatMap firedEvents, false⟩ := fun n hn =>
    handleExpiredTimers_of_expire hexpire (hk.trans_lt hn)
  have hsound' : m'.SoundAt now := by
    have hreach := h.expired (quietWorld fun _ => now) (m.heap.length + 1) (by simp [quietWorld])
    rw [hloop _ (Nat.lt_succ_self _)] at hreach
    exact hreach.soundAt
  have hlength : m'.heap.length ≤ m.heap.length := by
    rw [hexpiry.perm.length_eq, List.length_append]
    omega
  refine ⟨fired, m', m'.nextTimeout now, fun n hn => ⟨hloop n hn, ?_⟩, ?_, hexpiry.sorted, ?_,
    hexpiry.indexed, ?_, fun node hnode hfirst => hsound'.nextTimeout_eq hleft hnode hfirst⟩
  · rw [getNextTimeout, handleExpiredTimers_of_pending hleft (hlength.trans_lt hn)]
    rfl
  · exact perm_filter hexpiry.perm (by simpa using hfired) (by simpa using hleft)
  · exact perm_filter (hexpiry.perm.trans List.perm_append_comm) (by simpa using hleft)
      (by simpa using hfired)
  · constructor
    · intro htimeout
      by_contra hne
      obtain ⟨front, hfront⟩ := Option.ne_none_iff_exists'.mp (mt List.head?_eq_none_iff.mp hne)
      have hmem := List.mem_of_head? hfront
      have hdue := hleft front hmem
      rw [hsound'.nextTimeout_eq hleft hmem fun other => hsound'.isHeap.front_le hfront] at htimeout
      omega
    · intro hempty
      simp [nextTimeout, hempty]

/-- Two timers are due together, and a third one has time. -/
def threeTimers : TimerManager ℕ :=
  ((new.addTimer 5 20 (some 1) 0).addTimer 3 10 (some 2) 0).addTimer 4 100 none 0

lemma reachableBy_threeTimers : threeTimers.ReachableBy 20500000 :=
  ((ReachableBy.new.apply (.add 5 20 (some 1) 0) (by decide)).apply (.add 3 10 (some 2) 0)
    (by decide)).apply (.add 4 100 none 0) (by decide)

theorem threeTimers_expires :
    ∃ (fired : List (TimerNode ℕ)) (m' : TimerManager ℕ) (timeout : ℤ),
      (∀ n, threeTimers.heap.length < n →
        threeTimers.handleExpiredTimers (quietWorld fun _ => 20500000) n =
            ⟨m', fired.flatMap firedEvents, false⟩ ∧
          m'.getNextTimeout (quietWorld fun _ => 20500000) n 20500000 = some (m', timeout)) ∧
      fired.Perm (threeTimers.heap.filter fun node => node.expire - 20500000 < 1000000) ∧
      (fired.Pairwise fun a b => a.expire ≤ b.expire) ∧
      m'.heap.Perm (threeTimers.heap.filter fun node => 1000000 ≤ node.expire - 20500000) ∧
      m'.Indexed ∧ (timeout = -1 ↔ m'.heap = []) ∧
      ∀ node ∈ m'.heap, (∀ other ∈ m'.heap, node.expire ≤ other.expire) →
        timeout = (node.expire - 20500000) / 1000000 :=
  expires_exactly reachableBy_threeTimers

end TimerManager

end TinyWebServer
