import TinyWebServer.Net.TimerIndex

/-!
# What the loop over the expired timers takes out

The loop runs the callback of the front timer and then takes out the timer at the front, which
need not be the same one.
-/

namespace TinyWebServer

/-- The callback of the descriptor's timer has run since the timer was entered: so far, and behind
one more event. -/
def ranAfter (fd : ℤ) (ran : Bool) : TimerEvent → Bool
  | .fired g => ran || g = fd
  | .added g => ran && g ≠ fd
  | _ => ran

def hasRun (events : List TimerEvent) (fd : ℤ) : Bool := events.foldl (ranAfter fd) false

/-- `HandleExpiredTimers` has taken out no timer but those whose own callback had run. -/
def NothingLost (events : List TimerEvent) : Prop :=
  ∀ earlier fd later, events = earlier ++ .deleted fd :: later → hasRun earlier fd = true

/-! ### The events -/

@[simp] lemma hasRun_snoc (events : List TimerEvent) (event : TimerEvent) (fd : ℤ) :
    hasRun (events ++ [event]) fd = ranAfter fd (hasRun events fd) event := by
  simp [hasRun]

lemma hasRun_append_of_not_fired {fd : ℤ} (events : List TimerEvent) {more : List TimerEvent}
    (h : .fired fd ∉ more) :
    hasRun (events ++ more) fd = true ↔ hasRun events fd = true ∧ .added fd ∉ more := by
  induction more using List.reverseRecOn with
  | nil => simp
  | append_singleton more event ih =>
    rw [List.mem_append, not_or] at h
    rw [← List.append_assoc, hasRun_snoc]
    have hmore := ih h.1
    cases event with
    | fired g =>
      have hg : g ≠ fd := by
        rintro rfl
        exact h.2 (List.mem_singleton_self _)
      simp [ranAfter, hmore, hg]
    | added g =>
      have hcomm : fd = g ↔ g = fd := eq_comm
      simp [ranAfter, hmore, hcomm, and_assoc]
    | _ => simp [ranAfter, hmore]

lemma NothingLost.of_append {events more : List TimerEvent} (h : NothingLost (events ++ more)) :
    NothingLost events := by
  rintro earlier fd later rfl
  exact h earlier fd (later ++ more) (by simp)

lemma nothingLost_append_iff {events more : List TimerEvent} (h : ∀ fd, .deleted fd ∉ more) :
    NothingLost (events ++ more) ↔ NothingLost events := by
  refine ⟨NothingLost.of_append, fun hlost earlier fd later heq => ?_⟩
  rcases List.append_eq_append_iff.mp heq with ⟨rest, rfl, hrest⟩ | ⟨rest, rfl, hrest⟩
  · exact absurd (hrest ▸ List.mem_append_right rest List.mem_cons_self) (h fd)
  · cases rest with
    | nil => exact absurd (by rw [← List.nil_append more, ← hrest]; simp) (h fd)
    | cons event rest =>
      rw [List.cons_append, List.cons.injEq] at hrest
      exact hlost earlier fd rest (by rw [hrest.1])

lemma nothingLost_deleted_iff (events : List TimerEvent) (fd : ℤ) :
    NothingLost (events ++ [.deleted fd]) ↔ NothingLost events ∧ hasRun events fd = true := by
  constructor
  · intro h
    exact ⟨h.of_append, h events fd [] rfl⟩
  · rintro ⟨hlost, hrun⟩ earlier g later heq
    rcases List.append_eq_append_iff.mp heq with ⟨rest, rfl, hrest⟩ | ⟨rest, rfl, hrest⟩
    · cases rest with
      | nil =>
        simp only [List.nil_append, List.cons.injEq, TimerEvent.deleted.injEq] at hrest
        rw [List.append_nil, ← hrest.1]
        exact hrun
      | cons event rest => simp at hrest
    · cases rest with
      | nil =>
        simp only [List.nil_append, List.cons.injEq, TimerEvent.deleted.injEq] at hrest
        rw [← List.append_nil earlier, hrest.1]
        exact hrun
      | cons event rest =>
        rw [List.cons_append, List.cons.injEq] at hrest
        exact hlost earlier g rest (by rw [hrest.1])

namespace TimerManager

variable {κ : Type*} {m : TimerManager κ}

/-- The states of a manager that anybody has used in any way. -/
inductive Reachable : TimerManager κ → Prop
  | new : Reachable new
  | apply {m : TimerManager κ} (h : Reachable m) (call : TimerCall κ) : Reachable (m.apply call)
  | expired {m : TimerManager κ} (h : Reachable m) (world : ExpiryWorld κ) (n : ℕ) :
    Reachable (m.handleExpiredTimers world n).manager

/-- Once the callback of the front timer has run, this timer is still at the front and has not
been entered anew, or there is no timer left. -/
def KeepsFront (program : κ → List (TimerCall κ)) (now : ℤ) (e : ExpiryLoop κ) : Prop :=
  e.running = true → ∀ node, e.manager.heap.head? = some node → isPending node now = false →
    ∀ front, (e.manager.runCallback node program).1.heap.head? = some front →
      front.fd = node.fd ∧ .added node.fd ∉ (e.manager.runCallback node program).2

/-! ### One round -/

/-- A timer whose callback has run is not in the heap any more. -/
structure Settled (e : ExpiryLoop κ) : Prop where
  indexed : e.manager.Indexed
  gone : ∀ fd, hasRun e.events fd = true → e.manager.ref fd = none

section Round

variable {e : ExpiryLoop κ} {program : κ → List (TimerCall κ)} {now : ℤ} {node : TimerNode κ}

lemma Indexed.runCallback (h : m.Indexed) (node : TimerNode κ)
    (program : κ → List (TimerCall κ)) :
    (m.runCallback node program).1.Indexed ∧
      ∀ g, (m.runCallback node program).1.ref g ≠ none →
        m.ref g ≠ none ∨ .added g ∈ (m.runCallback node program).2 := by
  cases hcb : node.cb with
  | none =>
    simp only [TimerManager.runCallback, hcb]
    exact ⟨h, fun g hg => Or.inl hg⟩
  | some cb =>
    simp only [TimerManager.runCallback, hcb]
    exact h.applyAll (program cb)

lemma events_runCallback (m : TimerManager κ) (node : TimerNode κ)
    (program : κ → List (TimerCall κ)) (fd : ℤ) :
    .fired fd ∉ (m.runCallback node program).2 ∧ .deleted fd ∉ (m.runCallback node program).2 := by
  cases hcb : node.cb with
  | none => simp [TimerManager.runCallback, hcb]
  | some cb =>
    simp only [TimerManager.runCallback, hcb]
    exact events_applyAll (program cb) fd

/-- The round in which the front timer has expired. -/
lemma expiryRound_of_expired (hrunning : e.running = true)
    (hfront : e.manager.heap.head? = some node) (hexpired : isPending node now = false) :
    expiryRound program now e =
      { e with
        manager := (e.manager.runCallback node program).1.del 0
        events := e.events ++ .fired node.fd :: (e.manager.runCallback node program).2 ++
          (e.manager.runCallback node program).1.deletion } := by
  simp only [expiryRound, hrunning, if_true, hfront, hexpired, if_false, Bool.false_eq_true]

/-- Behind the callback of the front timer, a timer of the heap has had its run if and only if it
is the front timer itself. -/
lemma Settled.hasRun_iff (h : Settled e) {g : ℤ}
    (hg : (e.manager.runCallback node program).1.ref g ≠ none) :
    hasRun (e.events ++ .fired node.fd :: (e.manager.runCallback node program).2) g = true ↔
      g = node.fd ∧ .added node.fd ∉ (e.manager.runCallback node program).2 := by
  have hnotFired := (events_runCallback e.manager node program g).1
  rw [← List.singleton_append, ← List.append_assoc, hasRun_append_of_not_fired _ hnotFired]
  simp only [hasRun_snoc, ranAfter, Bool.or_eq_true, decide_eq_true_eq]
  constructor
  · rintro ⟨hrun | rfl, hadded⟩
    · rcases (h.indexed.runCallback node program).2 g hg with hbefore | hadded'
      · exact absurd (h.gone g hrun) hbefore
      · exact absurd hadded' hadded
    · exact ⟨rfl, hadded⟩
  · rintro ⟨rfl, hadded⟩
    exact ⟨Or.inr rfl, hadded⟩

/-- A round runs a callback, or it changes nothing but leaves the loop perhaps. -/
lemma expiryRound_cases (program : κ → List (TimerCall κ)) (now : ℤ) (e : ExpiryLoop κ) :
    (e.running = true ∧ ∃ node, e.manager.heap.head? = some node ∧ isPending node now = false) ∨
      ((expiryRound program now e).manager = e.manager ∧
        (expiryRound program now e).events = e.events ∧ KeepsFront program now e) := by
  by_cases hrunning : e.running = true
  · cases hfront : e.manager.heap.head? with
    | none =>
      refine Or.inr ⟨?_, ?_, ?_⟩
      · simp [expiryRound, hrunning, hfront]
      · simp [expiryRound, hrunning, hfront]
      · intro _ node hnode
        simp [hfront] at hnode
    | some node =>
      by_cases hexpired : isPending node now = true
      · refine Or.inr ⟨?_, ?_, ?_⟩
        · simp [expiryRound, hrunning, hfront, hexpired]
        · simp [expiryRound, hrunning, hfront, hexpired]
        · intro _ node' hnode' hexpired'
          rw [hfront, Option.some.injEq] at hnode'
          subst hnode'
          exact absurd hexpired (by simp [hexpired'])
      · exact Or.inl ⟨hrunning, node, rfl, by simpa using hexpired⟩
  · refine Or.inr ⟨?_, ?_, ?_⟩
    · simp [expiryRound, hrunning]
    · simp [expiryRound, hrunning]
    · intro h
      exact absurd h hrunning

lemma keepsFront_iff (hrunning : e.running = true) (hfront : e.manager.heap.head? = some node)
    (hexpired : isPending node now = false) :
    KeepsFront program now e ↔
      ∀ front, (e.manager.runCallback node program).1.heap.head? = some front →
        front.fd = node.fd ∧ .added node.fd ∉ (e.manager.runCallback node program).2 := by
  constructor
  · intro h
    exact h hrunning node hfront hexpired
  · intro h _ node' hnode' _
    rw [hfront, Option.some.injEq] at hnode'
    subst hnode'
    exact h

/-- What a round loses is the timer that has come to the front while the callback ran. -/
lemma Settled.round (h : Settled e) :
    (NothingLost (expiryRound program now e).events ↔
      NothingLost e.events ∧ KeepsFront program now e) ∧
    (KeepsFront program now e → Settled (expiryRound program now e)) := by
  rcases expiryRound_cases program now e with
    ⟨hrunning, node, hfront, hexpired⟩ | ⟨hmanager, hevents, hkeeps⟩
  · have hafter := h.indexed.runCallback node program
    have hquiet : ∀ fd, .deleted fd ∉ .fired node.fd :: (e.manager.runCallback node program).2 := by
      intro fd
      simp [(events_runCallback e.manager node program fd).2]
    rw [keepsFront_iff hrunning hfront hexpired,
      expiryRound_of_expired hrunning hfront hexpired]
    cases hhead : (e.manager.runCallback node program).1.heap.head? with
    | none =>
      have hempty := List.head?_eq_none_iff.mp hhead
      have hdel : (e.manager.runCallback node program).1.del 0 =
          (e.manager.runCallback node program).1 := del_of_empty hempty 0
      simp only [deletion, hhead, List.append_nil, hdel]
      refine ⟨?_, fun _ => ⟨hafter.1, fun fd _ => ?_⟩⟩
      · rw [nothingLost_append_iff hquiet]
        simp
      · by_contra hfd
        obtain ⟨node', hmem, -⟩ := (hafter.1.ref_ne_none_iff fd).mp hfd
        simp [hempty] at hmem
    | some front =>
      have hat : (e.manager.runCallback node program).1.heap[0]? = some front := by
        rw [← List.head?_eq_getElem?, hhead]
      have hthere : (e.manager.runCallback node program).1.ref front.fd ≠ none := by
        rw [hafter.1.ref_of_getElem? hat]
        simp
      have hdel := hafter.1.del hat
      simp only [deletion, hhead, Option.some.injEq, forall_eq']
      rw [nothingLost_deleted_iff, nothingLost_append_iff hquiet, h.hasRun_iff hthere]
      refine ⟨Iff.rfl, fun hkeeps => ⟨hdel.1, fun fd hrun => ?_⟩⟩
      by_contra hfd
      obtain ⟨hthere', hne⟩ := (hdel.2 fd).mp hfd
      simp only [hasRun_snoc, ranAfter] at hrun
      have hsame := ((h.hasRun_iff hthere').mp hrun).1
      exact hne (hsame.trans hkeeps.1.symm)
  · rw [hevents]
    refine ⟨by simp [hkeeps], fun _ => ⟨?_, ?_⟩⟩
    · rw [hmanager]
      exact h.indexed
    · rw [hmanager, hevents]
      exact h.gone

end Round

/-! ### The whole loop -/

lemma events_isPrefix (program : κ → List (TimerCall κ)) (now : ℤ) (e : ExpiryLoop κ) :
    e.events <+: (expiryRound program now e).events := by
  rcases expiryRound_cases program now e with
    ⟨hrunning, node, hfront, hexpired⟩ | ⟨-, hevents, -⟩
  · rw [expiryRound_of_expired hrunning hfront hexpired, List.append_assoc]
    exact List.prefix_append ..
  · rw [hevents]

lemma settled_start (h : m.Indexed) : Settled ⟨m, [], true⟩ where
  indexed := h
  gone fd hrun := by simp [hasRun] at hrun

lemma applyAll_keeps {P : TimerManager κ → Prop} {calls : List (TimerCall κ)}
    (hcalls : ∀ call ∈ calls, ∀ m : TimerManager κ, P m → P (m.apply call)) (h : P m) :
    P (m.applyAll calls).1 := by
  induction calls generalizing m with
  | nil => exact h
  | cons call calls ih =>
    rw [List.forall_mem_cons] at hcalls
    exact ih hcalls.2 (hcalls.1 m h)

/-- A round keeps what the calls of the callback and the deletion of the front timer keep. -/
lemma expiryRound_keeps {P : TimerManager κ → Prop} {program : κ → List (TimerCall κ)}
    (hcalls : ∀ cb, ∀ call ∈ program cb, ∀ m : TimerManager κ, P m → P (m.apply call))
    (hdel : ∀ (m : TimerManager κ) (node : TimerNode κ), m.heap[0]? = some node → P m → P (m.del 0))
    (now : ℤ) {e : ExpiryLoop κ} (h : P e.manager) :
    P (TimerManager.expiryRound program now e).manager := by
  rcases expiryRound_cases program now e with
    ⟨hrunning, node, hfront, hexpired⟩ | ⟨hmanager, -, -⟩
  · rw [expiryRound_of_expired hrunning hfront hexpired]
    have hafter : P (e.manager.runCallback node program).1 := by
      cases hcb : node.cb with
      | none =>
        simp only [runCallback, hcb]
        exact h
      | some cb =>
        simp only [runCallback, hcb]
        exact applyAll_keeps (hcalls cb) h
    cases hhead : (e.manager.runCallback node program).1.heap.head? with
    | none =>
      rw [del_of_empty (List.head?_eq_none_iff.mp hhead)]
      exact hafter
    | some front => exact hdel _ front (by rw [← List.head?_eq_getElem?, hhead]) hafter
  · rw [hmanager]
    exact h

lemma Indexed.expiryRound {e : ExpiryLoop κ} (h : e.manager.Indexed)
    (program : κ → List (TimerCall κ)) (now : ℤ) :
    (TimerManager.expiryRound program now e).manager.Indexed :=
  expiryRound_keeps (fun _ call _ _ hm => (hm.apply call).1) (fun _ _ hnode hm => (hm.del hnode).1)
    now h

lemma Indexed.handleExpiredTimers (h : m.Indexed) (world : ExpiryWorld κ) (n : ℕ) :
    (m.handleExpiredTimers world n).manager.Indexed := by
  induction n with
  | zero => exact h
  | succ n ih => exact ih.expiryRound _ _

lemma Reachable.indexed (h : m.Reachable) : m.Indexed := by
  induction h with
  | new => exact indexed_new
  | apply _ call ih => exact (ih.apply call).1
  | expired _ world n ih => exact ih.handleExpiredTimers world n

/-- The events account for every timer that is gone behind a round. -/
lemma Indexed.gone_of_round {e : ExpiryLoop κ} (h : e.manager.Indexed)
    (program : κ → List (TimerCall κ)) (now : ℤ) {g : ℤ} (hg : e.manager.ref g ≠ none) :
    (TimerManager.expiryRound program now e).manager.ref g ≠ none ∨
      .removed g ∈ (TimerManager.expiryRound program now e).events ∨
      .deleted g ∈ (TimerManager.expiryRound program now e).events := by
  rcases expiryRound_cases program now e with
    ⟨hrunning, node, hfront, hexpired⟩ | ⟨hmanager, -, -⟩
  · rw [expiryRound_of_expired hrunning hfront hexpired]
    have hcallback : (e.manager.runCallback node program).1.ref g ≠ none ∨
        .removed g ∈ (e.manager.runCallback node program).2 := by
      cases hcb : node.cb with
      | none => simp [TimerManager.runCallback, hcb, hg]
      | some cb =>
        simp only [TimerManager.runCallback, hcb]
        exact h.removed_of_applyAll (program cb) hg
    rcases hcallback with hthere | hremoved
    · have hafter := (h.runCallback node program).1
      cases hhead : (e.manager.runCallback node program).1.heap.head? with
      | none =>
        rw [del_of_empty (List.head?_eq_none_iff.mp hhead)]
        exact Or.inl hthere
      | some front =>
        have hdel := hafter.del (by rw [← List.head?_eq_getElem?, hhead])
        by_cases hsame : g = front.fd
        · exact Or.inr (Or.inr (by simp [deletion, hhead, hsame]))
        · exact Or.inl ((hdel.2 g).mpr ⟨hthere, hsame⟩)
    · exact Or.inr (Or.inl (by simp [hremoved]))
  · rw [hmanager]
    exact Or.inl hg

/-- Whatever timer is gone behind the loop, the events say who took it out. -/
theorem gone_of_handleExpiredTimers (h : m.Reachable) (world : ExpiryWorld κ) (n : ℕ) {g : ℤ}
    (hg : m.ref g ≠ none) (hgone : (m.handleExpiredTimers world n).manager.ref g = none) :
    .removed g ∈ (m.handleExpiredTimers world n).events ∨
      .deleted g ∈ (m.handleExpiredTimers world n).events := by
  have hall : (m.handleExpiredTimers world n).manager.ref g ≠ none ∨
      .removed g ∈ (m.handleExpiredTimers world n).events ∨
      .deleted g ∈ (m.handleExpiredTimers world n).events := by
    induction n with
    | zero => exact Or.inl hg
    | succ n ih =>
      by_cases hthere : (m.handleExpiredTimers world n).manager.ref g = none
      · have hbegins := events_isPrefix (world.program n) (world.now n)
          (m.handleExpiredTimers world n)
        rcases ih hthere with hthere' | hremoved | hdeleted
        · exact absurd hthere hthere'
        · exact Or.inr (Or.inl (hbegins.subset hremoved))
        · exact Or.inr (Or.inr (hbegins.subset hdeleted))
      · exact (h.indexed.handleExpiredTimers world n).gone_of_round _ _ hthere
  exact hall.resolve_left (fun hthere => hthere hgone)

/-- `HandleExpiredTimers` loses no timer if and only if in each round the front timer is still at
the front when its callback has run. -/
theorem nothingLost_iff (h : m.Reachable) (world : ExpiryWorld κ) (n : ℕ) :
    NothingLost (m.handleExpiredTimers world n).events ↔
      ∀ i < n, KeepsFront (world.program i) (world.now i) (m.handleExpiredTimers world i) := by
  have hall : (NothingLost (m.handleExpiredTimers world n).events ↔
      ∀ i < n, KeepsFront (world.program i) (world.now i) (m.handleExpiredTimers world i)) ∧
      (NothingLost (m.handleExpiredTimers world n).events →
        Settled (m.handleExpiredTimers world n)) := by
    induction n with
    | zero =>
      refine ⟨?_, fun _ => settled_start h.indexed⟩
      simp [handleExpiredTimers, NothingLost]
    | succ n ih =>
      have hearlier : NothingLost (m.handleExpiredTimers world (n + 1)).events →
          NothingLost (m.handleExpiredTimers world n).events := by
        intro hlost
        obtain ⟨more, hmore⟩ := events_isPrefix (world.program n) (world.now n)
          (m.handleExpiredTimers world n)
        rw [handleExpiredTimers, ← hmore] at hlost
        exact hlost.of_append
      constructor
      · rw [Nat.forall_lt_succ_right, ← ih.1]
        constructor
        · intro hlost
          exact ((ih.2 (hearlier hlost)).round.1).mp hlost
        · rintro ⟨hlost, hkeeps⟩
          exact ((ih.2 hlost).round.1).mpr ⟨hlost, hkeeps⟩
      · intro hlost
        have hsettled := ih.2 (hearlier hlost)
        exact hsettled.round.2 (hsettled.round.1.mp hlost).2
  exact hall.1

/-- Two timers, the first of them due, and a callback that takes out its own timer. -/
def selfRemoval : TimerManager Unit :=
  (new.addTimer 1 0 (some ()) 0).addTimer 2 1000 (some ()) 0

def removesItself : ExpiryWorld Unit := ⟨fun _ => 0, fun _ _ => [.remove 1]⟩

lemma reachable_selfRemoval : selfRemoval.Reachable :=
  ((Reachable.new.apply (.add 1 0 (some ()) 0))).apply (.add 2 1000 (some ()) 0)

/-- The other timer is lost, a second before it is due. -/
theorem lost_behind_selfRemoval :
    selfRemoval.Reachable ∧
      (selfRemoval.handleExpiredTimers removesItself 2).events =
        [.fired 1, .removed 1, .deleted 2] ∧
      (selfRemoval.handleExpiredTimers removesItself 2).running = false ∧
      ¬ NothingLost (selfRemoval.handleExpiredTimers removesItself 2).events := by
  have hevents : (selfRemoval.handleExpiredTimers removesItself 2).events =
      [.fired 1, .removed 1, .deleted 2] := by decide
  refine ⟨reachable_selfRemoval, hevents, by decide, ?_⟩
  rw [hevents]
  intro hlost
  have hrun := hlost [.fired 1, .removed 1] 2 [] rfl
  exact absurd hrun (by decide)

/-- A callback that leaves the manager alone loses nothing. -/
theorem nothingLost_iff_idle :
    NothingLost (selfRemoval.handleExpiredTimers ⟨fun _ => 0, fun _ _ => []⟩ 2).events ↔
      ∀ i < 2, KeepsFront (fun _ => []) 0
        (selfRemoval.handleExpiredTimers ⟨fun _ => 0, fun _ _ => []⟩ i) :=
  nothingLost_iff reachable_selfRemoval ⟨fun _ => 0, fun _ _ => []⟩ 2

end TimerManager

end TinyWebServer
