import TinyWebServer.Library.Runs

/-!
# The table of connections

Any number of threads accept descriptors, file a connection under its descriptor and tell the
plugins, while the threads that run the handlers of older connections take these out again. A
descriptor is closed with the object that owns it, which lives as long as somebody holds it: the
table, the thread that accepted it, or a thread that runs one of its handlers or functors.
-/

namespace TinyWebServer

/-- How far the accepting thread has come with a connection. -/
inductive AcceptStage where
  | created
  | inserted
  | opened
  | dispatched
  /-- The accepting thread has gone on to the next descriptor. -/
  | left
  deriving DecidableEq

structure AcceptedConnection where
  fd : ℤ
  stage : AcceptStage
  /-- The references of running handlers and of functors. -/
  refs : ℕ
  deriving DecidableEq

inductive PluginEvent where
  | connectionOpen (fd : ℤ)
  | connectionClose (fd : ℤ)
  deriving DecidableEq

def PluginEvent.fd : PluginEvent → ℤ
  | .connectionOpen fd => fd
  | .connectionClose fd => fd

structure ConnectionTable where
  /-- The connection objects that have not been destroyed. -/
  objects : ℕ → Option AcceptedConnection
  openFds : ℤ → Bool
  connections : ℤ → Option ℕ
  /-- The connection whose handler is in `RemoveConnection` with `conn_mutex_` locked, and if the
  plugins are still to be told. -/
  removing : Option (ℕ × Bool)
  events : List PluginEvent

/-- Handlers and functors may hold the connection. -/
def AcceptStage.shared : AcceptStage → Bool
  | .dispatched | .left => true
  | _ => false

namespace ConnectionTable

def empty : ConnectionTable :=
  { objects := fun _ => none, openFds := fun _ => false, connections := fun _ => none
    removing := none, events := [] }

def setObject (s : ConnectionTable) (id : ℕ) (conn : AcceptedConnection) : ConnectionTable :=
  { s with objects := Function.update s.objects id (some conn) }

def notifyConnectionOpen (s : ConnectionTable) (fd : ℤ) : ConnectionTable :=
  { s with events := s.events ++ [.connectionOpen fd] }

def notifyConnectionClose (s : ConnectionTable) (fd : ℤ) : ConnectionTable :=
  { s with events := s.events ++ [.connectionClose fd] }

/-! ### The steps -/

inductive Move where
  /-- `accept4` returns a descriptor, and an object is made for it. -/
  | accept (id : ℕ) (fd : ℤ)
  /-- The section that files the object. -/
  | insert (id : ℕ)
  | notifyOpen (id : ℕ)
  /-- `RunInLoop` with the functor that holds the object. -/
  | dispatch (id : ℕ)
  /-- The end of the turn in the loop of `HandleAccept`. -/
  | leave (id : ℕ)
  /-- A handler or a functor gets hold of the object. -/
  | acquire (id : ℕ)
  | release (id : ℕ)
  /-- A handler calls `RemoveConnection`: the lock and the `erase`. -/
  | erase (id : ℕ)
  /-- `NotifyConnectionClose`, if the `erase` found an entry. -/
  | notifyClose
  | unlock
  /-- The last reference is gone, and the destructor closes the descriptor. -/
  | destroy (id : ℕ)

/-- A step of one of the threads; `accept4` does not return a descriptor that is open. -/
def step (s : ConnectionTable) : Move → Option ConnectionTable
  | .accept id fd =>
    if s.objects id = none ∧ s.openFds fd = false then
      some { s.setObject id ⟨fd, .created, 0⟩ with openFds := Function.update s.openFds fd true }
    else none
  | .insert id => (s.objects id).bind fun conn =>
    if conn.stage = .created ∧ s.removing = none then
      some { s.setObject id { conn with stage := .inserted } with
        connections := Function.update s.connections conn.fd (some id) }
    else none
  | .notifyOpen id => (s.objects id).bind fun conn =>
    if conn.stage = .inserted then
      some ((s.setObject id { conn with stage := .opened }).notifyConnectionOpen conn.fd)
    else none
  | .dispatch id => (s.objects id).bind fun conn =>
    if conn.stage = .opened then
      some (s.setObject id { conn with stage := .dispatched, refs := conn.refs + 1 })
    else none
  | .leave id => (s.objects id).bind fun conn =>
    if conn.stage = .dispatched then some (s.setObject id { conn with stage := .left }) else none
  | .acquire id => (s.objects id).bind fun conn =>
    if conn.stage.shared then some (s.setObject id { conn with refs := conn.refs + 1 }) else none
  | .release id => (s.objects id).bind fun conn =>
    if 0 < conn.refs then some (s.setObject id { conn with refs := conn.refs - 1 }) else none
  | .erase id => (s.objects id).bind fun conn =>
    if conn.stage.shared ∧ 0 < conn.refs ∧ s.removing = none then
      some { s with
        connections := Function.update s.connections conn.fd none
        removing := some (id, (s.connections conn.fd).isSome) }
    else none
  | .notifyClose =>
    match s.removing with
    | some (id, true) => (s.objects id).map fun conn =>
      { s.notifyConnectionClose conn.fd with removing := some (id, false) }
    | _ => none
  | .unlock =>
    match s.removing with
    | some (_, false) => some { s with removing := none }
    | _ => none
  | .destroy id => (s.objects id).bind fun conn =>
    if conn.stage = .left ∧ conn.refs = 0 ∧ s.connections conn.fd ≠ some id ∧
        s.removing.map Prod.fst ≠ some id then
      some { s with
        objects := Function.update s.objects id none
        openFds := Function.update s.openFds conn.fd false }
    else none

/-! ### What the plugins are told -/

def eventsOf (s : ConnectionTable) (fd : ℤ) : List PluginEvent :=
  s.events.filter fun event => event.fd = fd

/-- The first `n` events of a descriptor when Open and Close alternate. -/
def alternating (fd : ℤ) (n : ℕ) : List PluginEvent :=
  (List.range n).map fun i => if i % 2 = 0 then .connectionOpen fd else .connectionClose fd

lemma alternating_succ (fd : ℤ) (n : ℕ) :
    alternating fd (n + 1) =
      alternating fd n ++ [if n % 2 = 0 then .connectionOpen fd else .connectionClose fd] := by
  simp [alternating, List.range_succ]

lemma length_alternating (fd : ℤ) (n : ℕ) : (alternating fd n).length = n := by
  simp [alternating]

/-- The plugins know of the connection behind the descriptor and have not been told that it is
closed. -/
def Announced (s : ConnectionTable) (fd : ℤ) : Prop :=
  ∃ id conn, s.objects id = some conn ∧ conn.fd = fd ∧
    (conn.stage = .opened ∨ conn.stage.shared) ∧
    (s.connections fd = some id ∨ s.removing = some (id, true))

/-- The events of a descriptor alternate, and end with Open while a connection is announced. -/
def Alternates (s : ConnectionTable) (fd : ℤ) : Prop :=
  ∃ n, s.eventsOf fd = alternating fd n ∧ (n % 2 = 1 ↔ s.Announced fd)

/-- Who owns what: descriptors belong to objects, and entries of the table to descriptors. -/
structure Placed (s : ConnectionTable) : Prop where
  owned : ∀ {id conn}, s.objects id = some conn → s.openFds conn.fd = true
  distinct : ∀ {id id' conn conn'}, s.objects id = some conn → s.objects id' = some conn' →
    conn.fd = conn'.fd → id = id'
  filed : ∀ {fd id}, s.connections fd = some id →
    ∃ conn, s.objects id = some conn ∧ conn.fd = fd ∧ conn.stage ≠ .created
  /-- Nobody can take a connection out before its functor is dispatched. -/
  kept : ∀ {id conn}, s.objects id = some conn → conn.stage = .inserted ∨ conn.stage = .opened →
    s.connections conn.fd = some id
  removed : ∀ {id pending}, s.removing = some (id, pending) →
    ∃ conn, s.objects id = some conn ∧ conn.stage.shared ∧ s.connections conn.fd = none

structure Inv (s : ConnectionTable) : Prop extends s.Placed where
  alternates : ∀ fd, s.Alternates fd

lemma inv_empty : empty.Inv where
  owned h := by cases h
  distinct h := by cases h
  filed h := by cases h
  kept h := by cases h
  removed h := by cases h
  alternates fd := ⟨0, rfl, by simp [Announced, empty]⟩

/-! ### The events of one descriptor -/

lemma Alternates.congr {s t : ConnectionTable} {fd : ℤ} (h : s.Alternates fd)
    (hevents : t.eventsOf fd = s.eventsOf fd) (hannounced : t.Announced fd ↔ s.Announced fd) :
    t.Alternates fd := by
  obtain ⟨n, heq, hlast⟩ := h
  exact ⟨n, hevents.trans heq, hlast.trans hannounced.symm⟩

lemma Alternates.opened {s t : ConnectionTable} {fd : ℤ} (h : s.Alternates fd)
    (hs : ¬ s.Announced fd) (hevents : t.eventsOf fd = s.eventsOf fd ++ [.connectionOpen fd])
    (ht : t.Announced fd) : t.Alternates fd := by
  obtain ⟨n, heq, hlast⟩ := h
  have heven : n % 2 = 0 := by
    rw [← hlast] at hs
    omega
  refine ⟨n + 1, ?_, iff_of_true (by omega) ht⟩
  rw [hevents, heq, alternating_succ, if_pos heven]

lemma Alternates.closed {s t : ConnectionTable} {fd : ℤ} (h : s.Alternates fd)
    (hs : s.Announced fd) (hevents : t.eventsOf fd = s.eventsOf fd ++ [.connectionClose fd])
    (ht : ¬ t.Announced fd) : t.Alternates fd := by
  obtain ⟨n, heq, hlast⟩ := h
  have hodd : n % 2 = 1 := hlast.mpr hs
  refine ⟨n + 1, ?_, iff_of_false (by omega) ht⟩
  rw [hevents, heq, alternating_succ, if_neg (by omega)]

@[simp] lemma objects_setObject_self (s : ConnectionTable) (id : ℕ) (conn : AcceptedConnection) :
    (s.setObject id conn).objects id = some conn := by
  simp [setObject]

lemma objects_setObject_of_ne (s : ConnectionTable) {id id' : ℕ} (conn : AcceptedConnection)
    (h : id' ≠ id) : (s.setObject id conn).objects id' = s.objects id' := by
  simp [setObject, h]

/-- An object with a descriptor is the only one, so it alone decides what is announced. -/
lemma Placed.announced_iff {s : ConnectionTable} (hs : s.Placed) {id : ℕ} {conn : AcceptedConnection}
    (h : s.objects id = some conn) :
    s.Announced conn.fd ↔ (conn.stage = .opened ∨ conn.stage.shared) ∧
      (s.connections conn.fd = some id ∨ s.removing = some (id, true)) := by
  constructor
  · rintro ⟨id', conn', h', hfd, htold, hfiled⟩
    cases hs.distinct h' h hfd
    cases h.symm.trans h'
    exact ⟨htold, hfiled⟩
  · rintro ⟨htold, hfiled⟩
    exact ⟨id, conn, h, rfl, htold, hfiled⟩

lemma announced_setObject {s : ConnectionTable} {id : ℕ} {conn conn' : AcceptedConnection} {fd : ℤ}
    (h : s.objects id = some conn) (hfd : conn'.fd = conn.fd)
    (htold : conn.fd = fd → (conn'.stage = .opened ∨ conn'.stage.shared ↔
      conn.stage = .opened ∨ conn.stage.shared)) :
    (s.setObject id conn').Announced fd ↔ s.Announced fd := by
  constructor
  · rintro ⟨id', c, hc, hcfd, hctold, hfiled⟩
    by_cases hid : id' = id
    · subst hid
      rw [objects_setObject_self] at hc
      cases hc
      exact ⟨id', conn, h, hfd.symm.trans hcfd, (htold (hfd.symm.trans hcfd)).mp hctold, hfiled⟩
    · rw [objects_setObject_of_ne s conn' hid] at hc
      exact ⟨id', c, hc, hcfd, hctold, hfiled⟩
  · rintro ⟨id', c, hc, hcfd, hctold, hfiled⟩
    by_cases hid : id' = id
    · subst hid
      cases h.symm.trans hc
      exact ⟨id', conn', objects_setObject_self s id' conn', hfd.trans hcfd,
        (htold hcfd).mpr hctold, hfiled⟩
    · exact ⟨id', c, (objects_setObject_of_ne s conn' hid).trans hc, hcfd, hctold, hfiled⟩

/-! ### Steps that touch one object -/

lemma objects_setObject {s : ConnectionTable} {id id' : ℕ} {conn conn' c : AcceptedConnection}
    (h : s.objects id = some conn) (hc : (s.setObject id conn').objects id' = some c) :
    ∃ c', s.objects id' = some c' ∧ (c = c' ∨ (id' = id ∧ c' = conn ∧ c = conn')) := by
  by_cases hid : id' = id
  · subst hid
    rw [objects_setObject_self] at hc
    cases hc
    exact ⟨conn, h, Or.inr ⟨rfl, rfl, rfl⟩⟩
  · rw [objects_setObject_of_ne s conn' hid] at hc
    exact ⟨c, hc, Or.inl rfl⟩

/-- The objects are the same but for one, which keeps its descriptor. -/
lemma fd_setObject {s : ConnectionTable} {id id' : ℕ} {conn conn' c : AcceptedConnection}
    (h : s.objects id = some conn) (hfd : conn'.fd = conn.fd)
    (hc : (s.setObject id conn').objects id' = some c) :
    ∃ c', s.objects id' = some c' ∧ c'.fd = c.fd := by
  obtain ⟨c', hc', rfl | ⟨-, rfl, rfl⟩⟩ := objects_setObject h hc
  · exact ⟨c, hc', rfl⟩
  · exact ⟨c', hc', hfd.symm⟩

lemma Placed.owned_setObject {s : ConnectionTable} (hs : s.Placed) {id id' : ℕ}
    {conn conn' c : AcceptedConnection} (h : s.objects id = some conn) (hfd : conn'.fd = conn.fd)
    (hc : (s.setObject id conn').objects id' = some c) : s.openFds c.fd = true := by
  obtain ⟨c', hc', heq⟩ := fd_setObject h hfd hc
  rw [← heq]
  exact hs.owned hc'

lemma Placed.distinct_setObject {s : ConnectionTable} (hs : s.Placed) {id id₁ id₂ : ℕ}
    {conn conn' c₁ c₂ : AcceptedConnection} (h : s.objects id = some conn)
    (hfd : conn'.fd = conn.fd) (h₁ : (s.setObject id conn').objects id₁ = some c₁)
    (h₂ : (s.setObject id conn').objects id₂ = some c₂) (heq : c₁.fd = c₂.fd) : id₁ = id₂ := by
  obtain ⟨d₁, hd₁, heq₁⟩ := fd_setObject h hfd h₁
  obtain ⟨d₂, hd₂, heq₂⟩ := fd_setObject h hfd h₂
  exact hs.distinct hd₁ hd₂ (heq₁.trans (heq.trans heq₂.symm))

/-- The place of a connection in the table allows the object to become `conn'`. -/
structure SamePlace (conn conn' : AcceptedConnection) : Prop where
  fd : conn'.fd = conn.fd
  shared : conn.stage.shared → conn'.stage.shared
  early : conn'.stage = .inserted ∨ conn'.stage = .opened →
    conn.stage = .inserted ∨ conn.stage = .opened
  created : conn'.stage = .created → conn.stage = .created

lemma samePlace_refs (conn : AcceptedConnection) (refs : ℕ) :
    SamePlace conn { conn with refs := refs } := ⟨rfl, fun h => h, fun h => h, fun h => h⟩

lemma Placed.setObject {s : ConnectionTable} (hs : s.Placed) {id : ℕ}
    {conn conn' : AcceptedConnection} (h : s.objects id = some conn)
    (hplace : SamePlace conn conn') : (s.setObject id conn').Placed where
  owned hc := hs.owned_setObject h hplace.fd hc
  distinct h₁ h₂ hfd := hs.distinct_setObject h hplace.fd h₁ h₂ hfd
  filed {fd id'} hfiled := by
    obtain ⟨c, hc, hcfd, hstage⟩ := hs.filed hfiled
    by_cases hid : id' = id
    · subst hid
      cases h.symm.trans hc
      exact ⟨conn', objects_setObject_self s id' conn', hplace.fd.trans hcfd,
        fun hcreated => hstage (hplace.created hcreated)⟩
    · exact ⟨c, (objects_setObject_of_ne s conn' hid).trans hc, hcfd, hstage⟩
  kept {id' c} hc hstage := by
    obtain ⟨c', hc', rfl | ⟨rfl, rfl, rfl⟩⟩ := objects_setObject h hc
    · exact hs.kept hc' hstage
    · rw [hplace.fd]
      exact hs.kept hc' (hplace.early hstage)
  removed {id' pending} hremoving := by
    obtain ⟨c, hc, hshared, hgone⟩ := hs.removed hremoving
    by_cases hid : id' = id
    · subst hid
      cases h.symm.trans hc
      refine ⟨conn', objects_setObject_self s id' conn', hplace.shared hshared, ?_⟩
      rw [hplace.fd]
      exact hgone
    · exact ⟨c, (objects_setObject_of_ne s conn' hid).trans hc, hshared, hgone⟩

/-- A step that the plugins do not hear of. -/
lemma Inv.setObject {s : ConnectionTable} (hs : s.Inv) {id : ℕ} {conn conn' : AcceptedConnection}
    (h : s.objects id = some conn) (hplace : SamePlace conn conn')
    (htold : conn'.stage = .opened ∨ conn'.stage.shared ↔
      conn.stage = .opened ∨ conn.stage.shared) : (s.setObject id conn').Inv where
  toPlaced := hs.toPlaced.setObject h hplace
  alternates fd := (hs.alternates fd).congr rfl (announced_setObject h hplace.fd fun _ => htold)

/-! ### The accepting thread -/

lemma inv_accept {s : ConnectionTable} (hs : s.Inv) {id : ℕ} {fd : ℤ} (hid : s.objects id = none)
    (hfd : s.openFds fd = false) :
    Inv { s.setObject id ⟨fd, .created, 0⟩ with openFds := Function.update s.openFds fd true } := by
  have hother : ∀ {id' c}, s.objects id' = some c → id' ≠ id ∧ c.fd ≠ fd := by
    intro id' c hc
    constructor
    · rintro rfl
      cases hid.symm.trans hc
    · rintro rfl
      cases hfd.symm.trans (hs.owned hc)
  have hcases : ∀ {id' c}, (s.setObject id ⟨fd, .created, 0⟩).objects id' = some c →
      (id' = id ∧ c = ⟨fd, .created, 0⟩) ∨ s.objects id' = some c := by
    intro id' c hc
    by_cases hne : id' = id
    · subst hne
      rw [objects_setObject_self] at hc
      cases hc
      exact Or.inl ⟨rfl, rfl⟩
    · rw [objects_setObject_of_ne s _ hne] at hc
      exact Or.inr hc
  have hold : ∀ {id' c}, s.objects id' = some c →
      (s.setObject id ⟨fd, .created, 0⟩).objects id' = some c := fun hc =>
    (objects_setObject_of_ne s _ (hother hc).1).trans hc
  refine ⟨⟨?_, ?_, ?_, ?_, ?_⟩, ?_⟩
  · intro id' c hc
    rcases hcases hc with ⟨-, rfl⟩ | hc
    · exact Function.update_self ..
    · exact (Function.update_of_ne (hother hc).2 _ _).trans (hs.owned hc)
  · intro id₁ id₂ c₁ c₂ h₁ h₂ heq
    rcases hcases h₁ with ⟨rfl, rfl⟩ | hold₁ <;> rcases hcases h₂ with ⟨rfl, rfl⟩ | hold₂
    · rfl
    · exact absurd heq.symm (hother hold₂).2
    · exact absurd heq (hother hold₁).2
    · exact hs.distinct hold₁ hold₂ heq
  · intro fd' id' hfiled
    obtain ⟨c, hc, hrest⟩ := hs.filed hfiled
    exact ⟨c, hold hc, hrest⟩
  · intro id' c hc hstage
    rcases hcases hc with ⟨-, rfl⟩ | hc
    · simp at hstage
    · exact hs.kept hc hstage
  · intro id' pending hremoving
    obtain ⟨c, hc, hrest⟩ := hs.removed hremoving
    exact ⟨c, hold hc, hrest⟩
  · intro fd'
    refine (hs.alternates fd').congr rfl ⟨?_, ?_⟩
    · rintro ⟨id', c, hc, hcfd, htold, hfiled⟩
      rcases hcases hc with ⟨-, rfl⟩ | hc
      · simp [AcceptStage.shared] at htold
      · exact ⟨id', c, hc, hcfd, htold, hfiled⟩
    · rintro ⟨id', c, hc, hrest⟩
      exact ⟨id', c, hold hc, hrest⟩

/-- The table has no entry yet for a descriptor whose object is new. -/
lemma Placed.connections_eq_none {s : ConnectionTable} (hs : s.Placed) {id : ℕ}
    {conn : AcceptedConnection} (h : s.objects id = some conn) (hstage : conn.stage = .created) :
    s.connections conn.fd = none := by
  cases hfiled : s.connections conn.fd with
  | none => rfl
  | some id' =>
    obtain ⟨c, hc, hcfd, hcreated⟩ := hs.filed hfiled
    cases hs.distinct hc h hcfd
    cases h.symm.trans hc
    exact absurd hstage hcreated

lemma inv_insert {s : ConnectionTable} (hs : s.Inv) {id : ℕ} {conn : AcceptedConnection}
    (h : s.objects id = some conn) (hstage : conn.stage = .created) (hlock : s.removing = none) :
    Inv { s.setObject id { conn with stage := .inserted } with
      connections := Function.update s.connections conn.fd (some id) } := by
  -- an object with the descriptor of the new one is the new one
  have hother : ∀ {id' c}, s.objects id' = some c → c.stage ≠ .created → id' ≠ id ∧ c.fd ≠ conn.fd := by
    intro id' c hc hcreated
    have hne : id' ≠ id := by
      rintro rfl
      cases h.symm.trans hc
      exact hcreated hstage
    exact ⟨hne, fun hfd => hne (hs.distinct hc h hfd)⟩
  have hsame : ({ conn with stage := .inserted } : AcceptedConnection).fd = conn.fd := rfl
  refine ⟨⟨?_, ?_, ?_, ?_, ?_⟩, ?_⟩
  · intro id' c hc
    exact hs.owned_setObject h hsame hc
  · intro id₁ id₂ c₁ c₂ h₁ h₂ heq
    exact hs.distinct_setObject h hsame h₁ h₂ heq
  · intro fd' id' hfiled
    dsimp only at hfiled
    by_cases hfd : fd' = conn.fd
    · subst hfd
      rw [Function.update_self] at hfiled
      cases hfiled
      exact ⟨_, objects_setObject_self s id _, rfl, by simp⟩
    · rw [Function.update_of_ne hfd] at hfiled
      obtain ⟨c, hc, hcfd, hcreated⟩ := hs.filed hfiled
      exact ⟨c, (objects_setObject_of_ne s _ (hother hc hcreated).1).trans hc, hcfd, hcreated⟩
  · intro id' c hc hearly
    obtain ⟨c', hc', rfl | ⟨rfl, rfl, rfl⟩⟩ := objects_setObject h hc
    · have hcreated : c.stage ≠ .created := by
        rcases hearly with hearly | hearly <;> simp [hearly]
      exact (Function.update_of_ne (hother hc' hcreated).2 _ _).trans (hs.kept hc' hearly)
    · exact Function.update_self ..
  · intro id' pending hremoving
    cases hlock.symm.trans hremoving
  · intro fd'
    have hnotCreated : ∀ {c : AcceptedConnection}, c.stage = .opened ∨ c.stage.shared →
        c.stage ≠ .created := by
      rintro c (htold | htold) hcreated <;> simp [hcreated, AcceptStage.shared] at htold
    refine (hs.alternates fd').congr rfl ⟨?_, ?_⟩
    · rintro ⟨id', c, hc, rfl, htold, hfiled⟩
      obtain ⟨c', hc', rfl | ⟨rfl, rfl, rfl⟩⟩ := objects_setObject h hc
      · refine ⟨id', c, hc', rfl, htold, ?_⟩
        dsimp only at hfiled
        rwa [Function.update_of_ne (hother hc' (hnotCreated htold)).2] at hfiled
      · simp [AcceptStage.shared] at htold
    · rintro ⟨id', c, hc, rfl, htold, hfiled⟩
      have hne := hother hc (hnotCreated htold)
      refine ⟨id', c, (objects_setObject_of_ne s _ hne.1).trans hc, rfl, htold, ?_⟩
      dsimp only
      rwa [Function.update_of_ne hne.2]

/-- The plugins hear of a connection while it is still in the table. -/
lemma inv_notifyOpen {s : ConnectionTable} (hs : s.Inv) {id : ℕ} {conn : AcceptedConnection}
    (h : s.objects id = some conn) (hstage : conn.stage = .inserted) :
    ((s.setObject id { conn with stage := .opened }).notifyConnectionOpen conn.fd).Inv := by
  have hplaced : (s.setObject id { conn with stage := .opened }).Placed :=
    hs.toPlaced.setObject h
      ⟨rfl, by simp [hstage, AcceptStage.shared], by simp [hstage], by simp⟩
  refine ⟨⟨hplaced.owned, hplaced.distinct, hplaced.filed, hplaced.kept, hplaced.removed⟩, ?_⟩
  intro fd
  by_cases hfd : conn.fd = fd
  · subst hfd
    apply (hs.alternates conn.fd).opened
    · rw [hs.announced_iff h]
      simp [hstage, AcceptStage.shared]
    · simp [eventsOf, notifyConnectionOpen, ConnectionTable.setObject, PluginEvent.fd]
    · exact ⟨id, _, objects_setObject_self s id _, rfl, Or.inl rfl,
        Or.inl (hs.kept h (Or.inl hstage))⟩
  · apply (hs.alternates fd).congr
    · simp [eventsOf, notifyConnectionOpen, ConnectionTable.setObject, PluginEvent.fd, hfd]
    · exact announced_setObject h rfl fun heq => absurd heq hfd

/-! ### The handlers -/

/-- The entry of the descriptor, if any, is the one of the connection that is taken out. -/
lemma Placed.connections_cases {s : ConnectionTable} (hs : s.Placed) {id : ℕ}
    {conn : AcceptedConnection} (h : s.objects id = some conn) :
    s.connections conn.fd = none ∨ s.connections conn.fd = some id := by
  cases hfiled : s.connections conn.fd with
  | none => exact Or.inl rfl
  | some id' =>
    obtain ⟨c, hc, hcfd, -⟩ := hs.filed hfiled
    rw [hs.distinct hc h hcfd]
    exact Or.inr rfl

lemma inv_erase {s : ConnectionTable} (hs : s.Inv) {id : ℕ} {conn : AcceptedConnection}
    (h : s.objects id = some conn) (hshared : conn.stage.shared) (hlock : s.removing = none) :
    Inv { s with
      connections := Function.update s.connections conn.fd none
      removing := some (id, (s.connections conn.fd).isSome) } := by
  have hplaced : Placed { s with
      connections := Function.update s.connections conn.fd none
      removing := some (id, (s.connections conn.fd).isSome) } := by
    refine ⟨hs.owned, hs.distinct, ?_, ?_, ?_⟩
    · intro fd id' hfiled
      dsimp only at hfiled
      by_cases hfd : fd = conn.fd
      · subst hfd
        rw [Function.update_self] at hfiled
        cases hfiled
      · rw [Function.update_of_ne hfd] at hfiled
        exact hs.filed hfiled
    · intro id' c hc hearly
      have hfd : c.fd ≠ conn.fd := by
        intro hfd
        cases hs.distinct hc h hfd
        cases h.symm.trans hc
        rcases hearly with hearly | hearly <;> simp [hearly, AcceptStage.shared] at hshared
      exact (Function.update_of_ne hfd _ _).trans (hs.kept hc hearly)
    · intro id' pending hremoving
      cases hremoving
      exact ⟨conn, h, hshared, Function.update_self ..⟩
  refine ⟨hplaced, ?_⟩
  intro fd
  refine (hs.alternates fd).congr rfl ?_
  by_cases hfd : conn.fd = fd
  · subst hfd
    rw [hs.announced_iff h, hplaced.announced_iff h]
    rcases hs.connections_cases h with hnone | hsome
    · simp [hnone, hlock]
    · simp [hsome]
  · constructor
    · rintro ⟨id', c, hc, rfl, htold, hfiled | hremoving⟩
      · dsimp only at hfiled
        rw [Function.update_of_ne (Ne.symm hfd)] at hfiled
        exact ⟨id', c, hc, rfl, htold, Or.inl hfiled⟩
      · obtain ⟨rfl, -⟩ := Prod.mk.inj (Option.some.inj hremoving)
        cases h.symm.trans hc
        exact absurd rfl hfd
    · rintro ⟨id', c, hc, rfl, htold, hfiled | hremoving⟩
      · exact ⟨id', c, hc, rfl, htold, Or.inl ((Function.update_of_ne (Ne.symm hfd) _ _).trans hfiled)⟩
      · cases hlock.symm.trans hremoving

lemma inv_notifyClose {s : ConnectionTable} (hs : s.Inv) {id : ℕ} {conn : AcceptedConnection}
    (hremoving : s.removing = some (id, true)) (h : s.objects id = some conn) :
    Inv { s.notifyConnectionClose conn.fd with removing := some (id, false) } := by
  obtain ⟨c, hc, hshared, hgone⟩ := hs.removed hremoving
  cases h.symm.trans hc
  have hplaced : Placed { s.notifyConnectionClose conn.fd with removing := some (id, false) } := by
    refine ⟨hs.owned, hs.distinct, hs.filed, hs.kept, ?_⟩
    intro id' pending heq
    cases heq
    exact ⟨conn, h, hshared, hgone⟩
  refine ⟨hplaced, ?_⟩
  intro fd
  by_cases hfd : conn.fd = fd
  · subst hfd
    apply (hs.alternates conn.fd).closed
    · rw [hs.announced_iff h]
      exact ⟨Or.inr hshared, Or.inr hremoving⟩
    · simp [eventsOf, notifyConnectionClose, PluginEvent.fd]
    · rw [hplaced.announced_iff h]
      simp [notifyConnectionClose, hgone]
  · apply (hs.alternates fd).congr
    · simp [eventsOf, notifyConnectionClose, PluginEvent.fd, hfd]
    · constructor
      · rintro ⟨id', c, hc, rfl, htold, hfiled | heq⟩
        · exact ⟨id', c, hc, rfl, htold, Or.inl hfiled⟩
        · cases heq
      · rintro ⟨id', c, hc, rfl, htold, hfiled | heq⟩
        · exact ⟨id', c, hc, rfl, htold, Or.inl hfiled⟩
        · cases hremoving.symm.trans heq
          cases h.symm.trans hc
          exact absurd rfl hfd

lemma inv_unlock {s : ConnectionTable} (hs : s.Inv) {id : ℕ} (hremoving : s.removing = some (id, false)) :
    Inv { s with removing := none } := by
  refine ⟨⟨hs.owned, hs.distinct, hs.filed, hs.kept, by simp⟩, ?_⟩
  intro fd
  refine (hs.alternates fd).congr rfl ?_
  simp [Announced, hremoving]

lemma inv_destroy {s : ConnectionTable} (hs : s.Inv) {id : ℕ} {conn : AcceptedConnection}
    (h : s.objects id = some conn) (hfiled : s.connections conn.fd ≠ some id)
    (hremoving : s.removing.map Prod.fst ≠ some id) :
    Inv { s with
      objects := Function.update s.objects id none
      openFds := Function.update s.openFds conn.fd false } := by
  have hold : ∀ {id' c}, Function.update s.objects id none id' = some c →
      s.objects id' = some c ∧ id' ≠ id := by
    intro id' c hc
    by_cases hid : id' = id
    · rw [hid, Function.update_self] at hc
      cases hc
    · rw [Function.update_of_ne hid] at hc
      exact ⟨hc, hid⟩
  have hnew : ∀ {id' c}, s.objects id' = some c → id' ≠ id →
      Function.update s.objects id none id' = some c := fun hc hid =>
    (Function.update_of_ne hid _ _).trans hc
  refine ⟨⟨?_, ?_, ?_, ?_, ?_⟩, ?_⟩
  · intro id' c hc
    obtain ⟨hc, hid⟩ := hold hc
    have hfd : c.fd ≠ conn.fd := fun hfd => hid (hs.distinct hc h hfd)
    exact (Function.update_of_ne hfd _ _).trans (hs.owned hc)
  · intro id₁ id₂ c₁ c₂ h₁ h₂ heq
    exact hs.distinct (hold h₁).1 (hold h₂).1 heq
  · intro fd id' hentry
    obtain ⟨c, hc, rfl, hcreated⟩ := hs.filed hentry
    refine ⟨c, hnew hc ?_, rfl, hcreated⟩
    rintro rfl
    cases h.symm.trans hc
    exact hfiled hentry
  · intro id' c hc hearly
    exact hs.kept (hold hc).1 hearly
  · intro id' pending heq
    obtain ⟨c, hc, hrest⟩ := hs.removed heq
    refine ⟨c, hnew hc ?_, hrest⟩
    rintro rfl
    exact hremoving (congrArg (Option.map Prod.fst) heq)
  · intro fd
    refine (hs.alternates fd).congr rfl ?_
    constructor
    · rintro ⟨id', c, hc, hrest⟩
      exact ⟨id', c, (hold hc).1, hrest⟩
    · rintro ⟨id', c, hc, rfl, htold, hplace⟩
      refine ⟨id', c, hnew hc ?_, rfl, htold, hplace⟩
      rintro rfl
      cases h.symm.trans hc
      rcases hplace with hplace | hplace
      · exact hfiled hplace
      · exact hremoving (congrArg (Option.map Prod.fst) hplace)

/-! ### Runs -/

lemma bind_objects {s t : ConnectionTable} {id : ℕ} {f : AcceptedConnection → Option ConnectionTable}
    (h : (s.objects id).bind f = some t) : ∃ conn, s.objects id = some conn ∧ f conn = some t :=
  Option.bind_eq_some_iff.mp h

lemma inv_step {s t : ConnectionTable} (hs : s.Inv) {move : Move} (h : s.step move = some t) :
    t.Inv := by
  cases move with
  | accept id fd =>
    rw [step] at h
    split_ifs at h with hfree
    cases h
    exact inv_accept hs hfree.1 hfree.2
  | insert id =>
    obtain ⟨conn, hconn, hnext⟩ := bind_objects h
    split_ifs at hnext with hstage
    cases hnext
    exact inv_insert hs hconn hstage.1 hstage.2
  | notifyOpen id =>
    obtain ⟨conn, hconn, hnext⟩ := bind_objects h
    split_ifs at hnext with hstage
    cases hnext
    exact inv_notifyOpen hs hconn hstage
  | dispatch id =>
    obtain ⟨conn, hconn, hnext⟩ := bind_objects h
    split_ifs at hnext with hstage
    cases hnext
    apply hs.setObject hconn
    · constructor <;> simp [hstage, AcceptStage.shared]
    · simp [hstage, AcceptStage.shared]
  | leave id =>
    obtain ⟨conn, hconn, hnext⟩ := bind_objects h
    split_ifs at hnext with hstage
    cases hnext
    apply hs.setObject hconn
    · constructor <;> simp [hstage, AcceptStage.shared]
    · simp [hstage, AcceptStage.shared]
  | acquire id =>
    obtain ⟨conn, hconn, hnext⟩ := bind_objects h
    split_ifs at hnext
    cases hnext
    exact hs.setObject hconn (samePlace_refs conn _) Iff.rfl
  | release id =>
    obtain ⟨conn, hconn, hnext⟩ := bind_objects h
    split_ifs at hnext
    cases hnext
    exact hs.setObject hconn (samePlace_refs conn _) Iff.rfl
  | erase id =>
    obtain ⟨conn, hconn, hnext⟩ := bind_objects h
    split_ifs at hnext with hshared
    cases hnext
    exact inv_erase hs hconn hshared.1 hshared.2.2
  | notifyClose =>
    rw [step] at h
    split at h
    · rename_i id hremoving
      obtain ⟨conn, hconn, rfl⟩ := Option.map_eq_some_iff.mp h
      exact inv_notifyClose hs hremoving hconn
    · cases h
  | unlock =>
    rw [step] at h
    split at h
    · rename_i id hremoving
      cases h
      exact inv_unlock hs hremoving
    · cases h
  | destroy id =>
    obtain ⟨conn, hconn, hnext⟩ := bind_objects h
    split_ifs at hnext with hlast
    cases hnext
    exact inv_destroy hs hconn hlast.2.2.1 hlast.2.2.2

lemma inv_run {s : ConnectionTable} {ms : List Move} (h : Runs.run step empty ms = some s) :
    s.Inv :=
  Runs.invariant_run step (fun _ _ _ hs hstep => inv_step hs hstep) inv_empty h

/-- The plugins hear Open and Close in turn for each descriptor, and an entry of the table is never
overwritten. -/
theorem events_alternate {ms : List Move} {s : ConnectionTable}
    (h : Runs.run step empty ms = some s) :
    (∀ fd, s.eventsOf fd = alternating fd (s.eventsOf fd).length) ∧
      ∀ id conn t, s.objects id = some conn → s.step (.insert id) = some t →
        s.connections conn.fd = none := by
  have hs := inv_run h
  constructor
  · intro fd
    obtain ⟨n, heq, -⟩ := hs.alternates fd
    rw [heq, length_alternating]
  · intro id conn t hconn hinsert
    obtain ⟨c, hc, hnext⟩ := bind_objects hinsert
    cases hconn.symm.trans hc
    split_ifs at hnext with hstage
    exact hs.connections_eq_none hconn hstage.1

/-- A descriptor is accepted, closed by its handler, and accepted again. -/
theorem events_alternate_reuse :
    let ms : List Move := [.accept 0 5, .insert 0, .notifyOpen 0, .dispatch 0, .leave 0, .erase 0,
      .notifyClose, .unlock, .release 0, .destroy 0, .accept 1 5, .insert 1, .notifyOpen 1]
    ∃ s, Runs.run step empty ms = some s ∧
      s.eventsOf 5 = [.connectionOpen 5, .connectionClose 5, .connectionOpen 5] ∧
      ∀ fd, s.eventsOf fd = alternating fd (s.eventsOf fd).length := by
  intro ms
  have hrun : Runs.run step empty ms = some _ := rfl
  exact ⟨_, hrun, rfl, (events_alternate hrun).1⟩

end ConnectionTable

end TinyWebServer
