import TinyWebServer.Library.Bytes
import TinyWebServer.Library.Descriptors
import TinyWebServer.Library.Runs

/-!
# Several sockets that listen on one port

A `MultiListenSocket` opens its sockets in its constructor and closes them when it is destroyed,
when another one is moved into it, or when it is told to. The sockets of a program are those of its
objects, whatever system call fails and however the objects are moved, apart from the one socket
that a constructor leaves open when it is given an address that is none.
-/

namespace TinyWebServer

open Descriptors

/-- What the sockets need of the system. -/
structure SocketEnv where
  kernel : Kernel
  /-- `inet_pton` accepts the address. -/
  inetPton : Bytes → Bool
  /-- `std::strerror(errno)` behind the `n`-th system call. -/
  strerror : ℕ → Bytes
  /-- The capacity of an empty vector behind `reserve`, for a number that can be reserved. -/
  reserve : ℕ → ℕ
  le_reserve : ∀ n, n ≤ reserve n

structure MultiListenSocket where
  socketFds : List ℤ
  errorMessage : Bytes
  isValid : Bool
  ip : Bytes
  port : ℕ
  backlog : ℤ
  tcpNodelay : Bool
  tcpCork : Bool

namespace MultiListenSocket

variable (env : SocketEnv)

/-- `CreateSocketAddress` throws for an address that is none. -/
def addressAccepted (ip : Bytes) : Bool :=
  ip = [] || ip = bytes "0.0.0.0" || env.inetPton ip

/-- The options in the order in which they are set, until one of them fails. -/
def setOptions : ℕ → Table → Bool × Table
  | 0, t => (true, t)
  | count + 1, t =>
    let (ok, t) := t.ask env.kernel
    if ok then setOptions count t else (false, t)

/-- `SO_REUSEADDR` and `SO_REUSEPORT`, and `TCP_NODELAY` and `TCP_CORK` where they are wanted. -/
def setSocketOptions (tcpNodelay tcpCork : Bool) (t : Table) : Bool × Table :=
  setOptions env (2 + tcpNodelay.toNat + tcpCork.toNat) t

/-- The descriptor or -1. The exception leaves the socket open. -/
def createListenSocket (ip : Bytes) (tcpNodelay tcpCork : Bool) (t : Table) :
    Except Bytes ℤ × Table :=
  let (fd, t) := t.socket env.kernel
  if fd < 0 then (.ok (-1), t)
  else
    let (ok, t) := setSocketOptions env tcpNodelay tcpCork t
    if ¬ ok then (.ok (-1), t.close fd)
    else if ¬ addressAccepted env ip then (.error (bytes "Invalid IP address: " ++ ip), t)
    else
      let (bound, t) := t.ask env.kernel
      if ¬ bound then (.ok (-1), t.close fd)
      else
        let (listening, t) := t.ask env.kernel
        if ¬ listening then (.ok (-1), t.close fd) else (.ok fd, t)

def closeFds : List ℤ → Table → Table
  | [], t => t
  | fd :: fds, t => closeFds fds (if 0 ≤ fd then t.close fd else t)

def closeAll (o : MultiListenSocket) (t : Table) : MultiListenSocket × Table :=
  ({ o with socketFds := [], isValid := false }, closeFds o.socketFds t)

/-- The turns of `CreateAndBindSockets` from the index on, with so many turns to go. -/
def createFrom (index : ℕ) : ℕ → MultiListenSocket → Table →
    Except Bytes (Bool × MultiListenSocket) × Table
  | 0, o, t => (.ok (true, o), t)
  | turns + 1, o, t =>
    match createListenSocket env o.ip o.tcpNodelay o.tcpCork t with
    | (.error e, t) => (.error e, t)
    | (.ok fd, t) =>
      if fd < 0 then
        let message := bytes "Failed to create socket " ++ Bytes.ofNat index ++ bytes ": " ++
          env.strerror t.calls
        (.ok (false, { o with errorMessage := message }), t)
      else createFrom (index + 1) turns { o with socketFds := o.socketFds ++ [fd] } t

/-- `CreateAndBindSockets` goes on up to the capacity of the vector. -/
def createAndBindSockets (capacity : ℕ) (o : MultiListenSocket) (t : Table) :
    Except Bytes (Bool × MultiListenSocket) × Table := createFrom env 0 capacity o t

def isSOReusePortSupported (t : Table) : Bool × Table :=
  let (fd, t) := t.socket env.kernel
  if fd < 0 then (false, t)
  else
    let (supported, t) := t.ask env.kernel
    (supported, t.close fd)

/-- The constructor. When it throws, no destructor runs for the object. -/
def construct (ip : Bytes) (port numSockets : ℕ) (backlog : ℤ) (tcpNodelay tcpCork : Bool)
    (t : Table) : Except Bytes MultiListenSocket × Table :=
  let o : MultiListenSocket :=
    { socketFds := [], errorMessage := [], isValid := false, ip := ip, port := port
      backlog := backlog, tcpNodelay := tcpNodelay, tcpCork := tcpCork }
  if numSockets = 0 then
    (.ok { o with errorMessage := bytes "Number of sockets must be greater than 0" }, t)
  else
    let (supported, t) := isSOReusePortSupported env t
    if ¬ supported then
      let message := bytes "SO_REUSEPORT is not supported on this system (requires Linux 3.9+)"
      (.ok { o with errorMessage := message }, t)
    else
      match createAndBindSockets env (env.reserve numSockets) o t with
      | (.error e, t) => (.error e, t)
      | (.ok (created, o), t) =>
        if created then (.ok { o with isValid := true }, t)
        else
          let (o, t) := o.closeAll t
          (.ok o, t)

/-- What is left of an object that another one was made of. A moved string is empty. -/
def movedFrom (o : MultiListenSocket) : MultiListenSocket :=
  { o with socketFds := [], errorMessage := [], isValid := false, ip := [] }

/-! ### The books of the functions -/

variable {t : Table} {fds : List ℤ}

lemma keeps_setOptions (count : ℕ) (h : Keeps t fds) :
    Keeps (setOptions env count t).2 fds := by
  induction count generalizing t with
  | zero => exact h
  | succ count ih =>
    simp only [setOptions]
    split_ifs
    · exact ih (h.ask (k := env.kernel))
    · exact h.ask (k := env.kernel)

/-- What `CreateListenSocket` leaves open: the socket that it returns, nothing when it fails, and
a socket that nobody knows when it throws. -/
lemma keeps_createListenSocket (ip : Bytes) (tcpNodelay tcpCork : Bool) (h : Keeps t fds) :
    match createListenSocket env ip tcpNodelay tcpCork t with
    | (.ok fd, t') => Keeps t' (if fd < 0 then fds else fd :: fds) ∧
      (¬ fd < 0 → addressAccepted env ip)
    | (.error _, t') => addressAccepted env ip = false ∧ ∃ fd, Keeps t' (fd :: fds) := by
  have hneg : (-1 : ℤ) < 0 := by decide
  simp only [createListenSocket]
  by_cases hfd : (t.socket env.kernel).1 < 0
  · simp only [if_pos hfd, if_pos hneg]
    exact ⟨h.socket_refused hfd, fun hno => absurd hneg hno⟩
  have hopen := h.socket (k := env.kernel) (not_lt.mp hfd)
  have hset := keeps_setOptions env (2 + tcpNodelay.toNat + tcpCork.toNat) hopen
  rw [if_neg hfd]
  split_ifs with hoptions haddress hbound hlistening
  · simp only [if_neg hfd]
    exact ⟨(hset.ask (k := env.kernel)).ask (k := env.kernel), fun _ => haddress⟩
  · simp only [if_pos hneg]
    exact ⟨((hset.ask (k := env.kernel)).ask (k := env.kernel)).close, fun _ => haddress⟩
  · simp only [if_pos hneg]
    exact ⟨(hset.ask (k := env.kernel)).close, fun _ => haddress⟩
  · exact ⟨by simpa using haddress, _, hset⟩
  · simp only [if_pos hneg]
    exact ⟨hset.close, fun hno => absurd hneg hno⟩

lemma keeps_closeFds {owned : List ℤ} (h : Keeps t (owned ++ fds)) :
    Keeps (closeFds owned t) fds := by
  induction owned generalizing t with
  | nil => exact h
  | cons fd owned ih =>
    rw [closeFds, if_pos (h.nonneg fd (by simp))]
    exact ih (Keeps.close h)

/-- The sockets that `CreateAndBindSockets` has opened are those of the object. -/
lemma keeps_createFrom (index turns : ℕ) {o : MultiListenSocket}
    (h : Keeps t (o.socketFds ++ fds)) :
    match createFrom env index turns o t with
    | (.ok result, t') => Keeps t' (result.2.socketFds ++ fds) ∧
      (result.1 → result.2.socketFds.length = o.socketFds.length + turns)
    | (.error _, t') => addressAccepted env o.ip = false ∧
      ∃ fd, Keeps t' (fd :: (o.socketFds ++ fds)) := by
  -- an address that is none is found out in the first turn
  induction turns generalizing index o t with
  | zero => exact ⟨h, fun _ => rfl⟩
  | succ turns ih =>
    have hcreate := keeps_createListenSocket env o.ip o.tcpNodelay o.tcpCork h
    rw [createFrom]
    generalize createListenSocket env o.ip o.tcpNodelay o.tcpCork t = result at hcreate
    obtain ⟨_ | fd, t'⟩ := result
    · exact hcreate
    · dsimp only at hcreate ⊢
      split_ifs at hcreate ⊢ with hfd
      · exact ⟨hcreate.1, fun hno => Bool.noConfusion hno⟩
      · -- the new socket stands behind those that the object has
        have hbooks : Keeps t' ((o.socketFds ++ [fd]) ++ fds) := by
          refine hcreate.1.perm_books ?_
          rw [List.append_assoc, List.singleton_append]
          exact List.perm_middle.symm
        have hrest := ih (index + 1) (o := { o with socketFds := o.socketFds ++ [fd] }) hbooks
        generalize createFrom env (index + 1) turns { o with socketFds := o.socketFds ++ [fd] } t' =
          result at hrest
        obtain ⟨_ | ⟨created, o'⟩, t''⟩ := result
        · exact absurd (hcreate.2 hfd) (by simp [hrest.1])
        · refine ⟨hrest.1, fun hcreated => ?_⟩
          rw [hrest.2 hcreated, List.length_append, List.length_singleton]
          omega

lemma keeps_isSOReusePortSupported (h : Keeps t fds) :
    Keeps (isSOReusePortSupported env t).2 fds := by
  simp only [isSOReusePortSupported]
  split_ifs with hfd
  · exact h.socket_refused hfd
  · exact ((h.socket (not_lt.mp hfd)).ask (k := env.kernel)).close

/-- An object has sockets if and only if it is valid. -/
def Consistent (o : MultiListenSocket) : Prop := o.isValid ↔ o.socketFds ≠ []

/-- The constructor enters the sockets of the object into the books. -/
lemma keeps_construct (ip : Bytes) (port numSockets : ℕ) (backlog : ℤ) (tcpNodelay tcpCork : Bool)
    (h : Keeps t fds) :
    match construct env ip port numSockets backlog tcpNodelay tcpCork t with
    | (.ok o, t') => Keeps t' (o.socketFds ++ fds) ∧ o.Consistent
    | (.error _, t') => addressAccepted env ip = false ∧ ∃ fd, Keeps t' (fd :: fds) := by
  simp only [construct]
  have hsupported := keeps_isSOReusePortSupported env h
  split_ifs with hzero hreuse
  · exact ⟨h, by simp [Consistent]⟩
  · have hpos : 0 < env.reserve numSockets :=
      (Nat.pos_of_ne_zero hzero).trans_le (env.le_reserve numSockets)
    have hcreate := keeps_createFrom env 0 (env.reserve numSockets)
      (o := ⟨[], [], false, ip, port, backlog, tcpNodelay, tcpCork⟩)
      (show Keeps _ ([] ++ fds) from hsupported)
    simp only [createAndBindSockets]
    generalize createFrom env 0 (env.reserve numSockets) _ _ = result at hcreate
    obtain ⟨_ | ⟨created, o⟩, t'⟩ := result
    · exact hcreate
    · dsimp only at hcreate ⊢
      split_ifs with hcreated
      · refine ⟨hcreate.1, iff_of_true rfl (List.ne_nil_of_length_pos ?_)⟩
        rw [hcreate.2 hcreated]
        exact Nat.add_pos_right _ hpos
      · exact ⟨keeps_closeFds hcreate.1, by simp [Consistent, closeAll]⟩
  · exact ⟨hsupported, by simp [Consistent]⟩

lemma consistent_movedFrom (o : MultiListenSocket) : o.movedFrom.Consistent := by
  simp [Consistent, movedFrom]

lemma consistent_closeAll (o : MultiListenSocket) (t : Table) : (o.closeAll t).1.Consistent := by
  simp [Consistent, closeAll]

end MultiListenSocket

/-! ### Programs with such objects -/

/-- A program with its objects, of which some are gone, and the descriptors that it uses for other
things. -/
structure ListenProgram where
  objects : List (Option MultiListenSocket)
  elsewhere : List ℤ
  table : Table
  /-- How many constructors have thrown. -/
  thrown : ℕ

namespace ListenProgram

inductive Move where
  | construct (ip : Bytes) (port numSockets : ℕ) (backlog : ℤ) (tcpNodelay tcpCork : Bool)
  | moveConstruct (source : ℕ)
  | moveAssign (target source : ℕ)
  | closeAll (index : ℕ)
  | destroy (index : ℕ)
  | openElsewhere
  | closeElsewhere (fd : ℤ)

def start (t : Table) : ListenProgram :=
  { objects := [], elsewhere := t.openFds, table := t, thrown := 0 }

def live (p : ListenProgram) (i : ℕ) : Option MultiListenSocket := p.objects[i]?.join

def step (env : SocketEnv) (p : ListenProgram) : Move → Option ListenProgram
  | .construct ip port numSockets backlog tcpNodelay tcpCork =>
    match MultiListenSocket.construct env ip port numSockets backlog tcpNodelay tcpCork p.table with
    | (.ok o, t) => some { p with objects := p.objects ++ [some o], table := t }
    | (.error _, t) => some { p with table := t, thrown := p.thrown + 1 }
  | .moveConstruct source =>
    (p.live source).map fun o =>
      { p with objects := p.objects.set source (some o.movedFrom) ++ [some o] }
  | .moveAssign target source =>
    (p.live target).bind fun o => (p.live source).map fun other =>
      if target = source then p
      else
        { p with
          objects := (p.objects.set source (some other.movedFrom)).set target (some other)
          table := (o.closeAll p.table).2 }
  | .closeAll i =>
    (p.live i).map fun o =>
      { p with
        objects := p.objects.set i (some (o.closeAll p.table).1)
        table := (o.closeAll p.table).2 }
  | .destroy i =>
    (p.live i).map fun o =>
      { p with objects := p.objects.set i none, table := (o.closeAll p.table).2 }
  | .openElsewhere =>
    let (fd, t) := p.table.socket env.kernel
    some { p with elsewhere := if fd < 0 then p.elsewhere else fd :: p.elsewhere, table := t }
  | .closeElsewhere fd =>
    if fd ∈ p.elsewhere then
      some { p with elsewhere := p.elsewhere.erase fd, table := p.table.close fd }
    else none

/-- The sockets of an entry. -/
def fdsOf (o : Option MultiListenSocket) : List ℤ := o.elim [] (·.socketFds)

def owned (p : ListenProgram) : List ℤ := p.objects.flatMap fdsOf

/-- The sockets of one entry and those of the others. -/
lemma exists_rest {objects : List (Option MultiListenSocket)} {i : ℕ}
    {o : Option MultiListenSocket} (h : objects[i]? = some o) :
    ∃ rest, (objects.flatMap fdsOf).Perm (fdsOf o ++ rest) ∧
      ∀ o', ((objects.set i o').flatMap fdsOf).Perm (fdsOf o' ++ rest) := by
  induction objects generalizing i with
  | nil => simp at h
  | cons a objects ih =>
    cases i with
    | zero =>
      cases h
      exact ⟨objects.flatMap fdsOf, .refl _, fun o' => .refl _⟩
    | succ i =>
      obtain ⟨rest, hperm, hset⟩ := ih h
      refine ⟨fdsOf a ++ rest, ?_, fun o' => ?_⟩
      · rw [List.flatMap_cons]
        exact (hperm.append_left _).trans (List.perm_append_comm_assoc ..)
      · rw [List.set_cons_succ, List.flatMap_cons]
        exact ((hset o').append_left _).trans (List.perm_append_comm_assoc ..)

/-- The books of a program: its own sockets, what it uses elsewhere, and one lost socket for each
constructor that has thrown. -/
structure Balanced (p : ListenProgram) : Prop where
  books : ∃ lost, lost.length = p.thrown ∧ Keeps p.table (p.owned ++ (p.elsewhere ++ lost))
  consistent : ∀ o, some o ∈ p.objects → o.Consistent

variable {env : SocketEnv} {p q : ListenProgram}

lemma getElem?_of_live {i : ℕ} {o : MultiListenSocket} (h : p.live i = some o) :
    p.objects[i]? = some (some o) := by
  rw [live] at h
  cases hget : p.objects[i]? with
  | none => simp [hget] at h
  | some entry => simpa [hget] using h

/-- An object gives up its sockets, and another entry stands in its place. -/
lemma Balanced.release (hp : p.Balanced) {i : ℕ} {o : MultiListenSocket} (h : p.live i = some o)
    {o' : Option MultiListenSocket} (hnone : fdsOf o' = [])
    (hconsistent : ∀ u, o' = some u → u.Consistent) :
    Balanced { p with objects := p.objects.set i o', table := (o.closeAll p.table).2 } := by
  obtain ⟨lost, hlost, hkeeps⟩ := hp.books
  obtain ⟨rest, hperm, hset⟩ := exists_rest (getElem?_of_live h)
  refine ⟨⟨lost, hlost, ?_⟩, fun u hu => ?_⟩
  · have hbooks : Keeps p.table (o.socketFds ++ (rest ++ (p.elsewhere ++ lost))) := by
      refine hkeeps.perm_books ?_
      rw [← List.append_assoc o.socketFds]
      exact hperm.append_right _
    refine (MultiListenSocket.keeps_closeFds hbooks).perm_books ?_
    have hkept := hset o'
    rw [hnone, List.nil_append] at hkept
    exact (hkept.append_right _).symm
  · rcases List.mem_or_eq_of_mem_set hu with hu | hu
    · exact hp.consistent u hu
    · exact hconsistent u hu.symm

/-- An entry without sockets is given those of an object. -/
lemma Balanced.transfer (hp : p.Balanced) {i j : ℕ} {o : MultiListenSocket}
    {old : Option MultiListenSocket} (hi : p.objects[i]? = some old) (hold : fdsOf old = [])
    (hj : p.live j = some o) (hne : i ≠ j) :
    Balanced { p with objects := (p.objects.set j (some o.movedFrom)).set i (some o) } := by
  obtain ⟨lost, hlost, hkeeps⟩ := hp.books
  have hget := getElem?_of_live hj
  obtain ⟨rest, hperm, hset⟩ := exists_rest hget
  obtain ⟨rest', hperm', hset'⟩ :=
    exists_rest ((List.getElem?_set_ne hne.symm (a := some o.movedFrom)).trans hi)
  rw [hold, List.nil_append] at hperm'
  refine ⟨⟨lost, hlost, hkeeps.perm_books ?_⟩, fun u hu => ?_⟩
  · refine List.Perm.append_right _ ?_
    have hsame : rest'.Perm rest := hperm'.symm.trans (hset (some o.movedFrom))
    exact hperm.trans ((hsame.symm.append_left _).trans (hset' (some o)).symm)
  · rcases List.mem_or_eq_of_mem_set hu with hu | hu
    · rcases List.mem_or_eq_of_mem_set hu with hu | hu
      · exact hp.consistent u hu
      · cases hu
        exact o.consistent_movedFrom
    · cases hu
      exact hp.consistent o (List.mem_of_getElem? hget)

lemma Balanced.moveConstruct (hp : p.Balanced) {i : ℕ} {o : MultiListenSocket}
    (h : p.live i = some o) :
    Balanced { p with objects := p.objects.set i (some o.movedFrom) ++ [some o] } := by
  have hlt := (List.getElem?_eq_some_iff.mp (getElem?_of_live h)).1
  -- a new entry without an object is given the sockets
  have hnew : Balanced { p with objects := p.objects ++ [none] } := by
    obtain ⟨lost, hlost, hkeeps⟩ := hp.books
    refine ⟨⟨lost, hlost, ?_⟩, fun u hu => hp.consistent u (by simpa using hu)⟩
    simpa [owned, fdsOf] using hkeeps
  have hnone : (p.objects ++ [none])[p.objects.length]? = some none := by simp
  have hlive : live { p with objects := p.objects ++ [none] } i = some o := by
    rw [live, List.getElem?_append_left hlt]
    exact h
  have hgiven := hnew.transfer hnone rfl hlive hlt.ne'
  rw [List.set_append_left _ _ hlt] at hgiven
  simpa [List.set_append_right] using hgiven

lemma Balanced.moveAssign (hp : p.Balanced) {i j : ℕ} {o other : MultiListenSocket}
    (hi : p.live i = some o) (hj : p.live j = some other) (hne : i ≠ j) :
    Balanced { p with
      objects := (p.objects.set j (some other.movedFrom)).set i (some other)
      table := (o.closeAll p.table).2 } := by
  have hreleased := @release p hp i o hi none rfl (by simp)
  have hlt := (List.getElem?_eq_some_iff.mp (getElem?_of_live hi)).1
  have hlive : live { p with objects := p.objects.set i none, table := (o.closeAll p.table).2 } j =
      some other := by
    rw [live, List.getElem?_set_ne hne]
    exact hj
  have hgiven := hreleased.transfer (List.getElem?_set_self hlt) rfl hlive hne
  rw [List.set_comm _ _ hne, List.set_set] at hgiven
  exact hgiven

/-- Whatever the program does. -/
lemma Balanced.step (hp : p.Balanced) {m : Move} (h : p.step env m = some q) : q.Balanced := by
  cases m with
  | construct ip port numSockets backlog tcpNodelay tcpCork =>
    obtain ⟨lost, hlost, hkeeps⟩ := hp.books
    have hconstruct :=
      MultiListenSocket.keeps_construct env ip port numSockets backlog tcpNodelay tcpCork hkeeps
    rw [ListenProgram.step] at h
    generalize MultiListenSocket.construct env ip port numSockets backlog tcpNodelay tcpCork p.table =
      result at h hconstruct
    obtain ⟨_ | o, t⟩ := result
    · cases h
      obtain ⟨-, fd, hfd⟩ := hconstruct
      refine ⟨⟨fd :: lost, by rw [List.length_cons, hlost], hfd.perm_books ?_⟩, hp.consistent⟩
      rw [← List.append_assoc, ← List.append_assoc]
      exact List.perm_middle.symm
    · cases h
      refine ⟨⟨lost, hlost, hconstruct.1.perm_books ?_⟩, fun u hu => ?_⟩
      · have hnew : (p.objects ++ [some o]).flatMap fdsOf = p.owned ++ o.socketFds := by
          rw [List.flatMap_append, List.flatMap_singleton]
          rfl
        change List.Perm _ ((p.objects ++ [some o]).flatMap fdsOf ++ _)
        rw [hnew, ← List.append_assoc]
        exact List.perm_append_comm.append_right _
      · rcases List.mem_append.mp hu with hu | hu
        · exact hp.consistent u hu
        · cases List.mem_singleton.mp hu
          exact hconstruct.2
  | moveConstruct source =>
    obtain ⟨o, ho, rfl⟩ := Option.map_eq_some_iff.mp h
    exact hp.moveConstruct ho
  | moveAssign target source =>
    obtain ⟨o, ho, h⟩ := Option.bind_eq_some_iff.mp h
    obtain ⟨other, hother, rfl⟩ := Option.map_eq_some_iff.mp h
    split_ifs with hself
    · exact hp
    · exact hp.moveAssign ho hother hself
  | closeAll i =>
    obtain ⟨o, ho, rfl⟩ := Option.map_eq_some_iff.mp h
    refine hp.release ho rfl fun u hu => ?_
    cases hu
    exact o.consistent_closeAll p.table
  | destroy i =>
    obtain ⟨o, ho, rfl⟩ := Option.map_eq_some_iff.mp h
    exact hp.release ho rfl (by simp)
  | openElsewhere =>
    obtain ⟨lost, hlost, hkeeps⟩ := hp.books
    cases h
    refine ⟨⟨lost, hlost, ?_⟩, hp.consistent⟩
    dsimp only
    split_ifs with hfd
    · exact hkeeps.socket_refused hfd
    · exact (hkeeps.socket (not_lt.mp hfd)).perm_books List.perm_middle.symm
  | closeElsewhere fd =>
    obtain ⟨lost, hlost, hkeeps⟩ := hp.books
    rw [ListenProgram.step] at h
    split_ifs at h with hmem
    cases h
    refine ⟨⟨lost, hlost, Keeps.close (hkeeps.perm_books ?_)⟩, hp.consistent⟩
    exact (((List.perm_cons_erase hmem).append_right lost).append_left p.owned).trans
      List.perm_middle

lemma balanced_start {t : Table} (h : Keeps t t.openFds) : (start t).Balanced where
  books := ⟨[], rfl, by simpa [start, owned] using h⟩
  consistent := by simp [start]

/-- The move gives a constructor an address that is one. -/
def Accepted (env : SocketEnv) : Move → Prop
  | .construct ip .. => MultiListenSocket.addressAccepted env ip
  | .moveConstruct _ | .moveAssign .. | .closeAll _ | .destroy _ | .openElsewhere
  | .closeElsewhere _ => True

lemma thrown_step (hp : p.Balanced) {m : Move} (hm : Accepted env m) (h : p.step env m = some q) :
    q.thrown = p.thrown := by
  cases m with
  | construct ip port numSockets backlog tcpNodelay tcpCork =>
    obtain ⟨lost, -, hkeeps⟩ := hp.books
    have hconstruct :=
      MultiListenSocket.keeps_construct env ip port numSockets backlog tcpNodelay tcpCork hkeeps
    rw [step] at h
    generalize MultiListenSocket.construct env ip port numSockets backlog tcpNodelay tcpCork p.table =
      result at h hconstruct
    obtain ⟨_ | o, t⟩ := result
    · rw [Accepted] at hm
      simp [hm] at hconstruct
    · cases h
      rfl
  | moveConstruct source =>
    obtain ⟨o, -, rfl⟩ := Option.map_eq_some_iff.mp h
    rfl
  | moveAssign target source =>
    obtain ⟨o, -, h⟩ := Option.bind_eq_some_iff.mp h
    obtain ⟨other, -, rfl⟩ := Option.map_eq_some_iff.mp h
    split_ifs <;> rfl
  | closeAll i =>
    obtain ⟨o, -, rfl⟩ := Option.map_eq_some_iff.mp h
    rfl
  | destroy i =>
    obtain ⟨o, -, rfl⟩ := Option.map_eq_some_iff.mp h
    rfl
  | openElsewhere =>
    cases h
    rfl
  | closeElsewhere fd =>
    rw [step] at h
    split_ifs at h
    cases h
    rfl

/-- In every run of a program that makes, moves, closes and destroys such objects, whatever system
call fails: nothing is closed that is not open, the open descriptors are those of the live objects,
each in one of them, those that are used elsewhere and one for each constructor that has thrown,
and an object is valid if and only if it has sockets. No constructor that comes next throws if it is
given an address. -/
theorem sockets_accounted {t : Table} (ht : Keeps t t.openFds) {ms : List Move}
    (h : Runs.run (step env) (start t) ms = some p) :
    p.table.misClosed = [] ∧ p.table.openFds.Nodup ∧
      (∃ lost, lost.length = p.thrown ∧
        p.table.openFds.Perm (p.owned ++ (p.elsewhere ++ lost))) ∧
      (∀ o, some o ∈ p.objects → (o.isValid ↔ o.socketFds ≠ [])) ∧
      (∀ m q, Accepted env m → p.step env m = some q → q.thrown = p.thrown) := by
  have hp : p.Balanced :=
    Runs.invariant_run _ (fun _ _ _ hu hstep => hu.step hstep) (balanced_start ht) h
  obtain ⟨lost, hlost, hkeeps⟩ := hp.books
  refine ⟨hkeeps.misClosed, hkeeps.perm.nodup_iff.mpr hkeeps.nodup, ⟨lost, hlost, hkeeps.perm⟩,
    hp.consistent, fun _ _ hm hstep => thrown_step hp hm hstep⟩

/-- Of three sockets the options of the third one cannot be set, two sockets are moved, and an
address is none. -/
theorem sockets_accounted_moved :
    let env : SocketEnv := ⟨.giving fun n => n != 15, fun _ => false, fun _ => [], id, fun _ => le_rfl⟩
    let t : Table := { openFds := [2, 1, 0], calls := 0, misClosed := [] }
    let ms : List Move := [.construct [] 80 3 1024 false false, .construct [] 80 2 1024 true false,
      .moveAssign 0 1, .construct [64] 80 2 1024 true false, .openElsewhere, .closeAll 0]
    ∃ p, Runs.run (step env) (start t) ms = some p ∧ p.table.misClosed = [] ∧
      p.table.openFds.Nodup ∧ p.thrown = 1 ∧
      ∃ lost, lost.length = p.thrown ∧
        p.table.openFds.Perm (p.owned ++ (p.elsewhere ++ lost)) := by
  intro env t ms
  have ht : Keeps t t.openFds := ⟨.refl _, by decide, by decide, rfl⟩
  have hrun : (Runs.run (step env) (start t) ms).map (·.thrown) = some 1 := by decide +kernel
  obtain ⟨p, hp, hthrown⟩ := Option.map_eq_some_iff.mp hrun
  obtain ⟨hclosed, hnodup, hbooks, -⟩ := sockets_accounted ht hp
  exact ⟨p, hp, hclosed, hnodup, hthrown, hbooks⟩

end ListenProgram

end TinyWebServer
