import TinyWebServer.Net.BatchIo

/-!
# Two ways to dispatch events

`ProcessEvents` hands the events of a poll to the batch handler, `HandleEvent` takes them one at a
time. The handlers of descriptors act on a state `σ` and leave the registrations alone.
-/

namespace TinyWebServer

open Epoll BatchIoHandler

/-- What is done for a descriptor that is readable, writable or broken. -/
structure Handlers (σ : Type*) where
  read : ℤ → σ → σ
  write : ℤ → σ → σ
  error : ℤ → σ → σ

namespace EventLoop

variable {κ σ : Type*} (l : EventLoop κ)

/-- The dispatch of `ProcessEvents`. -/
def processEvents (h : Handlers σ) (events : List EpollEvent) (s : σ) : σ :=
  (processBatch events
    (some fun fd s => if fd ∈ l.readCallbacks then h.read fd s else s)
    (some fun fd s => if fd ∈ l.writeCallbacks then h.write fd s else s)
    (some h.error) s).2

def handleEvent (h : Handlers σ) (event : EpollEvent) (s : σ) : σ :=
  let s := if event.events &&& EPOLLIN ≠ 0 ∧ event.fd ∈ l.readCallbacks then h.read event.fd s
    else s
  let s := if event.events &&& EPOLLOUT ≠ 0 ∧ event.fd ∈ l.writeCallbacks then h.write event.fd s
    else s
  if event.events &&& (EPOLLERR ||| EPOLLHUP) ≠ 0 then h.error event.fd s else s

def handleEvents (h : Handlers σ) (events : List EpollEvent) (s : σ) : σ :=
  events.foldl (fun s event => l.handleEvent h event s) s

/-! ### Logged actions -/

inductive Action where
  | read (fd : ℤ)
  | write (fd : ℤ)
  | error (fd : ℤ)
  deriving DecidableEq

/-- Handlers that only write down what was asked of them. -/
def record : Handlers (List Action) where
  read fd log := log ++ [.read fd]
  write fd log := log ++ [.write fd]
  error fd log := log ++ [.error fd]

/-- The actions of the plain path for one event. -/
def eventActions (event : EpollEvent) : List Action :=
  (if event.events &&& EPOLLIN ≠ 0 ∧ event.fd ∈ l.readCallbacks then [.read event.fd] else []) ++
  (if event.events &&& EPOLLOUT ≠ 0 ∧ event.fd ∈ l.writeCallbacks then [.write event.fd]
    else []) ++
  (if event.events &&& (EPOLLERR ||| EPOLLHUP) ≠ 0 then [.error event.fd] else [])

lemma handleEvent_record (event : EpollEvent) (log : List Action) :
    l.handleEvent record event log = log ++ l.eventActions event := by
  simp only [handleEvent, record, eventActions]
  split_ifs <;> simp

lemma handleEvents_record (events : List EpollEvent) (log : List Action) :
    l.handleEvents record events log = log ++ events.flatMap l.eventActions := by
  induction events generalizing log with
  | nil => simp [handleEvents]
  | cons event events ih =>
    rw [handleEvents, List.foldl_cons, handleEvent_record, List.flatMap_cons, ← List.append_assoc]
    exact ih _

lemma batch_filter (p : ℤ → Prop) [DecidablePred p] (act : ℤ → Action) (fds : List ℤ)
    (log : List Action) :
    batch (fun fd log => if p fd then log ++ [act fd] else log) fds log =
      log ++ (fds.filter (p ·)).map act := by
  induction fds generalizing log with
  | nil => simp [batch]
  | cons fd fds ih =>
    rw [batch, List.foldl_cons]
    by_cases hp : p fd
    · rw [if_pos hp, List.filter_cons_of_pos (by simpa using hp), List.map_cons]
      have := ih (log ++ [act fd])
      rw [List.append_assoc] at this
      exact this
    · rw [if_neg hp, List.filter_cons_of_neg (by simpa using hp)]
      exact ih log

lemma batchIfSet_some (callback : ℤ → σ → σ) (fds : List ℤ) (s : σ) :
    (batchIfSet (some callback) fds s).2 = batch callback fds s := by
  rw [batchIfSet]
  split_ifs with hnil
  · rw [hnil]
    rfl
  · rfl

/-- The three vectors are worked off one after the other. -/
lemma processBatch_some (events : List EpollEvent) (read write error : ℤ → σ → σ) (s : σ) :
    (processBatch events (some read) (some write) (some error) s).2 =
      batch error (groupEvents events).2.2
        (batch write (groupEvents events).2.1 (batch read (groupEvents events).1 s)) := by
  rw [processBatch]
  by_cases hnil : events = []
  · rw [if_pos hnil, hnil]
    simp [groupEvents, classify, removeDuplicates, batch]
  · rw [if_neg hnil]
    simp only [batchIfSet_some]

lemma processEvents_record (events : List EpollEvent) :
    l.processEvents record events [] =
      ((groupEvents events).1.filter (· ∈ l.readCallbacks)).map .read ++
      ((groupEvents events).2.1.filter (· ∈ l.writeCallbacks)).map .write ++
      (groupEvents events).2.2.map .error := by
  have herrors := batch_filter (fun _ => True) .error (groupEvents events).2.2
  simp only [if_true, decide_true, List.filter_true] at herrors
  rw [processEvents, processBatch_some]
  simp only [record]
  rw [herrors, batch_filter (· ∈ l.writeCallbacks), batch_filter (· ∈ l.readCallbacks),
    List.nil_append]

/-! ### What the batch handler makes of an event -/

/-- A mask of the bits that `HandleEvent` knows, with one of them set at least. -/
def KnownMask (events : UInt32) : Prop :=
  events ≠ 0 ∧ events &&& (EPOLLIN ||| EPOLLOUT ||| EPOLLERR ||| EPOLLHUP) = events

/-- On known masks the predicates of the batch handler are tests of single bits. -/
lemma knownMask_bits {events : UInt32} (h : KnownMask events) :
    (isReadable events = true ↔ events &&& EPOLLIN ≠ 0) ∧
      (isError events = true ↔ events &&& (EPOLLERR ||| EPOLLHUP) ≠ 0) ∧
      (isError events = true ∨ isReadable events = true ∨ isWritable events = true) := by
  have hall : ∀ n : Fin 32, KnownMask (UInt32.ofNat n.val) →
      (isReadable (UInt32.ofNat n.val) = true ↔ UInt32.ofNat n.val &&& EPOLLIN ≠ 0) ∧
      (isError (UInt32.ofNat n.val) = true ↔
        UInt32.ofNat n.val &&& (EPOLLERR ||| EPOLLHUP) ≠ 0) ∧
      (isError (UInt32.ofNat n.val) = true ∨ isReadable (UInt32.ofNat n.val) = true ∨
        isWritable (UInt32.ofNat n.val) = true) := by
    unfold KnownMask
    decide
  have hlt : events.toNat < 32 := by
    rw [← h.2, UInt32.toNat_and]
    exact Nat.lt_of_le_of_lt Nat.and_le_right (by decide)
  have hevents : UInt32.ofNat events.toNat = events := UInt32.ofNat_toNat
  have := hall ⟨events.toNat, hlt⟩
  dsimp only at this
  rw [hevents] at this
  exact this h

/-- On known masks an event that is neither broken nor readable is writable. -/
lemma isWritable_of_knownMask {events : UInt32} (h : KnownMask events)
    (herr : isError events = false) (hrd : isReadable events = false) :
    isWritable events = true := by
  rcases (knownMask_bits h).2.2 with h | h | h
  · simp [herr] at h
  · simp [hrd] at h
  · exact h

lemma mem_removeDuplicates {fds : List ℤ} {fd : ℤ} : fd ∈ removeDuplicates fds ↔ fd ∈ fds := by
  simp [removeDuplicates]

lemma nodup_removeDuplicates (fds : List ℤ) : (removeDuplicates fds).Nodup := List.nodup_dedup _

lemma mem_classify (events : List EpollEvent) (fd : ℤ) :
    (fd ∈ (classify events).1 ↔ ∃ e ∈ events, e.fd = fd ∧ isError e.events = false ∧
      isReadable e.events = true) ∧
    (fd ∈ (classify events).2.1 ↔ ∃ e ∈ events, e.fd = fd ∧ isError e.events = false ∧
      isReadable e.events = false ∧ isWritable e.events = true) ∧
    (fd ∈ (classify events).2.2 ↔ ∃ e ∈ events, e.fd = fd ∧ (isError e.events = true ∨
      isReadable e.events = false ∧ isWritable e.events = false)) := by
  induction events with
  | nil => simp [classify]
  | cons event events ih =>
    obtain ⟨hread, hwrite, herror⟩ := ih
    simp only [classify, List.exists_mem_cons_iff]
    split_ifs with he hr hw
    · simp [hread, hwrite, herror, he, eq_comm (a := fd)]
    · simp [hread, hwrite, herror, he, hr, eq_comm (a := fd)]
    · simp [hread, hwrite, herror, he, hr, hw, eq_comm (a := fd)]
    · simp [hread, hwrite, herror, he, hr, hw, eq_comm (a := fd)]

variable {l} {events : List EpollEvent}

lemma nodup_actions {readable writable errors : List ℤ} (hreadable : readable.Nodup)
    (hwritable : writable.Nodup) (herrors : errors.Nodup) :
    (readable.map Action.read ++ writable.map Action.write ++ errors.map Action.error).Nodup := by
  rw [List.nodup_append, List.nodup_append]
  refine ⟨⟨hreadable.map fun _ _ => Action.read.inj, hwritable.map fun _ _ => Action.write.inj,
    ?_⟩, herrors.map fun _ _ => Action.error.inj, ?_⟩
  · simp only [List.mem_map]
    rintro a ⟨fd, -, rfl⟩ b ⟨fd', -, rfl⟩
    exact nofun
  · simp only [List.mem_append, List.mem_map]
    rintro a (⟨fd, -, rfl⟩ | ⟨fd, -, rfl⟩) b ⟨fd', -, rfl⟩ <;> exact nofun

lemma nodup_groupEvents (events : List EpollEvent) :
    (groupEvents events).1.Nodup ∧ (groupEvents events).2.1.Nodup ∧
      (groupEvents events).2.2.Nodup :=
  ⟨(nodup_removeDuplicates _).filter _, (nodup_removeDuplicates _).filter _,
    nodup_removeDuplicates _⟩

lemma nodup_processEvents_record : (l.processEvents record events []).Nodup := by
  obtain ⟨hreadable, hwritable, herrors⟩ := nodup_groupEvents events
  rw [processEvents_record]
  exact nodup_actions (hreadable.filter _) (hwritable.filter _) herrors

/-- The descriptor an action is for. -/
def Action.fd : Action → ℤ
  | read fd | write fd | error fd => fd

lemma fd_of_mem_eventActions {event : EpollEvent} {action : Action}
    (h : action ∈ l.eventActions event) : action.fd = event.fd := by
  simp only [eventActions, List.mem_append] at h
  rcases h with (h | h) | h <;> split_ifs at h <;> simp_all [Action.fd]

lemma nodup_flatMap_eventActions (hfds : (events.map (·.fd)).Nodup) :
    (events.flatMap l.eventActions).Nodup := by
  rw [List.nodup_flatMap]
  constructor
  · intro event _
    simp only [eventActions]
    split_ifs <;> simp
  · refine (List.pairwise_map.mp hfds).imp ?_
    intro event event' hne action hmem hmem'
    exact hne ((fd_of_mem_eventActions hmem).symm.trans (fd_of_mem_eventActions hmem'))

/-- What the batch handler does for a descriptor is decided by its one event. -/
lemma mem_processEvents_record (hmask : ∀ e ∈ events, KnownMask e.events)
    (hfds : (events.map (·.fd)).Nodup) (fd : ℤ) :
    (.read fd ∈ l.processEvents record events [] ↔ ∃ e ∈ events, e.fd = fd ∧
      isError e.events = false ∧ isReadable e.events = true ∧ e.fd ∈ l.readCallbacks) ∧
    (.write fd ∈ l.processEvents record events [] ↔ ∃ e ∈ events, e.fd = fd ∧
      isError e.events = false ∧ isReadable e.events = false ∧ e.fd ∈ l.writeCallbacks) ∧
    (.error fd ∈ l.processEvents record events [] ↔ ∃ e ∈ events, e.fd = fd ∧
      isError e.events = true) := by
  obtain ⟨hread, hwrite, herror⟩ := mem_classify events fd
  have hinj : ∀ e ∈ events, ∀ e' ∈ events, e.fd = e'.fd → e = e' := fun _ he _ he' heq =>
    List.inj_on_of_nodup_map hfds he he' heq
  have herror' : fd ∈ (classify events).2.2 ↔ ∃ e ∈ events, e.fd = fd ∧
      isError e.events = true := by
    rw [herror]
    constructor
    · rintro ⟨e, he, hfd, h | ⟨hrd, hwr⟩⟩
      · exact ⟨e, he, hfd, h⟩
      · refine ⟨e, he, hfd, ?_⟩
        by_contra herr
        have := isWritable_of_knownMask (hmask e he) (by simpa using herr) hrd
        simp [hwr] at this
    · rintro ⟨e, he, hfd, h⟩
      exact ⟨e, he, hfd, Or.inl h⟩
  have hsame : ∀ e ∈ events, e.fd = fd → isError e.events = false →
      fd ∉ (classify events).2.2 := by
    intro e he hfd herr hmem
    obtain ⟨e', he', hfd', herr'⟩ := herror'.mp hmem
    rw [hinj e he e' he' (hfd.trans hfd'.symm)] at herr
    simp [herr'] at herr
  rw [processEvents_record]
  simp only [groupEvents, List.mem_append, List.mem_map, List.mem_filter, mem_removeDuplicates,
    decide_eq_true_eq, Action.read.injEq, Action.write.injEq, Action.error.injEq, exists_eq_right,
    reduceCtorEq, and_false, exists_false, or_false, false_or]
  refine ⟨?_, ?_, herror'⟩
  · rw [hread]
    constructor
    · rintro ⟨⟨⟨e, he, hfd, herr, hrd⟩, -⟩, hcb⟩
      exact ⟨e, he, hfd, herr, hrd, hfd ▸ hcb⟩
    · rintro ⟨e, he, hfd, herr, hrd, hcb⟩
      exact ⟨⟨⟨e, he, hfd, herr, hrd⟩, hsame e he hfd herr⟩, hfd ▸ hcb⟩
  · rw [hwrite]
    constructor
    · rintro ⟨⟨⟨e, he, hfd, herr, hrd, -⟩, -⟩, hcb⟩
      exact ⟨e, he, hfd, herr, hrd, hfd ▸ hcb⟩
    · rintro ⟨e, he, hfd, herr, hrd, hcb⟩
      exact ⟨⟨⟨e, he, hfd, herr, hrd, isWritable_of_knownMask (hmask e he) herr hrd⟩,
        hsame e he hfd herr⟩, hfd ▸ hcb⟩

lemma mem_eventActions {event : EpollEvent} (hmask : KnownMask event.events) (fd : ℤ) :
    (.read fd ∈ l.eventActions event ↔ event.fd = fd ∧ isReadable event.events = true ∧
      event.fd ∈ l.readCallbacks) ∧
    (.write fd ∈ l.eventActions event ↔ event.fd = fd ∧ isWritable event.events = true ∧
      event.fd ∈ l.writeCallbacks) ∧
    (.error fd ∈ l.eventActions event ↔ event.fd = fd ∧ isError event.events = true) := by
  obtain ⟨hread, herror, -⟩ := knownMask_bits hmask
  rw [hread, herror]
  simp only [eventActions, isWritable, decide_eq_true_eq, List.mem_append, List.mem_ite_nil_right,
    List.mem_singleton, Action.read.injEq, Action.write.injEq, Action.error.injEq, reduceCtorEq,
    and_false, or_false, false_or, eq_comm (a := fd)]
  refine ⟨?_, ?_, ?_⟩
  · rw [and_comm]
  · rw [and_comm]
  · rw [and_comm]

/-! ### When the two paths agree -/

/-- A broken descriptor has no other bit that a callback waits for, and a readable one is not
writable with a write callback at the same time. -/
def Undivided (l : EventLoop κ) (event : EpollEvent) : Prop :=
  (isError event.events = true → ¬ (isReadable event.events = true ∧ event.fd ∈ l.readCallbacks) ∧
    ¬ (isWritable event.events = true ∧ event.fd ∈ l.writeCallbacks)) ∧
  (isReadable event.events = true →
    ¬ (isWritable event.events = true ∧ event.fd ∈ l.writeCallbacks))

/-- An action of the plain path comes from the same event in the batch, so no event is divided. -/
lemma undivided_of_same {events : List EpollEvent} (hmask : ∀ e ∈ events, KnownMask e.events)
    (hfds : (events.map (·.fd)).Nodup)
    (hsame : ∀ action, action ∈ l.processEvents record events [] ↔
      ∃ e ∈ events, action ∈ l.eventActions e) {e : EpollEvent} (he : e ∈ events) :
    Undivided l e := by
  have hinj : ∀ e' ∈ events, e'.fd = e.fd → e' = e := fun _ he' heq =>
    List.inj_on_of_nodup_map hfds he' he heq
  have hbatch := mem_processEvents_record (l := l) hmask hfds
  have hplain := mem_eventActions (l := l) (hmask e he) e.fd
  have hread : isReadable e.events = true → e.fd ∈ l.readCallbacks →
      isError e.events = false := by
    intro hrd hcb
    obtain ⟨e', he', hfd, herr, -⟩ := (hbatch e.fd).1.mp
      ((hsame (.read e.fd)).mpr ⟨e, he, hplain.1.mpr ⟨rfl, hrd, hcb⟩⟩)
    rwa [← hinj e' he' hfd]
  have hwrite : isWritable e.events = true → e.fd ∈ l.writeCallbacks →
      isError e.events = false ∧ isReadable e.events = false := by
    intro hwr hcb
    obtain ⟨e', he', hfd, herr, hrd, -⟩ := (hbatch e.fd).2.1.mp
      ((hsame (.write e.fd)).mpr ⟨e, he, hplain.2.1.mpr ⟨rfl, hwr, hcb⟩⟩)
    rw [← hinj e' he' hfd]
    exact ⟨herr, hrd⟩
  refine ⟨fun herr => ⟨?_, ?_⟩, ?_⟩
  · rintro ⟨hrd, hcb⟩
    simp [hread hrd hcb] at herr
  · rintro ⟨hwr, hcb⟩
    simp [(hwrite hwr hcb).1] at herr
  · rintro hrd ⟨hwr, hcb⟩
    simp [(hwrite hwr hcb).2] at hrd

/-- The batch handler does what `HandleEvent` would do exactly if no event is divided. -/
theorem processEvents_perm_iff (l : EventLoop κ) (events : List EpollEvent)
    (hfds : (events.map (·.fd)).Nodup) (hmask : ∀ e ∈ events, KnownMask e.events) :
    (l.processEvents record events []).Perm (l.handleEvents record events []) ↔
      ∀ e ∈ events, Undivided l e := by
  rw [handleEvents_record, List.nil_append, List.perm_ext_iff_of_nodup nodup_processEvents_record
    (nodup_flatMap_eventActions hfds)]
  have hbatch := mem_processEvents_record (l := l) hmask hfds
  simp only [List.mem_flatMap]
  constructor
  · exact fun hsame e he => undivided_of_same hmask hfds hsame he
  · intro hundivided action
    cases action with
    | read fd =>
      rw [(hbatch fd).1]
      refine exists_congr fun e => and_congr_right fun he => ?_
      rw [(mem_eventActions (hmask e he) fd).1]
      constructor
      · rintro ⟨hfd, -, hrd, hcb⟩
        exact ⟨hfd, hrd, hcb⟩
      · rintro ⟨hfd, hrd, hcb⟩
        refine ⟨hfd, ?_, hrd, hcb⟩
        by_contra herr
        exact ((hundivided e he).1 (by simpa using herr)).1 ⟨hrd, hcb⟩
    | write fd =>
      rw [(hbatch fd).2.1]
      refine exists_congr fun e => and_congr_right fun he => ?_
      rw [(mem_eventActions (hmask e he) fd).2.1]
      constructor
      · rintro ⟨hfd, herr, hrd, hcb⟩
        exact ⟨hfd, isWritable_of_knownMask (hmask e he) herr hrd, hcb⟩
      · rintro ⟨hfd, hwr, hcb⟩
        refine ⟨hfd, ?_, ?_, hcb⟩
        · by_contra herr
          exact ((hundivided e he).1 (by simpa using herr)).2 ⟨hwr, hcb⟩
        · by_contra hrd
          exact (hundivided e he).2 (by simpa using hrd) ⟨hwr, hcb⟩
    | error fd =>
      rw [(hbatch fd).2.2]
      refine exists_congr fun e => and_congr_right fun he => ?_
      rw [(mem_eventActions (hmask e he) fd).2.2]

/-- A loop with both callbacks for one descriptor. -/
def duplexLoop : EventLoop Unit := (new.setReadCallback 5).setWriteCallback 5

/-- A readable event and a hang-up of a descriptor without callbacks are not divided. -/
theorem processEvents_perm_iff_hangup :
    (duplexLoop.processEvents record [⟨5, EPOLLIN⟩, ⟨6, EPOLLIN ||| EPOLLHUP⟩] []).Perm
        (duplexLoop.handleEvents record [⟨5, EPOLLIN⟩, ⟨6, EPOLLIN ||| EPOLLHUP⟩] []) ↔
      ∀ e ∈ [⟨5, EPOLLIN⟩, ⟨6, EPOLLIN ||| EPOLLHUP⟩], Undivided duplexLoop e :=
  processEvents_perm_iff duplexLoop _ (by decide) (by unfold KnownMask; decide)

/-- A descriptor that is readable and writable at once only has its read callback run. -/
theorem not_processEvents_perm_duplex :
    ¬ (duplexLoop.processEvents record [⟨5, EPOLLIN ||| EPOLLOUT⟩] []).Perm
      (duplexLoop.handleEvents record [⟨5, EPOLLIN ||| EPOLLOUT⟩] []) := by
  decide

end EventLoop

end TinyWebServer
