import TinyWebServer.Library.Runs
import TinyWebServer.Net.ConnectionTimers
import TinyWebServer.Net.Lifecycle

/-!
# Calls from other threads

`Send`, `Shutdown` and `Close` of one connection are called in any number of threads while its loop
runs. A call goes from one access to `state_` to the next and leaves functors with the loop, which
runs them later. A handler or a functor in the loop thread is one step.
-/

namespace TinyWebServer

inductive ForeignCall where
  | send (data : NodeData)
  | shutdown
  | close (reason : Error) (sysErrno : ℤ)

/-- What a call leaves in `pending_functors_`. -/
inductive ConnFunctor where
  | sendInLoop (data : NodeData)
  | shutdownInLoop
  | closeInLoop (reason : Error) (sysErrno : ℤ)
  | setupTimeout (seconds : ℤ) (timeoutType : TimeoutType)
  | cancelTimeout (timeoutType : TimeoutType)
  | handleClose

/-- What a call does next. -/
inductive CallPc where
  /-- `IsConnected` compares `state_` with these states, one load after the other. -/
  | isConnected (call : ForeignCall) (states : List ConnState)
  /-- `Transition` loads the state that it logs. -/
  | transition
  | canTransition (current : ConnState)
  /-- The transition is allowed. -/
  | store
  /-- The transition was refused for a connection that was open a moment before. -/
  | force
  | checkAndSetTimeouts
  | runInLoop (functors : List ConnFunctor)

structure SharedConnection where
  session : Session
  pending : List ConnFunctor
  calls : List CallPc

namespace Session

def withWheel (s : Session) (wheel : TimerWheel TimerCallback) : Session :=
  { s with loop := { s.loop with timerWheel := wheel } }

/-- The callback of an expired task, which finds the wheel as the tick has it. -/
def expire (task : TimerTask TimerCallback) (s : TimerWheel TimerCallback × Session) :
    TimerWheel TimerCallback × Session :=
  let u := s.2.withWheel s.1
  let t := if task.callback.conn = u.conn.id then u.onTimeout task.callback.timeoutType else u
  (t.loop.timerWheel, t)

/-- `ProcessTimers`. -/
def tick (s : Session) : Session :=
  let result := TimerWheel.tick expire (s.loop.timerWheel, s)
  result.2.2.withWheel result.2.1

/-- The kernel reports input for descriptors that are registered for it. -/
def Readable (s : Session) : Prop :=
  ∃ events, s.loop.registeredFds s.conn.fd = some events ∧ events &&& Epoll.EPOLLIN ≠ 0

instance (s : Session) : Decidable s.Readable :=
  match h : s.loop.registeredFds s.conn.fd with
  | none => .isFalse (by simp [Readable, h])
  | some events => decidable_of_iff (events &&& Epoll.EPOLLIN ≠ 0) (by simp [Readable, h])

def runFunctor (s : Session) : ConnFunctor → Session
  | .sendInLoop data => s.appendInLoop data
  | .shutdownInLoop => s.shutdownInLoop
  | .closeInLoop reason sysErrno => s.closeInLoop reason sysErrno
  | .setupTimeout seconds timeoutType => s.setupTimeout seconds timeoutType
  | .cancelTimeout timeoutType => s.cancelTimeout timeoutType
  | .handleClose => s.handleClose

end Session

/-- `CheckAndSetTimeouts` outside the loop thread. -/
def Connection.timeoutFunctors (c : Connection) : List ConnFunctor :=
  [if 0 < c.readTimeoutSeconds ∧ c.state = .kReading then
      .setupTimeout c.readTimeoutSeconds .read
    else .cancelTimeout .read,
    if 0 < c.writeTimeoutSeconds ∧ c.state = .kWriting then
      .setupTimeout c.writeTimeoutSeconds .write
    else .cancelTimeout .write,
    if 0 < c.idleTimeoutSeconds ∧ c.state = .kConnected then
      .setupTimeout c.idleTimeoutSeconds .idle
    else .cancelTimeout .idle]

/-- What a call does for a connection that it has found connected. -/
def ForeignCall.proceed : ForeignCall → CallPc
  | .send data => .runInLoop [.sendInLoop data]
  | .shutdown => .transition
  | .close reason sysErrno => .runInLoop [.closeInLoop reason sysErrno]

namespace SharedConnection

/-- What happens next, in the loop thread or in another one. A message callback stands as the
operations it performs. -/
inductive Move where
  | operate (op : ConnOp)
  | read (reads : List ReadResult) (messageCallback : Option (List ConnOp))
  | write
  /-- The error callback of `ProcessEvents`. -/
  | error
  | tick
  /-- `DoPendingFunctors` comes to the next functor. -/
  | functor
  /-- Another thread makes a call. -/
  | call (call : ForeignCall)
  /-- The next step of a call. -/
  | proceed (i : ℕ)

/-- A new connection as its loop has established it. -/
def new (id fd : ℕ) (config : Option LimitsOptions) (hasKeepAliveManager hasCloseCallback : Bool)
    (kernel : ℕ → WriteOutcome) : SharedConnection :=
  let conn := { Connection.new id fd config hasKeepAliveManager with
    hasCloseCallback := hasCloseCallback }
  { session := (Session.new conn kernel).connectEstablished, pending := [], calls := [] }

def on (s : SharedConnection) (session : Session) : SharedConnection := { s with session := session }

def storeState (s : SharedConnection) (state : ConnState) : SharedConnection :=
  s.on { s.session with conn := { s.session.conn with state := state } }

def goOn (s : SharedConnection) (i : ℕ) (pc : CallPc) : SharedConnection :=
  { s with calls := s.calls.set i pc }

def proceed (s : SharedConnection) (i : ℕ) : CallPc → SharedConnection
  | .isConnected call states =>
    match states with
    | [] => s.goOn i call.proceed
    | state :: states =>
      if s.session.conn.state = state then s.goOn i (.runInLoop [])
      else s.goOn i (.isConnected call states)
  | .transition => s.goOn i (.canTransition s.session.conn.state)
  | .canTransition current =>
    if s.session.conn.canTransition .kClosing then s.goOn i .store
    else if current ≠ .kClosed ∧ current ≠ .kClosing then s.goOn i .force
    else s.goOn i (.runInLoop [.shutdownInLoop])
  | .store => (s.storeState .kClosing).goOn i .checkAndSetTimeouts
  | .force => (s.storeState .kClosing).goOn i (.runInLoop [.handleClose, .shutdownInLoop])
  | .checkAndSetTimeouts =>
    s.goOn i (.runInLoop (s.session.conn.timeoutFunctors ++ [.shutdownInLoop]))
  | .runInLoop functors =>
    match functors with
    | [] => s
    | functor :: functors =>
      { s with pending := s.pending ++ [functor] }.goOn i (.runInLoop functors)

def step (s : SharedConnection) : Move → Option SharedConnection
  | .operate op => some (s.on (s.session.operate op))
  | .read reads messageCallback =>
    if s.session.Readable then
      some (s.on (s.session.handleRead
        (messageCallback.map fun ops session => session.operateAll ops) reads))
    else none
  | .write => some (s.on s.session.handleWrite)
  | .error => some (s.on { s.session with loop := s.session.loop.removeEvent s.session.conn.fd })
  | .tick => some (s.on s.session.tick)
  | .functor =>
    match s.pending with
    | [] => none
    | functor :: pending =>
      some { s with session := s.session.runFunctor functor, pending := pending }
  | .call call =>
    some { s with calls := s.calls ++ [.isConnected call [.kClosed, .kClosing, .kConnecting]] }
  | .proceed i => (s.calls[i]?).map (s.proceed i)

end SharedConnection

/-! ### What a step spends -/

namespace Session

/-- The calls of the close callback that were made, and the one that an open connection has left. -/
def budget (s : Session) : ℕ :=
  s.trace.countP Event.isClosed + if s.conn.state = .kClosed then 0 else 1

structure Advances (s t : Session) : Prop where
  budget_le : t.budget ≤ s.budget
  closed : s.conn.state = .kClosed → t.conn.state = .kClosed
  closing : s.conn.state = .kClosing → t.conn.state = .kClosing ∨ t.conn.state = .kClosed

lemma Reveals.advances {s t : Session} {sights : List Sight} (h : Reveals False False s sights t) :
    Advances s t where
  budget_le := by
    have hcloses := h.closes
    have hcount := h.leads.countP_le
    rw [budget, budget]
    omega
  closed := h.leads.stays.1
  closing := h.leads.stays.2

lemma advances_shutdownInLoop (s : Session) : Advances s s.shutdownInLoop := by
  rw [shutdownInLoop]
  split_ifs
  · refine ⟨le_of_eq ?_, id, Or.inl⟩
    rw [budget, budget, note, List.countP_append]
    rfl
  · exact ⟨le_rfl, id, Or.inl⟩

/-! ### A closed connection is left alone

Its timers are gone from the wheel, and its descriptor is not registered for input. -/

def Deaf (s : Session) : Prop := s.conn.state = .kClosed → ¬ s.Readable

/-- The timers of one connection. -/
def Own (id : ℕ) (fd fd' : ℤ) (callback : TimerCallback) : Prop := fd' = fd ∧ callback.conn = id

structure Tidy (id : ℕ) (fd : ℤ) (s : Session) : Prop where
  ready : s.Ready (Own id fd)
  left : s.Left
  deaf : s.Deaf

lemma deaf_of_open {s : Session} (h : s.conn.state ≠ .kClosed) : s.Deaf :=
  fun hclosed => absurd hclosed h

lemma deaf_of_not_readable {s : Session} (h : ¬ s.Readable) : s.Deaf := fun _ => h

lemma Deaf.of_same {s t : Session} (h : s.Deaf) (hstate : t.conn.state = s.conn.state)
    (hfd : t.conn.fd = s.conn.fd) (hregistered : t.loop.registeredFds = s.loop.registeredFds) :
    t.Deaf := by
  intro hclosed
  rw [Readable, hfd, hregistered]
  exact h (hstate ▸ hclosed)

lemma TimersOnly.deaf {s t : Session} (h : TimersOnly s t) (hs : s.Deaf) : t.Deaf := by
  obtain ⟨_, _, _, _, rfl⟩ := h
  exact hs.of_same rfl rfl rfl

lemma TimeoutsOnly.deaf {s t : Session} (h : TimeoutsOnly s t) (hs : s.Deaf) : t.Deaf := by
  obtain ⟨read, write, idle, htimers⟩ := h
  exact htimers.deaf (hs.of_same (t := s.withSeconds read write idle) rfl rfl rfl)

lemma not_readable_handleClose (s : Session) : ¬ s.handleClose.Readable := by
  obtain ⟨wheel, read, write, idle, heq⟩ := handleClose_eq s
  rw [heq]
  rintro ⟨events, hregistered, -⟩
  simp [EventLoop.removeEvent] at hregistered

variable {sets : ℤ → TimeoutType → Prop} {id : ℕ} {fd : ℤ}

/-- Interest is registered for open connections only. -/
lemma Act.deaf {s t : Session} (h : Act sets False s t) (hs : s.Deaf) : t.Deaf := by
  cases h with
  | activity _ => exact (timersOnly_updateActivityTimestamp s).deaf hs
  | setTimeout seconds timeoutType _ => exact (timeoutsOnly_setTimeout s seconds timeoutType).deaf hs
  | disable => exact (timeoutsOnly_disableAllTimeouts s).deaf hs
  | enter newState _ hnew => exact deaf_of_open (enterState_open s hnew)
  | close => exact deaf_of_not_readable (not_readable_handleClose s)
  | expire timeoutType =>
    rw [onTimeout_eq]
    exact deaf_of_not_readable (not_readable_handleClose _)
  | interest events hopen =>
    exact deaf_of_open (s := s.updateEvent events) (hopen.resolve_left False.elim)
  | _ => exact hs.of_same rfl rfl rfl

lemma Acts.tidy {s t : Session} (h : Acts sets False s t) (hs : s.Tidy id fd) : t.Tidy id fd where
  ready := h.ready hs.ready
  left := h.left hs.ready hs.left
  deaf := h.induction (fun _ _ hact hdeaf => hact.deaf hdeaf) hs.deaf

/-- The functions that look at no state are not called on a closed connection. -/
def Minds (s : Session) : ConnOp → Prop
  | .resetIdleTimeout => s.conn.state ≠ .kClosed
  | .clearReadBuffer => s.conn.state ≠ .kClosed
  | _ => True

def MindsAll (s : Session) : List ConnOp → Prop
  | [] => True
  | op :: ops => s.Minds op ∧ (s.operate op).MindsAll ops

lemma Minds.allows {s : Session} {op : ConnOp} (h : s.Minds op) :
    Allows (fun _ _ => True) False s op := by
  cases op with
  | resetIdleTimeout => exact h
  | clearReadBuffer => exact .inr h
  | _ => trivial

lemma tidy_operateAll {s : Session} (hs : s.Tidy id fd) {ops : List ConnOp}
    (h : s.MindsAll ops) : (s.operateAll ops).Tidy id fd := by
  induction ops generalizing s with
  | nil => exact hs
  | cons op ops ih => exact ih ((acts_operate h.1.allows).tidy hs) h.2

/-- The pause leaves a closed connection registered, but not for input. -/
lemma tidy_pauseReading {s : Session} (hs : s.Tidy id fd) : s.pauseReading.Tidy id fd := by
  refine ⟨hs.ready.of_governed fun _ _ h => governed_updateEvent h _, hs.left, ?_⟩
  rintro - ⟨events, hregistered, hinput⟩
  simp only [pauseReading, updateEvent, EventLoop.updateEvent, Function.update_self,
    Option.some.injEq] at hregistered
  subst hregistered
  exact hinput (by decide)

lemma tidy_filled {s : Session} (hs : s.Tidy id fd) (hopen : s.conn.state ≠ .kClosed)
    (reads : List ReadResult) : (s.filled reads).Tidy id fd := by
  have hread : Acts (fun _ _ => True) False s (s.readAll reads) := acts_readAll hopen reads
  rw [filled]
  split_ifs
  · exact tidy_pauseReading (hread.tidy hs)
  · exact hread.tidy hs

end Session

/-- What a call leaves with the loop while nothing goes wrong. -/
def ConnFunctor.Harmless : ConnFunctor → Prop
  | .setupTimeout _ _ => False
  | .handleClose => False
  | _ => True

/-- What is known of a call that has come so far. -/
def CallPc.Sound (state : ConnState) : CallPc → Prop
  | .force => state = .kClosed
  | .checkAndSetTimeouts => state = .kClosing ∨ state = .kClosed
  | .runInLoop functors => ∀ functor ∈ functors, functor.Harmless
  | _ => True

lemma CallPc.Sound.advances {pc : CallPc} {s t : Session} (h : pc.Sound s.conn.state)
    (hadvances : s.Advances t) : pc.Sound t.conn.state := by
  cases pc with
  | force => exact hadvances.closed h
  | checkAndSetTimeouts =>
    rcases h with hclosing | hclosed
    · exact hadvances.closing hclosing
    · exact .inr (hadvances.closed hclosed)
  | runInLoop functors => exact h
  | _ => trivial

/-- The timeouts of a connection that is closing or closed are switched off. -/
lemma harmless_timeoutFunctors {c : Connection} (h : c.state = .kClosing ∨ c.state = .kClosed) :
    ∀ functor ∈ c.timeoutFunctors, functor.Harmless := by
  have hstate : c.state ≠ .kReading ∧ c.state ≠ .kWriting ∧ c.state ≠ .kConnected := by
    rcases h with h | h <;> simp [h]
  simp [Connection.timeoutFunctors, hstate, ConnFunctor.Harmless]

namespace Session

variable {sets : ℤ → TimeoutType → Prop} {id : ℕ} {fd : ℤ}

/-! ### The steps of the loop thread -/

lemma tidy_cancelTimeout {s : Session} (hs : s.Tidy id fd) (timeoutType : TimeoutType) :
    (s.cancelTimeout timeoutType).Tidy id fd := by
  have htimers := timersOnly_cancelTimeout s timeoutType
  refine ⟨ready_cancelTimeout hs.ready timeoutType, fun _ => ?_, htimers.deaf hs.deaf⟩
  rw [htimers.keepsInput.fd]
  exact vacant_cancelTimeout hs.ready timeoutType

lemma step_read {s : Session} (hs : s.Tidy id fd) (hreadable : s.Readable)
    (messageCallback : Option (List ConnOp)) (reads : List ReadResult)
    (h : ∀ ops, messageCallback = some ops → (s.filled reads).conn.inputBuffer ≠ [] →
      (s.filled reads).MindsAll ops) :
    let t := s.handleRead (messageCallback.map fun ops s => s.operateAll ops) reads
    Advances s t ∧ t.Tidy id fd := by
  have hopen : s.conn.state ≠ .kClosed := fun hclosed => hs.deaf hclosed hreadable
  have htidy := tidy_filled hs hopen reads
  refine ⟨(reveals_handleRead (.inr hopen) messageCallback reads).advances, ?_⟩
  cases messageCallback with
  | none => exact htidy
  | some ops =>
    rw [Option.map_some, handleRead_some]
    split_ifs with hempty
    · exact htidy
    · exact tidy_operateAll htidy (h ops rfl hempty)

/-- A tick fires the timer of the connection, or changes the wheel alone. -/
lemma tick_cases {s : Session} (hs : s.Tidy id fd) :
    ∃ wheel : TimerWheel TimerCallback, wheel.Sound (Own id fd) ∧ wheel.mutexHeld = false ∧
      ((s.tick = s.withWheel wheel ∧ (s.withWheel wheel).Left) ∨
        (s.conn.state ≠ .kClosed ∧ wheel.Vacant fd ∧ ∃ held timeoutType,
          s.tick = ((s.withWheel held).onTimeout timeoutType).withWheel wheel)) := by
  have hsound := hs.ready.wheel
  let slot := s.loop.timerWheel.currentSlot
  let held : TimerWheel TimerCallback := { s.loop.timerWheel with mutexHeld := true }
  have hheld : held.Sound (Own id fd) := hsound.flags true _
  have hfd : ∀ task ∈ s.loop.timerWheel.wheel slot, task.fd = fd ∧ task.callback.conn = id :=
    fun task htask => hsound.inv.task_ok slot task htask
  have hadvance : ∀ {w : TimerWheel TimerCallback}, w.Sound (Own id fd) →
      TimerWheel.Sound (Own id fd)
        { w with currentSlot := (w.currentSlot + 1) % w.wheelSize, mutexHeld := false } := by
    rintro w ⟨⟨h₁, h₂, -, h₄, h₅, h₆⟩, hdistinct, hsize⟩
    exact ⟨⟨h₁, h₂, Nat.mod_lt _ h₂, h₄, h₅, h₆⟩, hdistinct, hsize⟩
  have htick := TimerWheel.tick_eq expire (s := (s.loop.timerWheel, s)) hsound.inv hs.ready.free
  cases htasks : s.loop.timerWheel.wheel slot with
  | nil =>
    refine ⟨_, hadvance hheld, rfl, .inl ⟨?_, hs.left⟩⟩
    rw [tick, htick, htasks]
    rfl
  | cons task rest =>
    obtain ⟨hown, hid⟩ := hs.ready.owns .idle
    have htask : task ∈ s.loop.timerWheel.wheel slot := htasks ▸ List.mem_cons_self ..
    obtain ⟨htaskFd, htaskId⟩ := hfd task htask
    have hopen : s.conn.state ≠ .kClosed := by
      intro hclosed
      refine (hs.left hclosed).2 slot task htask ?_
      rw [htaskFd, hown]
    -- The slot holds one task of a descriptor at most, and there are no other descriptors.
    have hrest : rest = [] := by
      have hdistinct := hsound.distinct slot
      cases rest with
      | nil => rfl
      | cons task' rest =>
        have htask' := (hfd task' (by simp [slot, htasks])).1
        simp [slot, htasks, htaskFd, htask'] at hdistinct
    rw [htasks, hrest] at htick
    by_cases hremaining : 0 < task.remainingTicks
    · refine ⟨_, hadvance (hheld.moveOn slot (hfd task htask)), rfl,
        .inl ⟨?_, fun hclosed => absurd hclosed hopen⟩⟩
      rw [tick, htick]
      simp only [TimerWheel.processTasks, if_pos hremaining]
      rfl
    · let u := s.withWheel held
      have hmutex : held.mutexHeld = true := rfl
      obtain ⟨-, -, reentered, hwheel⟩ := governed_onTimeout
        (keptByTimers_held s.conn.fd s.conn.id hmutex)
        (s := u) ⟨rfl, rfl, held.reentered, rfl⟩ task.callback.timeoutType
      have hcall : expire task (held, s) =
          ({ held with reentered := reentered }, u.onTimeout task.callback.timeoutType) := by
        have hconn : task.callback.conn = (s.withWheel held).conn.id := htaskId.trans hid.symm
        simp only [expire, if_pos hconn]
        exact Prod.ext hwheel rfl
      refine ⟨_, hadvance ((hheld.flags true reentered).retire task), rfl,
        .inr ⟨hopen, ?_, held, task.callback.timeoutType, ?_⟩⟩
      · rw [← htaskFd]
        exact TimerWheel.vacant_retire task _
      · rw [tick, htick]
        simp only [TimerWheel.processTasks, if_neg hremaining]
        change withWheel (expire task (held, s)).2 _ = _
        rw [hcall]

lemma reveals_withWheel (s : Session) (wheel : TimerWheel TimerCallback) :
    Reveals False False s [] (s.withWheel wheel) :=
  reveals_nil rfl rfl rfl rfl rfl fun _ => rfl

lemma step_tick {s : Session} (hs : s.Tidy id fd) : Advances s s.tick ∧ s.tick.Tidy id fd := by
  obtain ⟨wheel, hwheel, hfree, ⟨htick, hleft⟩ | ⟨hopen, hvacant, held, timeoutType, htick⟩⟩ :=
    tick_cases hs
  · rw [htick]
    exact ⟨(reveals_withWheel s wheel).advances,
      ⟨hs.ready.fd_nonneg, hwheel, hfree, hs.ready.owns⟩, hleft, hs.deaf.of_same rfl rfl rfl⟩
  · let u := s.withWheel held
    let t := u.onTimeout timeoutType
    have hreveals : Reveals False False s handleCloseSights t :=
      (reveals_withWheel s held).after (reveals_onTimeout (s := u) (.inr hopen) timeoutType)
    have hact : Act (fun _ _ => True) False u t := .expire timeoutType
    have hfd : t.conn.fd = s.conn.fd := hact.serves.fd
    have hid : t.conn.id = s.conn.id := hact.serves.id
    rw [htick]
    refine ⟨(hreveals.before (reveals_withWheel t wheel)).advances, ⟨?_, hwheel, hfree, ?_⟩, ?_, ?_⟩
    · change 0 ≤ t.conn.fd
      rw [hfd]
      exact hs.ready.fd_nonneg
    · change ∀ timeoutType, Own id fd t.conn.fd ⟨t.conn.id, timeoutType⟩
      rw [hfd, hid]
      exact hs.ready.owns
    · intro _
      change wheel.Vacant t.conn.fd
      rw [hfd, (hs.ready.owns .idle).1]
      exact hvacant
    · have hdeaf : t.Deaf := by
        apply deaf_of_not_readable
        change ¬ (u.onTimeout timeoutType).Readable
        rw [onTimeout_eq]
        exact not_readable_handleClose _
      exact hdeaf.of_same rfl rfl rfl

lemma step_functor {s : Session} (hs : s.Tidy id fd) {functor : ConnFunctor}
    (hharmless : functor.Harmless)
    (hfits : ∀ data, functor = .sendInLoop data → s.Overflows data → s.conn.state ≠ .kClosed) :
    Advances s (s.runFunctor functor) ∧ (s.runFunctor functor).Tidy id fd := by
  have hacts : ∀ {t : Session}, Acts (fun _ _ => True) False s t → t.Tidy id fd :=
    fun h => h.tidy hs
  cases functor with
  | sendInLoop data =>
    have hreveals : Reveals False False s _ (s.appendInLoop data) :=
      reveals_appendInLoop fun hover => .inr (hfits data rfl hover)
    exact ⟨hreveals.advances, hacts (acts_appendInLoop s data)⟩
  | shutdownInLoop => exact ⟨advances_shutdownInLoop s, hacts (acts_shutdownInLoop s)⟩
  | closeInLoop reason sysErrno =>
    exact ⟨(reveals_closeInLoop s reason sysErrno).advances,
      hacts (acts_closeInLoop s reason sysErrno)⟩
  | setupTimeout seconds timeoutType => exact hharmless.elim
  | cancelTimeout timeoutType =>
    exact ⟨(timersOnly_cancelTimeout s timeoutType).reveals.advances,
      tidy_cancelTimeout hs timeoutType⟩
  | handleClose => exact hharmless.elim

end Session

namespace SharedConnection

/-- The steps that do no harm to a closed connection. -/
def Heeds (s : SharedConnection) : Move → Prop
  | .operate op => s.session.Minds op
  | .read reads messageCallback => ∀ ops, messageCallback = some ops →
    (s.session.filled reads).conn.inputBuffer ≠ [] → (s.session.filled reads).MindsAll ops
  | .functor => ∀ data pending, s.pending = .sendInLoop data :: pending →
    s.session.Overflows data → s.session.conn.state ≠ .kClosed
  | .proceed i => s.calls[i]? = some .store ∨ s.calls[i]? = some .force →
    s.session.conn.state ≠ .kClosed
  | _ => True

structure Inv (id : ℕ) (fd : ℤ) (s : SharedConnection) : Prop where
  budget_le : s.session.budget ≤ 1
  tidy : s.session.Tidy id fd
  calls : ∀ pc ∈ s.calls, pc.Sound s.session.conn.state
  pending : ∀ functor ∈ s.pending, functor.Harmless

variable {id : ℕ} {fd : ℤ} {s : SharedConnection}

/-- A step of the loop thread. -/
lemma Inv.on (h : s.Inv id fd) {session : Session} (hadvances : s.session.Advances session)
    (htidy : session.Tidy id fd) : (s.on session).Inv id fd where
  budget_le := hadvances.budget_le.trans h.budget_le
  tidy := htidy
  calls := fun pc hpc => (h.calls pc hpc).advances hadvances
  pending := h.pending

lemma Inv.goOn (h : s.Inv id fd) (i : ℕ) {pc : CallPc} (hpc : pc.Sound s.session.conn.state) :
    (s.goOn i pc).Inv id fd where
  budget_le := h.budget_le
  tidy := h.tidy
  calls := by
    intro pc' hmem
    rcases List.mem_or_eq_of_mem_set hmem with hold | rfl
    · exact h.calls pc' hold
    · exact hpc
  pending := h.pending

/-- A store of `kClosing` that does not hit a closed connection. -/
lemma Inv.storeState (h : s.Inv id fd) (hopen : s.session.conn.state ≠ .kClosed) :
    (s.storeState .kClosing).Inv id fd := by
  refine h.on ⟨?_, fun hclosed => absurd hclosed hopen, fun _ => .inl rfl⟩ ⟨?_, ?_, ?_⟩
  · rw [Session.budget, Session.budget, if_neg hopen]
    exact le_rfl
  · exact ⟨h.tidy.ready.fd_nonneg, h.tidy.ready.wheel, h.tidy.ready.free, h.tidy.ready.owns⟩
  · exact fun hclosed => absurd hclosed ConnState.noConfusion
  · exact Session.deaf_of_open ConnState.noConfusion

lemma inv_proceed (h : s.Inv id fd) {i : ℕ} {pc : CallPc} (hpc : s.calls[i]? = some pc)
    (hheeds : s.Heeds (.proceed i)) : (s.proceed i pc).Inv id fd := by
  have hsound : pc.Sound s.session.conn.state := h.calls pc (List.mem_of_getElem? hpc)
  cases pc with
  | isConnected call states =>
    cases states with
    | nil =>
      change (s.goOn i call.proceed).Inv id fd
      cases call with
      | shutdown => exact h.goOn i trivial
      | _ => exact h.goOn i (by simp [ForeignCall.proceed, CallPc.Sound, ConnFunctor.Harmless])
    | cons state states =>
      change Inv id fd (if s.session.conn.state = state then s.goOn i (.runInLoop [])
        else s.goOn i (.isConnected call states))
      split_ifs
      · exact h.goOn i (by simp [CallPc.Sound])
      · exact h.goOn i trivial
  | transition => exact h.goOn i trivial
  | canTransition current =>
    rw [proceed]
    split_ifs with hcan hcurrent
    · exact h.goOn i trivial
    · -- Only a closed connection refuses to go to `kClosing`.
      refine h.goOn i ?_
      change s.session.conn.state = .kClosed
      by_contra hopen
      apply hcan
      rw [Connection.canTransition, if_neg hopen, if_pos rfl, ite_self]
    · exact h.goOn i (by simp [CallPc.Sound, ConnFunctor.Harmless])
  | store => exact (h.storeState (hheeds (.inl hpc))).goOn i (.inl rfl)
  | force => exact absurd hsound (hheeds (.inr hpc))
  | checkAndSetTimeouts =>
    refine h.goOn i fun functor hfunctor => ?_
    rcases List.mem_append.mp hfunctor with hmem | hmem
    · exact harmless_timeoutFunctors hsound functor hmem
    · cases List.mem_singleton.mp hmem
      trivial
  | runInLoop functors =>
    cases functors with
    | nil => exact h
    | cons functor functors =>
      have hall := List.forall_mem_cons.mp hsound
      have hqueued : Inv id fd { s with pending := s.pending ++ [functor] } := by
        refine ⟨h.budget_le, h.tidy, h.calls, fun functor' hmem => ?_⟩
        rcases List.mem_append.mp hmem with hold | hnew
        · exact h.pending functor' hold
        · cases List.mem_singleton.mp hnew
          exact hall.1
      exact hqueued.goOn i hall.2

lemma inv_step {t : SharedConnection} {m : Move} (hheeds : s.Heeds m) (h : s.Inv id fd)
    (hstep : s.step m = some t) : t.Inv id fd := by
  cases m with
  | operate op =>
    cases hstep
    have hreveals : Session.Reveals False False s.session _ (s.session.operate op) :=
      Session.reveals_operate s.session False.elim
    exact h.on hreveals.advances ((Session.acts_operate hheeds.allows).tidy h.tidy)
  | read reads messageCallback =>
    rw [step] at hstep
    split_ifs at hstep with hreadable
    cases hstep
    obtain ⟨hadvances, htidy⟩ :=
      Session.step_read h.tidy hreadable messageCallback reads hheeds
    exact h.on hadvances htidy
  | write =>
    cases hstep
    have hreveals : Session.Reveals False False s.session _ s.session.handleWrite :=
      Session.reveals_handleWrite s.session
    have hacts : Session.Acts (fun _ _ => True) False s.session s.session.handleWrite :=
      Session.acts_handleWrite s.session
    exact h.on hreveals.advances (hacts.tidy h.tidy)
  | error =>
    cases hstep
    refine h.on ⟨le_rfl, fun hclosed => hclosed, .inl⟩ ⟨?_, h.tidy.left, ?_⟩
    · exact ⟨h.tidy.ready.fd_nonneg, h.tidy.ready.wheel, h.tidy.ready.free, h.tidy.ready.owns⟩
    · apply Session.deaf_of_not_readable
      rintro ⟨events, hregistered, -⟩
      simp [EventLoop.removeEvent] at hregistered
  | tick =>
    cases hstep
    obtain ⟨hadvances, htidy⟩ := Session.step_tick h.tidy
    exact h.on hadvances htidy
  | functor =>
    rw [step] at hstep
    cases hpending : s.pending with
    | nil =>
      rw [hpending] at hstep
      cases hstep
    | cons functor pending =>
      rw [hpending] at hstep
      cases hstep
      have hall := h.pending
      rw [hpending, List.forall_mem_cons] at hall
      obtain ⟨hadvances, htidy⟩ := Session.step_functor h.tidy hall.1
        fun data hdata => hheeds data pending (hdata ▸ hpending)
      exact ⟨(h.on hadvances htidy).budget_le, htidy, (h.on hadvances htidy).calls, hall.2⟩
  | call call =>
    cases hstep
    refine ⟨h.budget_le, h.tidy, fun pc hmem => ?_, h.pending⟩
    rcases List.mem_append.mp hmem with hold | hnew
    · exact h.calls pc hold
    · cases List.mem_singleton.mp hnew
      trivial
  | proceed i =>
    obtain ⟨pc, hpc, rfl⟩ := Option.map_eq_some_iff.mp hstep
    exact inv_proceed h hpc hheeds

lemma inv_new (id fd : ℕ) (config : Option LimitsOptions)
    (hasKeepAliveManager hasCloseCallback : Bool) (kernel : ℕ → WriteOutcome) :
    (new id fd config hasKeepAliveManager hasCloseCallback kernel).Inv id fd := by
  let conn : Connection := { Connection.new id fd config hasKeepAliveManager with
    hasCloseCallback := hasCloseCallback }
  have hconnecting : (Session.new conn kernel).conn.state = .kConnecting := rfl
  have htidy : (Session.new conn kernel).Tidy id fd := by
    refine ⟨⟨Int.natCast_nonneg fd, TimerWheel.sound_new, rfl, fun _ => ⟨rfl, rfl⟩⟩, ?_, ?_⟩
    · exact fun hclosed => absurd hclosed ConnState.noConfusion
    · exact Session.deaf_of_open ConnState.noConfusion
  have hreveals : Session.Reveals False False (Session.new conn kernel) _ _ :=
    Session.reveals_connectEstablished hconnecting
  have hacts : Session.Acts (fun _ _ => True) False (Session.new conn kernel) _ :=
    Session.acts_connectEstablished hconnecting
  exact ⟨hreveals.advances.budget_le, hacts.tidy htidy, by simp [new], by simp [new]⟩

/-- A connection is reported closed once at most, if nothing comes late: no queued send that does
not fit, no store of `kClosing`, no function that looks at no state. -/
theorem closed_at_most_once (id fd : ℕ) (config : Option LimitsOptions)
    (hasKeepAliveManager hasCloseCallback : Bool) (kernel : ℕ → WriteOutcome) (ms : List Move)
    (h : ∀ ms' m s, ms' ++ [m] <+: ms →
      Runs.run step (new id fd config hasKeepAliveManager hasCloseCallback kernel) ms' = some s →
        s.Heeds m) :
    ∀ ms' s, ms' <+: ms →
      Runs.run step (new id fd config hasKeepAliveManager hasCloseCallback kernel) ms' = some s →
        s.session.trace.countP Event.isClosed ≤ 1 := by
  intro ms' s hbegins hs
  have hinv := Runs.forall_run_of step (P := Inv id fd) (C := Heeds)
    (fun s m t hheeds hs hstep => inv_step hheeds hs hstep)
    (inv_new id fd config hasKeepAliveManager hasCloseCallback kernel) h ms' s hbegins hs
  exact (Nat.le_add_right _ _).trans hinv.budget_le

/-- Another thread sends a byte, and the peer hangs up before the loop comes to it. -/
def lateSend : List Move :=
  [.call (.send (.string [71])), .proceed 0, .proceed 0, .proceed 0, .proceed 0, .proceed 0,
    .read [.eof] none, .functor]

/-- A queued send that fits does no harm to a closed connection. -/
theorem closed_at_most_once_late_send :
    ∃ s, Runs.run step (new 0 7 (some ⟨60, 15, 65536, 1024⟩) true true fun _ => .again) lateSend =
        some s ∧ s.session.trace.countP Event.isClosed ≤ 1 := by
  have hrun : (Runs.run step (new 0 7 (some ⟨60, 15, 65536, 1024⟩) true true fun _ => .again)
      lateSend).isSome = true := by decide +kernel
  obtain ⟨s, hs⟩ := Option.isSome_iff_exists.mp hrun
  refine ⟨s, hs, closed_at_most_once 0 7 _ true true _ lateSend ?_ lateSend s List.prefix_rfl hs⟩
  refine Runs.forall_step_cons step trivial ?_
  rintro _ ⟨⟩
  iterate 5
    refine Runs.forall_step_cons step (by rintro (⟨⟨⟩⟩ | ⟨⟨⟩⟩)) ?_
    rintro _ ⟨⟩
  refine Runs.forall_step_cons step (by rintro _ ⟨⟩) ?_
  intro s hs
  rw [step, if_pos] at hs
  · cases hs
    refine Runs.forall_step_cons step ?_ (by simp)
    rintro data pending ⟨⟩ ⟨-, hover⟩
    exact absurd hover (by decide)
  · exact ⟨_, rfl, by decide⟩

/-- A send that was queued while the connection was open overflows the buffer after it is closed. -/
theorem closed_twice :
    ∃ s, Runs.run step (new 0 7 (some ⟨60, 15, 65536, 1024⟩) true true fun _ => .again)
        [.call (.send (.string (List.replicate 1025 0))), .proceed 0, .proceed 0, .proceed 0,
          .proceed 0, .proceed 0, .read [.eof] none, .functor] = some s ∧
      1 < s.session.trace.countP Event.isClosed := by
  have hcount : (Runs.run step (new 0 7 (some ⟨60, 15, 65536, 1024⟩) true true fun _ => .again)
      [.call (.send (.string (List.replicate 1025 0))), .proceed 0, .proceed 0, .proceed 0,
        .proceed 0, .proceed 0, .read [.eof] none, .functor]).map
          (·.session.trace.countP Event.isClosed) = some 2 := by decide +kernel
  obtain ⟨s, hs, htwo⟩ := Option.map_eq_some_iff.mp hcount
  exact ⟨s, hs, by rw [htwo]; decide⟩

end SharedConnection

end TinyWebServer
