import TinyWebServer.Net.Registration

/-!
# The flags of active timeouts

The three timeouts of a connection share the one timer of its descriptor. Since no handler enters
`kReading` or `kWriting`, only the idle timeout is ever set up, and its flag says whether the wheel
holds the timer, until a read or write timeout of zero seconds cancels the timer of the idle one.
-/

namespace TinyWebServer

/-- The read and write timeouts are idle, and the idle timeout is one that the wheel takes. -/
structure Connection.Plain (c : Connection) : Prop where
  readTimeoutActive : c.readTimeoutActive = false
  writeTimeoutActive : c.writeTimeoutActive = false
  not_kReading : c.state ≠ .kReading
  not_kWriting : c.state ≠ .kWriting
  idleTimeoutSeconds_le : c.idleTimeoutSeconds ≤ 600

lemma Connection.Plain.hasActiveTimeout {c : Connection} (h : c.Plain) :
    c.hasActiveTimeout = c.idleTimeoutActive := by
  rw [Connection.hasActiveTimeout, h.readTimeoutActive, h.writeTimeoutActive]
  rfl

/-- The flag of the idle timeout is of no concern. -/
lemma Connection.Plain.setIdleActive {c : Connection} (h : c.Plain) (active : Bool) :
    (c.setTimeoutActive active .idle).Plain := ⟨h.1, h.2, h.3, h.4, h.5⟩

namespace Session

/-! ### Timer operations -/

lemma conn_cancelTimeout {s : Session} (hfd : 0 ≤ s.conn.fd) (timeoutType : TimeoutType) :
    (s.cancelTimeout timeoutType).conn = s.conn.setTimeoutActive false timeoutType := by
  have hsuccess : (s.loop.removeTimer s.conn.fd).1 = .success :=
    TimerWheel.removeTimeout_of_nonneg s.loop.timerWheel hfd
  rw [cancelTimeout, hsuccess]
  exact if_neg (not_not.mpr rfl) ▸ rfl

lemma conn_setupTimeout (s : Session) (seconds : ℤ) (timeoutType : TimeoutType) :
    (s.setupTimeout seconds timeoutType).conn = s.conn ∨
      (s.setupTimeout seconds timeoutType).conn = s.conn.setTimeoutActive true timeoutType := by
  rw [setupTimeout]
  split_ifs
  · exact .inl rfl
  · dsimp only
    split_ifs
    · exact .inr rfl
    · exact .inl rfl

variable {P : ℤ → TimerCallback → Prop}

lemma setupTimeout_of_le {s : Session} (h : s.Ready P) {seconds : ℤ} (hpos : 0 < seconds)
    (hle : seconds ≤ 600) (timeoutType : TimeoutType) :
    (s.setupTimeout seconds timeoutType).conn = s.conn.setTimeoutActive true timeoutType ∧
      s.conn.fd ∈ (s.setupTimeout seconds timeoutType).loop.timerWheel.timers := by
  obtain ⟨hsuccess, hmem⟩ := TimerWheel.addTimeout_of_le h.wheel h.free h.fd_nonneg hpos hle
    (TimerCallback.mk s.conn.id timeoutType)
  have hadd : (s.loop.addTimer s.conn.fd seconds ⟨s.conn.id, timeoutType⟩).1 = .success := hsuccess
  rw [setupTimeout, if_neg (not_le.mpr hpos)]
  dsimp only
  rw [hadd]
  exact ⟨rfl, hmem⟩

/-! ### The flags -/

lemma plain_setupIdle {s : Session} (h : s.conn.Plain) (seconds : ℤ) :
    (s.setupTimeout seconds .idle).conn.Plain := by
  rcases conn_setupTimeout s seconds .idle with heq | heq
  · rwa [heq]
  · rw [heq]
    exact h.setIdleActive true

/-- The timeouts are set anew in a state that neither reads nor writes. -/
lemma checkAndSetTimeouts_of_state {s : Session} (hread : s.conn.state ≠ .kReading)
    (hwrite : s.conn.state ≠ .kWriting) :
    s.checkAndSetTimeouts =
      let t := (s.cancelTimeout .read).cancelTimeout .write
      if 0 < t.conn.idleTimeoutSeconds ∧ t.conn.state = .kConnected then
        t.setupTimeout t.conn.idleTimeoutSeconds .idle
      else t.cancelTimeout .idle := by
  have hstate := (timersOnly_cancelTimeout s .read).state_eq
  have hreading : ¬ (0 < s.conn.readTimeoutSeconds ∧ s.conn.state = .kReading) :=
    fun h => hread h.2
  have hwriting : ¬ (0 < (s.cancelTimeout .read).conn.writeTimeoutSeconds ∧
      (s.cancelTimeout .read).conn.state = .kWriting) := fun h => hwrite (hstate.symm.trans h.2)
  rw [checkAndSetTimeouts, if_neg hreading]
  dsimp only
  rw [if_neg hwriting]

/-- The read and write timeouts are cancelled first. -/
lemma plain_cancelled {s : Session} (hfd : 0 ≤ s.conn.fd) (hread : s.conn.state ≠ .kReading)
    (hwrite : s.conn.state ≠ .kWriting) (hidle : s.conn.idleTimeoutSeconds ≤ 600) :
    ((s.cancelTimeout .read).cancelTimeout .write).conn.Plain := by
  have hfd' : 0 ≤ (s.cancelTimeout .read).conn.fd := by
    rwa [(timersOnly_cancelTimeout s .read).keepsInput.fd]
  rw [conn_cancelTimeout hfd', conn_cancelTimeout hfd]
  exact ⟨rfl, rfl, hread, hwrite, hidle⟩

lemma plain_checkAndSetTimeouts {s : Session} (hfd : 0 ≤ s.conn.fd)
    (hread : s.conn.state ≠ .kReading) (hwrite : s.conn.state ≠ .kWriting)
    (hidle : s.conn.idleTimeoutSeconds ≤ 600) : s.checkAndSetTimeouts.conn.Plain := by
  have hplain := plain_cancelled hfd hread hwrite hidle
  have hfd' : 0 ≤ ((s.cancelTimeout .read).cancelTimeout .write).conn.fd := by
    rwa [((timersOnly_cancelTimeout s .read).trans
      (timersOnly_cancelTimeout _ .write)).keepsInput.fd]
  rw [checkAndSetTimeouts_of_state hread hwrite]
  dsimp only
  split_ifs
  · exact plain_setupIdle hplain _
  · rw [conn_cancelTimeout hfd']
    exact hplain.setIdleActive false

lemma conn_handleClose (s : Session) : s.handleClose.conn = (s.enterState .kClosed).conn := by
  simp only [handleClose]
  split_ifs <;> rfl

lemma plain_handleClose {s : Session} (hfd : 0 ≤ s.conn.fd)
    (hidle : s.conn.idleTimeoutSeconds ≤ 600) : s.handleClose.conn.Plain := by
  rw [conn_handleClose]
  exact plain_checkAndSetTimeouts (s := { s with conn := { s.conn with state := .kClosed } }) hfd
    (by simp) (by simp) hidle

/-- No timeout above ten rounds. -/
def Short (seconds : ℤ) (_ : TimeoutType) : Prop := seconds ≤ 600

lemma plain_setTimeout {s : Session} (hfd : 0 ≤ s.conn.fd) (h : s.conn.Plain) {seconds : ℤ}
    (hle : seconds ≤ 600) (timeoutType : TimeoutType) :
    (s.setTimeout seconds timeoutType).conn.Plain := by
  rw [Session.setTimeout]
  split_ifs
  · rw [conn_cancelTimeout (by cases timeoutType <;> exact hfd)]
    cases timeoutType with
    | read => exact ⟨rfl, h.2, h.3, h.4, h.5⟩
    | write => exact ⟨h.1, rfl, h.3, h.4, h.5⟩
    | idle => exact ⟨h.1, h.2, h.3, h.4, by simp [Connection.setTimeoutActive,
        Connection.setTimeoutSeconds]⟩
  · cases timeoutType with
    | read => exact plain_checkAndSetTimeouts hfd h.3 h.4 h.5
    | write => exact plain_checkAndSetTimeouts hfd h.3 h.4 h.5
    | idle => exact plain_checkAndSetTimeouts hfd h.3 h.4 hle

lemma conn_disableAllTimeouts {s : Session} (hfd : 0 ≤ s.conn.fd) :
    s.disableAllTimeouts.conn = { s.conn with
      readTimeoutSeconds := 0, writeTimeoutSeconds := 0, idleTimeoutSeconds := 0
      readTimeoutActive := false, writeTimeoutActive := false, idleTimeoutActive := false } := by
  let zero : Session := { s with conn := { s.conn with
    readTimeoutSeconds := 0, writeTimeoutSeconds := 0, idleTimeoutSeconds := 0 } }
  have hread : (zero.cancelTimeout .read).conn = zero.conn.setTimeoutActive false .read :=
    conn_cancelTimeout (s := zero) hfd .read
  have hwrite : ((zero.cancelTimeout .read).cancelTimeout .write).conn =
      (zero.conn.setTimeoutActive false .read).setTimeoutActive false .write := by
    rw [← hread]
    exact conn_cancelTimeout (by rw [hread]; exact hfd) .write
  change (((zero.cancelTimeout .read).cancelTimeout .write).cancelTimeout .idle).conn = _
  rw [conn_cancelTimeout (by rw [hwrite]; exact hfd), hwrite]
  rfl

lemma Act.plain {late : Prop} {s t : Session} (h : Act Short late s t) (hfd : 0 ≤ s.conn.fd)
    (hs : s.conn.Plain) : t.conn.Plain := by
  cases h with
  | activity _ =>
    rw [updateActivityTimestamp]
    split_ifs
    · exact plain_setupIdle hs _
    · exact hs
  | setTimeout seconds timeoutType hle => exact plain_setTimeout hfd hs hle timeoutType
  | disable =>
    rw [conn_disableAllTimeouts hfd]
    exact ⟨rfl, rfl, hs.3, hs.4, by simp⟩
  | enter newState _ hnew =>
    have hne : newState ≠ .kReading ∧ newState ≠ .kWriting := by
      rcases hnew with rfl | rfl <;> simp
    exact plain_checkAndSetTimeouts (s := { s with conn := { s.conn with state := newState } })
      hfd hne.1 hne.2 hs.5
  | close => exact plain_handleClose hfd hs.5
  | expire timeoutType =>
    rw [onTimeout_eq]
    cases timeoutType <;>
      exact plain_handleClose (s := { s with conn := s.conn.setTimeoutActive false _ }) hfd hs.5
  | buffers => exact ⟨hs.1, hs.2, hs.3, hs.4, hs.5⟩
  | _ => exact hs

lemma Acts.plain {late : Prop} {s t : Session} (h : Acts Short late s t) (hfd : 0 ≤ s.conn.fd)
    (hs : s.conn.Plain) : t.conn.Plain := by
  have hboth : 0 ≤ t.conn.fd ∧ t.conn.Plain :=
    h.induction (P := fun s => 0 ≤ s.conn.fd ∧ s.conn.Plain)
      (fun _ _ hact hs => ⟨hact.serves.fd ▸ hs.1, hact.plain hs.1 hs.2⟩) ⟨hfd, hs⟩
  exact hboth.2

/-! ### The flags and the wheel -/

/-- The flags of an open connection tell whether the wheel has a timer for it. -/
def Booked (s : Session) : Prop :=
  s.conn.state ≠ .kClosed →
    (s.conn.hasActiveTimeout = true ↔ s.conn.fd ∈ s.loop.timerWheel.timers)

lemma booked_cancelIdle {s : Session} (h : s.Ready P) (hplain : s.conn.Plain) :
    (s.cancelTimeout .idle).Booked := by
  intro _
  have hconn := conn_cancelTimeout h.fd_nonneg .idle
  have hvacant := vacant_cancelTimeout h .idle
  have hfd : (s.conn.setTimeoutActive false .idle).fd = s.conn.fd := rfl
  rw [hconn, hfd]
  refine iff_of_false ?_ hvacant.1
  simp [Connection.hasActiveTimeout, Connection.setTimeoutActive, hplain.readTimeoutActive,
    hplain.writeTimeoutActive]

lemma booked_setupIdle {s : Session} (h : s.Ready P) {seconds : ℤ} (hpos : 0 < seconds)
    (hle : seconds ≤ 600) : (s.setupTimeout seconds .idle).Booked := by
  intro _
  obtain ⟨hconn, hmem⟩ := setupTimeout_of_le h hpos hle .idle
  have hfd : (s.conn.setTimeoutActive true .idle).fd = s.conn.fd := rfl
  rw [hconn, hfd]
  refine iff_of_true ?_ hmem
  simp [Connection.hasActiveTimeout, Connection.setTimeoutActive]

/-- Setting the timeouts anew puts the flags right. -/
lemma booked_checkAndSetTimeouts {s : Session} (h : s.Ready P) (hread : s.conn.state ≠ .kReading)
    (hwrite : s.conn.state ≠ .kWriting) (hidle : s.conn.idleTimeoutSeconds ≤ 600) :
    s.checkAndSetTimeouts.Booked := by
  have hready := ready_cancelTimeout (ready_cancelTimeout h .read) .write
  have hplain := plain_cancelled h.fd_nonneg hread hwrite hidle
  rw [checkAndSetTimeouts_of_state hread hwrite]
  dsimp only
  split_ifs with hconnected
  · exact booked_setupIdle hready hconnected.1 hplain.idleTimeoutSeconds_le
  · exact booked_cancelIdle hready hplain

/-- No timeout above ten rounds, and only the idle one is switched off. -/
def Apart (seconds : ℤ) (timeoutType : TimeoutType) : Prop :=
  seconds ≤ 600 ∧ (0 < seconds ∨ timeoutType = .idle)

lemma ready_setTimeoutSeconds {s : Session} (h : s.Ready P) (seconds : ℤ)
    (timeoutType : TimeoutType) :
    Ready P { s with conn := s.conn.setTimeoutSeconds seconds timeoutType } :=
  h.of_governed fun _ _ hs => governed_setTimeoutSeconds hs seconds timeoutType

lemma booked_setTimeout {s : Session} (h : s.Ready P) (hplain : s.conn.Plain) {seconds : ℤ}
    {timeoutType : TimeoutType} (hapart : Apart seconds timeoutType) :
    (s.setTimeout seconds timeoutType).Booked := by
  obtain ⟨hle, hkind⟩ := hapart
  rw [Session.setTimeout]
  split_ifs with hzero
  · obtain rfl := hkind.resolve_left (not_lt.mpr hzero)
    refine booked_cancelIdle (ready_setTimeoutSeconds h 0 .idle) ?_
    exact ⟨hplain.1, hplain.2, hplain.3, hplain.4, by simp [Connection.setTimeoutSeconds]⟩
  · have hready := ready_setTimeoutSeconds h seconds timeoutType
    cases timeoutType with
    | read => exact booked_checkAndSetTimeouts hready hplain.3 hplain.4 hplain.5
    | write => exact booked_checkAndSetTimeouts hready hplain.3 hplain.4 hplain.5
    | idle => exact booked_checkAndSetTimeouts hready hplain.3 hplain.4 hle

lemma Act.booked {late : Prop} {s t : Session} (h : Act Apart late s t) (hready : s.Ready P)
    (hplain : s.conn.Plain) (hs : s.Booked) : t.Booked := by
  cases h with
  | activity _ =>
    rw [updateActivityTimestamp]
    split_ifs with hpos
    · exact booked_setupIdle hready hpos hplain.idleTimeoutSeconds_le
    · exact hs
  | setTimeout seconds timeoutType hapart => exact booked_setTimeout hready hplain hapart
  | disable =>
    let zero : Session := { s with conn := { s.conn with
      readTimeoutSeconds := 0, writeTimeoutSeconds := 0, idleTimeoutSeconds := 0 } }
    have hzero : zero.Ready P := ⟨hready.fd_nonneg, hready.wheel, hready.free, hready.owns⟩
    exact booked_cancelIdle (ready_cancelTimeout (ready_cancelTimeout hzero .read) .write)
      (plain_cancelled hready.fd_nonneg hplain.3 hplain.4 (by simp))
  | enter newState _ hnew =>
    have hne : newState ≠ .kReading ∧ newState ≠ .kWriting := by
      rcases hnew with rfl | rfl <;> simp
    exact booked_checkAndSetTimeouts (s := { s with conn := { s.conn with state := newState } })
      ⟨hready.fd_nonneg, hready.wheel, hready.free, hready.owns⟩ hne.1 hne.2 hplain.5
  | close => exact fun hopen => absurd (state_handleClose s) hopen
  | expire timeoutType => exact fun hopen => absurd (state_onTimeout s timeoutType) hopen
  | _ => exact hs

lemma Acts.booked {late : Prop} {s t : Session} (h : Acts Apart late s t) (hready : s.Ready P)
    (hplain : s.conn.Plain) (hs : s.Booked) : t.Booked := by
  have hall : t.Ready P ∧ t.conn.Plain ∧ t.Booked := by
    refine h.induction (P := fun s => s.Ready P ∧ s.conn.Plain ∧ s.Booked) ?_ ⟨hready, hplain, hs⟩
    rintro u v hact ⟨hready, hplain, hbooked⟩
    exact ⟨hact.acts.ready hready, (hact.mono fun _ _ h => h.1).plain hready.fd_nonneg hplain,
      hact.booked hready hplain hbooked⟩
  exact hall.2.2

/-- A read or write timeout that is switched off takes the timer of the idle timeout with it. -/
lemma booked_switchOff_iff {s : Session} (h : s.Ready P) (hplain : s.conn.Plain) (hs : s.Booked)
    (hopen : s.conn.state ≠ .kClosed) {seconds : ℤ} (hzero : seconds ≤ 0)
    {timeoutType : TimeoutType} (hkind : timeoutType ≠ .idle) :
    (s.setTimeout seconds timeoutType).Booked ↔ s.conn.fd ∉ s.loop.timerWheel.timers := by
  have hready := ready_setTimeoutSeconds h 0 timeoutType
  have hconn := conn_cancelTimeout hready.fd_nonneg timeoutType
  have hvacant := vacant_cancelTimeout hready timeoutType
  have hflags : (({ s with conn := s.conn.setTimeoutSeconds 0 timeoutType } : Session).cancelTimeout
      timeoutType).conn.hasActiveTimeout = s.conn.hasActiveTimeout := by
    rw [hconn, hplain.hasActiveTimeout]
    cases timeoutType with
    | read => simp [Connection.hasActiveTimeout, Connection.setTimeoutActive,
        Connection.setTimeoutSeconds, hplain.writeTimeoutActive]
    | write => simp [Connection.hasActiveTimeout, Connection.setTimeoutActive,
        Connection.setTimeoutSeconds, hplain.readTimeoutActive]
    | idle => exact absurd rfl hkind
  have hfd : (({ s with conn := s.conn.setTimeoutSeconds 0 timeoutType } : Session).cancelTimeout
      timeoutType).conn.fd = (s.conn.setTimeoutSeconds 0 timeoutType).fd := by
    rw [hconn]
    cases timeoutType <;> rfl
  have hstate : (({ s with conn := s.conn.setTimeoutSeconds 0 timeoutType } : Session).cancelTimeout
      timeoutType).conn.state ≠ .kClosed := by
    rw [(timersOnly_cancelTimeout _ _).state_eq]
    cases timeoutType <;> exact hopen
  rw [Session.setTimeout, if_pos hzero, Booked, hflags, hfd, ← hs hopen]
  constructor
  · intro hbooked hactive
    exact hvacant.1 ((hbooked hstate).mp hactive)
  · intro hactive _
    exact iff_of_false hactive hvacant.1

end Session

namespace Server

variable {s : Server} {id : ℕ} {host host' : Hosted} {t : Session}

/-- The flags of every open connection tell whether its loop has a timer for it. -/
def Booked (s : Server) : Prop :=
  ∀ (id : ℕ) (h : Hosted), s.hosted[id]? = some h → (s.session h).Booked

/-- No read or write timeout is set up, no idle timeout is above ten rounds, and the timers of a
loop are those of its open connections. -/
structure Modest (s : Server) : Prop where
  keepAliveTimeout : s.config.elim 0 (·.keepAliveTimeout) ≤ 600
  plain : ∀ (id : ℕ) (h : Hosted), s.hosted[id]? = some h → h.conn.Plain
  keyed : ∀ (loop : ℕ) (fd : ℤ), fd ∈ (s.loops loop).timerWheel.timers →
    ∃ (id : ℕ) (h : Hosted), s.hosted[id]? = some h ∧ h.loop = loop ∧ h.conn.fd = fd ∧
      h.conn.state ≠ .kClosed

/-- The move sets no timeout above ten rounds. -/
def SetsShort : Move → Prop
  | .handle _ (.operate (.setReadTimeout seconds)) => seconds ≤ 600
  | .handle _ (.operate (.setWriteTimeout seconds)) => seconds ≤ 600
  | .handle _ (.operate (.setIdleTimeout seconds)) => seconds ≤ 600
  | _ => True

/-- The public functions that cancel a read or write timeout. -/
def SwitchesOff : ConnOp → Prop
  | .setReadTimeout seconds => seconds ≤ 0
  | .setWriteTimeout seconds => seconds ≤ 0
  | _ => False

/-- The move cancels a read or write timeout of a connection that has a timer. -/
def DropsTimer (s : Server) : Move → Prop
  | .handle id (.operate op) => SwitchesOff op ∧
      ∃ h, s.hosted[id]? = some h ∧ h.conn.fd ∈ (s.loops h.loop).timerWheel.timers
  | _ => False

/-! ### The same timers -/

/-- The same connections with the same timers. -/
structure SameTimers (s u : Server) : Prop where
  config : u.config = s.config
  hosted : ∀ id : ℕ, (u.hosted[id]?).map (fun h => (h.conn, h.loop)) =
    (s.hosted[id]?).map fun h => (h.conn, h.loop)
  timers : ∀ (loop : ℕ) (fd : ℤ),
    fd ∈ (u.loops loop).timerWheel.timers ↔ fd ∈ (s.loops loop).timerWheel.timers

lemma SameTimers.exists {u : Server} (h : s.SameTimers u) {h' : Hosted}
    (hid : u.hosted[id]? = some h') :
    ∃ h, s.hosted[id]? = some h ∧ h.conn = h'.conn ∧ h.loop = h'.loop := by
  have hsame := (h.hosted id).symm
  rw [hid, Option.map_some, Option.map_eq_some_iff] at hsame
  obtain ⟨h₀, hid₀, hpair⟩ := hsame
  exact ⟨h₀, hid₀, congrArg Prod.fst hpair, congrArg Prod.snd hpair⟩

lemma SameTimers.symm {u : Server} (h : s.SameTimers u) : u.SameTimers s :=
  ⟨h.config.symm, fun id => (h.hosted id).symm, fun loop fd => (h.timers loop fd).symm⟩

lemma SameTimers.modest {u : Server} (h : s.SameTimers u) (hs : s.Modest) : u.Modest where
  keepAliveTimeout := by
    rw [h.config]
    exact hs.keepAliveTimeout
  plain := by
    intro id h' hid
    obtain ⟨h₀, hid₀, hconn, -⟩ := h.exists hid
    exact hconn ▸ hs.plain id h₀ hid₀
  keyed := by
    intro loop fd hmem
    obtain ⟨id, h₀, hid₀, hloop, hfd, hopen⟩ := hs.keyed loop fd ((h.timers loop fd).mp hmem)
    obtain ⟨h', hid, hconn, hloop'⟩ := h.symm.exists hid₀
    exact ⟨id, h', hid, hloop'.trans hloop, by rw [hconn, hfd], by rwa [hconn]⟩

lemma SameTimers.booked {u : Server} (h : s.SameTimers u) (hs : s.Booked) : u.Booked := by
  intro id h' hid hopen
  obtain ⟨h₀, hid₀, hconn, hloop⟩ := h.exists hid
  have hopen₀ : h₀.conn.state ≠ .kClosed := hconn ▸ hopen
  change h'.conn.hasActiveTimeout = true ↔ h'.conn.fd ∈ (u.loops h'.loop).timerWheel.timers
  rw [h.timers, ← hconn, ← hloop]
  exact hs id h₀ hid₀ hopen₀

lemma sameTimers_withWheel {loop : ℕ} {wheel : TimerWheel TimerCallback}
    (h : ∀ fd, fd ∈ wheel.timers ↔ fd ∈ (s.loops loop).timerWheel.timers) :
    s.SameTimers (s.withWheel loop wheel) where
  config := rfl
  hosted := fun _ => rfl
  timers := by
    intro loop' fd
    by_cases hsame : loop' = loop
    · subst hsame
      rw [timerWheel_withWheel]
      exact h fd
    · rw [loops_withWheel_of_ne hsame]

lemma sameTimers_removeEvent (s : Server) (loop : ℕ) (fd : ℤ) :
    s.SameTimers (s.removeEvent loop fd) where
  config := rfl
  hosted := fun _ => rfl
  timers := by
    intro loop' fd'
    rw [timerWheel_removeEvent]

/-- A connection that is closed before it is established gets no timer. -/
lemma sameTimers_establish (hhost : s.hosted[id]? = some host)
    (hclosed : host.conn.state = .kClosed) : s.SameTimers (s.establish id host) := by
  have hsession := Session.connectEstablished_of_closed (s := s.session host) hclosed
  constructor
  · rfl
  · intro id'
    rw [establish, hosted_keep hhost, hsession]
    split_ifs with hid
    · subst hid
      rw [hhost]
      rfl
    · rfl
  · intro loop fd
    by_cases hsame : loop = host.loop
    · subst hsame
      have hloop : (s.establish id host).loops host.loop =
          (s.session host).connectEstablished.loop := Function.update_self ..
      rw [hloop, hsession]
      rfl
    · have hloop : (s.establish id host).loops loop = s.loops loop :=
        Function.update_of_ne hsame _ _
      rw [hloop]

/-! ### One connection among others -/

/-- What a function of one connection does to the timers of its loop. -/
structure KeepsTimers (s : Server) (host : Hosted) (t : Session) : Prop where
  fd : t.conn.fd = host.conn.fd
  others : ∀ fd, fd ≠ host.conn.fd →
    (fd ∈ t.loop.timerWheel.timers ↔ fd ∈ (s.loops host.loop).timerWheel.timers)
  left : t.conn.state = .kClosed → host.conn.fd ∉ t.loop.timerWheel.timers

lemma modest_keep (h : s.Modest) (hhost : s.hosted[id]? = some host)
    (hkeeps : s.KeepsTimers host t) (hloop : host'.loop = host.loop) (hplain : t.conn.Plain) :
    (s.keep id host' t).Modest where
  keepAliveTimeout := h.keepAliveTimeout
  plain := by
    intro id' h' hid'
    rw [hosted_keep hhost] at hid'
    split_ifs at hid'
    · cases hid'
      exact hplain
    · exact h.plain id' h' hid'
  keyed := by
    intro loop fd hmem
    have hother : fd ∈ (s.loops loop).timerWheel.timers → (loop = host.loop → fd ≠ host.conn.fd) →
        ∃ (id' : ℕ) (h : Hosted), (s.keep id host' t).hosted[id']? = some h ∧ h.loop = loop ∧
          h.conn.fd = fd ∧ h.conn.state ≠ .kClosed := by
      intro hbefore hne
      obtain ⟨id', h', hid', rfl, rfl, hopen⟩ := h.keyed loop fd hbefore
      refine ⟨id', h', ?_, rfl, rfl, hopen⟩
      rw [hosted_keep hhost, if_neg]
      · exact hid'
      · rintro rfl
        cases hhost.symm.trans hid'
        exact hne rfl rfl
    by_cases hsame : loop = host.loop
    · subst hsame
      rw [← hloop, loops_keep] at hmem
      by_cases hfd : fd = host.conn.fd
      · subst hfd
        refine ⟨id, { host' with conn := t.conn }, ?_, hloop, hkeeps.fd, fun hclosed => ?_⟩
        · rw [hosted_keep hhost, if_pos rfl]
        · exact hkeeps.left hclosed hmem
      · exact hother ((hkeeps.others fd hfd).mp hmem) fun _ => hfd
    · rw [loops_keep_of_ne (hloop ▸ hsame)] at hmem
      exact hother hmem fun heq => absurd heq hsame

/-- Only the connection whose function ran can have come to wrong flags. -/
lemma booked_keep_iff (hs : s.Inv) (h : s.Booked) (hhost : s.hosted[id]? = some host)
    (hopen : host.conn.state ≠ .kClosed) (hkeeps : s.KeepsTimers host t)
    (hloop : host'.loop = host.loop) : (s.keep id host' t).Booked ↔ t.Booked := by
  have hself : (s.keep id host' t).hosted[id]? = some { host' with conn := t.conn } := by
    rw [hosted_keep hhost, if_pos rfl]
  have hsession : ((s.keep id host' t).session { host' with conn := t.conn }).Booked ↔ t.Booked := by
    change (t.conn.state ≠ .kClosed → (t.conn.hasActiveTimeout = true ↔
      t.conn.fd ∈ ((s.keep id host' t).loops host'.loop).timerWheel.timers)) ↔ _
    rw [loops_keep]
    rfl
  constructor
  · intro hall
    exact hsession.mp (hall id _ hself)
  · intro ht id' h' hid'
    rw [hosted_keep hhost] at hid'
    split_ifs at hid' with hid
    · cases hid'
      exact hsession.mpr ht
    · intro hopen'
      have hbefore := h id' h' hid' hopen'
      change h'.conn.hasActiveTimeout = true ↔
        h'.conn.fd ∈ ((s.keep id host' t).loops h'.loop).timerWheel.timers
      by_cases hsame : h'.loop = host.loop
      · have hne : h'.conn.fd ≠ host.conn.fd := fun hfd =>
          hid (hs.apart id id' host h' hhost hid' hopen hopen' hfd.symm)
        rw [hsame, ← hloop, loops_keep, hkeeps.others _ hne, ← hsame]
        exact hbefore
      · rw [loops_keep_of_ne (hloop ▸ hsame)]
        exact hbefore

lemma keepsTimers_acts {sets : ℤ → TimeoutType → Prop} {late : Prop} (hs : s.Inv) (hfree : s.Free)
    (hhost : s.hosted[id]? = some host) (hopen : host.conn.state ≠ .kClosed)
    (hacts : Session.Acts sets late (s.session host) t) : s.KeepsTimers host t := by
  have hready := hs.ready hfree hhost hopen
  have hfd : t.conn.fd = host.conn.fd := hacts.serves.fd
  refine ⟨hfd, fun fd hne => ?_, fun hclosed => ?_⟩
  · exact (hacts.agree hready (s := s.session host) hne.symm).timers
  · rw [← hfd]
    exact (hacts.left hready (fun hclosed => absurd hclosed hopen) hclosed).1

/-! ### The moves -/

lemma modest_accept (h : s.Modest) (fd : ℤ) (loop : ℕ) : (s.accept fd loop).Modest where
  keepAliveTimeout := h.keepAliveTimeout
  plain := by
    intro id host hid
    rcases hosted_accept hid with hold | ⟨-, rfl⟩
    · exact h.plain id host hold
    · exact ⟨rfl, rfl, by simp [accepted, Connection.new], by simp [accepted, Connection.new],
        h.keepAliveTimeout⟩
  keyed := by
    intro loop' fd' hmem
    obtain ⟨id, host, hid, hhost⟩ := h.keyed loop' fd' hmem
    exact ⟨id, host, hosted_accept_of_some hid fd loop, hhost⟩

lemma booked_accept (h : s.Modest) (hs : s.Booked) {fd : ℤ}
    (hunused : s.hosted.all (fun h => h.released || h.conn.fd ≠ fd)) (loop : ℕ) :
    (s.accept fd loop).Booked := by
  intro id host hid
  rcases hosted_accept hid with hold | ⟨-, rfl⟩
  · exact hs id host hold
  · intro _
    refine iff_of_false (by simp [session, accepted, Connection.new, Connection.hasActiveTimeout])
      fun hmem => ?_
    obtain ⟨id', host', hid', -, hfd, hopen⟩ := h.keyed loop fd hmem
    exact fd_ne_of_unused hunused hid' hopen hfd

lemma modest_establish (hinv : s.Inv) (hfree : s.Free) (h : s.Modest)
    (hhost : s.hosted[id]? = some host) (hwaiting : host.established = false) :
    (s.establish id host).Modest := by
  rcases (hinv.hosts id host hhost).waiting hwaiting with hconnecting | hclosed
  · have hopen : host.conn.state ≠ .kClosed := by simp [hconnecting]
    have hacts : Session.Acts Session.Short True (s.session host) _ :=
      Session.acts_connectEstablished hconnecting
    have hkeeps := keepsTimers_acts hinv hfree hhost hopen hacts
    have hloop : ({ host with established := true } : Hosted).loop = host.loop := rfl
    exact modest_keep h hhost hkeeps hloop
      (hacts.plain (hinv.hosts id host hhost).fd_nonneg (h.plain id host hhost))
  · exact (sameTimers_establish hhost hclosed).modest h

lemma booked_establish (hinv : s.Inv) (hfree : s.Free) (h : s.Modest) (hs : s.Booked)
    (hhost : s.hosted[id]? = some host) (hwaiting : host.established = false) :
    (s.establish id host).Booked := by
  rcases (hinv.hosts id host hhost).waiting hwaiting with hconnecting | hclosed
  · have hopen : host.conn.state ≠ .kClosed := by simp [hconnecting]
    have hacts : Session.Acts Session.Apart True (s.session host) _ :=
      Session.acts_connectEstablished hconnecting
    have hkeeps := keepsTimers_acts hinv hfree hhost hopen hacts
    have hloop : ({ host with established := true } : Hosted).loop = host.loop := rfl
    exact (booked_keep_iff hinv hs hhost hopen hkeeps hloop).mpr
      (hacts.booked (hinv.ready hfree hhost hopen) (h.plain id host hhost) (hs id host hhost))
  · exact (sameTimers_establish hhost hclosed).booked hs

/-- The session behind an expired timer, with the wheel as the tick then leaves it. -/
def expired (s : Server) (host : Hosted) (timeoutType : TimeoutType)
    (wheel : TimerWheel TimerCallback) : Session :=
  let t := (s.session host).onTimeout timeoutType
  { t with loop := { t.loop with timerWheel := wheel } }

section expired

variable {timeoutType : TimeoutType} {wheel : TimerWheel TimerCallback}

lemma keep_expired : (s.keep id host ((s.session host).onTimeout timeoutType)).withWheel host.loop
    wheel = s.keep id host (s.expired host timeoutType wheel) := by
  simp [keep, withWheel, expired]

lemma state_expired : (s.expired host timeoutType wheel).conn.state = .kClosed :=
  Session.state_onTimeout _ timeoutType

lemma keepsTimers_expired (hvacant : wheel.Vacant host.conn.fd)
    (htimers : ∀ fd, fd ≠ host.conn.fd →
      (fd ∈ wheel.timers ↔ fd ∈ (s.loops host.loop).timerWheel.timers)) :
    s.KeepsTimers host (s.expired host timeoutType wheel) := by
  have hact : Session.Act Session.Short True (s.session host)
      ((s.session host).onTimeout timeoutType) := .expire timeoutType
  exact ⟨hact.serves.fd, htimers, fun _ => hvacant.1⟩

lemma plain_expired (hfd : 0 ≤ host.conn.fd) (hplain : host.conn.Plain) :
    (s.expired host timeoutType wheel).conn.Plain := by
  have hact : Session.Act Session.Short True (s.session host)
      ((s.session host).onTimeout timeoutType) := .expire timeoutType
  exact hact.plain hfd hplain

end expired

lemma modest_tick (hinv : s.Inv) (hfree : s.Free) (h : s.Modest) (loop : ℕ) :
    (s.tick loop).Modest := by
  have hwheel : KeptByWheel loop Modest :=
    fun u wheel _ _ htimers hu => (sameTimers_withWheel htimers).modest hu
  have hexpire : KeptByExpiry loop Modest := by
    rintro u id host timeoutType wheel hu hhost rfl _ hvacant htimers hmodest
    rw [keep_expired]
    exact modest_keep hmodest hhost (keepsTimers_expired hvacant htimers) rfl
      (plain_expired (hu.hosts id host hhost).fd_nonneg (hmodest.plain id host hhost))
  exact (tick_induction hwheel hexpire hinv hfree h).1

lemma booked_tick (hinv : s.Inv) (hfree : s.Free) (hs : s.Booked) (loop : ℕ) :
    (s.tick loop).Booked := by
  have hwheel : KeptByWheel loop Booked :=
    fun u wheel _ _ htimers hu => (sameTimers_withWheel htimers).booked hu
  have hexpire : KeptByExpiry loop Booked := by
    rintro u id host timeoutType wheel hu hhost rfl hopen hvacant htimers hbooked
    rw [keep_expired, booked_keep_iff hu hbooked hhost hopen
      (keepsTimers_expired hvacant htimers) rfl]
    exact fun hstill => absurd state_expired hstill
  exact (tick_induction hwheel hexpire hinv hfree hs).1

/-- A function that switches off a read or write timeout does nothing else. -/
lemma operate_of_switchesOff {op : ConnOp} (h : SwitchesOff op) (s : Session) :
    ∃ seconds timeoutType, seconds ≤ 0 ∧ timeoutType ≠ .idle ∧
      s.operate op = s.setTimeout seconds timeoutType := by
  cases op with
  | setReadTimeout seconds => exact ⟨seconds, .read, h, by simp, rfl⟩
  | setWriteTimeout seconds => exact ⟨seconds, .write, h, by simp, rfl⟩
  | _ => exact h.elim

lemma permits_short {s : Session} (hopen : s.conn.state ≠ .kClosed) {handler : Handler} {id : ℕ}
    (h : SetsShort (.handle id handler)) : Permits Session.Short True s handler := by
  cases handler with
  | read reads => exact fun _ => .inl trivial
  | write => trivial
  | operate op =>
    cases op with
    | setReadTimeout seconds => exact h
    | setWriteTimeout seconds => exact h
    | setIdleTimeout seconds => exact h
    | resetIdleTimeout => exact hopen
    | clearReadBuffer => exact .inl trivial
    | _ => trivial

lemma permits_apart {s : Session} (hopen : s.conn.state ≠ .kClosed) {handler : Handler} {id : ℕ}
    (h : SetsShort (.handle id handler)) (hoff : ∀ op, handler = .operate op → ¬ SwitchesOff op) :
    Permits Session.Apart True s handler := by
  cases handler with
  | read reads => exact fun _ => .inl trivial
  | write => trivial
  | operate op =>
    have hon := hoff op rfl
    cases op with
    | setReadTimeout seconds => exact ⟨h, .inl (not_le.mp hon)⟩
    | setWriteTimeout seconds => exact ⟨h, .inl (not_le.mp hon)⟩
    | setIdleTimeout seconds => exact ⟨h, .inr rfl⟩
    | resetIdleTimeout => exact hopen
    | clearReadBuffer => exact .inl trivial
    | _ => trivial

variable (env : ServerEnv)

lemma modest_handle (hinv : s.Inv) (hfree : s.Free) (h : s.Modest)
    (hhost : s.hosted[id]? = some host) (hopen : host.conn.state ≠ .kClosed) {handler : Handler}
    (hshort : SetsShort (.handle id handler)) :
    s.KeepsTimers host (handler.run env (s.session host)) ∧
      (s.keep id host (handler.run env (s.session host))).Modest := by
  have hacts := acts_run env (s := s.session host) hopen (permits_short hopen hshort)
  have hkeeps := keepsTimers_acts hinv hfree hhost hopen hacts
  have hplain := hacts.plain (hinv.hosts id host hhost).fd_nonneg (h.plain id host hhost)
  exact ⟨hkeeps, modest_keep h hhost hkeeps rfl hplain⟩

lemma booked_handle_iff (hinv : s.Inv) (hfree : s.Free) (h : s.Modest) (hs : s.Booked)
    (hhost : s.hosted[id]? = some host) (hopen : host.conn.state ≠ .kClosed) {handler : Handler}
    (hshort : SetsShort (.handle id handler)) :
    (s.keep id host (handler.run env (s.session host))).Booked ↔
      ¬ s.DropsTimer (.handle id handler) := by
  obtain ⟨hkeeps, -⟩ := modest_handle env hinv hfree h hhost hopen hshort
  have hready := hinv.ready hfree hhost hopen
  have hplain := h.plain id host hhost
  rw [booked_keep_iff hinv hs hhost hopen hkeeps rfl]
  by_cases hoff : ∃ op, handler = .operate op ∧ SwitchesOff op
  · obtain ⟨op, rfl, hoff⟩ := hoff
    obtain ⟨seconds, timeoutType, hzero, hkind, heq⟩ := operate_of_switchesOff hoff (s.session host)
    rw [Handler.run, heq,
      Session.booked_switchOff_iff hready hplain (hs id host hhost) hopen hzero hkind]
    simp only [DropsTimer, hoff, true_and, hhost, Option.some.injEq, exists_eq_left']
    rfl
  · have hon : ∀ op, handler = .operate op → ¬ SwitchesOff op :=
      fun op heq hop => hoff ⟨op, heq, hop⟩
    have hacts := acts_run env (s := s.session host) hopen (permits_apart hopen hshort hon)
    refine iff_of_true (hacts.booked hready hplain (hs id host hhost)) ?_
    cases handler with
    | read reads => exact not_false
    | write => exact not_false
    | operate op => exact fun hdrops => hon op rfl hdrops.1

lemma modest_step {t : Server} {m : Move} (hshort : SetsShort m)
    (hs : (s.Inv ∧ s.Free) ∧ s.Modest) (hstep : s.step env m = some t) :
    (t.Inv ∧ t.Free) ∧ t.Modest := by
  obtain ⟨⟨hinv, hfree⟩, h⟩ := hs
  refine ⟨inv_step env ⟨hinv, hfree⟩ hstep, ?_⟩
  cases stepped_of_step env hstep with
  | accept => exact modest_accept h _ _
  | establish hhost hwaiting => exact modest_establish hinv hfree h hhost hwaiting
  | handle hhost hkept =>
    exact (modest_handle env hinv hfree h hhost (hinv.open_of_kept hhost hkept) hshort).2
  | error => exact (sameTimers_removeEvent s _ _).modest h
  | tick => exact modest_tick hinv hfree h _

/-- A step puts the flags wrong if and only if it switches off a read or write timeout of a
connection that has a timer. -/
lemma booked_step_iff {t : Server} {m : Move} (hshort : SetsShort m)
    (hI : (s.Inv ∧ s.Free) ∧ s.Modest) (hs : s.Booked) (hstep : s.step env m = some t) :
    t.Booked ↔ ¬ s.DropsTimer m := by
  obtain ⟨⟨hinv, hfree⟩, h⟩ := hI
  cases stepped_of_step env hstep with
  | accept _ hunused => exact iff_of_true (booked_accept h hs hunused _) not_false
  | establish hhost hwaiting =>
    exact iff_of_true (booked_establish hinv hfree h hs hhost hwaiting) not_false
  | handle hhost hkept =>
    exact booked_handle_iff env hinv hfree h hs hhost (hinv.open_of_kept hhost hkept) hshort
  | error => exact iff_of_true ((sameTimers_removeEvent s _ _).booked hs) not_false
  | tick => exact iff_of_true (booked_tick hinv hfree hs _) not_false

lemma modest_new {config : Option LimitsOptions}
    (hconfig : ∀ limits, config = some limits →
      limits.connectionTimeout ≤ 600 ∧ limits.keepAliveTimeout ≤ 600) (kernel : ℕ → WriteOutcome) :
    (new config kernel).Modest where
  keepAliveTimeout := by
    cases config with
    | none => simp [new]
    | some limits => exact (hconfig limits rfl).2
  plain := by simp [new]
  keyed := by simp [new, EventLoop.new, TimerWheel.new]

/-- The flags tell in every state of a run which connections have a timer if and only if no read or
write timeout is ever switched off for a connection that has one. -/
theorem booked_iff {config : Option LimitsOptions} {kernel : ℕ → WriteOutcome} {ms : List Move}
    {t : Server} (hconfig : ∀ limits, config = some limits →
      limits.connectionTimeout ≤ 600 ∧ limits.keepAliveTimeout ≤ 600)
    (hms : ∀ m ∈ ms, SetsShort m) (hrun : Runs.run (step env) (new config kernel) ms = some t) :
    (∀ ms' u, ms' <+: ms → Runs.run (step env) (new config kernel) ms' = some u → u.Booked) ↔
      ∀ ms' m u, ms' ++ [m] <+: ms → Runs.run (step env) (new config kernel) ms' = some u →
        ¬ u.DropsTimer m :=
  Runs.forall_run_iff_of (step env) (fun _ _ _ => modest_step env)
    (fun _ _ _ => booked_step_iff env)
    ⟨⟨inv_new config kernel, free_new config kernel⟩, modest_new hconfig kernel⟩
    (by simp [Booked, new]) hms hrun

/-- Ten seconds for the idle timeout of a connection, a send, and a tick. -/
theorem booked_iff_idle :
    ∃ t, Runs.run (step Session.onePageSite) (new none fun _ => .accepted 0)
        (greeting ++ [Move.handle 0 (.operate (.setIdleTimeout 10)),
          .handle 0 (.operate (.send [72, 105])), .tick 0]) = some t ∧
      ∀ ms' u, ms' <+: greeting ++ [Move.handle 0 (.operate (.setIdleTimeout 10)),
          .handle 0 (.operate (.send [72, 105])), .tick 0] →
        Runs.run (step Session.onePageSite) (new none fun _ => .accepted 0) ms' = some u →
          u.Booked := by
  have hrun : (Runs.run (step Session.onePageSite) (new none fun _ => .accepted 0)
      (greeting ++ [Move.handle 0 (.operate (.setIdleTimeout 10)),
        .handle 0 (.operate (.send [72, 105])), .tick 0])).isSome = true := by decide +kernel
  obtain ⟨t, ht⟩ := Option.isSome_iff_exists.mp hrun
  have hms : ∀ m ∈ greeting ++ [Move.handle 0 (.operate (.setIdleTimeout 10)),
      .handle 0 (.operate (.send [72, 105])), .tick 0], SetsShort m := by
    simp [greeting, SetsShort]
  have hbooked := booked_iff Session.onePageSite (by simp) hms ht
  refine ⟨t, ht, hbooked.mpr ?_⟩
  intro ms' m u hbegins _
  have hmem := Runs.mem_of_snoc_isPrefix hbegins
  simp only [greeting, List.cons_append, List.nil_append, List.mem_cons, List.not_mem_nil,
    or_false] at hmem
  rcases hmem with rfl | rfl | rfl | rfl | rfl <;> simp [DropsTimer, SwitchesOff]

/-- The read timeout of a connection is switched off while its idle timeout runs. -/
theorem not_booked_readTimeout :
    ¬ ∀ (env : ServerEnv) (config : Option LimitsOptions) (kernel : ℕ → WriteOutcome)
      (ms : List Move) (t : Server), (∀ limits, config = some limits →
        limits.connectionTimeout ≤ 600 ∧ limits.keepAliveTimeout ≤ 600) →
      (∀ m ∈ ms, SetsShort m) → Runs.run (step env) (new config kernel) ms = some t →
        t.Booked := by
  intro hall
  have hrun : (Runs.run (step Session.onePageSite) (new none fun _ => .again)
      (greeting ++ [Move.handle 0 (.operate (.setIdleTimeout 10)),
        .handle 0 (.operate (.setReadTimeout 0))])).any (fun t => (t.hosted[0]?).any fun h =>
          h.conn.state ≠ .kClosed ∧ h.conn.hasActiveTimeout ∧
            h.conn.fd ∉ (t.loops h.loop).timerWheel.timers) = true := by decide +kernel
  obtain ⟨t, ht, hstate⟩ := (Option.any_eq_true _ _).mp hrun
  obtain ⟨h, hh, hstate⟩ := (Option.any_eq_true _ _).mp hstate
  obtain ⟨hopen, hactive, hnone⟩ := of_decide_eq_true hstate
  have hbooked := hall _ _ _ _ t (by simp) (by simp [greeting, SetsShort]) ht 0 h hh hopen
  exact hnone (hbooked.mp hactive)

end Server

end TinyWebServer
