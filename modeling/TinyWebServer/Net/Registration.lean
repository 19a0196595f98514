import TinyWebServer.Http.Chunking
import TinyWebServer.Net.ReadLoop
import TinyWebServer.Net.ServerInvariant

/-!
# Registered descriptors

A connection is registered with its loop from its establishment to its end. A read event that ends
the connection while the input buffer is over its limit registers it again, and the error callback
of the dispatch takes the registration of a connection that lives on.
-/

namespace TinyWebServer

namespace Session

/-! ### Closed connections -/

/-- A closed connection is not registered. -/
def Cleared (s : Session) : Prop :=
  s.conn.state = .kClosed → s.loop.registeredFds s.conn.fd = none

lemma TimersOnly.cleared {s t : Session} (h : TimersOnly s t) (hs : s.Cleared) : t.Cleared := by
  obtain ⟨_, _, _, _, rfl⟩ := h
  exact hs

lemma TimeoutsOnly.cleared {s t : Session} (h : TimeoutsOnly s t) (hs : s.Cleared) : t.Cleared := by
  obtain ⟨read, write, idle, htimers⟩ := h
  exact htimers.cleared (s := s.withSeconds read write idle) hs

lemma cleared_handleClose (s : Session) : s.handleClose.Cleared := by
  obtain ⟨wheel, read, write, idle, heq⟩ := handleClose_eq s
  intro _
  rw [heq]
  exact Function.update_self ..

lemma Act.cleared {sets : ℤ → TimeoutType → Prop} {s t : Session} (h : Act sets False s t)
    (hs : s.Cleared) : t.Cleared := by
  cases h with
  | activity _ => exact (timersOnly_updateActivityTimestamp s).cleared hs
  | setTimeout seconds timeoutType _ =>
    exact (timeoutsOnly_setTimeout s seconds timeoutType).cleared hs
  | disable => exact (timeoutsOnly_disableAllTimeouts s).cleared hs
  | enter newState _ hnew =>
    intro hclosed
    exact absurd hclosed (enterState_open s hnew)
  | close => exact cleared_handleClose s
  | expire timeoutType =>
    rw [onTimeout_eq]
    exact cleared_handleClose _
  | callbacks => exact hs
  | interest events hopen =>
    intro hclosed
    rcases hopen with hlate | hopen
    · exact hlate.elim
    · exact absurd hclosed hopen
  | note event _ => exact hs
  | buffers => exact hs
  | shared => exact hs

lemma Acts.cleared {sets : ℤ → TimeoutType → Prop} {s t : Session} (h : Acts sets False s t)
    (hs : s.Cleared) : t.Cleared :=
  h.induction (fun _ _ hact hs => hact.cleared hs) hs

/-! ### Read events -/

/-- The read loop ends the connection with the buffer over its limit. -/
def EndsFull (s : Session) (reads : List ReadResult) : Prop :=
  ReadResult.ends reads = true ∧ s.Overfills reads

/-- A closed connection takes no part in what the callback does. -/
lemma handleRead_of_ends (env : ServerEnv) {s : Session} {reads : List ReadResult}
    (hends : ReadResult.ends reads = true) :
    Rests (s.filled reads) (s.handleRead (some (onMessage env)) reads) := by
  have hstate := (readsAll_readAll s reads).state
  rw [hends, if_pos rfl] at hstate
  have hclosed : ¬ (s.filled reads).conn.isConnected := by
    apply not_isConnected_of_queues (filled_queues s reads)
    exact fun hconn => hconn.1 hstate
  rw [handleRead_some]
  split_ifs
  · exact Rests.refl _
  · exact onMessage_of_not_isConnected env hclosed

/-- A read event of an open connection leaves a closed connection registered in one case. -/
lemma cleared_handleRead_iff (env : ServerEnv) {s : Session} (hopen : s.conn.state ≠ .kClosed)
    (reads : List ReadResult) :
    (s.handleRead (some (onMessage env)) reads).Cleared ↔ ¬ s.EndsFull reads := by
  have hopened : s.Cleared := fun hclosed => absurd hclosed hopen
  have hread := readsAll_readAll s reads
  by_cases hends : ReadResult.ends reads = true
  · have hrests := handleRead_of_ends env (s := s) hends
    have hclosed : (s.handleRead (some (onMessage env)) reads).conn.state = .kClosed := by
      rw [hrests.queues.state, (filled_queues s reads).state, hread.state, hends, if_pos rfl]
    have hcleared : (s.handleRead (some (onMessage env)) reads).Cleared ↔
        (s.filled reads).loop.registeredFds (s.filled reads).conn.fd = none := by
      rw [Cleared, hrests.loop, hrests.fd]
      exact ⟨fun h => h hclosed, fun h _ => h⟩
    rw [hcleared, EndsFull]
    by_cases hfull : s.Overfills reads
    · rw [filled_of_overfills hfull]
      simp [hends, hfull, pauseReading, updateEvent, EventLoop.updateEvent]
    · have hacts : Acts (fun _ _ => True) False s (s.readAll reads) := acts_readAll hopen reads
      rw [filled_of_not_overfills hfull]
      simp only [hends, hfull, and_false, not_false_iff, iff_true]
      apply hacts.cleared hopened
      rw [hread.state, hends, if_pos rfl]
  · have hstill : (s.readAll reads).conn.state ≠ .kClosed := by
      rwa [hread.state, if_neg hends]
    have hacts : Acts (fun _ _ => True) False s (s.handleRead (some (onMessage env)) reads) :=
      acts_handleRead env hopen reads fun _ => .inr hstill
    exact iff_of_true (hacts.cleared hopened) fun hfull => hends hfull.1

/-- An open connection loses its registration with its close callback only. -/
lemma Serves.stillRegistered {s t : Session} (h : Serves s t)
    (hcallback : s.conn.hasCloseCallback = true) (hopen : s.conn.state ≠ .kClosed)
    (hregistered : s.loop.registeredFds s.conn.fd ≠ none) (hquiet : .closed s.conn.fd ∉ t.trace) :
    t.loop.registeredFds s.conn.fd ≠ none := by
  obtain ⟨events, htrace, -, hcalled⟩ := h.trace
  refine h.registered hregistered fun hclosed => hquiet ?_
  rw [htrace]
  exact List.mem_append_right _ ((hcalled hcallback hopen).mpr hclosed)

lemma registered_connectEstablished (s : Session) :
    s.connectEstablished.loop.registeredFds s.connectEstablished.conn.fd ≠ none := by
  simp [connectEstablished, updateEvent, EventLoop.updateEvent]

lemma registeredFds_onTimeout (s : Session) (timeoutType : TimeoutType) :
    (s.onTimeout timeoutType).loop.registeredFds =
      Function.update s.loop.registeredFds s.conn.fd none := by
  obtain ⟨wheel, read, write, idle, heq⟩ :=
    handleClose_eq { s with conn := s.conn.setTimeoutActive false timeoutType }
  rw [onTimeout_eq, heq]
  cases timeoutType <;> rfl

end Session

namespace Server

variable {s : Server} {id : ℕ} {host host' : Hosted} {t : Session}

/-! ### Nothing stays registered -/

/-- Whatever the step has closed is not registered any more. -/
def Unregisters (s t : Server) : Prop :=
  ∀ (id : ℕ) (h h' : Hosted), s.hosted[id]? = some h → t.hosted[id]? = some h' →
    h.conn.state ≠ .kClosed → h'.conn.state = .kClosed →
      (t.loops h.loop).registeredFds h.conn.fd = none

/-- The move is a read event that ends its connection with the buffer over the limit. -/
def EndsFull (s : Server) : Move → Prop
  | .handle id (.read reads) => ∃ h, s.hosted[id]? = some h ∧ (s.session h).EndsFull reads
  | _ => False

/-- The objects are the same, and none of them has changed its state. -/
lemma unregisters_of_hosted {u : Server}
    (h : ∀ (id : ℕ) (h : Hosted), u.hosted[id]? = some h →
      s.hosted[id]? = some h ∨ s.hosted[id]? = none) :
    Unregisters s u := by
  intro id h₀ h' hid hid' hopen hclosed
  rcases h id h' hid' with hsame | hnone
  · cases hid.symm.trans hsame
    exact absurd hclosed hopen
  · cases hid.symm.trans hnone

lemma unregisters_keep_iff (hhost : s.hosted[id]? = some host) (hfd : t.conn.fd = host.conn.fd)
    (hloop : host'.loop = host.loop) :
    Unregisters s (s.keep id host' t) ↔ (host.conn.state ≠ .kClosed → t.Cleared) := by
  have hloops : (s.keep id host' t).loops host.loop = t.loop := by
    rw [← hloop, loops_keep]
  constructor
  · intro h hopen hclosed
    have hnew : (s.keep id host' t).hosted[id]? = some { host' with conn := t.conn } := by
      rw [hosted_keep hhost, if_pos rfl]
    rw [hfd, ← hloops]
    exact h id host _ hhost hnew hopen hclosed
  · intro h id' h₀ h' hid hid' hopen hclosed
    rw [hosted_keep hhost] at hid'
    split_ifs at hid' with hsame
    · subst hsame
      cases hhost.symm.trans hid
      cases hid'
      rw [hloops, ← hfd]
      exact h hopen hclosed
    · cases hid.symm.trans hid'
      exact absurd hclosed hopen

/-- Expired connections lose their registration, and nothing is registered in a tick. -/
lemma unregisters_tick (hs : s.Inv) (hfree : s.Free) (loop : ℕ) : Unregisters s (s.tick loop) := by
  let R : Server → Prop := fun u => Unregisters s u ∧
    ∀ (id : ℕ) (h' : Hosted), u.hosted[id]? = some h' → ∃ h, s.hosted[id]? = some h ∧ Stems h h'
  have hwheel : KeptByWheel loop R := by
    rintro u wheel - - - ⟨hclears, hstems⟩
    refine ⟨fun id h h' hid hid' hopen hclosed => ?_, hstems⟩
    rw [registeredFds_withWheel]
    exact hclears id h h' hid hid' hopen hclosed
  have hexpire : KeptByExpiry loop R := by
    rintro u id host timeoutType wheel - hhost - - - - ⟨hclears, hstems⟩
    have hact : Session.Act (fun _ _ => True) False (u.session host)
        ((u.session host).onTimeout timeoutType) := .expire _
    have hnone := Session.registeredFds_onTimeout (u.session host) timeoutType
    refine ⟨fun id' h h' hid hid' hopen hclosed => ?_, fun id' h' hid' => ?_⟩
    · rw [registeredFds_withWheel]
      change (u.keep id host _).hosted[id']? = some h' at hid'
      rw [hosted_keep hhost] at hid'
      split_ifs at hid' with hsame
      · subst hsame
        obtain ⟨h₀, hid₀, hstem⟩ := hstems id host hhost
        cases hid.symm.trans hid₀
        rw [← hstem.loop, loops_keep, hnone, ← hstem.fd]
        exact Function.update_self ..
      · have hbefore := hclears id' h h' hid hid' hopen hclosed
        by_cases hloop : h.loop = host.loop
        · rw [hloop] at hbefore
          rw [hloop, loops_keep, hnone, Function.update_apply]
          split_ifs
          · rfl
          · exact hbefore
        · rw [loops_keep_of_ne hloop]
          exact hbefore
    · obtain ⟨h, hid, hstem⟩ := stems_keep hhost hact.serves rfl hid'
      obtain ⟨h₀, hid₀, hstem₀⟩ := hstems id' h hid
      exact ⟨h₀, hid₀, hstem₀.trans hstem⟩
  have hstart : R s := ⟨unregisters_of_hosted fun id h hid => .inl hid, fun id h hid =>
    ⟨h, hid, Stems.refl h⟩⟩
  exact (tick_induction hwheel hexpire hs hfree hstart).1.1

lemma unregisters_accept (fd : ℤ) (loop : ℕ) : Unregisters s (s.accept fd loop) := by
  apply unregisters_of_hosted
  intro id h hid
  rcases hosted_accept hid with hold | ⟨rfl, -⟩
  · exact .inl hold
  · exact .inr (List.getElem?_eq_none (le_refl _))

lemma unregisters_establish (hs : s.Inv) (hhost : s.hosted[id]? = some host)
    (hwaiting : host.established = false) : Unregisters s (s.establish id host) := by
  have hstate := (hs.hosts id host hhost).waiting hwaiting
  by_cases hconnecting : host.conn.state = .kConnecting
  · have hacts : Session.Acts (fun _ _ => True) False (s.session host) _ :=
      Session.acts_connectEstablished hconnecting
    rw [establish, unregisters_keep_iff hhost hacts.serves.fd (by rfl)]
    exact fun hopen => hacts.cleared fun hclosed => absurd hclosed hopen
  · have hclosed := hstate.resolve_left hconnecting
    have hacts : Session.Acts (fun _ _ => True) True (s.session host) _ :=
      Session.acts_connectEstablished_of_closed hclosed trivial
    rw [establish, unregisters_keep_iff hhost hacts.serves.fd (by rfl)]
    exact fun hopen => absurd hclosed hopen

lemma permits_of_open {s : Session} (hopen : s.conn.state ≠ .kClosed) (handler : Handler)
    (hread : ∀ reads, handler ≠ .read reads) : Permits (fun _ _ => True) False s handler := by
  cases handler with
  | read reads => exact absurd rfl (hread reads)
  | write => trivial
  | operate op =>
    cases op with
    | resetIdleTimeout => exact hopen
    | clearReadBuffer => exact .inr hopen
    | _ => trivial

variable (env : ServerEnv)

lemma unregisters_handle_iff (hs : s.Inv) (hhost : s.hosted[id]? = some host)
    (hkept : s.connections host.conn.fd = some id) (handler : Handler) :
    Unregisters s (s.keep id host (handler.run env (s.session host))) ↔
      ¬ s.EndsFull (.handle id handler) := by
  have hopen := hs.open_of_kept hhost hkept
  have hfd := (acts_run env (s := s.session host) hopen (permits_any hopen handler)).serves.fd
  rw [unregisters_keep_iff hhost hfd rfl]
  cases handler with
  | read reads =>
    have hread := Session.cleared_handleRead_iff env (s := s.session host) hopen reads
    have hsame : s.EndsFull (.handle id (.read reads)) ↔ (s.session host).EndsFull reads := by
      simp [EndsFull, hhost]
    rw [hsame, ← hread]
    exact ⟨fun h => h hopen, fun h _ => h⟩
  | write =>
    have hacts := acts_run env (s := s.session host) hopen
      (permits_of_open hopen .write (by simp))
    exact iff_of_true (fun _ => hacts.cleared fun hclosed => absurd hclosed hopen) not_false
  | operate op =>
    have hacts := acts_run env (s := s.session host) hopen
      (permits_of_open hopen (.operate op) (by simp))
    exact iff_of_true (fun _ => hacts.cleared fun hclosed => absurd hclosed hopen) not_false

/-- In every run, a move leaves none of the connections registered that it closes if and only if
it is no read event that ends its connection with the input buffer over the limit. -/
theorem unregisters_iff {config : Option LimitsOptions} {kernel : ℕ → WriteOutcome}
    {ms : List Move} {s t : Server} {m : Move}
    (hrun : Runs.run (step env) (new config kernel) ms = some s)
    (hstep : s.step env m = some t) : Unregisters s t ↔ ¬ s.EndsFull m := by
  obtain ⟨hs, hfree⟩ := inv_run env hrun
  cases stepped_of_step env hstep with
  | accept => exact iff_of_true (unregisters_accept _ _) not_false
  | establish hhost hwaiting =>
    exact iff_of_true (unregisters_establish hs hhost hwaiting) not_false
  | handle hhost hkept => exact unregisters_handle_iff env hs hhost hkept _
  | error => exact iff_of_true (unregisters_of_hosted fun _ _ hid => .inl hid) not_false
  | tick => exact iff_of_true (unregisters_tick hs hfree _) not_false

/-- The moves that bring up one connection. -/
def greeting : List Move := [.accept 5 0, .establish 0]

def smallLimits : LimitsOptions := ⟨60, 15, 4, 1024⟩

/-- The end of the stream behind a few bytes. -/
theorem unregisters_iff_eof :
    ∃ s t, Runs.run (step Session.onePageSite) (new (some smallLimits) fun _ => .again) greeting = some s ∧
      s.step Session.onePageSite (.handle 0 (.read [.data [71, 69, 84], .eof])) = some t ∧
        Unregisters s t := by
  have hrun : (Runs.run (step Session.onePageSite) (new (some smallLimits) fun _ => .again) greeting).any
      (fun s => (s.step Session.onePageSite (.handle 0 (.read [.data [71, 69, 84], .eof]))).isSome ∧
        (s.hosted[0]?).any fun h => h.conn.maxInputBuffer = 4 ∧ h.conn.inputBuffer = []) = true := by
    decide +kernel
  obtain ⟨s, hs, hstate⟩ := (Option.any_eq_true _ _).mp hrun
  obtain ⟨hstep, hhosted⟩ := of_decide_eq_true hstate
  obtain ⟨t, ht⟩ := Option.isSome_iff_exists.mp hstep
  refine ⟨s, t, hs, ht, (unregisters_iff Session.onePageSite hs ht).mpr ?_⟩
  rintro ⟨h, hh, -, hfull⟩
  rw [hh] at hhosted
  obtain ⟨hmax, hempty⟩ := of_decide_eq_true hhosted
  simp [Session.Overfills, session, hmax, hempty, ReadResult.received] at hfull

/-- The end of the stream behind more bytes than the buffer may hold. -/
theorem not_unregisters_overfull :
    ¬ ∀ (env : ServerEnv) (config : Option LimitsOptions) (kernel : ℕ → WriteOutcome)
      (ms : List Move) (m : Move) (s t : Server),
      Runs.run (step env) (new config kernel) ms = some s → s.step env m = some t →
        Unregisters s t := by
  intro hall
  have hrun : (Runs.run (step Session.onePageSite) (new (some smallLimits) fun _ => .again) greeting).any
      (fun s => (s.step Session.onePageSite (.handle 0 (.read [.data [71, 69, 84, 32, 47], .eof]))).any
        fun t => (s.hosted[0]?).any fun h => (t.hosted[0]?).any fun h' =>
          h.conn.state ≠ .kClosed ∧ h'.conn.state = .kClosed ∧
            (t.loops h.loop).registeredFds h.conn.fd ≠ none) = true := by decide +kernel
  obtain ⟨s, hs, hstate⟩ := (Option.any_eq_true _ _).mp hrun
  obtain ⟨t, ht, hstate⟩ := (Option.any_eq_true _ _).mp hstate
  obtain ⟨h, hh, hstate⟩ := (Option.any_eq_true _ _).mp hstate
  obtain ⟨h', hh', hstate⟩ := (Option.any_eq_true _ _).mp hstate
  obtain ⟨hopen, hclosed, hregistered⟩ := of_decide_eq_true hstate
  exact hregistered (hall _ _ _ _ _ s t hs ht 0 h h' hh hh' hopen hclosed)

/-! ### No connection is orphaned -/

/-- Every established connection in the table is registered with its loop. -/
def NotOrphaned (s : Server) : Prop :=
  ∀ (fd : ℤ) (id : ℕ) (h : Hosted), s.connections fd = some id → s.hosted[id]? = some h →
    h.established = true → (s.loops h.loop).registeredFds h.conn.fd ≠ none

/-- The error callback runs for the descriptor of an established connection in the table. -/
def HangsUp (s : Server) : Move → Prop
  | .error loop fd => ∃ id h, s.connections fd = some id ∧ s.hosted[id]? = some h ∧
      h.loop = loop ∧ h.established = true
  | _ => False

/-- A function of one connection orphans nobody if that connection stays registered for as long as
its close callback is not called. -/
lemma notOrphaned_keep (hs : s.Inv) (h : s.NotOrphaned) (hhost : s.hosted[id]? = some host)
    (hserves : (s.session host).Serves t) (hloop : host'.loop = host.loop)
    (hestablished : host'.established = true →
      host.established = true ∨ t.loop.registeredFds host.conn.fd ≠ none)
    (hstill : (s.loops host.loop).registeredFds host.conn.fd ≠ none →
      .closed host.conn.fd ∉ t.trace → t.loop.registeredFds host.conn.fd ≠ none) :
    (s.keep id host' t).NotOrphaned := by
  intro fd id' h' hentry hid' hestablished'
  obtain ⟨hknown, hquiet⟩ := connections_keep hentry
  rw [hosted_keep hhost] at hid'
  split_ifs at hid' with hsame
  · cases hid'
    subst hsame
    obtain ⟨h₀, hid₀, hfd, -⟩ := hs.known fd id hknown
    cases hhost.symm.trans hid₀
    change ((s.keep id host' t).loops host'.loop).registeredFds t.conn.fd ≠ none
    rw [loops_keep, hserves.fd]
    rcases hestablished hestablished' with hbefore | hregistered
    · exact hstill (h fd id host hknown hhost hbefore) (hfd ▸ hquiet)
    · exact hregistered
  · have hbefore := h fd id' h' hknown hid' hestablished'
    by_cases hother : h'.loop = host.loop
    · rw [hother] at hbefore
      rw [hother, ← hloop, loops_keep]
      by_cases hfd : h'.conn.fd = host.conn.fd
      · obtain ⟨h₀, hid₀, hfd₀, -⟩ := hs.known fd id' hknown
        cases hid'.symm.trans hid₀
        rw [hfd] at hbefore ⊢
        exact hstill hbefore (hfd₀.symm.trans hfd ▸ hquiet)
      · rw [hserves.others _ hfd]
        exact hbefore
    · rw [loops_keep_of_ne (hloop ▸ hother)]
      exact hbefore

lemma notOrphaned_accept (h : s.NotOrphaned) (fd : ℤ) (loop : ℕ) :
    (s.accept fd loop).NotOrphaned := by
  intro fd' id h' hentry hid hestablished
  rcases hosted_accept hid with hold | ⟨rfl, rfl⟩
  · change Function.update s.connections fd (some s.hosted.length) fd' = some id at hentry
    rw [Function.update_apply] at hentry
    split_ifs at hentry
    · cases hentry
      rw [List.getElem?_eq_none (le_refl _)] at hold
      cases hold
    · exact h fd' id h' hentry hold hestablished
  · cases hestablished

lemma notOrphaned_establish (hs : s.Inv) (h : s.NotOrphaned) (hhost : s.hosted[id]? = some host)
    (hwaiting : host.established = false) : (s.establish id host).NotOrphaned := by
  have hserves : (s.session host).Serves (s.session host).connectEstablished := by
    have hacts : Session.Acts (fun _ _ => True) True (s.session host)
        (s.session host).connectEstablished := by
      rcases (hs.hosts id host hhost).waiting hwaiting with hconnecting | hclosed
      · exact Session.acts_connectEstablished hconnecting
      · exact Session.acts_connectEstablished_of_closed hclosed trivial
    exact hacts.serves
  have hregistered := Session.registered_connectEstablished (s.session host)
  rw [hserves.fd] at hregistered
  exact notOrphaned_keep hs h hhost hserves rfl (fun _ => .inr hregistered)
    fun _ _ => hregistered

lemma notOrphaned_tick (hs : s.Inv) (hfree : s.Free) (h : s.NotOrphaned) (loop : ℕ) :
    (s.tick loop).NotOrphaned := by
  have hwheel : KeptByWheel loop NotOrphaned := by
    intro u wheel _ _ _ hu fd id h hentry hid hestablished
    rw [registeredFds_withWheel]
    exact hu fd id h hentry hid hestablished
  have hexpire : KeptByExpiry loop NotOrphaned := by
    intro u id host timeoutType wheel hinv hhost _ hopen _ _ hu
    have hact : Session.Act (fun _ _ => True) False (u.session host)
        ((u.session host).onTimeout timeoutType) := .expire _
    have hkept : (u.keep id host ((u.session host).onTimeout timeoutType)).NotOrphaned :=
      notOrphaned_keep hinv hu hhost hact.serves rfl .inl fun hregistered hquiet =>
        hact.serves.stillRegistered (hinv.hosts id host hhost).hasCloseCallback hopen hregistered
          hquiet
    intro fd id h hentry hid hestablished
    rw [registeredFds_withWheel]
    exact hkept fd id h hentry hid hestablished
  exact (tick_induction hwheel hexpire hs hfree h).1

lemma notOrphaned_handle (hs : s.Inv) (h : s.NotOrphaned) (hhost : s.hosted[id]? = some host)
    (hkept : s.connections host.conn.fd = some id) (handler : Handler) :
    (s.keep id host (handler.run env (s.session host))).NotOrphaned := by
  have hopen := hs.open_of_kept hhost hkept
  have hserves := (acts_run env (s := s.session host) hopen (permits_any hopen handler)).serves
  exact notOrphaned_keep hs h hhost hserves rfl .inl
    (hserves.stillRegistered (hs.hosts id host hhost).hasCloseCallback hopen)

lemma registeredFds_removeEvent (s : Server) (loop loop' : ℕ) (fd fd' : ℤ) :
    ((s.removeEvent loop fd).loops loop').registeredFds fd' =
      if loop' = loop ∧ fd' = fd then none else (s.loops loop').registeredFds fd' := by
  by_cases hloop : loop' = loop
  · simp [removeEvent, EventLoop.removeEvent, Function.update_apply, hloop]
  · simp [removeEvent, hloop]

lemma notOrphaned_removeEvent_iff (hs : s.Inv) (h : s.NotOrphaned) (loop : ℕ) (fd : ℤ) :
    (s.removeEvent loop fd).NotOrphaned ↔ ¬ s.HangsUp (.error loop fd) := by
  constructor
  · rintro hafter ⟨id, host, hentry, hid, hloop, hestablished⟩
    obtain ⟨h₀, hid₀, hfd, -⟩ := hs.known fd id hentry
    cases hid.symm.trans hid₀
    have hregistered := hafter fd id host hentry hid hestablished
    rw [registeredFds_removeEvent, if_pos ⟨hloop, hfd⟩] at hregistered
    exact hregistered rfl
  · intro hnot fd' id host hentry hid hestablished
    obtain ⟨h₀, hid₀, hfd, -⟩ := hs.known fd' id hentry
    cases hid.symm.trans hid₀
    rw [registeredFds_removeEvent, if_neg]
    · exact h fd' id host hentry hid hestablished
    · rintro ⟨hloop, hsame⟩
      exact hnot ⟨id, host, hsame ▸ hfd.symm ▸ hentry, hid, hloop, hestablished⟩

/-- One step orphans a connection if and only if it is the error callback for it. -/
lemma notOrphaned_step_iff {t : Server} {m : Move} (hs : s.Inv ∧ s.Free) (h : s.NotOrphaned)
    (hstep : s.step env m = some t) : t.NotOrphaned ↔ ¬ s.HangsUp m := by
  obtain ⟨hinv, hfree⟩ := hs
  cases stepped_of_step env hstep with
  | accept => exact iff_of_true (notOrphaned_accept h _ _) not_false
  | establish hhost hwaiting =>
    exact iff_of_true (notOrphaned_establish hinv h hhost hwaiting) not_false
  | handle hhost hkept => exact iff_of_true (notOrphaned_handle env hinv h hhost hkept _) not_false
  | error => exact notOrphaned_removeEvent_iff hinv h _ _
  | tick => exact iff_of_true (notOrphaned_tick hinv hfree h _) not_false

/-- No connection is orphaned in any state of a run if and only if the error callback never runs
for an established connection in the table. -/
theorem notOrphaned_iff {config : Option LimitsOptions} {kernel : ℕ → WriteOutcome}
    {ms : List Move} {t : Server} (hrun : Runs.run (step env) (new config kernel) ms = some t) :
    (∀ ms' u, ms' <+: ms → Runs.run (step env) (new config kernel) ms' = some u → u.NotOrphaned) ↔
      ∀ ms' m u, ms' ++ [m] <+: ms → Runs.run (step env) (new config kernel) ms' = some u →
        ¬ u.HangsUp m :=
  Runs.forall_run_iff (step env) (fun _ _ _ => inv_step env)
    (fun _ _ _ => notOrphaned_step_iff env) ⟨inv_new config kernel, free_new config kernel⟩
    (by simp [NotOrphaned, new]) hrun

/-- Nobody is orphaned while a connection is brought up and written to. -/
theorem notOrphaned_iff_greeting :
    ∃ t, Runs.run (step Session.onePageSite) (new none fun _ => .again)
        (greeting ++ [Move.handle 0 (.operate (.send [72, 105]))]) = some t ∧
      ∀ ms' u, ms' <+: greeting ++ [Move.handle 0 (.operate (.send [72, 105]))] →
        Runs.run (step Session.onePageSite) (new none fun _ => .again) ms' = some u →
          u.NotOrphaned := by
  have hrun : (Runs.run (step Session.onePageSite) (new none fun _ => .again)
      (greeting ++ [Move.handle 0 (.operate (.send [72, 105]))])).isSome = true := by decide +kernel
  obtain ⟨t, ht⟩ := Option.isSome_iff_exists.mp hrun
  refine ⟨t, ht, (notOrphaned_iff Session.onePageSite ht).mpr fun ms' m u hbegins _ => ?_⟩
  have hmem := Runs.mem_of_snoc_isPrefix hbegins
  simp only [greeting, List.cons_append, List.nil_append, List.mem_cons, List.not_mem_nil,
    or_false] at hmem
  rcases hmem with rfl | rfl | rfl <;> exact not_false

/-- A peer hangs up on a connection that is idle. -/
theorem not_notOrphaned_hangup :
    ¬ ∀ (env : ServerEnv) (config : Option LimitsOptions) (kernel : ℕ → WriteOutcome)
      (ms : List Move) (t : Server),
      Runs.run (step env) (new config kernel) ms = some t → t.NotOrphaned := by
  intro hall
  have hrun : (Runs.run (step Session.onePageSite) (new none fun _ => .again)
      (greeting ++ [Move.error 0 5])).any (fun t => t.connections 5 = some 0 ∧
        (t.hosted[0]?).any fun h => h.established ∧
          (t.loops h.loop).registeredFds h.conn.fd = none) = true := by decide +kernel
  obtain ⟨t, ht, hstate⟩ := (Option.any_eq_true _ _).mp hrun
  obtain ⟨hentry, hhosted⟩ := of_decide_eq_true hstate
  obtain ⟨h, hh, hstate⟩ := (Option.any_eq_true _ _).mp hhosted
  obtain ⟨hestablished, hnone⟩ := of_decide_eq_true hstate
  exact hall _ _ _ _ t ht 5 0 h hentry hh hestablished hnone

end Server

end TinyWebServer
