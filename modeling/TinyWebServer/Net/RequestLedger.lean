import TinyWebServer.Net.KeepAliveEntries

/-!
# The keep-alive manager of a server

The manager knows its connections by their descriptors alone. A ledger of the requests that each
connection has taken up tells whose requests an entry counts.
-/

namespace TinyWebServer

namespace Server

variable (env : ServerEnv)

/-- How many requests the connections have taken up once the move is made. -/
def tally (s : Server) (started : ℕ → ℕ) : Move → ℕ → ℕ
  | .handle id handler =>
    (s.hosted[id]?).elim started fun h =>
      Function.update started id (started id + handler.requests env (s.session h))
  | _ => started

/-- The move takes up a request for a connection that it has closed. -/
def StartsLate (s : Server) : Move → Prop
  | .handle id handler => ∃ h, s.hosted[id]? = some h ∧ handler.StartsLate env (s.session h)
  | _ => False

end Server

/-- A server, and how many requests each of its connections has taken up. -/
structure Ledger where
  server : Server
  started : ℕ → ℕ

namespace Ledger

def new (config : Option LimitsOptions) (kernel : ℕ → WriteOutcome) : Ledger :=
  ⟨Server.new config kernel, fun _ => 0⟩

def step (env : ServerEnv) (l : Ledger) (m : Move) : Option Ledger :=
  (l.server.step env m).map fun t => ⟨t, l.server.tally env l.started m⟩

/-- Every entry is that of an open connection, and counts the requests of this connection. -/
structure Ordered (l : Ledger) : Prop where
  open_of_entry : ∀ fd, l.server.keepAlive.getConnectionState fd ≠ none →
    ∃ (id : ℕ) (h : Hosted), l.server.hosted[id]? = some h ∧ h.conn.fd = fd ∧
      h.conn.state ≠ .kClosed
  count : ∀ (id : ℕ) (h : Hosted), l.server.hosted[id]? = some h → h.conn.state ≠ .kClosed →
    l.server.keepAlive.requestCount h.conn.fd = l.started id

/-- The server gives its manager to every connection, and counts for nobody else. -/
structure Managed (l : Ledger) : Prop where
  hasKeepAliveManager : ∀ (id : ℕ) (h : Hosted), l.server.hosted[id]? = some h →
    h.conn.hasKeepAliveManager = true
  fresh : ∀ id : ℕ, l.server.hosted[id]? = none → l.started id = 0

variable {s : Server} {started : ℕ → ℕ} {id : ℕ} {host host' : Hosted} {t : Session} {n : ℕ}

/-! ### One connection among others -/

lemma managed_keep (h : Managed ⟨s, started⟩) (hhost : s.hosted[id]? = some host)
    (hmanager : t.conn.hasKeepAliveManager = host.conn.hasKeepAliveManager) :
    Managed ⟨s.keep id host' t, Function.update started id n⟩ where
  hasKeepAliveManager := by
    intro id' h' hid'
    change (s.keep id host' t).hosted[id']? = some h' at hid'
    rw [Server.hosted_keep hhost] at hid'
    split_ifs at hid' with hsame
    · cases hid'
      exact hmanager.trans (h.hasKeepAliveManager id host hhost)
    · exact h.hasKeepAliveManager id' h' hid'
  fresh := by
    intro id' hnone
    change (s.keep id host' t).hosted[id']? = none at hnone
    rw [Server.hosted_keep hhost] at hnone
    split_ifs at hnone with hsame
    exact (Function.update_of_ne (Ne.symm hsame) n started).trans (h.fresh id' hnone)

/-- The requests of an open connection are counted, or its entry goes with it. -/
lemma ordered_keep (hinv : s.Inv) (h : Ordered ⟨s, started⟩) (hhost : s.hosted[id]? = some host)
    (hopen : host.conn.state ≠ .kClosed) (haccounts : Session.Accounts (s.session host) t n) :
    Ordered ⟨s.keep id host' t, Function.update started id (started id + n)⟩ where
  open_of_entry := by
    intro fd hentry
    change t.keepAlive.getConnectionState fd ≠ none at hentry
    by_cases hfd : fd = host.conn.fd
    · subst hfd
      refine ⟨id, { host' with conn := t.conn }, ?_, haccounts.fd, fun hclosed => ?_⟩
      · exact (Server.hosted_keep hhost host' t id).trans (if_pos rfl)
      · have hgone := haccounts.gone (fun hclosed => absurd hclosed hopen) hclosed
        rw [Session.entry, haccounts.fd] at hgone
        exact hentry hgone
    · rw [haccounts.others fd hfd] at hentry
      obtain ⟨id', h', hid', rfl, hopen'⟩ := h.open_of_entry fd hentry
      refine ⟨id', h', (Server.hosted_keep hhost host' t id').trans ?_, rfl, hopen'⟩
      rw [if_neg]
      · exact hid'
      · rintro rfl
        cases hhost.symm.trans hid'
        exact hfd rfl
  count := by
    intro id' h' hid' hopen'
    change (s.keep id host' t).hosted[id']? = some h' at hid'
    change t.keepAlive.requestCount h'.conn.fd = Function.update started id _ id'
    rw [Server.hosted_keep hhost] at hid'
    split_ifs at hid' with hsame
    · subst hsame
      cases hid'
      have hcount : s.keepAlive.requestCount host.conn.fd = started id :=
        h.count id host hhost hopen
      rw [Function.update_self, ← hcount]
      exact (congrArg _ haccounts.fd).trans (haccounts.count hopen')
    · have hfd : h'.conn.fd ≠ host.conn.fd := fun heq =>
        hsame (hinv.apart id id' host h' hhost hid' hopen hopen' heq.symm)
      rw [Function.update_of_ne (Ne.symm hsame), KeepAliveManager.requestCount,
        haccounts.others _ hfd]
      exact h.count id' h' hid' hopen'

/-- An entry that lingers belongs to nobody. -/
lemma not_ordered_keep (hinv : s.Inv) (hhost : s.hosted[id]? = some host)
    (hopen : host.conn.state ≠ .kClosed) (hfd : t.conn.fd = host.conn.fd) (h : t.Lingers) :
    ¬ Ordered ⟨s.keep id host' t, started⟩ := by
  intro hordered
  obtain ⟨hclosed, hentry⟩ := h
  obtain ⟨id', h', hid', hfd', hopen'⟩ := hordered.open_of_entry t.conn.fd hentry
  change (s.keep id host' t).hosted[id']? = some h' at hid'
  rw [Server.hosted_keep hhost] at hid'
  split_ifs at hid' with hsame
  · cases hid'
    exact hopen' hclosed
  · exact hsame (hinv.apart id id' host h' hhost hid' hopen hopen' (hfd.symm.trans hfd'.symm))

/-- The same connections with the same entries. -/
lemma managed_of_same {u : Server} (h : s.SameTimers u) (hs : Managed ⟨s, started⟩) :
    Managed ⟨u, started⟩ where
  hasKeepAliveManager := by
    intro id h' hid
    obtain ⟨h₀, hid₀, hconn, -⟩ := h.exists hid
    exact hconn ▸ hs.hasKeepAliveManager id h₀ hid₀
  fresh := by
    intro id hnone
    refine hs.fresh id ?_
    have hsame := h.hosted id
    change u.hosted[id]? = none at hnone
    rw [hnone, Option.map_none] at hsame
    exact Option.map_eq_none_iff.mp hsame.symm

lemma ordered_of_same {u : Server} (h : s.SameTimers u) (hkeepAlive : u.keepAlive = s.keepAlive)
    (hs : Ordered ⟨s, started⟩) : Ordered ⟨u, started⟩ where
  open_of_entry := by
    intro fd hentry
    change u.keepAlive.getConnectionState fd ≠ none at hentry
    rw [hkeepAlive] at hentry
    obtain ⟨id, h₀, hid₀, hfd, hopen⟩ := hs.open_of_entry fd hentry
    obtain ⟨h', hid, hconn, -⟩ := h.symm.exists hid₀
    exact ⟨id, h', hid, by rw [hconn, hfd], by rwa [hconn]⟩
  count := by
    intro id h' hid hopen
    obtain ⟨h₀, hid₀, hconn, -⟩ := h.exists hid
    have hopen₀ : h₀.conn.state ≠ .kClosed := hconn ▸ hopen
    change u.keepAlive.requestCount h'.conn.fd = started id
    rw [hkeepAlive, ← hconn]
    exact hs.count id h₀ hid₀ hopen₀

/-! ### The moves -/

/-- A move that takes up no request of the connection. -/
lemma tally_quiet (started : ℕ → ℕ) (id : ℕ) :
    Function.update started id (started id + 0) = started := by
  rw [Nat.add_zero, Function.update_eq_self]

lemma managed_accept (h : Managed ⟨s, started⟩) (fd : ℤ) (loop : ℕ) :
    Managed ⟨s.accept fd loop, started⟩ where
  hasKeepAliveManager := by
    intro id host hid
    rcases Server.hosted_accept hid with hold | ⟨-, rfl⟩
    · exact h.hasKeepAliveManager id host hold
    · rfl
  fresh := by
    intro id hnone
    refine h.fresh id (Option.eq_none_iff_forall_ne_some.mpr fun host hid => ?_)
    rw [Server.hosted_accept_of_some hid fd loop] at hnone
    cases hnone

lemma ordered_accept (hmanaged : Managed ⟨s, started⟩) (h : Ordered ⟨s, started⟩) {fd : ℤ}
    (hunused : s.hosted.all (fun h => h.released || h.conn.fd ≠ fd)) (loop : ℕ) :
    Ordered ⟨s.accept fd loop, started⟩ where
  open_of_entry := by
    intro fd' hentry
    obtain ⟨id, host, hid, hfd, hopen⟩ := h.open_of_entry fd' hentry
    exact ⟨id, host, Server.hosted_accept_of_some hid fd loop, hfd, hopen⟩
  count := by
    intro id host hid hopen
    change s.keepAlive.requestCount host.conn.fd = started id
    rcases Server.hosted_accept hid with hold | ⟨rfl, rfl⟩
    · exact h.count id host hold hopen
    · -- An entry of the descriptor would be that of an open connection.
      have hnone : s.keepAlive.getConnectionState fd = none := by
        by_contra hentry
        obtain ⟨id', host', hid', hfd', hopen'⟩ := h.open_of_entry fd hentry
        exact Server.fd_ne_of_unused hunused hid' hopen' hfd'
      have hfresh : started s.hosted.length = 0 :=
        hmanaged.fresh _ (List.getElem?_eq_none le_rfl)
      rw [hfresh]
      exact congrArg (Option.elim · 0 KeepAliveState.requestCount) hnone

lemma managed_establish (h : Managed ⟨s, started⟩) (hinv : s.Inv)
    (hhost : s.hosted[id]? = some host) (hwaiting : host.established = false) :
    Managed ⟨s.establish id host, started⟩ := by
  have hmanager : (s.session host).connectEstablished.conn.hasKeepAliveManager =
      host.conn.hasKeepAliveManager := by
    rcases (hinv.hosts id host hhost).waiting hwaiting with hconnecting | hclosed
    · have hacts : Session.Acts Session.Short True (s.session host) _ :=
        Session.acts_connectEstablished hconnecting
      exact hacts.hasKeepAliveManager
    · have hacts : Session.Acts Session.Short True (s.session host) _ :=
        Session.acts_connectEstablished_of_closed hclosed trivial
      exact hacts.hasKeepAliveManager
  rw [← tally_quiet started id]
  exact managed_keep h hhost hmanager

lemma ordered_establish (hmanaged : Managed ⟨s, started⟩) (h : Ordered ⟨s, started⟩)
    (hinv : s.Inv) (hhost : s.hosted[id]? = some host) (hwaiting : host.established = false) :
    Ordered ⟨s.establish id host, started⟩ := by
  rcases (hinv.hosts id host hhost).waiting hwaiting with hconnecting | hclosed
  · have hopen : host.conn.state ≠ .kClosed := by simp [hconnecting]
    have hmanager := hmanaged.hasKeepAliveManager id host hhost
    have haccounts : Session.Accounts (s.session host) (s.session host).connectEstablished 0 :=
      (Session.reveals_connectEstablished hconnecting).accounts hmanager
    rw [← tally_quiet started id]
    exact ordered_keep hinv h hhost hopen haccounts
  · refine ordered_of_same (Server.sameTimers_establish hhost hclosed) ?_ h
    change (s.session host).connectEstablished.keepAlive = s.keepAlive
    rw [Session.connectEstablished_of_closed hclosed]
    rfl

/-- What the callback of an expired timer leaves of a connection. -/
lemma accounts_expired (hmanaged : Managed ⟨s, started⟩) (hhost : s.hosted[id]? = some host)
    (timeoutType : TimeoutType) (wheel : TimerWheel TimerCallback) :
    Session.Accounts (s.session host) (s.expired host timeoutType wheel) 0 := by
  have hmanager := hmanaged.hasKeepAliveManager id host hhost
  have hexpire : Session.Accounts (s.session host) ((s.session host).onTimeout timeoutType) 0 :=
    (Session.reveals_onTimeout (.inl trivial) timeoutType).accounts hmanager
  have hwheel : Session.Accounts ((s.session host).onTimeout timeoutType)
      (s.expired host timeoutType wheel) 0 := Session.accounts_of_same rfl rfl rfl rfl
  exact hexpire.trans hwheel

lemma managed_tick (hinv : s.Inv) (hfree : s.Free) (h : Managed ⟨s, started⟩) (loop : ℕ) :
    Managed ⟨s.tick loop, started⟩ := by
  have hwheel : Server.KeptByWheel loop fun u => Managed ⟨u, started⟩ :=
    fun u wheel _ _ htimers hu => managed_of_same (Server.sameTimers_withWheel htimers) hu
  have hexpire : Server.KeptByExpiry loop fun u => Managed ⟨u, started⟩ := by
    rintro u id host timeoutType wheel - hhost rfl - - - hmanaged
    have haccounts := accounts_expired hmanaged hhost timeoutType wheel
    rw [Server.keep_expired, ← tally_quiet started id]
    exact managed_keep hmanaged hhost haccounts.hasKeepAliveManager
  exact (Server.tick_induction hwheel hexpire hinv hfree h).1

lemma ordered_tick (hinv : s.Inv) (hfree : s.Free) (hmanaged : Managed ⟨s, started⟩)
    (h : Ordered ⟨s, started⟩) (loop : ℕ) : Ordered ⟨s.tick loop, started⟩ := by
  have hwheel : Server.KeptByWheel loop fun u => Managed ⟨u, started⟩ ∧ Ordered ⟨u, started⟩ := by
    intro u wheel _ _ htimers hu
    have hsame := Server.sameTimers_withWheel htimers
    exact ⟨managed_of_same hsame hu.1, ordered_of_same hsame rfl hu.2⟩
  have hexpire : Server.KeptByExpiry loop fun u => Managed ⟨u, started⟩ ∧ Ordered ⟨u, started⟩ := by
    rintro u id host timeoutType wheel hu hhost rfl hopen - - ⟨hmanaged, hordered⟩
    have haccounts := accounts_expired hmanaged hhost timeoutType wheel
    rw [Server.keep_expired, ← tally_quiet started id]
    exact ⟨managed_keep hmanaged hhost haccounts.hasKeepAliveManager,
      ordered_keep hu hordered hhost hopen haccounts⟩
  exact (Server.tick_induction hwheel hexpire hinv hfree ⟨hmanaged, h⟩).1.2

variable (env : ServerEnv)

lemma managed_handle (h : Managed ⟨s, started⟩) (hhost : s.hosted[id]? = some host)
    (hopen : host.conn.state ≠ .kClosed) (handler : Handler) :
    Managed ⟨s.keep id host (handler.run env (s.session host)),
      s.tally env started (.handle id handler)⟩ := by
  have hacts := Server.acts_run env (s := s.session host) hopen
    (Server.permits_any hopen handler)
  rw [Server.tally, hhost]
  exact managed_keep h hhost hacts.hasKeepAliveManager

lemma ordered_handle_iff (hinv : s.Inv) (hmanaged : Managed ⟨s, started⟩)
    (h : Ordered ⟨s, started⟩) (hhost : s.hosted[id]? = some host)
    (hopen : host.conn.state ≠ .kClosed) (handler : Handler) :
    Ordered ⟨s.keep id host (handler.run env (s.session host)),
      s.tally env started (.handle id handler)⟩ ↔ ¬ s.StartsLate env (.handle id handler) := by
  have hmanager : (s.session host).conn.hasKeepAliveManager = true :=
    hmanaged.hasKeepAliveManager id host hhost
  have hacts := Server.acts_run env (s := s.session host) hopen
    (Server.permits_any hopen handler)
  have hlate : s.StartsLate env (.handle id handler) ↔
      handler.StartsLate env (s.session host) := by
    simp only [Server.StartsLate, hhost, Option.some.injEq, exists_eq_left']
  rw [hlate, Server.tally, hhost]
  constructor
  · intro hordered hstarts
    exact not_ordered_keep hinv hhost hopen hacts.serves.fd (handler.lingers_run hmanager hstarts)
      hordered
  · intro hstarts
    exact ordered_keep hinv h hhost hopen (handler.accounts_run hmanager hopen rfl hstarts)

/-- What every move keeps. -/
def Inv (l : Ledger) : Prop := (l.server.Inv ∧ l.server.Free) ∧ l.Managed

lemma inv_step {l l' : Ledger} {m : Move} (h : l.Inv) (hstep : l.step env m = some l') :
    l'.Inv := by
  obtain ⟨t, ht, rfl⟩ := Option.map_eq_some_iff.mp hstep
  obtain ⟨⟨hinv, hfree⟩, hmanaged⟩ := h
  refine ⟨Server.inv_step env ⟨hinv, hfree⟩ ht, ?_⟩
  cases Server.stepped_of_step env ht with
  | accept => exact managed_accept hmanaged _ _
  | establish hhost hwaiting => exact managed_establish hmanaged hinv hhost hwaiting
  | handle hhost hkept =>
    exact managed_handle env hmanaged hhost (hinv.open_of_kept hhost hkept) _
  | error => exact managed_of_same (Server.sameTimers_removeEvent _ _ _) hmanaged
  | tick => exact managed_tick hinv hfree hmanaged _

/-- A step leaves an entry to nobody if and only if it takes up a request for a connection that it
has closed. -/
lemma ordered_step_iff {l l' : Ledger} {m : Move} (h : l.Inv) (hl : l.Ordered)
    (hstep : l.step env m = some l') : l'.Ordered ↔ ¬ l.server.StartsLate env m := by
  obtain ⟨t, ht, rfl⟩ := Option.map_eq_some_iff.mp hstep
  obtain ⟨⟨hinv, hfree⟩, hmanaged⟩ := h
  cases Server.stepped_of_step env ht with
  | accept _ hunused => exact iff_of_true (ordered_accept hmanaged hl hunused _) not_false
  | establish hhost hwaiting =>
    exact iff_of_true (ordered_establish hmanaged hl hinv hhost hwaiting) not_false
  | handle hhost hkept =>
    exact ordered_handle_iff env hinv hmanaged hl hhost (hinv.open_of_kept hhost hkept) _
  | error =>
    exact iff_of_true (ordered_of_same (Server.sameTimers_removeEvent _ _ _) rfl hl) not_false
  | tick => exact iff_of_true (ordered_tick hinv hfree hmanaged hl _) not_false

lemma inv_new (config : Option LimitsOptions) (kernel : ℕ → WriteOutcome) :
    (new config kernel).Inv :=
  ⟨⟨Server.inv_new config kernel, Server.free_new config kernel⟩, by simp [new, Server.new],
    fun _ _ => rfl⟩

lemma ordered_new (config : Option LimitsOptions) (kernel : ℕ → WriteOutcome) :
    (new config kernel).Ordered :=
  ⟨fun _ hentry => absurd rfl hentry, by simp [new, Server.new]⟩

/-- The entries are those of the open connections in every state of a run if and only if no move
ever takes up a request for a connection that it has closed. -/
theorem ordered_iff {config : Option LimitsOptions} {kernel : ℕ → WriteOutcome} {ms : List Move}
    {l : Ledger} (hrun : Runs.run (step env) (new config kernel) ms = some l) :
    (∀ ms' l', ms' <+: ms → Runs.run (step env) (new config kernel) ms' = some l' → l'.Ordered) ↔
      ∀ ms' m l', ms' ++ [m] <+: ms → Runs.run (step env) (new config kernel) ms' = some l' →
        ¬ l'.server.StartsLate env m :=
  Runs.forall_run_iff (step env) (fun _ _ _ => inv_step env) (fun _ _ _ => ordered_step_iff env)
    (inv_new config kernel) (ordered_new config kernel) hrun

/-- The connection asks for a page. -/
def pageRead : Move := .handle 0 (.read [.data (bytes "GET / HTTP/1.1\r\n\r\n"), .again])

/-- A request, and the end of the stream in a later read. -/
theorem ordered_iff_later_eof :
    ∃ l, Runs.run (step Session.onePageSite) (new none fun _ => .again)
        (Server.greeting ++ [pageRead, .handle 0 (.read [.eof])]) = some l ∧
      ∀ ms' l', ms' <+: Server.greeting ++ [pageRead, .handle 0 (.read [.eof])] →
        Runs.run (step Session.onePageSite) (new none fun _ => .again) ms' = some l' →
          l'.Ordered := by
  have hrun : (Runs.run (step Session.onePageSite) (new none fun _ => .again)
      (Server.greeting ++ [pageRead, .handle 0 (.read [.eof])])).isSome = true := by decide +kernel
  obtain ⟨l, hl⟩ := Option.isSome_iff_exists.mp hrun
  refine ⟨l, hl, (ordered_iff Session.onePageSite hl).mpr ?_⟩
  -- The connection stays open, or has lost its entry when the handler ends.
  have hlate : ∀ (ms : List Move) (handler : Handler) (u : Ledger),
      Runs.run (step Session.onePageSite) (new none fun _ => .again) ms = some u →
      (Runs.run (step Session.onePageSite) (new none fun _ => .again) ms).all (fun l =>
        (l.server.hosted[0]?).all fun h => h.conn.hasKeepAliveManager ∧
          ((handler.run Session.onePageSite (l.server.session h)).conn.state ≠ .kClosed ∨
            (handler.run Session.onePageSite (l.server.session h)).entry = none)) = true →
      ¬ u.server.StartsLate Session.onePageSite (.handle 0 handler) := by
    rintro ms handler u hu hstate ⟨h, hh, hstarts⟩
    rw [hu, Option.all_some, hh, Option.all_some] at hstate
    obtain ⟨hmanager, hkept⟩ := of_decide_eq_true hstate
    obtain ⟨hclosed, hentry⟩ := handler.lingers_run hmanager hstarts
    exact hkept.elim (· hclosed) hentry
  refine Runs.forall_step_cons _ not_false fun l₁ h₁ => ?_
  refine Runs.forall_step_cons _ not_false fun l₂ h₂ => ?_
  have hl₂ : Runs.run (step Session.onePageSite) (new none fun _ => .again) Server.greeting =
      some l₂ := by simp [Runs.run, Server.greeting, h₁, h₂]
  refine Runs.forall_step_cons _ (hlate _ _ _ hl₂ (by decide +kernel)) fun l₃ h₃ => ?_
  have hl₃ : Runs.run (step Session.onePageSite) (new none fun _ => .again)
      (Server.greeting ++ [pageRead]) = some l₃ := by
    rw [Runs.run_append, hl₂, Option.bind_some, Runs.run, h₃]
    rfl
  exact Runs.forall_step_cons _ (hlate _ _ _ hl₃ (by decide +kernel)) (by simp)

/-- The request and the end of the stream come in the same read. -/
theorem not_ordered_same_read :
    ¬ ∀ (env : ServerEnv) (config : Option LimitsOptions) (kernel : ℕ → WriteOutcome)
      (ms : List Move) (l : Ledger), Runs.run (step env) (new config kernel) ms = some l →
        l.Ordered := by
  intro hall
  have hrun : (Runs.run (step Session.onePageSite) (new none fun _ => .again)
      (Server.greeting ++ [Move.handle 0 (.read [.data (bytes "GET / HTTP/1.1\r\n\r\n"),
        .eof])])).any (fun l => l.server.keepAlive.getConnectionState 5 ≠ none ∧
          l.server.hosted.all fun h => h.conn.state = .kClosed) = true := by decide +kernel
  obtain ⟨l, hl, hstate⟩ := (Option.any_eq_true _ _).mp hrun
  obtain ⟨hentry, hclosed⟩ := of_decide_eq_true hstate
  obtain ⟨id, h, hid, -, hopen⟩ := (hall _ _ _ _ l hl).open_of_entry 5 hentry
  have hstate := List.all_eq_true.mp hclosed h (List.mem_of_getElem? hid)
  exact hopen (of_decide_eq_true hstate)

end Ledger

end TinyWebServer
