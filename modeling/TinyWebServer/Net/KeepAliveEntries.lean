import TinyWebServer.Http.MessageLoop
import TinyWebServer.Net.Lifecycle
import TinyWebServer.Net.TimerFlags

/-!
# The entry of a connection in the keep-alive manager

A connection gets its entry with its first request and loses it when it is closed. The message loop
goes on in a connection that has just been closed, and a request that it starts then leaves an entry
that nobody takes out.
-/

namespace TinyWebServer

namespace KeepAliveManager

/-- The requests that are counted for a descriptor. -/
def requestCount (m : KeepAliveManager) (fd : ℤ) : ℕ :=
  (m.getConnectionState fd).elim 0 (·.requestCount)

lemma lookup_erase_self (m : KeepAliveManager) (fd : ℤ) : (m.erase fd).lookup fd = none := by
  rw [erase, List.lookup_eq_none_iff]
  intro entry hentry
  have hne := of_decide_eq_true (List.mem_filter.mp hentry).2
  simpa [beq_iff_eq] using Ne.symm hne

lemma lookup_erase_of_ne {fd fd' : ℤ} (hne : fd' ≠ fd) (m : KeepAliveManager) :
    (m.erase fd).lookup fd' = m.connections.lookup fd' := by
  rw [erase]
  induction m.connections with
  | nil => rfl
  | cons entry entries ih =>
    obtain ⟨key, state⟩ := entry
    by_cases hkey : key = fd
    · rw [List.filter_cons_of_neg (by simp [hkey]), ih, List.lookup_cons, hkey,
        beq_false_of_ne hne]
    · rw [List.filter_cons_of_pos (by simp [hkey]), List.lookup_cons, List.lookup_cons, ih]

lemma getConnectionState_close (m : KeepAliveManager) (fd : ℤ) :
    (m.onConnectionClose fd).getConnectionState fd = none := lookup_erase_self m fd

lemma getConnectionState_close_of_ne {fd fd' : ℤ} (hne : fd' ≠ fd) (m : KeepAliveManager) :
    (m.onConnectionClose fd).getConnectionState fd' = m.getConnectionState fd' :=
  lookup_erase_of_ne hne m

lemma getConnectionState_start_of_ne {fd fd' : ℤ} (hne : fd' ≠ fd) (m : KeepAliveManager)
    (keepAlive : Bool) (idleTimeout : ℤ) :
    (m.onRequestStart fd keepAlive idleTimeout).getConnectionState fd' =
      m.getConnectionState fd' := by
  rw [getConnectionState, onRequestStart]
  dsimp only
  rw [List.lookup_cons, beq_false_of_ne hne]
  exact lookup_erase_of_ne hne m

lemma getConnectionState_start (m : KeepAliveManager) (fd : ℤ) (keepAlive : Bool)
    (idleTimeout : ℤ) :
    (m.onRequestStart fd keepAlive idleTimeout).getConnectionState fd ≠ none := by
  rw [getConnectionState, onRequestStart]
  dsimp only
  rw [List.lookup_cons, beq_self_eq_true]
  exact Option.some_ne_none _

/-- The first request of a descriptor without an entry counts as one. -/
lemma requestCount_start (m : KeepAliveManager) (fd : ℤ) (keepAlive : Bool) (idleTimeout : ℤ) :
    (m.onRequestStart fd keepAlive idleTimeout).requestCount fd = m.requestCount fd + 1 := by
  rw [requestCount, requestCount, getConnectionState, onRequestStart]
  dsimp only
  rw [List.lookup_cons, beq_self_eq_true]
  cases m.getConnectionState fd <;> rfl

end KeepAliveManager

namespace Session

variable (env : ServerEnv)

/-- The next turn of the message loop finds a request. -/
def FindsRequest (s : Session) : Prop :=
  ∃ headerEnd, Bytes.find headEnd s.conn.inputBuffer = some headerEnd ∧
    (s.conn.httpParser.parse s.conn.inputBuffer).1 = true

/-- The loop that begins in `s` comes to a turn that begins in `t`. -/
inductive Turns : Session → Session → Prop where
  | refl (s : Session) : Turns s s
  | next {s t : Session} (h : (s.messageTurn env).2 = true)
      (hrest : Turns (s.messageTurn env).1 t) : Turns s t

/-- The loop takes up a request for a connection that is closed. -/
def StartsLate (s : Session) : Prop :=
  ∃ t, Turns env s t ∧ t.conn.state = .kClosed ∧ t.FindsRequest

/-! ### The entry of one connection -/

section acts

variable {sets : ℤ → TimeoutType → Prop} {late : Prop} {s t : Session}

lemma Act.hasKeepAliveManager (h : Act sets late s t) :
    t.conn.hasKeepAliveManager = s.conn.hasKeepAliveManager := by
  have hquiet : ∀ {s t : Session}, Reveals True True s [] t →
      t.conn.hasKeepAliveManager = s.conn.hasKeepAliveManager :=
    fun h => h.hasKeepAliveManager
  cases h with
  | activity _ => exact hquiet (timersOnly_updateActivityTimestamp s).reveals
  | setTimeout seconds timeoutType _ =>
    exact hquiet (timeoutsOnly_setTimeout s seconds timeoutType).reveals
  | disable => exact hquiet (timeoutsOnly_disableAllTimeouts s).reveals
  | enter newState _ _ =>
    obtain ⟨wheel, read, write, idle, heq⟩ := enterState_eq s newState
    rw [heq]
    rfl
  | close =>
    have hclose : Reveals True True s _ s.handleClose := reveals_handleClose (.inl trivial)
    exact hclose.hasKeepAliveManager
  | expire timeoutType =>
    have hexpire : Reveals True True s _ (s.onTimeout timeoutType) :=
      reveals_onTimeout (.inl trivial) timeoutType
    exact hexpire.hasKeepAliveManager
  | _ => rfl

lemma Acts.hasKeepAliveManager (h : Acts sets late s t) :
    t.conn.hasKeepAliveManager = s.conn.hasKeepAliveManager :=
  h.induction (P := fun u => u.conn.hasKeepAliveManager = s.conn.hasKeepAliveManager)
    (fun _ _ hact hu => hact.hasKeepAliveManager.trans hu) rfl

end acts

def entry (s : Session) : Option KeepAliveState := s.keepAlive.getConnectionState s.conn.fd

/-- What becomes of the entries when a connection takes up `n` requests. -/
structure Accounts (s t : Session) (n : ℕ) : Prop where
  fd : t.conn.fd = s.conn.fd
  hasKeepAliveManager : t.conn.hasKeepAliveManager = s.conn.hasKeepAliveManager
  stays : s.conn.state = .kClosed → t.conn.state = .kClosed
  others : ∀ fd, fd ≠ s.conn.fd →
    t.keepAlive.getConnectionState fd = s.keepAlive.getConnectionState fd
  count : t.conn.state ≠ .kClosed →
    t.keepAlive.requestCount s.conn.fd = s.keepAlive.requestCount s.conn.fd + n
  gone : (s.conn.state = .kClosed → s.entry = none) → t.conn.state = .kClosed → t.entry = none

lemma Accounts.trans {s t u : Session} {n m : ℕ} (h : Accounts s t n) (h' : Accounts t u m) :
    Accounts s u (n + m) where
  fd := h'.fd.trans h.fd
  hasKeepAliveManager := h'.hasKeepAliveManager.trans h.hasKeepAliveManager
  stays := fun hclosed => h'.stays (h.stays hclosed)
  others := by
    intro fd hne
    rw [h'.others fd (by rwa [h.fd]), h.others fd hne]
  count := by
    intro hopen
    have hcount := h.count fun hclosed => hopen (h'.stays hclosed)
    have hcount' := h'.count hopen
    rw [h.fd] at hcount'
    rw [hcount', hcount, Nat.add_assoc]
  gone := fun hs => h'.gone (h.gone hs)

lemma Accounts.refl (s : Session) : Accounts s s 0 :=
  ⟨rfl, rfl, id, fun _ _ => rfl, fun _ => rfl, id⟩

/-- A change that is invisible to the keep-alive manager. -/
lemma accounts_of_same {s t : Session} (hfd : t.conn.fd = s.conn.fd)
    (hmanager : t.conn.hasKeepAliveManager = s.conn.hasKeepAliveManager)
    (hstate : t.conn.state = s.conn.state) (hkeepAlive : t.keepAlive = s.keepAlive) :
    Accounts s t 0 := by
  refine ⟨hfd, hmanager, fun hclosed => hstate.trans hclosed, fun fd _ => by rw [hkeepAlive],
    fun _ => by rw [hkeepAlive, Nat.add_zero], fun hs hclosed => ?_⟩
  rw [entry, hkeepAlive, hfd]
  exact hs (hstate.symm.trans hclosed)

/-- A function that takes up no request changes the entry by closing the connection only. -/
lemma Reveals.accounts {s t : Session} {sights : List Sight} (h : Reveals True True s sights t)
    (hmanager : s.conn.hasKeepAliveManager = true) : Accounts s t 0 := by
  have hkeepAlive := h.keepAlive trivial
  cases hany : sights.any Sight.isClose with
  | false =>
    have hstate : t.conn.state = .kClosed → s.conn.state = .kClosed := by
      intro hclosed
      simpa [hany] using h.leads.closed_iff.mp hclosed
    rw [hany, if_neg Bool.false_ne_true] at hkeepAlive
    refine ⟨h.fd, h.hasKeepAliveManager, fun hclosed => h.leads.closed_iff.mpr (.inl hclosed),
      fun fd _ => by rw [hkeepAlive], fun _ => by rw [hkeepAlive, Nat.add_zero],
      fun hs hclosed => ?_⟩
    rw [entry, hkeepAlive, h.fd]
    exact hs (hstate hclosed)
  | true =>
    have hclosed : t.conn.state = .kClosed := h.leads.closed_iff.mpr (.inr hany)
    rw [hany, if_pos rfl, closeKeepAlive, if_pos hmanager] at hkeepAlive
    refine ⟨h.fd, h.hasKeepAliveManager, fun _ => hclosed, fun fd hne => ?_,
      fun hopen => absurd hclosed hopen, fun _ _ => ?_⟩
    · rw [hkeepAlive]
      exact KeepAliveManager.getConnectionState_close_of_ne hne _
    · rw [entry, hkeepAlive, h.fd]
      exact KeepAliveManager.getConnectionState_close _ _

/-- The requests are those that the trace shows. -/
structure Takes (s t : Session) (n : ℕ) : Prop extends Accounts s t n where
  requests : t.trace.countP Event.isRequest = s.trace.countP Event.isRequest + n

lemma Takes.trans {s t u : Session} {n m : ℕ} (h : Takes s t n) (h' : Takes t u m) :
    Takes s u (n + m) where
  toAccounts := h.toAccounts.trans h'.toAccounts
  requests := by rw [h'.requests, h.requests, Nat.add_assoc]

lemma Takes.refl (s : Session) : Takes s s 0 := ⟨Accounts.refl s, rfl⟩

lemma Takes.after {s t u : Session} {n : ℕ} (h : Takes s t 0) (h' : Takes t u n) : Takes s u n := by
  have hboth := h.trans h'
  rwa [Nat.zero_add] at hboth

lemma Reveals.takes {s t : Session} {sights : List Sight} (h : Reveals True True s sights t)
    (hmanager : s.conn.hasKeepAliveManager = true) : Takes s t 0 :=
  ⟨h.accounts hmanager, h.requests⟩

lemma takes_note (s : Session) {event : Event} (h : event.isRequest = false) :
    Takes s (s.note event) 0 :=
  ⟨accounts_of_same rfl rfl rfl rfl, by simp [note, h]⟩

lemma takes_noteAccess (s : Session) (accessed : List Bytes) :
    Takes s (s.noteAll (accessed.map .access)) 0 := by
  have hnone : (accessed.map Event.access).countP Event.isRequest = 0 :=
    List.countP_eq_zero.mpr (by simp [Event.isRequest])
  refine ⟨accounts_of_same rfl rfl rfl rfl, ?_⟩
  rw [noteAll, List.countP_append, hnone]

lemma takes_setInput (s : Session) (inputBuffer : Bytes) (httpParser : HttpRequest) :
    Takes s (s.setInput inputBuffer httpParser) 0 :=
  ⟨accounts_of_same rfl rfl rfl rfl, rfl⟩

section manager

variable {s : Session} (hmanager : s.conn.hasKeepAliveManager = true)
include hmanager

lemma takes_send (data : Bytes) : Takes s (s.send data) 0 :=
  (reveals_send s data).takes hmanager

lemma takes_sendResponse (response : HttpResponse) : Takes s (s.sendResponse response) 0 := by
  have hsend := takes_send hmanager response.headerString
  have hmanager' := hsend.hasKeepAliveManager.trans hmanager
  rw [sendResponse]
  cases response.fileBody with
  | some resource => exact hsend.after ((reveals_sendResource _ resource).takes hmanager')
  | none => exact hsend.after (takes_send hmanager' _)

lemma takes_shutdown : Takes s s.shutdown 0 := (reveals_shutdown s).takes hmanager

/-! ### Turns of the message loop -/

lemma accepting_keepAlive (request : HttpRequest) :
    (s.accepting env request).keepAlive =
      s.keepAlive.onRequestStart s.conn.fd request.isKeepAlive env.keepAliveTimeout := by
  rw [accepting, onRequestStart]
  exact congrArg Session.keepAlive (congrArg (note · _) (if_pos hmanager))

lemma takes_accepting (hopen : s.conn.state ≠ .kClosed) (request : HttpRequest) :
    Takes s (s.accepting env request) 1 := by
  have hkeepAlive := accepting_keepAlive env hmanager request
  obtain ⟨keepAlive, heq⟩ := accepting_eq env s request
  rw [heq] at hkeepAlive ⊢
  dsimp only at hkeepAlive
  subst hkeepAlive
  refine ⟨⟨rfl, rfl, id, fun fd hne => ?_, fun _ => ?_, fun _ hclosed => absurd hclosed hopen⟩, ?_⟩
  · exact KeepAliveManager.getConnectionState_start_of_ne hne _ _ _
  · exact KeepAliveManager.requestCount_start _ _ _ _
  · rw [List.countP_append]
    rfl

/-- What follows in the turn takes up nothing more. -/
lemma takes_handleRequest (headerEnd : ℕ) (request : HttpRequest) :
    Takes (s.accepting env request) (s.handleRequest env headerEnd request).1 0 := by
  have haccepting : (s.accepting env request).conn.hasKeepAliveManager = true := by
    obtain ⟨keepAlive, heq⟩ := accepting_eq env s request
    rw [heq]
    exact hmanager
  rcases handleRequest_cases env s headerEnd request with
    ⟨accessed, -, heq⟩ | ⟨response, resources, accessed, -, heq⟩
  · rw [heq]
    exact takes_noteAccess _ accessed
  · have hcache : Takes (s.accepting env request)
        { s.accepting env request with resources := resources } 0 :=
      ⟨accounts_of_same rfl rfl rfl rfl, rfl⟩
    have hready : Takes (s.accepting env request)
        (s.responding env request response resources accessed) 0 :=
      (hcache.after (takes_noteAccess _ accessed)).after (takes_note _ rfl)
    have hsent := hready.after
      (takes_sendResponse (hready.hasKeepAliveManager.trans haccepting) response)
    have hreset := hsent.after
      (takes_setInput _ (s.conn.inputBuffer.drop (headerEnd + 4)) .reset)
    rcases heq with heq | heq
    · rw [heq]
      exact hreset.after (takes_shutdown (hreset.hasKeepAliveManager.trans haccepting))
    · rw [heq]
      exact hreset

/-- A turn that finds no request of a closed connection. -/
lemma takes_messageTurn (h : s.conn.state = .kClosed → ¬ s.FindsRequest) :
    ∃ n, Takes s (s.messageTurn env).1 n := by
  cases hfind : Bytes.find headEnd s.conn.inputBuffer with
  | none =>
    refine ⟨0, ?_⟩
    simp only [messageTurn, hfind]
    exact Takes.refl s
  | some headerEnd =>
    have hnote : Takes s (s.note (.parse s.conn.inputBuffer)) 0 := takes_note s rfl
    rw [messageTurn_of_find env hfind]
    split_ifs with hparsed
    · have hopen : s.conn.state ≠ .kClosed := fun hclosed => h hclosed ⟨_, hfind, hparsed⟩
      have haccepting := takes_accepting env (s := s.note (.parse s.conn.inputBuffer)) hmanager
        hopen (s.conn.httpParser.parse s.conn.inputBuffer).2
      exact ⟨1, hnote.after (haccepting.trans (takes_handleRequest env
        (s := s.note (.parse s.conn.inputBuffer)) hmanager _ _))⟩
    · have hset := hnote.after
        (takes_setInput _ [] (s.conn.httpParser.parse s.conn.inputBuffer).2)
      exact ⟨0, hset.after (takes_shutdown (hset.hasKeepAliveManager.trans hmanager))⟩

end manager

/-! ### A request of a closed connection -/

/-- The connection is closed, and the manager has an entry for it all the same. -/
def Lingers (s : Session) : Prop := s.conn.state = .kClosed ∧ s.entry ≠ none

lemma not_isConnected_of_closed {s : Session} (h : s.conn.state = .kClosed) :
    ¬ s.conn.isConnected := fun hconn => hconn.1 h

/-- Nothing but the beginning of the request changes the entries. -/
lemma keepAlive_handleRequest_of_not_isConnected {s : Session} (h : ¬ s.conn.isConnected)
    (headerEnd : ℕ) (request : HttpRequest) :
    (s.handleRequest env headerEnd request).1.keepAlive =
      (s.accepting env request).keepAlive := by
  rcases handleRequest_cases env s headerEnd request with
    ⟨accessed, -, heq⟩ | ⟨response, resources, accessed, -, heq⟩
  · rw [heq]
    rfl
  · have hready := responding_rests env s request response resources accessed
    have hstopped := not_isConnected_of_queues hready.queues h
    have hset : ¬ ((s.responding env request response resources accessed).setInput
        (s.conn.inputBuffer.drop (headerEnd + 4)) .reset).conn.isConnected := hstopped
    rw [answered, sendResponse_of_not_isConnected hstopped] at heq
    rcases heq with heq | heq
    · rw [heq, shutdown_of_not_isConnected hset]
      rfl
    · rw [heq]
      rfl

/-- A request that is found for a closed connection leaves an entry behind. -/
lemma lingers_of_findsRequest {s : Session} (hmanager : s.conn.hasKeepAliveManager = true)
    (hclosed : s.conn.state = .kClosed) (hfinds : s.FindsRequest) :
    (s.messageTurn env).1.Lingers := by
  obtain ⟨headerEnd, hfind, hparsed⟩ := hfinds
  have hstopped := not_isConnected_of_closed hclosed
  have hrests := messageTurn_of_not_isConnected env hstopped
  refine ⟨hrests.queues.state.trans hclosed, ?_⟩
  rw [entry, hrests.fd, messageTurn_of_find env hfind, if_pos hparsed,
    keepAlive_handleRequest_of_not_isConnected env (s := s.note _) hstopped,
    accepting_keepAlive env (s := s.note _) hmanager]
  exact KeepAliveManager.getConnectionState_start _ _ _ _

/-- Nobody takes it out in the turns that follow. -/
lemma lingers_messageTurn {s : Session} (hmanager : s.conn.hasKeepAliveManager = true)
    (h : s.Lingers) : (s.messageTurn env).1.Lingers := by
  obtain ⟨hclosed, hentry⟩ := h
  by_cases hfinds : s.FindsRequest
  · exact lingers_of_findsRequest env hmanager hclosed hfinds
  · have hstopped := not_isConnected_of_closed hclosed
    have hrests := messageTurn_of_not_isConnected env hstopped
    refine ⟨hrests.queues.state.trans hclosed, ?_⟩
    cases hfind : Bytes.find headEnd s.conn.inputBuffer with
    | none =>
      simp only [messageTurn, hfind]
      exact hentry
    | some headerEnd =>
      have hmalformed : (s.conn.httpParser.parse s.conn.inputBuffer).1 ≠ true :=
        fun hparsed => hfinds ⟨headerEnd, hfind, hparsed⟩
      have hset : ¬ ((s.note (.parse s.conn.inputBuffer)).setInput []
          (s.conn.httpParser.parse s.conn.inputBuffer).2).conn.isConnected := hstopped
      rw [messageTurn_of_find env hfind, if_neg hmalformed]
      dsimp only
      rw [handleMalformed, shutdown_of_not_isConnected hset]
      exact hentry

lemma hasKeepAliveManager_messageTurn (s : Session) :
    (s.messageTurn env).1.conn.hasKeepAliveManager = s.conn.hasKeepAliveManager := by
  have hacts : Acts Short True s (s.messageTurn env).1 := acts_messageTurn env s
  exact hacts.hasKeepAliveManager

lemma lingers_onMessage {s : Session} (hmanager : s.conn.hasKeepAliveManager = true)
    (h : s.Lingers) : (s.onMessage env).Lingers := by
  have hrun := onMessage_induction env
    (P := fun s t => s.conn.hasKeepAliveManager = true → s.Lingers → t.Lingers)
    (fun s _ hmanager hs => lingers_messageTurn env hmanager hs)
    (fun s t _ ih hmanager hs => ih ((hasKeepAliveManager_messageTurn env s).trans hmanager)
      (lingers_messageTurn env hmanager hs)) s
  exact hrun hmanager h

lemma lingers_of_startsLate {s : Session} (hmanager : s.conn.hasKeepAliveManager = true)
    (h : s.StartsLate env) : (s.onMessage env).Lingers := by
  obtain ⟨t, hturns, hclosed, hfinds⟩ := h
  induction hturns with
  | refl s =>
    have hturn := lingers_of_findsRequest env hmanager hclosed hfinds
    rw [onMessage_eq]
    split_ifs
    · exact lingers_onMessage env ((hasKeepAliveManager_messageTurn env s).trans hmanager) hturn
    · exact hturn
  | next h hrest ih =>
    rw [onMessage_eq, if_pos h]
    exact ih ((hasKeepAliveManager_messageTurn env _).trans hmanager) hclosed hfinds

/-- A loop that takes up no request for a closed connection. -/
lemma takes_onMessage {s : Session} (hmanager : s.conn.hasKeepAliveManager = true)
    (h : ¬ s.StartsLate env) : ∃ n, Takes s (s.onMessage env) n := by
  have hfirst : ∀ {s : Session}, ¬ s.StartsLate env → s.conn.state = .kClosed →
      ¬ s.FindsRequest := fun hs hclosed hfinds => hs ⟨_, .refl _, hclosed, hfinds⟩
  have hrun := onMessage_induction env
    (P := fun s t => s.conn.hasKeepAliveManager = true → ¬ s.StartsLate env → ∃ n, Takes s t n)
    (fun s _ hmanager hs => takes_messageTurn env hmanager (hfirst hs))
    (fun s t hgoes ih hmanager hs => by
      obtain ⟨n, hturn⟩ := takes_messageTurn env hmanager (hfirst hs)
      have hlater : ¬ (s.messageTurn env).1.StartsLate env := by
        rintro ⟨u, hturns, hu⟩
        exact hs ⟨u, .next hgoes hturns, hu⟩
      obtain ⟨m, hrest⟩ := ih (hturn.hasKeepAliveManager.trans hmanager) hlater
      exact ⟨n + m, hturn.trans hrest⟩) s
  exact hrun hmanager h

/-! ### Handlers -/

lemma handleRead_onMessage (s : Session) (reads : List ReadResult) :
    s.handleRead (some (onMessage env)) reads = (s.filled reads).onMessage env := by
  rw [handleRead_some]
  split_ifs with hempty
  · have hfind : Bytes.find headEnd (s.filled reads).conn.inputBuffer = none := by
      rw [hempty]
      rfl
    rw [onMessage_of_find_none env hfind]
  · rfl

end Session

namespace Handler

variable (env : ServerEnv)

/-- The requests that a handler takes up. -/
def requests (s : Session) : Handler → ℕ
  | .read reads =>
    (s.handleRead (some (Session.onMessage env)) reads).trace.countP Event.isRequest
  | .write => 0
  | .operate op => if op.startsRequest then 1 else 0

/-- The message callback takes up a request for a connection that is closed. -/
def StartsLate (s : Session) : Handler → Prop
  | .read reads => (s.filled reads).StartsLate env
  | _ => False

variable {env} {s : Session}

lemma accounts_operate (hmanager : s.conn.hasKeepAliveManager = true)
    (hopen : s.conn.state ≠ .kClosed) (op : ConnOp) :
    Session.Accounts s (s.operate op) (if op.startsRequest then 1 else 0) := by
  cases hstarts : op.startsRequest with
  | false => exact (Session.reveals_operate s fun _ => hstarts).accounts hmanager
  | true =>
    cases op with
    | onRequestStart keepAlive idleTimeout =>
      rw [Session.operate, Session.onRequestStart, if_pos hmanager, if_pos rfl]
      refine ⟨rfl, rfl, id, fun fd hne => ?_, fun _ => ?_, fun _ hclosed => absurd hclosed hopen⟩
      · exact KeepAliveManager.getConnectionState_start_of_ne hne _ _ _
      · exact KeepAliveManager.requestCount_start _ _ _ _
    | _ => cases hstarts

/-- Requests that find their connection open are counted in its entry. -/
lemma accounts_run (hmanager : s.conn.hasKeepAliveManager = true)
    (hopen : s.conn.state ≠ .kClosed) (htrace : s.trace = []) {handler : Handler}
    (h : ¬ handler.StartsLate env s) :
    Session.Accounts s (handler.run env s) (handler.requests env s) := by
  cases handler with
  | read reads =>
    have hfilled : Session.Takes s (s.filled reads) 0 :=
      (Session.reveals_filled (.inl trivial) reads).takes hmanager
    obtain ⟨n, hloop⟩ := Session.takes_onMessage env
      (hfilled.hasKeepAliveManager.trans hmanager) h
    have hall := hfilled.after hloop
    have hn : (s.filled reads |>.onMessage env).trace.countP Event.isRequest = n := by
      rw [hall.requests, htrace, List.countP_nil, Nat.zero_add]
    rw [run, requests, Session.handleRead_onMessage, hn]
    exact hall.toAccounts
  | write => exact (Session.reveals_handleWrite s).accounts hmanager
  | operate op => exact accounts_operate hmanager hopen op

lemma lingers_run (hmanager : s.conn.hasKeepAliveManager = true) {handler : Handler}
    (h : handler.StartsLate env s) : (handler.run env s).Lingers := by
  cases handler with
  | read reads =>
    have hfilled : Session.Takes s (s.filled reads) 0 :=
      (Session.reveals_filled (.inl trivial) reads).takes hmanager
    rw [run, Session.handleRead_onMessage]
    exact Session.lingers_of_startsLate env (hfilled.hasKeepAliveManager.trans hmanager) h
  | write => exact h.elim
  | operate op => exact h.elim

end Handler

end TinyWebServer
