import TinyWebServer.Net.BackPressure

/-!
# Read interest

Whether the loop waits for the read event of a connection is meant to follow the input buffer. It
does not where something is written, or the buffer drained from outside, while the buffer is over
its limit.
-/

namespace TinyWebServer

namespace Session

/-- In `kConnected` the loop waits for the read event if and only if the input buffer is within its
limit. -/
def FollowsBuffer (s : Session) : Prop :=
  s.conn.state = .kConnected →
    (s.awaits Epoll.EPOLLIN = true ↔ s.conn.inputBuffer.length ≤ s.conn.maxInputBuffer)

/-- A payload goes to `writev`, which does not fail. -/
def SendsOut (s : Session) (data : NodeData) : Prop :=
  data.bytes ≠ [] ∧
    s.conn.outputBuffer.totalBytes + data.bytes.length ≤ s.conn.maxOutputBuffer ∧
    s.kernel 0 ≠ .failed

/-- The callback answers the first head that the buffer holds behind the read event, and what comes
behind that head is over the limit. -/
def Piles (env : ServerEnv) (s : Session) (reads : List ReadResult) : Prop :=
  let buffer := s.conn.inputBuffer ++ ReadResult.received reads
  ReadResult.ends reads = false ∧
    ∃ headerEnd request response, Bytes.find headEnd buffer = some headerEnd ∧
      s.conn.httpParser.parse buffer = (true, request) ∧
      (env.answer s.resources request).1.map Prod.fst = some response ∧
      s.SendsOut (.string response.headerString) ∧
      s.conn.maxInputBuffer + (headerEnd + 4) < buffer.length

/-- The handler writes while the input buffer is over its limit, or drains it without
`ClearReadBuffer`. -/
def Disregards (env : ServerEnv) (s : Session) : Handler → Prop
  | .read reads => s.conn.state = .kConnected ∧ s.Piles env reads
  | .write => s.conn.state = .kConnected ∧ s.conn.checkInputBufferLimit = true ∧
      s.conn.outputBuffer.getIov 16 ≠ [] ∧ s.kernel 0 ≠ .failed
  | .operate (.send data) => s.conn.state = .kConnected ∧ s.conn.checkInputBufferLimit = true ∧
      s.SendsOut (.string data)
  | .operate (.sendResource resource) => s.conn.state = .kConnected ∧
      s.conn.checkInputBufferLimit = true ∧ s.SendsOut (.mmap resource)
  | .operate (.setInput inputBuffer _) => s.conn.state = .kConnected ∧
      s.conn.checkInputBufferLimit = true ∧ inputBuffer.length ≤ s.conn.maxInputBuffer
  | _ => False

lemma checkInputBufferLimit_iff (s : Session) :
    s.conn.checkInputBufferLimit = true ↔
      ¬ s.conn.inputBuffer.length ≤ s.conn.maxInputBuffer := by
  rw [Connection.checkInputBufferLimit, decide_eq_true_eq, not_le]

/-! ### Within the limit -/

lemma Shrinks.within {s t : Session} (h : Shrinks s t)
    (hwithin : s.conn.inputBuffer.length ≤ s.conn.maxInputBuffer) :
    t.conn.inputBuffer.length ≤ t.conn.maxInputBuffer := by
  rw [Connection.maxInputBuffer, h.config]
  exact h.inputBuffer.length_le.trans hwithin

/-- Within the limit nothing goes wrong. -/
lemma Eases.follows {s t : Session} (h : Eases s t) (hs : s.FollowsBuffer)
    (hwithin : s.conn.inputBuffer.length ≤ s.conn.maxInputBuffer) : t.FollowsBuffer := by
  intro ht
  have hlistens : s.awaits Epoll.EPOLLIN = true := (hs (h.state ht)).mpr hwithin
  exact iff_of_true (h.interest ht hlistens) (h.shrinks.within hwithin)

lemma Unmoved.follows {s t : Session} (h : Unmoved s t) (hs : s.FollowsBuffer) :
    t.FollowsBuffer := by
  intro ht
  rw [h.interest, h.inputBuffer, Connection.maxInputBuffer, h.config]
  exact hs (h.state.symm.trans ht)

lemma followsBuffer_of_left {s : Session} (h : s.conn.state ≠ .kConnected) : s.FollowsBuffer :=
  fun hconnected => absurd hconnected h

/-! ### Writing -/

lemma followsBuffer_handleWrite (env : ServerEnv) {s : Session} (hs : s.FollowsBuffer)
    (h : ¬ s.Disregards env .write) : s.handleWrite.FollowsBuffer := by
  by_cases hwithin : s.conn.inputBuffer.length ≤ s.conn.maxInputBuffer
  · exact (eases_handleWrite s).follows hs hwithin
  · rcases handleWrite_listens s with ⟨-, heq⟩ | ⟨-, hclosed⟩ |
        ⟨hiov, hkernel, hstate, -⟩
    · rwa [heq]
    · exact followsBuffer_of_left (by simp [hclosed])
    · apply followsBuffer_of_left
      rw [hstate]
      intro hconnected
      exact h ⟨hconnected, (checkInputBufferLimit_iff s).mpr hwithin, hiov, hkernel⟩

lemma followsBuffer_appendInLoop (env : ServerEnv) {s : Session} (hs : s.FollowsBuffer) {data : NodeData}
    (h : ¬ (s.conn.state = .kConnected ∧ s.conn.checkInputBufferLimit = true ∧
      s.SendsOut data)) : (s.appendInLoop data).FollowsBuffer := by
  by_cases hwithin : s.conn.inputBuffer.length ≤ s.conn.maxInputBuffer
  · exact (eases_appendInLoop s data).follows hs hwithin
  · rw [appendInLoop]
    split_ifs with hnil hfull
    · exact hs
    · exact followsBuffer_of_left (by simp [state_handleClose])
    · change (s.appended data).handleWrite.FollowsBuffer
      have happended := unmoved_appended s data
      apply followsBuffer_handleWrite env (happended.follows hs)
      rintro ⟨hconnected, -, -, hkernel⟩
      exact h ⟨hconnected, (checkInputBufferLimit_iff s).mpr hwithin, hnil, not_lt.mp hfull,
        hkernel⟩

/-- A payload that is sent in `kConnected` closes the connection, or has the loop wait for the read
event. -/
lemma send_listens {s : Session} (hconnected : s.conn.state = .kConnected) {data : Bytes}
    (h : data ≠ []) :
    (s.send data).conn.state = .kClosed ∨
      (s.SendsOut (.string data) ∧ (s.send data).awaits Epoll.EPOLLIN = true) := by
  have hconn : s.conn.isConnected := by simp [Connection.isConnected, hconnected]
  have hne : (NodeData.string data).bytes ≠ [] := h
  rw [send, if_neg (not_not.mpr hconn), sendInLoop, appendInLoop, if_neg hne]
  split_ifs with hfull
  · exact .inl (state_handleClose s)
  · change (s.appended (.string data)).handleWrite.conn.state = _ ∨
      (_ ∧ (s.appended (.string data)).handleWrite.awaits _ = _)
    rcases handleWrite_listens (s.appended (.string data)) with ⟨hidle, -⟩ | ⟨-, hclosed⟩ |
        ⟨-, hkernel, -, hlistens⟩
    · rcases hidle with hclosed | hempty
      · exact absurd (hconnected.symm.trans hclosed) (by decide)
      · exact absurd hempty (s.conn.outputBuffer.getIov_append_ne_nil hne 15)
    · exact .inl hclosed
    · exact .inr ⟨⟨hne, not_lt.mp hfull, hkernel⟩, hlistens⟩

/-! ### The message callback -/

section callback

variable (env : ServerEnv)

/-- A response that is sent in `kConnected` closes the connection, or has the loop wait for the
read event. -/
lemma sendResponse_listens {s : Session} (hconnected : s.conn.state = .kConnected)
    {response : HttpResponse} (h : response.headerString ≠ [])
    (ht : (s.sendResponse response).conn.state = .kConnected) :
    s.SendsOut (.string response.headerString) ∧
      (s.sendResponse response).awaits Epoll.EPOLLIN = true := by
  have hheader : Eases (s.send response.headerString) (s.sendResponse response) := by
    rw [sendResponse]
    cases response.fileBody with
    | some resource => exact eases_sendResource _ resource
    | none => exact eases_send _ _
  rcases send_listens hconnected h with hclosed | ⟨hsends, hlistens⟩
  · exact absurd ((hheader.state ht).symm.trans hclosed) (by decide)
  · exact ⟨hsends, hheader.interest ht hlistens⟩

/-- The loop answers the first head, and what is behind that is within the limit. -/
lemma followsBuffer_handleRequest {s : Session} (hconnected : s.conn.state = .kConnected)
    (hs : s.FollowsBuffer) {headerEnd : ℕ} (request : HttpRequest)
    (hrest : ∀ response, (env.answer s.resources request).1.map Prod.fst = some response →
      s.SendsOut (.string response.headerString) →
      s.conn.inputBuffer.length ≤ s.conn.maxInputBuffer + (headerEnd + 4)) :
    (s.handleRequest env headerEnd request).1.FollowsBuffer ∧
      ((s.handleRequest env headerEnd request).2 = true →
        (s.handleRequest env headerEnd request).1.conn.state = .kConnected →
          (s.handleRequest env headerEnd request).1.conn.inputBuffer.length ≤
            (s.handleRequest env headerEnd request).1.conn.maxInputBuffer) := by
  rcases handleRequest_cases env s headerEnd request with
    ⟨accessed, -, heq⟩ | ⟨response, resources, accessed, hanswer, heq⟩
  · rw [heq]
    refine ⟨(unmoved_thrown env s request accessed).follows hs, ?_⟩
    rintro ⟨⟩
  · obtain ⟨keepAlive, hresponding⟩ := responding_eq env s request response resources accessed
    let ready := s.responding env request response resources accessed
    let t := s.answered env headerEnd request response resources accessed
    have hready : Unmoved s ready := unmoved_responding env s request response resources accessed
    have hsends : ready.SendsOut (.string response.headerString) ↔
        s.SendsOut (.string response.headerString) := by
      simp only [ready, hresponding]
      rfl
    have hconfig : t.conn.config = s.conn.config :=
      (keepsInput_sendResponse ready response).config.trans hready.config
    have hstill : t.conn.state = .kConnected → t.awaits Epoll.EPOLLIN = true ∧
        t.conn.inputBuffer.length ≤ t.conn.maxInputBuffer := by
      intro hstill
      obtain ⟨hsent, hlistens⟩ := sendResponse_listens (hready.state.trans hconnected)
        (env.headerString_ne_nil hanswer) hstill
      refine ⟨hlistens, ?_⟩
      have hlength := hrest response (by rw [hanswer]; rfl) (hsends.mp hsent)
      rw [Connection.maxInputBuffer, hconfig]
      change (s.conn.inputBuffer.drop (headerEnd + 4)).length ≤ s.conn.maxInputBuffer
      rw [List.length_drop]
      exact Nat.sub_le_of_le_add hlength
    rcases heq with heq | heq
    · rw [heq]
      refine ⟨followsBuffer_of_left (state_shutdown_ne t), ?_⟩
      rintro ⟨⟩
    · rw [heq]
      exact ⟨fun ht => iff_of_true (hstill ht).1 (hstill ht).2, fun _ ht => (hstill ht).2⟩

/-- The callback of the server puts the interest right, unless it answers a first head behind which
the buffer is over the limit. -/
lemma followsBuffer_onMessage {s : Session} (hconnected : s.conn.state = .kConnected)
    (hs : s.FollowsBuffer)
    (hrest : ∀ headerEnd request response,
      Bytes.find headEnd s.conn.inputBuffer = some headerEnd →
      s.conn.httpParser.parse s.conn.inputBuffer = (true, request) →
      (env.answer s.resources request).1.map Prod.fst = some response →
      s.SendsOut (.string response.headerString) →
      s.conn.inputBuffer.length ≤ s.conn.maxInputBuffer + (headerEnd + 4)) :
    (s.onMessage env).FollowsBuffer := by
  cases hfind : Bytes.find headEnd s.conn.inputBuffer with
  | none => rwa [onMessage_of_find_none env hfind]
  | some headerEnd =>
    have hnote : Unmoved s (s.note (.parse s.conn.inputBuffer)) := ⟨rfl, rfl, rfl, rfl⟩
    rw [onMessage_eq, messageTurn_of_find env hfind]
    cases hparse : s.conn.httpParser.parse s.conn.inputBuffer with
    | mk parsed request =>
      cases parsed with
      | false => exact followsBuffer_of_left (state_shutdown_ne _)
      | true =>
        obtain ⟨hturn, hwithin⟩ := followsBuffer_handleRequest env
          (s := s.note (.parse s.conn.inputBuffer)) hconnected (hnote.follows hs) request
          fun response => hrest headerEnd request response hfind hparse
        rw [if_pos rfl]
        split_ifs with hgoes
        · intro ht
          have hstill := (eases_onMessage env _).state ht
          exact (eases_onMessage env _).follows hturn (hwithin hgoes hstill) ht
        · exact hturn

end callback

/-! ### Reading -/

lemma timersOnly_append_nil (s : Session) :
    TimersOnly { s with conn := { s.conn with inputBuffer := s.conn.inputBuffer ++ [] } } s := by
  rw [List.append_nil]
  exact TimersOnly.refl s

/-- A read loop that does not close the connection fills the buffer and sets timers. -/
lemma timersOnly_readAll {s : Session} {reads : List ReadResult}
    (h : ReadResult.ends reads = false) :
    TimersOnly { s with conn :=
      { s.conn with inputBuffer := s.conn.inputBuffer ++ ReadResult.received reads } }
      (s.readAll reads) := by
  induction reads generalizing s with
  | nil => exact timersOnly_append_nil s
  | cons read reads ih =>
    cases read with
    | data data =>
      let appended : Session :=
        { s with conn := { s.conn with inputBuffer := s.conn.inputBuffer ++ data } }
      obtain ⟨wheel, read, write, idle, heq⟩ := timersOnly_updateActivityTimestamp appended
      obtain ⟨wheel', read', write', idle', heq'⟩ :=
        ih (s := appended.updateActivityTimestamp) h
      refine ⟨wheel', read', write', idle', ?_⟩
      rw [readAll]
      dsimp only
      rw [heq', heq, ReadResult.received, ← List.append_assoc]
      rfl
    | eof => cases h
    | again => exact timersOnly_append_nil s
    | failed => cases h

/-- What the callback finds. -/
structure Fills (s : Session) (reads : List ReadResult) (t : Session) : Prop where
  state : t.conn.state = s.conn.state
  inputBuffer : t.conn.inputBuffer = s.conn.inputBuffer ++ ReadResult.received reads
  maxInputBuffer : t.conn.maxInputBuffer = s.conn.maxInputBuffer
  httpParser : t.conn.httpParser = s.conn.httpParser
  resources : t.resources = s.resources
  sendsOut : ∀ data, t.SendsOut data ↔ s.SendsOut data

lemma fills_filled {s : Session} {reads : List ReadResult} (h : ReadResult.ends reads = false) :
    Fills s reads (s.filled reads) := by
  obtain ⟨wheel, read, write, idle, heq⟩ := timersOnly_readAll (s := s) h
  rw [filled, heq]
  dsimp only
  split_ifs <;> exact ⟨rfl, rfl, rfl, rfl, rfl, fun _ => Iff.rfl⟩

lemma followsBuffer_filled {s : Session} (hlistens : s.awaits Epoll.EPOLLIN = true)
    (reads : List ReadResult) : (s.filled reads).FollowsBuffer := by
  intro hconnected
  have hread := readsAll_readAll s reads
  by_cases hends : ReadResult.ends reads = true
  · rw [(filled_queues s reads).state, hread.state, if_pos hends] at hconnected
    cases hconnected
  · by_cases hfull : s.Overfills reads
    · have hover : ¬ (s.readAll reads).conn.inputBuffer.length ≤
          (s.readAll reads).conn.maxInputBuffer :=
        (checkInputBufferLimit_iff _).mp ((checkInputBufferLimit_readAll s reads).mpr hfull)
      rw [filled_of_overfills hfull]
      refine iff_of_false ?_ hover
      rw [pauseReading, awaits_updateEvent]
      decide
    · have hwithin : (s.readAll reads).conn.inputBuffer.length ≤
          (s.readAll reads).conn.maxInputBuffer := by
        by_contra hover
        exact hfull ((checkInputBufferLimit_readAll s reads).mp
          ((checkInputBufferLimit_iff _).mpr hover))
      rw [filled_of_not_overfills hfull]
      refine iff_of_true ?_ hwithin
      obtain ⟨wheel, read, write, idle, heq⟩ := timersOnly_readAll (s := s)
        (Bool.eq_false_iff.mpr hends)
      rw [heq]
      exact hlistens

lemma followsBuffer_handleRead (env : ServerEnv) {s : Session}
    (hlistens : s.awaits Epoll.EPOLLIN = true) {reads : List ReadResult}
    (h : ¬ s.Disregards env (.read reads)) :
    (s.handleRead (some (onMessage env)) reads).FollowsBuffer := by
  have hfilled := followsBuffer_filled hlistens reads
  rw [handleRead_some]
  split_ifs
  · exact hfilled
  · by_cases hconnected : (s.filled reads).conn.state = .kConnected
    · have hopen : ReadResult.ends reads = false := by
        by_contra hends
        rw [(filled_queues s reads).state, (readsAll_readAll s reads).state,
          if_pos (by simpa using hends)] at hconnected
        cases hconnected
      have hfills := fills_filled (s := s) hopen
      apply followsBuffer_onMessage env hconnected hfilled
      intro headerEnd request response hfind hparse hanswer hsends
      rw [hfills.inputBuffer] at hfind
      rw [hfills.inputBuffer, hfills.httpParser] at hparse
      rw [hfills.resources] at hanswer
      rw [hfills.inputBuffer, hfills.maxInputBuffer]
      by_contra hpiles
      exact h ⟨hfills.state.symm.trans hconnected, hopen, headerEnd, request, response, hfind,
        hparse, hanswer, (hfills.sendsOut _).mp hsends, not_le.mp hpiles⟩
    · exact followsBuffer_of_left fun hstill =>
        hconnected ((eases_onMessage env _).state hstill)

/-! ### Runs -/

lemma followsBuffer_operate (env : ServerEnv) {s : Session} (hs : s.FollowsBuffer) {op : ConnOp}
    (hreported : s.reported (.operate op) = true) (h : ¬ s.Disregards env (.operate op)) :
    (s.operate op).FollowsBuffer := by
  cases op with
  | send data =>
    rw [operate, send]
    split_ifs
    · exact followsBuffer_appendInLoop env hs h
    · exact hs
  | sendResource resource =>
    rw [operate, sendResource]
    split_ifs
    · exact followsBuffer_appendInLoop env hs h
    · exact hs
  | shutdown => exact followsBuffer_of_left (state_shutdown_ne s)
  | close reason sysErrno =>
    rw [operate]
    rcases close_cases s reason sysErrno with heq | heq | ⟨-, heq⟩
    · rwa [heq]
    · rw [heq]
      exact followsBuffer_of_left (by simp [state_handleClose])
    · rw [heq]
      exact followsBuffer_of_left (state_shutdown_ne _)
  | setReadTimeout seconds => exact (timeoutsOnly_setTimeout s seconds .read).unmoved.follows hs
  | setWriteTimeout seconds => exact (timeoutsOnly_setTimeout s seconds .write).unmoved.follows hs
  | setIdleTimeout seconds => exact (timeoutsOnly_setTimeout s seconds .idle).unmoved.follows hs
  | resetIdleTimeout => exact (timersOnly_resetIdleTimeout s).unmoved.follows hs
  | disableAllTimeouts => exact (timeoutsOnly_disableAllTimeouts s).unmoved.follows hs
  | clearReadBuffer =>
    intro _
    refine iff_of_true ?_ (Nat.zero_le _)
    rw [operate, clearReadBuffer, resumeReading, awaits_updateEvent]
    decide
  | onRequestStart keepAlive idleTimeout =>
    exact (unmoved_onRequestStart s keepAlive idleTimeout).follows hs
  | onRequestComplete => rwa [operate, onRequestComplete_eq]
  | setInput inputBuffer httpParser =>
    have heases := eases_operate hreported
    by_cases hwithin : s.conn.inputBuffer.length ≤ s.conn.maxInputBuffer
    · exact heases.follows hs hwithin
    · intro hconnected
      refine iff_of_false (fun hlistens => hwithin ((hs hconnected).mp hlistens)) fun hdrained => ?_
      exact h ⟨hconnected, (checkInputBufferLimit_iff s).mpr hwithin, hdrained⟩

lemma followsBuffer_deliver (env : ServerEnv) {s t : Session} {handler : Handler}
    (h : ¬ s.Disregards env handler) (hs : s.FollowsBuffer)
    (hstep : s.deliver (onMessage env) handler = some t) : t.FollowsBuffer := by
  obtain ⟨hreported, rfl⟩ := reported_of_deliver hstep
  cases handler with
  | read reads =>
    rw [reported, Bool.and_eq_true] at hreported
    exact followsBuffer_handleRead env hreported.1 h
  | write => exact followsBuffer_handleWrite env hs h
  | operate op => exact followsBuffer_operate env hs hreported h

lemma followsBuffer_established (id : ℕ) (fd : ℤ) (config : Option LimitsOptions)
    (hasKeepAliveManager : Bool) (kernel : ℕ → WriteOutcome) :
    (established id fd config hasKeepAliveManager kernel).FollowsBuffer := by
  obtain ⟨read, write, idle, heq⟩ := conn_established id fd config hasKeepAliveManager kernel
  intro _
  refine iff_of_true (awaits_established id fd config hasKeepAliveManager kernel) ?_
  rw [heq]
  exact Nat.zero_le _

/-- The read interest follows the input buffer between the handlers of a run in which nothing is
written or drained while the buffer stays over its limit. -/
theorem followsBuffer_of_not_disregards (env : ServerEnv) {id : ℕ} {fd : ℤ}
    {config : Option LimitsOptions} {hasKeepAliveManager : Bool} {kernel : ℕ → WriteOutcome}
    {ms : List Handler}
    (hms : ∀ ms' m u, ms' ++ [m] <+: ms →
      Runs.run (deliver (onMessage env)) (established id fd config hasKeepAliveManager kernel) ms' =
        some u → ¬ u.Disregards env m) :
    ∀ ms' u, ms' <+: ms →
      Runs.run (deliver (onMessage env)) (established id fd config hasKeepAliveManager kernel) ms' =
        some u → u.FollowsBuffer :=
  Runs.forall_run_of (deliver (onMessage env))
    (fun _ _ _ h hs hstep => followsBuffer_deliver env h hs hstep)
    (followsBuffer_established id fd config hasKeepAliveManager kernel) hms

/-- A few bytes of a head, and a write event with nothing to write. -/
theorem followsBuffer_of_not_disregards_head :
    ∃ u, Runs.run (deliver (onMessage onePageSite)) (established 0 5 (some ⟨60, 15, 4, 1024⟩) true
        fun _ => .again) [.read [.data [71, 69, 84]], .write] = some u ∧ u.FollowsBuffer := by
  have hrun : (Runs.run (deliver (onMessage onePageSite)) (established 0 5 (some ⟨60, 15, 4, 1024⟩)
      true fun _ => .again) [.read [.data [71, 69, 84]], .write]).isSome = true := by decide +kernel
  have hshort : (Runs.run (deliver (onMessage onePageSite)) (established 0 5
      (some ⟨60, 15, 4, 1024⟩) true fun _ => .again) [.read [.data [71, 69, 84]]]).all
        (fun u => u.conn.checkInputBufferLimit = false) = true := by decide +kernel
  obtain ⟨u, hu⟩ := Option.isSome_iff_exists.mp hrun
  refine ⟨u, hu, followsBuffer_of_not_disregards onePageSite ?_ _ u (List.prefix_refl _) hu⟩
  rintro ms' m u' ⟨rest, hrest⟩ hrun'
  match ms', hrest with
  | [], hrest =>
    obtain rfl : m = .read [.data [71, 69, 84]] := (List.cons.inj hrest).1
    cases hrun'
    rintro ⟨-, -, headerEnd, -, -, hfind, -⟩
    obtain ⟨read, write, idle, heq⟩ :=
      conn_established 0 5 (some ⟨60, 15, 4, 1024⟩) true fun _ => .again
    rw [heq] at hfind
    have hnone : Bytes.find headEnd ([] ++ ReadResult.received [.data [71, 69, 84]]) = none := by
      decide
    cases hnone.symm.trans hfind
  | [_], hrest =>
    simp only [List.cons_append, List.nil_append, List.cons.injEq] at hrest
    obtain ⟨rfl, rfl, -⟩ := hrest
    rw [hrun', Option.all_some, decide_eq_true_eq] at hshort
    exact fun hdisregards => absurd (hdisregards.2.1.symm.trans hshort) (by decide)
  | _ :: _ :: _, hrest => simp at hrest

/-- The rest of a response goes out while the beginning of a head is over the limit. -/
theorem not_followsBuffer_pending :
    ¬ ∀ (env : ServerEnv) (id : ℕ) (fd : ℤ) (config : Option LimitsOptions)
      (hasKeepAliveManager : Bool) (kernel : ℕ → WriteOutcome) (ms : List Handler) (u : Session),
      Runs.run (deliver (onMessage env)) (established id fd config hasKeepAliveManager kernel) ms =
        some u → u.FollowsBuffer := by
  intro hall
  have hrun : (Runs.run (deliver (onMessage onePageSite)) (established 0 5 (some ⟨60, 15, 4, 1024⟩)
      true fun n => if n = 0 then .again else .accepted 99)
        [.operate (.send [72, 105]), .read [.data [71, 69, 84, 32, 47]], .write]).any (fun u =>
          u.conn.state = .kConnected ∧ u.awaits Epoll.EPOLLIN = true ∧
            ¬ u.conn.inputBuffer.length ≤ u.conn.maxInputBuffer) = true := by decide +kernel
  obtain ⟨u, hu, hstate⟩ := (Option.any_eq_true _ _).mp hrun
  obtain ⟨hconnected, hlistens, hover⟩ := of_decide_eq_true hstate
  exact hover ((hall _ _ _ _ _ _ _ u hu hconnected).mp hlistens)

/-! ### Over the limit -/

/-- What is written over the limit has the loop wait for the read event all the same. -/
lemma not_followsBuffer_handleWrite (env : ServerEnv) {s : Session} (h : s.Disregards env .write) :
    ¬ s.handleWrite.FollowsBuffer := by
  obtain ⟨hconnected, hfull, hiov, hkernel⟩ := h
  have hover := (checkInputBufferLimit_iff s).mp hfull
  have hkeeps := keepsInput_handleWrite s
  rcases handleWrite_listens s with ⟨hidle, -⟩ | ⟨hfailed, -⟩ | ⟨-, -, hstate, hlistens⟩
  · rcases hidle with hclosed | hempty
    · exact absurd (hconnected.symm.trans hclosed) (by decide)
    · exact absurd hempty hiov
  · exact absurd hfailed hkernel
  · intro hfollows
    have hwithin := (hfollows (hstate.trans hconnected)).mp hlistens
    rw [hkeeps.inputBuffer, Connection.maxInputBuffer, hkeeps.config] at hwithin
    exact hover hwithin

lemma not_followsBuffer_appendInLoop (env : ServerEnv) {s : Session} {data : NodeData}
    (h : s.conn.state = .kConnected ∧ s.conn.checkInputBufferLimit = true ∧ s.SendsOut data) :
    ¬ (s.appendInLoop data).FollowsBuffer := by
  obtain ⟨hconnected, hfull, hne, hfits, hkernel⟩ := h
  rw [appendInLoop, if_neg hne, if_neg (not_lt.mpr hfits)]
  exact not_followsBuffer_handleWrite env (s := s.appended data)
    ⟨hconnected, hfull, s.conn.outputBuffer.getIov_append_ne_nil hne 15, hkernel⟩

/-- For anything but a read event the condition is exact. -/
theorem followsBuffer_deliver_iff (env : ServerEnv) {s t : Session} {handler : Handler}
    (hread : ∀ reads, handler ≠ .read reads) (hs : s.FollowsBuffer)
    (hstep : s.deliver (onMessage env) handler = some t) :
    t.FollowsBuffer ↔ ¬ s.Disregards env handler := by
  refine ⟨fun ht hdisregards => ?_, fun h => followsBuffer_deliver env h hs hstep⟩
  obtain ⟨-, rfl⟩ := reported_of_deliver hstep
  revert ht
  cases handler with
  | read reads => exact absurd rfl (hread reads)
  | write => exact not_followsBuffer_handleWrite env hdisregards
  | operate op =>
    have hsends : s.conn.state = .kConnected → s.conn.isConnected := by
      intro hconnected
      simp [Connection.isConnected, hconnected]
    cases op with
    | send data =>
      rw [Handler.runWith, operate, send, if_neg (not_not.mpr (hsends hdisregards.1))]
      exact not_followsBuffer_appendInLoop env hdisregards
    | sendResource resource =>
      rw [Handler.runWith, operate, sendResource, if_neg (not_not.mpr (hsends hdisregards.1))]
      exact not_followsBuffer_appendInLoop env hdisregards
    | setInput inputBuffer httpParser =>
      obtain ⟨hconnected, hfull, hdrained⟩ := hdisregards
      intro ht
      have hlistens : s.awaits Epoll.EPOLLIN = true := (ht hconnected).mpr hdrained
      exact (checkInputBufferLimit_iff s).mp hfull ((hs hconnected).mp hlistens)
    | _ => exact hdisregards.elim

end Session

end TinyWebServer
