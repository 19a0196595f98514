import TinyWebServer.Http.Announcement
import TinyWebServer.Http.Chunking
import TinyWebServer.Net.Handlers
import TinyWebServer.Net.ReadLoop

/-!
# Persistent connections

What a response says about the connection, and what the loop does with the connection behind it.
-/

namespace TinyWebServer

/-- A request, and what the loop does about it. -/
structure Exchange where
  request : HttpRequest
  response : HttpResponse
  /-- The loop calls `Shutdown` behind the response. -/
  shutdown : Bool
  /-- Something of the response goes into the output buffer. -/
  queued : Bool

/-- What happens to one connection between its establishment and its end. -/
inductive ConnectionEvent where
  | read (reads : List ReadResult)
  | write
  | operate (op : ConnOp)
  | timeout (timeoutType : TimeoutType)
  /-- Other connections have worked on what they share with this one. -/
  | elsewhere (loop : EventLoop TimerCallback) (keepAlive : KeepAliveManager)
      (resources : StaticResourceManager) (kernel : ℕ → WriteOutcome)

namespace Session

variable (env : ServerEnv)

/-- The exchange of a turn that answers a request. Behind a response the loop breaks off if and
only if it has called `Shutdown`. -/
def exchange (s : Session) : Option Exchange :=
  match Bytes.find headEnd s.conn.inputBuffer, s.conn.httpParser.parse s.conn.inputBuffer with
  | some _, (true, request) =>
    (env.answer s.resources request).1.map fun result =>
      { request := request, response := result.1, shutdown := !(s.messageTurn env).2
        queued := (s.messageTurn env).1.queued ≠ s.queued }
  | _, _ => none

/-- The exchanges of the loop, for a number of turns. -/
def loopExchanges : ℕ → Session → List Exchange
  | 0, _ => []
  | turns + 1, s =>
    (s.exchange env).toList ++
      if (s.messageTurn env).2 then loopExchanges turns (s.messageTurn env).1 else []

/-- The exchanges of a run of the callback. -/
def exchanges (s : Session) : List Exchange := loopExchanges env (s.conn.inputBuffer.length + 1) s

def occur (s : Session) : ConnectionEvent → Session
  | .read reads => s.handleRead (some (onMessage env)) reads
  | .write => s.handleWrite
  | .operate op => s.operate op
  | .timeout timeoutType => s.onTimeout timeoutType
  | .elsewhere loop keepAlive resources kernel =>
    { s with loop := loop, keepAlive := keepAlive, resources := resources, kernel := kernel }

def eventExchanges (s : Session) : ConnectionEvent → List Exchange
  | .read reads => if (s.filled reads).conn.inputBuffer = [] then [] else (s.filled reads).exchanges env
  | _ => []

/-- The exchanges of a connection, in order. -/
def allExchanges (s : Session) : List ConnectionEvent → List Exchange
  | [] => []
  | event :: events => s.eventExchanges env event ++ (s.occur env event).allExchanges events

/-- A response says that it closes the connection exactly where the loop shuts it down, and behind
such a response nothing more is queued. -/
structure Honoured (exchanges : List Exchange) : Prop where
  announced : ∀ e ∈ exchanges, e.response.CarriesClose ↔ e.shutdown = true
  last : exchanges.Pairwise fun e later => e.response.CarriesClose → later.queued = false

/-! ### One exchange -/

/-- What is behind an exchange. -/
lemma exchange_eq_some {s : Session} {e : Exchange} (h : s.exchange env = some e) :
    ∃ headerEnd resources accessed, Bytes.find headEnd s.conn.inputBuffer = some headerEnd ∧
      s.conn.httpParser.parse s.conn.inputBuffer = (true, e.request) ∧
      env.answer s.resources e.request = (some (e.response, resources), accessed) ∧
      e.shutdown = !(s.messageTurn env).2 ∧
      e.queued = decide ((s.messageTurn env).1.queued ≠ s.queued) := by
  rw [exchange] at h
  split at h
  · rename_i headerEnd request hfind hparse
    obtain ⟨⟨response, resources⟩, hanswer, rfl⟩ := Option.map_eq_some_iff.mp h
    exact ⟨headerEnd, resources, _, hfind, hparse, Prod.ext hanswer rfl, rfl, rfl⟩
  · cases h

/-- `Shutdown` comes behind an error. -/
lemma messageTurn_of_exchange {s : Session} {e : Exchange} (h : s.exchange env = some e) :
    (e.shutdown = true ↔ 400 ≤ e.response.code) ∧
      ∃ t : Session, (s.messageTurn env).1 = if e.shutdown then t.shutdown else t := by
  obtain ⟨headerEnd, resources, accessed, hfind, hparse, hanswer, hshutdown, -⟩ :=
    exchange_eq_some env h
  have hturn := messageTurn_of_find env hfind
  rw [hparse, if_pos rfl,
    handleRequest_of_some env headerEnd (s := s.note (.parse s.conn.inputBuffer)) hanswer] at hturn
  dsimp only at hturn
  by_cases hcode : 400 ≤ e.response.code
  · rw [if_pos hcode] at hturn
    rw [hshutdown, hturn]
    exact ⟨by simp [hcode], _, rfl⟩
  · rw [if_neg hcode] at hturn
    rw [hshutdown, hturn]
    exact ⟨by simp [hcode], _, rfl⟩

lemma announced_iff {s : Session} {e : Exchange} (h : s.exchange env = some e) :
    (e.response.CarriesClose ↔ e.shutdown = true) ↔
      (e.request.isKeepAlive = true ↔ e.response.code < 400) := by
  obtain ⟨headerEnd, resources, accessed, -, -, hanswer, -⟩ := exchange_eq_some env h
  rw [env.carriesClose_iff hanswer, (messageTurn_of_exchange env h).1]
  cases e.request.isKeepAlive with
  | false => simp
  | true => simp

/-- Behind `Shutdown` the loop has come to its end. -/
lemma exchange_of_not_isConnected {s : Session} {e : Exchange} (h : s.exchange env = some e)
    (hstopped : ¬ s.conn.isConnected) : e.queued = false := by
  obtain ⟨-, -, -, -, -, -, -, hqueued⟩ := exchange_eq_some env h
  rw [hqueued, queued_of_queues_nil (messageTurn_of_not_isConnected env hstopped).queues]
  simp

/-! ### One run of the callback -/

lemma loopExchanges_of_le {s : Session} {turns : ℕ} (h : s.conn.inputBuffer.length < turns) :
    loopExchanges env turns s = s.exchanges env := by
  apply ParseLoop.eq_of_bound_lt (fun s : Session => s.conn.inputBuffer.length)
    (fun s hgoes => length_of_messageTurn env hgoes) _ h (Nat.lt_succ_self _)
  intro n m s hnext
  rw [loopExchanges, loopExchanges]
  split_ifs with hgoes
  · rw [hnext hgoes]
  · rfl

lemma exchanges_eq (s : Session) :
    s.exchanges env = (s.exchange env).toList ++
      if (s.messageTurn env).2 then (s.messageTurn env).1.exchanges env else [] := by
  rw [exchanges, loopExchanges]
  by_cases hgoes : (s.messageTurn env).2 = true
  · rw [if_pos hgoes, if_pos hgoes, loopExchanges_of_le env (length_of_messageTurn env hgoes)]
  · rw [if_neg hgoes, if_neg hgoes]

/-- Induction along the turns, for what is said of the exchanges and the end of the loop. -/
lemma exchanges_induction {P : Session → List Exchange → Session → Prop}
    (stop : ∀ s, (s.messageTurn env).2 = false →
      P s (s.exchange env).toList (s.messageTurn env).1)
    (goOn : ∀ s later t, (s.messageTurn env).2 = true → P (s.messageTurn env).1 later t →
      P s ((s.exchange env).toList ++ later) t)
    (s : Session) : P s (s.exchanges env) (s.onMessage env) := by
  induction hlen : s.conn.inputBuffer.length using Nat.strongRecOn generalizing s with
  | ind len ih =>
    rw [onMessage_eq, exchanges_eq]
    by_cases hgoes : (s.messageTurn env).2 = true
    · rw [if_pos hgoes, if_pos hgoes]
      refine goOn s _ _ hgoes (ih _ ?_ _ rfl)
      rw [← hlen]
      exact length_of_messageTurn env hgoes
    · rw [if_neg hgoes, if_neg hgoes, List.append_nil]
      exact stop s (by simpa using hgoes)

/-- `Shutdown` comes last, and leaves a connection that is not connected. -/
structure EndsWithShutdown (exchanges : List Exchange) (t : Session) : Prop where
  pairwise : exchanges.Pairwise fun e _ => e.shutdown = false
  stopped : (∃ e ∈ exchanges, e.shutdown = true) → ¬ t.conn.isConnected

lemma endsWithShutdown_exchanges (s : Session) :
    EndsWithShutdown (s.exchanges env) (s.onMessage env) := by
  apply exchanges_induction env (P := fun _ exchanges t => EndsWithShutdown exchanges t)
  · intro s hstop
    constructor
    · cases s.exchange env <;> simp
    · rintro ⟨e, hmem, hshutdown⟩
      rw [Option.mem_toList] at hmem
      obtain ⟨-, t, ht⟩ := messageTurn_of_exchange env hmem
      rw [ht, if_pos hshutdown]
      exact not_isConnected_shutdown t
  · intro s later t hgoes hlater
    have hhere : ∀ e ∈ (s.exchange env).toList, e.shutdown = false := by
      intro e hmem
      rw [Option.mem_toList] at hmem
      obtain ⟨-, -, -, -, -, -, hshutdown, -⟩ := exchange_eq_some env hmem
      rw [hshutdown, hgoes]
      rfl
    constructor
    · rw [List.pairwise_append]
      refine ⟨?_, hlater.pairwise, fun e hmem _ _ => hhere e hmem⟩
      cases s.exchange env <;> simp
    · rintro ⟨e, hmem, hshutdown⟩
      rcases List.mem_append.mp hmem with hmem | hmem
      · rw [hhere e hmem] at hshutdown
        cases hshutdown
      · exact hlater.stopped ⟨e, hmem, hshutdown⟩

lemma exchanges_of_not_isConnected {s : Session} (h : ¬ s.conn.isConnected) :
    ∀ e ∈ s.exchanges env, e.queued = false := by
  have hrun := exchanges_induction env
    (P := fun s exchanges _ => ¬ s.conn.isConnected → ∀ e ∈ exchanges, e.queued = false)
    (fun s _ hs e hmem => exchange_of_not_isConnected env (Option.mem_toList.mp hmem) hs)
    (fun s later t _ ih hs e hmem => by
      rcases List.mem_append.mp hmem with hmem | hmem
      · exact exchange_of_not_isConnected env (Option.mem_toList.mp hmem) hs
      · exact ih (not_isConnected_of_queues (messageTurn_of_not_isConnected env hs).queues hs) e hmem) s
  exact hrun h

/-! ### One connection -/

lemma not_isConnected_of_state {s t : Session} (h : ¬ s.conn.isConnected)
    (ht : t.conn.state = s.conn.state ∨ t.conn.state = .kClosed) : ¬ t.conn.isConnected := by
  rcases ht with hsame | hclosed
  · rwa [Connection.isConnected, hsame]
  · rw [Connection.isConnected, hclosed]
    simp

lemma filled_of_not_isConnected {s : Session} (h : ¬ s.conn.isConnected)
    (reads : List ReadResult) : ¬ (s.filled reads).conn.isConnected :=
  not_isConnected_of_queues (filled_queues s reads) (not_isConnected_of_state h (state_readAll s reads))

/-- Nothing makes a connection connected again. -/
lemma occur_of_not_isConnected {s : Session} (h : ¬ s.conn.isConnected)
    (event : ConnectionEvent) : ¬ (s.occur env event).conn.isConnected := by
  cases event with
  | read reads =>
    have hfilled := filled_of_not_isConnected h reads
    change ¬ (if (s.filled reads).conn.inputBuffer = [] then s.filled reads
      else (s.filled reads).onMessage env).conn.isConnected
    split_ifs
    · exact hfilled
    · exact not_isConnected_of_queues (onMessage_of_not_isConnected env hfilled).queues hfilled
  | write =>
    apply not_isConnected_of_state h
    exact (handleWrite_queues s).symm.imp_left (·.state)
  | operate op => exact not_isConnected_of_state h (.inl (state_operate_of_not_isConnected h op))
  | timeout timeoutType =>
    apply not_isConnected_of_state h
    right
    cases timeoutType <;> exact state_handleClose _
  | elsewhere loop keepAlive resources kernel => exact h

/-- Behind `Shutdown` nothing more is queued. -/
lemma allExchanges_of_not_isConnected {s : Session} (h : ¬ s.conn.isConnected)
    (events : List ConnectionEvent) : ∀ e ∈ s.allExchanges env events, e.queued = false := by
  induction events generalizing s with
  | nil => simp [allExchanges]
  | cons event events ih =>
    intro e hmem
    rcases List.mem_append.mp hmem with hmem | hmem
    · cases event with
      | read reads =>
        rw [eventExchanges] at hmem
        split_ifs at hmem
        · cases hmem
        · exact exchanges_of_not_isConnected env (filled_of_not_isConnected h reads) e hmem
      | _ => cases hmem
    · exact ih (occur_of_not_isConnected env h event) e hmem

lemma endsWithShutdown_eventExchanges (s : Session) (event : ConnectionEvent) :
    EndsWithShutdown (s.eventExchanges env event) (s.occur env event) := by
  cases event with
  | read reads =>
    change EndsWithShutdown _ (if (s.filled reads).conn.inputBuffer = [] then s.filled reads
      else (s.filled reads).onMessage env)
    rw [eventExchanges]
    split_ifs
    · exact ⟨List.Pairwise.nil, by simp⟩
    · exact endsWithShutdown_exchanges env (s.filled reads)
  | _ => exact ⟨List.Pairwise.nil, by simp [eventExchanges]⟩

/-- Behind an exchange with `Shutdown` nothing is queued. -/
lemma pairwise_allExchanges (s : Session) (events : List ConnectionEvent) :
    (s.allExchanges env events).Pairwise fun e later => e.shutdown = true → later.queued = false := by
  induction events generalizing s with
  | nil => exact List.Pairwise.nil
  | cons event events ih =>
    have hends := endsWithShutdown_eventExchanges env s event
    rw [allExchanges, List.pairwise_append]
    refine ⟨?_, ih _, ?_⟩
    · apply hends.pairwise.imp
      intro e _ hopen hshutdown
      rw [hopen] at hshutdown
      cases hshutdown
    · intro e hmem later hlater hshutdown
      have hstopped := hends.stopped ⟨e, hmem, hshutdown⟩
      exact allExchanges_of_not_isConnected env hstopped events later hlater

lemma announced_allExchanges (s : Session) (events : List ConnectionEvent) :
    ∀ e ∈ s.allExchanges env events, (e.response.CarriesClose ↔ e.shutdown = true) ↔
      (e.request.isKeepAlive = true ↔ e.response.code < 400) := by
  have hloop : ∀ s : Session, ∀ e ∈ s.exchanges env,
      (e.response.CarriesClose ↔ e.shutdown = true) ↔
        (e.request.isKeepAlive = true ↔ e.response.code < 400) := by
    intro s
    apply exchanges_induction env (P := fun _ exchanges _ => ∀ e ∈ exchanges,
      (e.response.CarriesClose ↔ e.shutdown = true) ↔
        (e.request.isKeepAlive = true ↔ e.response.code < 400))
    · intro s _ e hmem
      exact announced_iff env (Option.mem_toList.mp hmem)
    · intro s later t _ ih e hmem
      rcases List.mem_append.mp hmem with hmem | hmem
      · exact announced_iff env (Option.mem_toList.mp hmem)
      · exact ih e hmem
  induction events generalizing s with
  | nil => simp [allExchanges]
  | cons event events ih =>
    intro e hmem
    rcases List.mem_append.mp hmem with hmem | hmem
    · cases event with
      | read reads =>
        rw [eventExchanges] at hmem
        split_ifs at hmem
        · cases hmem
        · exact hloop (s.filled reads) e hmem
      | _ => cases hmem
    · exact ih _ e hmem

/-- What the responses say about the connection is what the loop does with it if and only if the
requests that ask to keep the connection are those that are not answered with an error. -/
theorem honoured_iff (s : Session) (events : List ConnectionEvent) :
    Honoured (s.allExchanges env events) ↔
      ∀ e ∈ s.allExchanges env events, e.request.isKeepAlive = true ↔ e.response.code < 400 := by
  have hannounced := announced_allExchanges env s events
  constructor
  · intro h e hmem
    exact (hannounced e hmem).mp (h.announced e hmem)
  · intro h
    have hall : ∀ e ∈ s.allExchanges env events, e.response.CarriesClose ↔ e.shutdown = true :=
      fun e hmem => (hannounced e hmem).mpr (h e hmem)
    refine ⟨hall, ?_⟩
    apply (pairwise_allExchanges env s events).imp_of_mem
    intro e later hmem _ hlast hclose
    exact hlast ((hall e hmem).mp hclose)

/-- The response to a request of version 1.0 says that it closes the connection, which stays
open. -/
theorem not_honoured_http10 :
    ¬ ∀ (env : ServerEnv) (s : Session) (events : List ConnectionEvent),
      Honoured (s.allExchanges env events) := by
  intro hall
  let s := new { Connection.new 0 5 none false with state := .kConnected } fun _ => .again
  have hexchange : (s.allExchanges onePageSite [.read [.data (bytes "GET / HTTP/1.0\r\n\r\n")]]).any
      (fun e => e.response.CarriesClose ∧ e.shutdown = false) = true := by decide +kernel
  obtain ⟨e, hmem, hstate⟩ := List.any_eq_true.mp hexchange
  obtain ⟨hclose, hopen⟩ := of_decide_eq_true hstate
  have hshutdown := ((hall onePageSite s _).announced e hmem).mp hclose
  rw [hopen] at hshutdown
  cases hshutdown

end Session

end TinyWebServer
