import TinyWebServer.Config.ServerConfig
import TinyWebServer.Net.EventLoop

/-!
# Listening with SO_REUSEPORT

With `SO_REUSEPORT` the server binds several sockets to one port, and the kernel spreads the
connections over all of them. The constructor hands each of its threads one of the sockets.
-/

namespace TinyWebServer

/-- What the server asks of the system: `socket`, `bind` and `listen` succeed. -/
structure ListenEnv where
  /-- The capacity that `reserve` gives to an empty vector. -/
  reserve : ℕ → ℕ
  le_reserve : ∀ n, n ≤ reserve n
  /-- The descriptor of the `i`-th socket. -/
  socketFd : ℕ → ℤ
  socketFd_injective : Function.Injective socketFd

/-- The sockets of a new `MultiListenSocket`. `CreateAndBindSockets` goes on up to the capacity of
the vector that it fills. -/
def ListenEnv.multiListenSocket (env : ListenEnv) (numSockets : ℕ) : Except Bytes (List ℤ) :=
  if numSockets = 0 then .error (bytes "Number of sockets must be greater than 0")
  else .ok ((List.range (env.reserve numSockets)).map env.socketFd)

/-! ### The threads -/

structure EventLoopThreadPool (κ : Type*) where
  numThreads : ℤ
  loops : List (EventLoop κ)
  assignedListenFds : List ℤ

namespace EventLoopThreadPool

variable {κ : Type*}

def new : EventLoopThreadPool κ := { numThreads := 0, loops := [], assignedListenFds := [] }

def setThreadNum (pool : EventLoopThreadPool κ) (numThreads : ℤ) : EventLoopThreadPool κ :=
  { pool with numThreads := numThreads }

def start (pool : EventLoopThreadPool κ) : EventLoopThreadPool κ :=
  if pool.numThreads ≤ 0 then pool
  else { pool with loops := pool.loops ++ List.replicate pool.numThreads.toNat .new }

def getThreadCount (pool : EventLoopThreadPool κ) : ℕ := pool.loops.length

/-- The loop over the threads only logs which socket goes where. -/
def assignListenSockets (pool : EventLoopThreadPool κ) (listenFds : List ℤ) :
    EventLoopThreadPool κ :=
  let pool := { pool with assignedListenFds := listenFds }
  if pool.loops = [] then pool.start else pool

lemma start_of_pos {pool : EventLoopThreadPool κ} (h : 0 < pool.numThreads) :
    pool.start = { pool with loops := pool.loops ++ List.replicate pool.numThreads.toNat .new } :=
  if_neg (not_le.mpr h)

/-- A pool that has been started is not started again. -/
lemma assignListenSockets_of_ne_nil {pool : EventLoopThreadPool κ} (h : pool.loops ≠ [])
    (listenFds : List ℤ) :
    pool.assignListenSockets listenFds = { pool with assignedListenFds := listenFds } := if_neg h

end EventLoopThreadPool

/-! ### The constructor of the server -/

/-- `int` to `size_t`. -/
def toSizeT (n : ℤ) : ℕ := (n % 2 ^ 64).toNat

/-- `num_listen_sockets` as the constructor takes it from the configuration. -/
def ServerConfig.numListenSockets (config : ServerConfig) : ℕ :=
  if toSizeT config.server.soReuseportSockets = 0 then toSizeT config.server.threads
  else toSizeT config.server.soReuseportSockets

/-- The sockets of a server, and the loops that read from them. -/
structure Listening (κ : Type*) where
  mainLoop : EventLoop κ
  threadPool : EventLoopThreadPool κ
  listenFds : List ℤ

namespace Listening

variable {κ : Type*}

/-- The functor that a thread runs for its socket. -/
def acceptFrom (listenFd : ℤ) (subLoop : EventLoop κ) : EventLoop κ :=
  (subLoop.setReadCallback listenFd).updateEvent listenFd (Epoll.EPOLLIN ||| Epoll.EPOLLET)

/-- The thread with index `i` gets the socket with index `i % num_sockets_actual`. -/
def setupSOReusePortMode (env : ListenEnv) (numListenSockets : ℕ) (mainLoop : EventLoop κ)
    (threadPool : EventLoopThreadPool κ) : Except Bytes (Listening κ) :=
  let numSockets := if numListenSockets = 0 then threadPool.getThreadCount else numListenSockets
  match env.multiListenSocket numSockets with
  | .error message => .error (bytes "Failed to create SO_REUSEPORT sockets: " ++ message)
  | .ok listenFds =>
    let threadPool := threadPool.start.assignListenSockets listenFds
    let loops := threadPool.loops.mapIdx fun i subLoop =>
      match listenFds[i % listenFds.length]? with
      | none => subLoop
      | some listenFd => acceptFrom listenFd subLoop
    .ok ⟨mainLoop, { threadPool with loops := loops }, listenFds⟩

/-- `Run` registers the descriptor when the main loop starts. -/
def setupTraditionalMode (env : ListenEnv) (mainLoop : EventLoop κ)
    (threadPool : EventLoopThreadPool κ) : Listening κ :=
  ⟨mainLoop.setReadCallback (env.socketFd 0), threadPool, [env.socketFd 0]⟩

/-- The constructor of `Server` that takes a configuration. -/
def new (env : ListenEnv) (config : ServerConfig) : Except Bytes (Listening κ) :=
  let threadPool : EventLoopThreadPool κ :=
    EventLoopThreadPool.new.setThreadNum config.server.threads
  if config.server.useSoReuseport then
    setupSOReusePortMode env config.numListenSockets .new threadPool
  else .ok (setupTraditionalMode env .new threadPool)

/-! ### Which sockets are read from -/

/-- The socket is registered for reading, with a callback that accepts from it. -/
def Serves (subLoop : EventLoop κ) (listenFd : ℤ) : Prop :=
  subLoop.registeredFds listenFd = some (Epoll.EPOLLIN ||| Epoll.EPOLLET) ∧
    listenFd ∈ subLoop.readCallbacks

/-- Every socket is read from by some thread. -/
def AllServed (s : Listening κ) : Prop :=
  ∀ listenFd ∈ s.listenFds, ∃ subLoop ∈ s.threadPool.loops, Serves subLoop listenFd

lemma serves_acceptFrom_new (listenFd fd : ℤ) :
    Serves (acceptFrom listenFd (.new : EventLoop κ)) fd ↔ fd = listenFd := by
  constructor
  · rintro ⟨-, hcallback⟩
    simpa [acceptFrom, EventLoop.setReadCallback, EventLoop.updateEvent, EventLoop.new]
      using hcallback
  · rintro rfl
    simp [Serves, acceptFrom, EventLoop.setReadCallback, EventLoop.updateEvent]

lemma toSizeT_of_nonneg {n : ℤ} (h : 0 ≤ n) (hn : n < 2 ^ 64) : toSizeT n = n.toNat := by
  rw [toSizeT, Int.emod_eq_of_lt h hn]

lemma numListenSockets_pos {config : ServerConfig} (hvalid : config.validate = []) :
    0 < config.numListenSockets := by
  obtain ⟨⟨hthreads, hmax⟩, hnonneg, hsockets⟩ := ServerConfig.server_of_validate hvalid
  rw [ServerConfig.numListenSockets, toSizeT_of_nonneg hnonneg (by linarith),
    toSizeT_of_nonneg (by linarith) (by linarith)]
  split_ifs with hzero
  · exact Int.lt_toNat.mpr hthreads
  · exact Nat.pos_of_ne_zero hzero

/-- The socket of the thread with index `i`. -/
lemma getElem?_socketFds (env : ListenEnv) {m : ℕ} (hm : 0 < m) (i : ℕ) :
    ((List.range m).map env.socketFd)[i % ((List.range m).map env.socketFd).length]? =
      some (env.socketFd (i % m)) := by
  simp [Nat.mod_lt i hm]

/-- The server as it stands behind its constructor. -/
lemma new_eq (env : ListenEnv) {config : ServerConfig} (hvalid : config.validate = [])
    (huse : config.server.useSoReuseport = true) :
    ∃ s : Listening κ, new env config = .ok s ∧
      s.listenFds = (List.range (env.reserve config.numListenSockets)).map env.socketFd ∧
      s.threadPool.loops = (List.replicate config.server.threads.toNat EventLoop.new).mapIdx
        fun i subLoop =>
          acceptFrom (env.socketFd (i % env.reserve config.numListenSockets)) subLoop := by
  have hpos := numListenSockets_pos hvalid
  have hm : 0 < env.reserve config.numListenSockets := hpos.trans_le (env.le_reserve _)
  have hthreads : 0 < config.server.threads := (ServerConfig.server_of_validate hvalid).1.1
  let pool : EventLoopThreadPool κ := EventLoopThreadPool.new.setThreadNum config.server.threads
  have hstart : pool.start =
      { pool with loops := List.replicate config.server.threads.toNat .new } :=
    EventLoopThreadPool.start_of_pos hthreads
  have hloops : pool.start.loops ≠ [] := by
    rw [hstart]
    simpa using hthreads
  rw [new, if_pos huse, setupSOReusePortMode]
  simp only [if_neg hpos.ne', ListenEnv.multiListenSocket, getElem?_socketFds env hm]
  rw [EventLoopThreadPool.assignListenSockets_of_ne_nil hloops]
  refine ⟨_, rfl, rfl, ?_⟩
  dsimp only
  rw [hstart]

/-- Every index below `m` is the index of some thread modulo `m` only when there are that many
threads. -/
lemma forall_exists_mod_iff {m threads : ℕ} (hm : 0 < m) :
    (∀ j < m, ∃ i < threads, i % m = j) ↔ m ≤ threads := by
  constructor
  · intro h
    obtain ⟨i, hi, hmod⟩ := h (m - 1) (Nat.sub_one_lt_of_lt hm)
    have hle := Nat.mod_le i m
    omega
  · intro h j hj
    exact ⟨j, hj.trans_le h, Nat.mod_eq_of_lt hj⟩

/-- Every socket is read from by some thread if and only if there are no more sockets than
threads. -/
theorem allServed_iff (env : ListenEnv) {config : ServerConfig} (hvalid : config.validate = [])
    (huse : config.server.useSoReuseport = true) :
    ∃ s : Listening κ, new env config = .ok s ∧
      (s.AllServed ↔ env.reserve config.numListenSockets ≤ config.server.threads.toNat) := by
  obtain ⟨s, hs, hfds, hloops⟩ := new_eq (κ := κ) env hvalid huse
  refine ⟨s, hs, ?_⟩
  have hm : 0 < env.reserve config.numListenSockets :=
    (numListenSockets_pos hvalid).trans_le (env.le_reserve _)
  rw [← forall_exists_mod_iff hm, AllServed, hfds, hloops]
  simp only [List.mem_map, List.mem_range, forall_exists_index, and_imp, forall_apply_eq_imp_iff₂,
    List.mem_mapIdx, List.length_replicate, List.getElem_replicate]
  apply forall₂_congr
  intro j hj
  constructor
  · rintro ⟨subLoop, ⟨i, hi, rfl⟩, hserves⟩
    rw [serves_acceptFrom_new] at hserves
    exact ⟨i, hi, (env.socketFd_injective hserves).symm⟩
  · rintro ⟨i, hi, rfl⟩
    exact ⟨_, ⟨i, hi, rfl⟩, (serves_acceptFrom_new _ _).mpr rfl⟩

/-- Two sockets and one thread. -/
theorem not_allServed_two_sockets :
    let env : ListenEnv :=
      ⟨fun n => n, fun _ => le_rfl, fun i => i + 5, fun _ _ h => by simpa using h⟩
    let config : ServerConfig :=
      { server := { threads := 1, useSoReuseport := true, soReuseportSockets := 2 } }
    config.validate = [] ∧ ∃ s : Listening Unit, new env config = .ok s ∧ ¬ s.AllServed := by
  intro env config
  refine ⟨by decide, _, rfl, ?_⟩
  intro hserved
  obtain ⟨subLoop, hmem, hregistered, -⟩ := hserved 6 (by decide)
  cases List.mem_singleton.mp hmem
  revert hregistered
  decide

/-- With the default configuration, the socket of each of the four threads. -/
theorem allServed_iff_default :
    let env : ListenEnv :=
      ⟨fun n => n, fun _ => le_rfl, fun i => i + 5, fun _ _ h => by simpa using h⟩
    let config : ServerConfig := { server := { useSoReuseport := true } }
    ∃ s : Listening Unit, new env config = .ok s ∧
      (s.AllServed ↔ env.reserve config.numListenSockets ≤ config.server.threads.toNat) := by
  intro env config
  exact allServed_iff env (by decide) rfl

end Listening

end TinyWebServer
