import TinyWebServer.Net.Connection

/-!
# The configuration of the server

The option groups with their defaults, and the checks of `Validate`. A configuration is valid when
no check adds an error.
-/

namespace TinyWebServer

namespace ServerConfig

structure ServerOptions where
  ip : Bytes := bytes "0.0.0.0"
  port : ℤ := 8080
  threads : ℤ := 4
  backlog : ℤ := 1024
  tcpNodelay : Bool := true
  tcpCork : Bool := false
  useSoReuseport : Bool := false
  soReuseportSockets : ℤ := 0
  deriving DecidableEq

/-- The limits that a connection looks at, and the others. -/
structure LimitsOptions extends TinyWebServer.LimitsOptions where
  connectionTimeout := 30
  keepAliveTimeout := 15
  maxInputBuffer := 65536
  maxOutputBuffer := 1048576
  maxConnections : ℤ := 10000
  maxRequestSize : ℕ := 65536
  maxResponseSize : ℕ := 1048576
  deriving DecidableEq

structure LoggingOptions where
  level : Bytes := bytes "INFO"
  file : Bytes := bytes "logs/server.log"
  async : Bool := true
  queueSize : ℕ := 10000
  flushInterval : ℤ := 3
  deriving DecidableEq

structure StaticOptions where
  root : Bytes := bytes "./public"
  cacheSize : ℕ := 100
  cacheTtl : ℤ := 300
  deriving DecidableEq

structure MetricsOptions where
  enablePrometheus : Bool := true
  prometheusPort : ℤ := 9090
  collectInterval : ℤ := 5
  deriving DecidableEq

end ServerConfig

structure ServerConfig where
  server : ServerConfig.ServerOptions := {}
  limits : ServerConfig.LimitsOptions := {}
  logging : ServerConfig.LoggingOptions := {}
  static : ServerConfig.StaticOptions := {}
  metrics : ServerConfig.MetricsOptions := {}
  /-- The text that the options were loaded from. -/
  originalJson : Bytes := []
  deriving DecidableEq

namespace ServerConfig

/-- One test of `Validate` and the error it pushes. -/
def check (bad : Prop) [Decidable bad] (message : String) : List Bytes :=
  if bad then [bytes message] else []

@[simp] lemma check_eq_nil_iff (bad : Prop) [Decidable bad] (message : String) :
    check bad message = [] ↔ ¬ bad := by
  rw [check]
  split_ifs with h
  · simp [h]
  · simp [h]

def validateServer (server : ServerOptions) : List Bytes :=
  check (server.port < 1 ∨ 65535 < server.port) "Port must be between 1 and 65535" ++
  check (server.threads < 1) "Thread count must be at least 1" ++
  check (64 < server.threads) "Thread count cannot exceed 64" ++
  check (server.backlog < 1) "Backlog must be at least 1" ++
  check (65535 < server.backlog) "Backlog cannot exceed 65535" ++
  check (server.soReuseportSockets < 0) "SO_REUSEPORT sockets count cannot be negative" ++
  check (64 < server.soReuseportSockets) "SO_REUSEPORT sockets count cannot exceed 64"

def validateLimits (limits : LimitsOptions) : List Bytes :=
  check (limits.maxConnections < 1) "Max connections must be at least 1" ++
  check (1000000 < limits.maxConnections) "Max connections cannot exceed 1,000,000" ++
  check (limits.maxRequestSize < 1024) "Max request size must be at least 1KB" ++
  check (100 * 1024 * 1024 < limits.maxRequestSize) "Max request size cannot exceed 100MB" ++
  check (limits.maxResponseSize < 1024) "Max response size must be at least 1KB" ++
  check (500 * 1024 * 1024 < limits.maxResponseSize) "Max response size cannot exceed 500MB" ++
  check (limits.connectionTimeout < 1) "Connection timeout must be at least 1 second" ++
  check (3600 < limits.connectionTimeout) "Connection timeout cannot exceed 3600 seconds" ++
  check (limits.keepAliveTimeout < 0) "Keep-alive timeout cannot be negative" ++
  check (3600 < limits.keepAliveTimeout) "Keep-alive timeout cannot exceed 3600 seconds" ++
  check (limits.maxInputBuffer < 1024) "Max input buffer must be at least 1KB" ++
  check (100 * 1024 * 1024 < limits.maxInputBuffer) "Max input buffer cannot exceed 100MB" ++
  check (limits.maxOutputBuffer < 1024) "Max output buffer must be at least 1KB" ++
  check (500 * 1024 * 1024 < limits.maxOutputBuffer) "Max output buffer cannot exceed 500MB"

def validateLogging (logging : LoggingOptions) : List Bytes :=
  check (logging.queueSize < 1) "Log queue size must be at least 1" ++
  check (1000000 < logging.queueSize) "Log queue size cannot exceed 1,000,000" ++
  check (logging.flushInterval < 1) "Log flush interval must be at least 1 second" ++
  check (3600 < logging.flushInterval) "Log flush interval cannot exceed 3600 seconds"

def validateStatic (static : StaticOptions) : List Bytes :=
  check (10000 < static.cacheSize) "Static cache size cannot exceed 10,000" ++
  check (static.cacheTtl < 0) "Static cache TTL cannot be negative" ++
  check (86400 < static.cacheTtl) "Static cache TTL cannot exceed 86400 seconds (24 hours)"

def validateMetrics (metrics : MetricsOptions) : List Bytes :=
  check (metrics.prometheusPort < 1 ∨ 65535 < metrics.prometheusPort)
    "Prometheus port must be between 1 and 65535" ++
  check (metrics.collectInterval < 1) "Metrics collect interval must be at least 1 second" ++
  check (3600 < metrics.collectInterval) "Metrics collect interval cannot exceed 3600 seconds"

/-- The error messages, in the order of the checks. -/
def validate (config : ServerConfig) : List Bytes :=
  validateServer config.server ++ validateLimits config.limits ++
  validateLogging config.logging ++ validateStatic config.static ++
  validateMetrics config.metrics ++
  check (config.metrics.prometheusPort = config.server.port)
    "Prometheus port cannot be the same as server port"

/-- The defaults pass their own checks. -/
lemma validate_default : ({} : ServerConfig).validate = [] := by decide

/-- What a valid configuration says about the threads and their sockets. -/
lemma server_of_validate {config : ServerConfig} (h : config.validate = []) :
    (1 ≤ config.server.threads ∧ config.server.threads ≤ 64) ∧
      0 ≤ config.server.soReuseportSockets ∧ config.server.soReuseportSockets ≤ 64 := by
  simp only [validate, validateServer, List.append_eq_nil_iff, check_eq_nil_iff, not_lt] at h
  obtain ⟨⟨⟨⟨⟨⟨⟨⟨⟨⟨⟨-, hmin⟩, hmax⟩, -⟩, -⟩, hnonneg⟩, hsockets⟩, -⟩, -⟩, -⟩, -⟩, -⟩ := h
  exact ⟨⟨hmin, hmax⟩, hnonneg, hsockets⟩

end ServerConfig

end TinyWebServer
