import TinyWebServer.Config.Reload

/-!
# Complete configuration documents

A document that has every member the loader looks for, each of the type it asks for, decides the
whole configuration: nothing is left of the options from before.
-/

namespace TinyWebServer

namespace Json

def member (j : Json) (group key : String) : Json := (j.item group).item key

/-! The value of a member that has the type. -/

def text (j : Json) (group key : String) : Bytes := (j.member group key).getString.getD []

def flag (j : Json) (group key : String) : Bool := (j.member group key).getBool.getD false

/-- The integer as it stands in the document. -/
def number (j : Json) (group key : String) : ℤ :=
  match j.member group key with
  | .integer value => value
  | _ => 0

/-- A group that is there, with strings, booleans and integers under these keys. -/
structure HasGroup (j : Json) (group : String) (strings booleans integers : List String) :
    Prop where
  isObject : j.contains group ∧ (j.item group).isObject
  isString : ∀ key ∈ strings, (j.item group).contains key ∧ (j.member group key).isString
  isBoolean : ∀ key ∈ booleans, (j.item group).contains key ∧ (j.member group key).isBoolean
  isInteger : ∀ key ∈ integers, (j.item group).contains key ∧ (j.member group key).isNumberInteger

end Json

namespace ServerConfig

/-- Every member that `LoadFromJsonObject` reads is there with the type it tests for. -/
structure Complete (j : Json) : Prop where
  server : j.HasGroup "server" ["ip"] ["tcp_nodelay", "tcp_cork", "use_so_reuseport"]
    ["port", "threads", "backlog", "so_reuseport_sockets"]
  limits : j.HasGroup "limits" [] []
    ["max_connections", "max_request_size", "max_response_size", "connection_timeout",
      "keep_alive_timeout", "max_input_buffer", "max_output_buffer"]
  logging : j.HasGroup "logging" ["level", "file"] ["async"] ["queue_size", "flush_interval"]
  static : j.HasGroup "static" ["root"] [] ["cache_size", "cache_ttl"]
  metrics : j.HasGroup "metrics" [] ["enable_prometheus"] ["prometheus_port", "collect_interval"]

/-- `static_cast<int>` of an integer of 64 bits. -/
def toInt (n : ℤ) : ℤ := Int.bmod n (2 ^ 32)

lemma toInt_of_fits {n : ℤ} (hlower : -2 ^ 31 ≤ n) (hupper : n < 2 ^ 31) : toInt n = n := by
  rw [toInt, Int.bmod_eq_of_le (by omega) (by omega)]

/-- The options that a complete document asks for. -/
def ofDocument (j : Json) : ServerConfig where
  server :=
    { ip := j.text "server" "ip"
      port := toInt (j.number "server" "port")
      threads := toInt (j.number "server" "threads")
      backlog := toInt (j.number "server" "backlog")
      tcpNodelay := j.flag "server" "tcp_nodelay"
      tcpCork := j.flag "server" "tcp_cork"
      useSoReuseport := j.flag "server" "use_so_reuseport"
      soReuseportSockets := toInt (j.number "server" "so_reuseport_sockets") }
  limits :=
    { maxConnections := toInt (j.number "limits" "max_connections")
      maxRequestSize := toSizeT (j.number "limits" "max_request_size")
      maxResponseSize := toSizeT (j.number "limits" "max_response_size")
      connectionTimeout := toInt (j.number "limits" "connection_timeout")
      keepAliveTimeout := toInt (j.number "limits" "keep_alive_timeout")
      maxInputBuffer := toSizeT (j.number "limits" "max_input_buffer")
      maxOutputBuffer := toSizeT (j.number "limits" "max_output_buffer") }
  logging :=
    { level := j.text "logging" "level"
      file := j.text "logging" "file"
      async := j.flag "logging" "async"
      queueSize := toSizeT (j.number "logging" "queue_size")
      flushInterval := toInt (j.number "logging" "flush_interval") }
  static :=
    { root := j.text "static" "root"
      cacheSize := toSizeT (j.number "static" "cache_size")
      cacheTtl := toInt (j.number "static" "cache_ttl") }
  metrics :=
    { enablePrometheus := j.flag "metrics" "enable_prometheus"
      prometheusPort := toInt (j.number "metrics" "prometheus_port")
      collectInterval := toInt (j.number "metrics" "collect_interval") }

/-! ### One member -/

variable {j : Json} {group key : String} {config : ServerConfig}

lemma loadMember_ok {α : Type} {hasType : Json → Bool} {get : Json → Option α}
    {set : ServerConfig → α → ServerConfig} {value : α}
    (h : (j.item group).contains key ∧ hasType (j.member group key))
    (hget : get (j.member group key) = some value) :
    loadMember hasType get key set (j.item group) config = .ok (set config value) := by
  rw [Json.member] at h hget
  rw [loadMember, h.1, h.2, hget]
  rfl

lemma loadString_ok {set : ServerConfig → Bytes → ServerConfig}
    (h : (j.item group).contains key ∧ (j.member group key).isString) :
    loadString key set (j.item group) config = .ok (set config (j.text group key)) := by
  apply loadMember_ok h
  rw [Json.text]
  cases hmember : j.member group key <;> simp_all [Json.isString, Json.getString]

lemma loadBool_ok {set : ServerConfig → Bool → ServerConfig}
    (h : (j.item group).contains key ∧ (j.member group key).isBoolean) :
    loadBool key set (j.item group) config = .ok (set config (j.flag group key)) := by
  apply loadMember_ok h
  rw [Json.flag]
  cases hmember : j.member group key <;> simp_all [Json.isBoolean, Json.getBool]

/-- A member that is an integer holds its number. -/
lemma member_eq_integer (h : (j.member group key).isNumberInteger) :
    j.member group key = .integer (j.number group key) := by
  rw [Json.number]
  cases hmember : j.member group key <;> simp_all [Json.isNumberInteger]

lemma loadInt_ok {set : ServerConfig → ℤ → ServerConfig}
    (h : (j.item group).contains key ∧ (j.member group key).isNumberInteger) :
    loadInt key set (j.item group) config = .ok (set config (toInt (j.number group key))) := by
  apply loadMember_ok h
  rw [member_eq_integer h.2]
  rfl

lemma loadSizeT_ok {set : ServerConfig → ℕ → ServerConfig}
    (h : (j.item group).contains key ∧ (j.member group key).isNumberInteger) :
    loadSizeT key set (j.item group) config = .ok (set config (toSizeT (j.number group key))) := by
  apply loadMember_ok h
  rw [member_eq_integer h.2]
  rfl

/-! ### The groups -/

/-- A statement that does not throw goes on to the next one. -/
lemma foldlM_cons_ok {member : Member} {members : List Member} {config' : ServerConfig}
    {result : Except ServerConfig ServerConfig} (h : member j config = .ok config')
    (hrest : members.foldlM (fun config member => member j config) config' = result) :
    (member :: members).foldlM (fun config member => member j config) config = result := by
  rw [List.foldlM_cons, h]
  exact hrest

lemma loadGroup_ok {strings booleans integers : List String} {members : List Member}
    {result : Except ServerConfig ServerConfig}
    (h : j.HasGroup group strings booleans integers)
    (hmembers : members.foldlM (fun config member => member (j.item group) config) config =
      result) : loadGroup group members j config = result := by
  rw [loadGroup, h.isObject.1, h.isObject.2]
  exact hmembers

lemma loadServer_ok (h : Complete j) (config : ServerConfig) :
    loadGroup "server" serverMembers j config =
      .ok { config with server := (ofDocument j).server } := by
  have isInteger := h.server.isInteger
  have isBoolean := h.server.isBoolean
  apply loadGroup_ok h.server
  refine foldlM_cons_ok (loadString_ok (h.server.isString "ip" (by simp))) ?_
  refine foldlM_cons_ok (loadInt_ok (isInteger "port" (by simp))) ?_
  refine foldlM_cons_ok (loadInt_ok (isInteger "threads" (by simp))) ?_
  refine foldlM_cons_ok (loadInt_ok (isInteger "backlog" (by simp))) ?_
  refine foldlM_cons_ok (loadBool_ok (isBoolean "tcp_nodelay" (by simp))) ?_
  refine foldlM_cons_ok (loadBool_ok (isBoolean "tcp_cork" (by simp))) ?_
  refine foldlM_cons_ok (loadBool_ok (isBoolean "use_so_reuseport" (by simp))) ?_
  exact foldlM_cons_ok (loadInt_ok (isInteger "so_reuseport_sockets" (by simp))) rfl

lemma loadLimits_ok (h : Complete j) (config : ServerConfig) :
    loadGroup "limits" limitsMembers j config =
      .ok { config with limits := (ofDocument j).limits } := by
  have isInteger := h.limits.isInteger
  apply loadGroup_ok h.limits
  refine foldlM_cons_ok (loadInt_ok (isInteger "max_connections" (by simp))) ?_
  refine foldlM_cons_ok (loadSizeT_ok (isInteger "max_request_size" (by simp))) ?_
  refine foldlM_cons_ok (loadSizeT_ok (isInteger "max_response_size" (by simp))) ?_
  refine foldlM_cons_ok (loadInt_ok (isInteger "connection_timeout" (by simp))) ?_
  refine foldlM_cons_ok (loadInt_ok (isInteger "keep_alive_timeout" (by simp))) ?_
  refine foldlM_cons_ok (loadSizeT_ok (isInteger "max_input_buffer" (by simp))) ?_
  exact foldlM_cons_ok (loadSizeT_ok (isInteger "max_output_buffer" (by simp))) rfl

lemma loadLogging_ok (h : Complete j) (config : ServerConfig) :
    loadGroup "logging" loggingMembers j config =
      .ok { config with logging := (ofDocument j).logging } := by
  apply loadGroup_ok h.logging
  refine foldlM_cons_ok (loadString_ok (h.logging.isString "level" (by simp))) ?_
  refine foldlM_cons_ok (loadString_ok (h.logging.isString "file" (by simp))) ?_
  refine foldlM_cons_ok (loadBool_ok (h.logging.isBoolean "async" (by simp))) ?_
  refine foldlM_cons_ok (loadSizeT_ok (h.logging.isInteger "queue_size" (by simp))) ?_
  exact foldlM_cons_ok (loadInt_ok (h.logging.isInteger "flush_interval" (by simp))) rfl

lemma loadStatic_ok (h : Complete j) (config : ServerConfig) :
    loadGroup "static" staticMembers j config =
      .ok { config with static := (ofDocument j).static } := by
  apply loadGroup_ok h.static
  refine foldlM_cons_ok (loadString_ok (h.static.isString "root" (by simp))) ?_
  refine foldlM_cons_ok (loadSizeT_ok (h.static.isInteger "cache_size" (by simp))) ?_
  exact foldlM_cons_ok (loadInt_ok (h.static.isInteger "cache_ttl" (by simp))) rfl

lemma loadMetrics_ok (h : Complete j) (config : ServerConfig) :
    loadGroup "metrics" metricsMembers j config =
      .ok { config with metrics := (ofDocument j).metrics } := by
  apply loadGroup_ok h.metrics
  refine foldlM_cons_ok (loadBool_ok (h.metrics.isBoolean "enable_prometheus" (by simp))) ?_
  refine foldlM_cons_ok (loadInt_ok (h.metrics.isInteger "prometheus_port" (by simp))) ?_
  exact foldlM_cons_ok (loadInt_ok (h.metrics.isInteger "collect_interval" (by simp))) rfl

/-- Whatever the options were before, a complete document replaces all of them. -/
lemma loadFromJsonObject_of_complete (h : Complete j) (config : ServerConfig) :
    loadFromJsonObject config j =
      (true, { ofDocument j with originalJson := config.originalJson }) := by
  have hgroups : groups.foldlM (fun config group => group j config) config =
      .ok { ofDocument j with originalJson := config.originalJson } := by
    refine foldlM_cons_ok (loadServer_ok h _) ?_
    refine foldlM_cons_ok (loadLimits_ok h _) ?_
    refine foldlM_cons_ok (loadLogging_ok h _) ?_
    refine foldlM_cons_ok (loadStatic_ok h _) ?_
    exact foldlM_cons_ok (loadMetrics_ok h _) rfl
  rw [loadFromJsonObject, hgroups]

/-- `LoadFromJson`: an exception leaves what was loaded by then. -/
def loadFromJson (library : JsonLibrary) (jsonStr : Bytes) : ServerConfig :=
  match library.parse jsonStr with
  | none => {}
  | some j =>
    let result := loadFromJsonObject {} j
    if ¬ result.1 then result.2 else { result.2 with originalJson := jsonStr }

lemma loadFromJson_of_complete {library : JsonLibrary} {jsonStr : Bytes}
    (hparse : library.parse jsonStr = some j) (h : Complete j) :
    loadFromJson library jsonStr = { ofDocument j with originalJson := jsonStr } := by
  rw [loadFromJson, hparse]
  dsimp only
  rw [loadFromJsonObject_of_complete h]
  rfl

end ServerConfig

end TinyWebServer
