import TinyWebServer.Config.Document
import TinyWebServer.Library.Utf8

/-!
# The configuration as a document

`ToJsonString` writes the options under the keys that `LoadFromJsonObject` reads: the document is
complete, and what it asks for are the options it was written from. The library that prints and
parses documents is left open, except that it restores the one that was printed.
-/

namespace TinyWebServer

namespace Json

/-- Entry into a `std::map`: the members stand in the order of their keys. -/
def insertMember (key : Bytes) (value : Json) : List (Bytes × Json) → List (Bytes × Json)
  | [] => [(key, value)]
  | (k, v) :: members =>
    if key = k then (key, value) :: members
    else if key < k then (key, value) :: (k, v) :: members
    else (k, v) :: insertMember key value members

/-- An object to which members are assigned one after another. -/
def assign (object : List (Bytes × Json)) : List (String × Json) → Json
  | [] => .object object
  | (key, value) :: members => assign (insertMember (bytes key) value object) members

/-- A value as it can be stored and printed: integers of 64 bits and text in UTF-8. -/
inductive Printable : Json → Prop where
  | null : Printable .null
  | boolean (value : Bool) : Printable (.boolean value)
  | integer {value : ℤ} (hlower : -2 ^ 63 ≤ value) (hupper : value < 2 ^ 64) :
      Printable (.integer value)
  | float (bits : UInt64) : Printable (.float bits)
  | string {value : Bytes} (h : Utf8.Valid value) : Printable (.string value)
  | array {elements : List Json} (h : ∀ element ∈ elements, Printable element) :
      Printable (.array elements)
  | object {members : List (Bytes × Json)} (hkeys : ∀ m ∈ members, Utf8.Valid m.1)
      (hvalues : ∀ m ∈ members, Printable m.2) : Printable (.object members)

end Json

/-- A library that can print a value with indentation. -/
structure IndentingLibrary extends JsonLibrary where
  dumpIndented : ℕ → Json → Option Bytes

/-- The value is printed, and parsing what was printed gives it back. -/
def IndentingLibrary.Restores (library : IndentingLibrary) (indent : ℕ) (j : Json) : Prop :=
  ∃ text, library.dumpIndented indent j = some text ∧ library.parse text = some j

namespace ServerConfig

def serverJson (server : ServerOptions) : Json :=
  .assign [] [("ip", .string server.ip), ("port", .integer server.port),
    ("threads", .integer server.threads), ("backlog", .integer server.backlog),
    ("tcp_nodelay", .boolean server.tcpNodelay), ("tcp_cork", .boolean server.tcpCork),
    ("use_so_reuseport", .boolean server.useSoReuseport),
    ("so_reuseport_sockets", .integer server.soReuseportSockets)]

def limitsJson (limits : LimitsOptions) : Json :=
  .assign [] [("max_connections", .integer limits.maxConnections),
    ("max_request_size", .integer limits.maxRequestSize),
    ("max_response_size", .integer limits.maxResponseSize),
    ("connection_timeout", .integer limits.connectionTimeout),
    ("keep_alive_timeout", .integer limits.keepAliveTimeout),
    ("max_input_buffer", .integer limits.maxInputBuffer),
    ("max_output_buffer", .integer limits.maxOutputBuffer)]

def loggingJson (logging : LoggingOptions) : Json :=
  .assign [] [("level", .string logging.level), ("file", .string logging.file),
    ("async", .boolean logging.async), ("queue_size", .integer logging.queueSize),
    ("flush_interval", .integer logging.flushInterval)]

def staticJson (static : StaticOptions) : Json :=
  .assign [] [("root", .string static.root), ("cache_size", .integer static.cacheSize),
    ("cache_ttl", .integer static.cacheTtl)]

def metricsJson (metrics : MetricsOptions) : Json :=
  .assign [] [("enable_prometheus", .boolean metrics.enablePrometheus),
    ("prometheus_port", .integer metrics.prometheusPort),
    ("collect_interval", .integer metrics.collectInterval)]

def toJson (config : ServerConfig) : Json :=
  .assign [] [("server", serverJson config.server), ("limits", limitsJson config.limits),
    ("logging", loggingJson config.logging), ("static", staticJson config.static),
    ("metrics", metricsJson config.metrics)]

/-- `ToJsonString`; an exception of the library makes it an empty object. -/
def toJsonString (library : IndentingLibrary) (config : ServerConfig) : Bytes :=
  (library.dumpIndented 2 config.toJson).getD (bytes "\x7b\x7d")

/-! ### The values of the fields -/

/-- The `int` fields. -/
def ints (config : ServerConfig) : List ℤ :=
  [config.server.port, config.server.threads, config.server.backlog,
    config.server.soReuseportSockets, config.limits.maxConnections,
    config.limits.connectionTimeout, config.limits.keepAliveTimeout,
    config.logging.flushInterval, config.static.cacheTtl, config.metrics.prometheusPort,
    config.metrics.collectInterval]

/-- The `size_t` fields. -/
def sizes (config : ServerConfig) : List ℕ :=
  [config.limits.maxRequestSize, config.limits.maxResponseSize, config.limits.maxInputBuffer,
    config.limits.maxOutputBuffer, config.logging.queueSize, config.static.cacheSize]

def texts (config : ServerConfig) : List Bytes :=
  [config.server.ip, config.logging.level, config.logging.file, config.static.root]

/-- The fields hold values of their types. -/
structure Typed (config : ServerConfig) : Prop where
  ints : ∀ n ∈ config.ints, -2 ^ 31 ≤ n ∧ n < 2 ^ 31
  sizes : ∀ n ∈ config.sizes, n < 2 ^ 64

lemma toInt_of_typed {config : ServerConfig} (h : config.Typed) {n : ℤ} (hn : n ∈ config.ints) :
    toInt n = n :=
  toInt_of_fits (h.ints n hn).1 (h.ints n hn).2

lemma toSizeT_of_typed {config : ServerConfig} (h : config.Typed) {n : ℕ}
    (hn : n ∈ config.sizes) : toSizeT n = n := by
  have hlt := h.sizes n hn
  rw [Listening.toSizeT_of_nonneg (by omega) (by omega), Int.toNat_natCast]

/-! ### The document is complete -/

section Documents

variable (config : ServerConfig)

lemma serverJson_eq (server : ServerOptions) :
    serverJson server = .object [(bytes "backlog", .integer server.backlog),
      (bytes "ip", .string server.ip), (bytes "port", .integer server.port),
      (bytes "so_reuseport_sockets", .integer server.soReuseportSockets),
      (bytes "tcp_cork", .boolean server.tcpCork),
      (bytes "tcp_nodelay", .boolean server.tcpNodelay),
      (bytes "threads", .integer server.threads),
      (bytes "use_so_reuseport", .boolean server.useSoReuseport)] := rfl

lemma limitsJson_eq (limits : LimitsOptions) :
    limitsJson limits = .object [
      (bytes "connection_timeout", .integer limits.connectionTimeout),
      (bytes "keep_alive_timeout", .integer limits.keepAliveTimeout),
      (bytes "max_connections", .integer limits.maxConnections),
      (bytes "max_input_buffer", .integer limits.maxInputBuffer),
      (bytes "max_output_buffer", .integer limits.maxOutputBuffer),
      (bytes "max_request_size", .integer limits.maxRequestSize),
      (bytes "max_response_size", .integer limits.maxResponseSize)] := rfl

lemma loggingJson_eq (logging : LoggingOptions) :
    loggingJson logging = .object [(bytes "async", .boolean logging.async),
      (bytes "file", .string logging.file), (bytes "flush_interval", .integer logging.flushInterval),
      (bytes "level", .string logging.level), (bytes "queue_size", .integer logging.queueSize)] :=
  rfl

lemma item_server : config.toJson.item "server" = serverJson config.server := rfl

lemma item_limits : config.toJson.item "limits" = limitsJson config.limits := rfl

lemma item_logging : config.toJson.item "logging" = loggingJson config.logging := rfl

lemma item_static : config.toJson.item "static" = staticJson config.static := rfl

lemma item_metrics : config.toJson.item "metrics" = metricsJson config.metrics := rfl

/-- The keys under which the groups are written are those that the loader reads. -/
lemma complete_toJson : Complete config.toJson where
  server := by
    constructor <;>
      simp only [Json.member, item_server, serverJson_eq, List.forall_mem_cons, List.not_mem_nil,
        false_implies, implies_true, and_true]
    · exact ⟨rfl, rfl⟩
    · exact ⟨rfl, rfl⟩
    · exact ⟨⟨rfl, rfl⟩, ⟨rfl, rfl⟩, rfl, rfl⟩
    · exact ⟨⟨rfl, rfl⟩, ⟨rfl, rfl⟩, ⟨rfl, rfl⟩, rfl, rfl⟩
  limits := by
    constructor <;>
      simp only [Json.member, item_limits, limitsJson_eq, List.forall_mem_cons, List.not_mem_nil,
        false_implies, implies_true, and_true]
    · exact ⟨rfl, rfl⟩
    · exact ⟨⟨rfl, rfl⟩, ⟨rfl, rfl⟩, ⟨rfl, rfl⟩, ⟨rfl, rfl⟩, ⟨rfl, rfl⟩, ⟨rfl, rfl⟩, rfl, rfl⟩
  logging := by
    constructor <;>
      simp only [Json.member, item_logging, loggingJson_eq, List.forall_mem_cons,
        List.not_mem_nil, false_implies, implies_true, and_true]
    · exact ⟨rfl, rfl⟩
    · exact ⟨⟨rfl, rfl⟩, rfl, rfl⟩
    · exact ⟨rfl, rfl⟩
    · exact ⟨⟨rfl, rfl⟩, rfl, rfl⟩
  static := by
    constructor <;>
      simp only [Json.member, item_static, List.forall_mem_cons, List.not_mem_nil, false_implies,
        implies_true, and_true]
    · exact ⟨rfl, rfl⟩
    · exact ⟨rfl, rfl⟩
    · exact ⟨⟨rfl, rfl⟩, rfl, rfl⟩
  metrics := by
    constructor <;>
      simp only [Json.member, item_metrics, List.forall_mem_cons, List.not_mem_nil, false_implies,
        implies_true, and_true]
    · exact ⟨rfl, rfl⟩
    · exact ⟨rfl, rfl⟩
    · exact ⟨⟨rfl, rfl⟩, rfl, rfl⟩

variable {config}

/-! ### What the document asks for -/

/-- The options after a conversion of every number to the type of its field. -/
def converted (config : ServerConfig) : ServerConfig where
  server := { config.server with
    port := toInt config.server.port
    threads := toInt config.server.threads
    backlog := toInt config.server.backlog
    soReuseportSockets := toInt config.server.soReuseportSockets }
  limits := { config.limits with
    maxConnections := toInt config.limits.maxConnections
    maxRequestSize := toSizeT config.limits.maxRequestSize
    maxResponseSize := toSizeT config.limits.maxResponseSize
    connectionTimeout := toInt config.limits.connectionTimeout
    keepAliveTimeout := toInt config.limits.keepAliveTimeout
    maxInputBuffer := toSizeT config.limits.maxInputBuffer
    maxOutputBuffer := toSizeT config.limits.maxOutputBuffer }
  logging := { config.logging with
    queueSize := toSizeT config.logging.queueSize
    flushInterval := toInt config.logging.flushInterval }
  static := { config.static with
    cacheSize := toSizeT config.static.cacheSize
    cacheTtl := toInt config.static.cacheTtl }
  metrics := { config.metrics with
    prometheusPort := toInt config.metrics.prometheusPort
    collectInterval := toInt config.metrics.collectInterval }

/-- Every option is read under the key it was written under. -/
lemma ofDocument_toJson (config : ServerConfig) : ofDocument config.toJson = config.converted := by
  simp only [ofDocument, Json.text, Json.flag, Json.number, Json.member, item_server, serverJson_eq,
    item_limits, limitsJson_eq, item_logging, loggingJson_eq, item_static, item_metrics]
  rfl

lemma converted_of_typed (h : config.Typed) :
    config.converted = { config with originalJson := [] } := by
  have hint := fun n => toInt_of_typed h (n := n)
  have hsize := fun n => toSizeT_of_typed h (n := n)
  simp only [ints, sizes, List.forall_mem_cons] at hint hsize
  simp only [converted, hint, hsize]

/-! ### The document can be printed -/

lemma forall_mem_insertMember {P : Bytes × Json → Prop} {key : Bytes} {value : Json}
    {object : List (Bytes × Json)} (hnew : P (key, value)) (h : ∀ m ∈ object, P m) :
    ∀ m ∈ Json.insertMember key value object, P m := by
  induction object with
  | nil => simpa [Json.insertMember] using hnew
  | cons first object ih =>
    rw [List.forall_mem_cons] at h
    rw [Json.insertMember]
    split_ifs
    · exact List.forall_mem_cons.mpr ⟨hnew, h.2⟩
    · exact List.forall_mem_cons.mpr ⟨hnew, List.forall_mem_cons.mpr h⟩
    · exact List.forall_mem_cons.mpr ⟨h.1, ih h.2⟩

/-- An object that ASCII keys and printable values were assigned to is printable. -/
lemma printable_assign {object : List (Bytes × Json)} {members : List (String × Json)}
    (hobject : ∀ m ∈ object, Utf8.Valid m.1 ∧ m.2.Printable)
    (hkeys : (members.map Prod.fst).all fun key => key.toList.all fun c => c.toNat < 128)
    (hvalues : ∀ m ∈ members, m.2.Printable) : (Json.assign object members).Printable := by
  induction members generalizing object with
  | nil => exact .object (fun m hm => (hobject m hm).1) fun m hm => (hobject m hm).2
  | cons m members ih =>
    rw [List.map_cons, List.all_cons, Bool.and_eq_true] at hkeys
    rw [List.forall_mem_cons] at hvalues
    exact ih (forall_mem_insertMember ⟨Utf8.valid_bytes hkeys.1, hvalues.1⟩ hobject) hkeys.2
      hvalues.2

lemma printable_int (h : config.Typed) {n : ℤ} (hn : n ∈ config.ints) :
    (Json.integer n).Printable := by
  obtain ⟨hlower, hupper⟩ := h.ints n hn
  exact .integer (by omega) (by omega)

lemma printable_size (h : config.Typed) {n : ℕ} (hn : n ∈ config.sizes) :
    (Json.integer n).Printable := by
  have hlt := h.sizes n hn
  exact .integer (by omega) (by omega)

lemma printable_toJson (h : config.Typed) (htexts : ∀ s ∈ config.texts, Utf8.Valid s) :
    config.toJson.Printable := by
  have hint := fun n => printable_int h (n := n)
  have hsize := fun n => printable_size h (n := n)
  simp only [ints, sizes, texts, List.forall_mem_cons] at hint hsize htexts
  have hnil : ∀ m ∈ ([] : List (Bytes × Json)), Utf8.Valid m.1 ∧ m.2.Printable := by simp
  have hserver : (serverJson config.server).Printable := by
    apply printable_assign hnil (by simp)
    simp [hint, htexts, Json.Printable.boolean, Json.Printable.string]
  have hlimits : (limitsJson config.limits).Printable := by
    apply printable_assign hnil (by simp)
    simp [hint, hsize]
  have hlogging : (loggingJson config.logging).Printable := by
    apply printable_assign hnil (by simp)
    simp [hint, hsize, htexts, Json.Printable.boolean, Json.Printable.string]
  have hstatic : (staticJson config.static).Printable := by
    apply printable_assign hnil (by simp)
    simp [hint, hsize, htexts, Json.Printable.string]
  have hmetrics : (metricsJson config.metrics).Printable := by
    apply printable_assign hnil (by simp)
    simp [hint, Json.Printable.boolean]
  apply printable_assign hnil (by simp)
  simp [hserver, hlimits, hlogging, hstatic, hmetrics]

end Documents

/-! ### The round trip -/

/-- What `ToJsonString` writes is parsed, loads without an error whatever the options were before,
and gives back every option. -/
theorem loadFromJson_toJsonString {library : IndentingLibrary} {config : ServerConfig}
    (htyped : config.Typed) (htexts : ∀ s ∈ config.texts, Utf8.Valid s)
    (hlibrary : config.toJson.Printable → library.Restores 2 config.toJson) :
    (∃ j, library.parse (toJsonString library config) = some j ∧
      ∀ before : ServerConfig, loadFromJsonObject before j =
        (true, { config with originalJson := before.originalJson })) ∧
    loadFromJson library.toJsonLibrary (toJsonString library config) =
      { config with originalJson := toJsonString library config } := by
  obtain ⟨text, hdump, hparse⟩ := hlibrary (printable_toJson htyped htexts)
  have htext : toJsonString library config = text := by rw [toJsonString, hdump, Option.getD_some]
  have hoptions := (ofDocument_toJson config).trans (converted_of_typed htyped)
  rw [htext]
  constructor
  · refine ⟨config.toJson, hparse, fun before => ?_⟩
    rw [loadFromJsonObject_of_complete (complete_toJson config), hoptions]
  · rw [loadFromJson_of_complete hparse (complete_toJson config), hoptions]

/-- The default options as they are written, with this port. -/
def optionsText (port : String) : Bytes :=
  List.intercalate [Bytes.lf] (List.map bytes
    ["\x7b",
      "  \"limits\": \x7b",
      "    \"connection_timeout\": 30,",
      "    \"keep_alive_timeout\": 15,",
      "    \"max_connections\": 10000,",
      "    \"max_input_buffer\": 65536,",
      "    \"max_output_buffer\": 1048576,",
      "    \"max_request_size\": 65536,",
      "    \"max_response_size\": 1048576",
      "  \x7d,",
      "  \"logging\": \x7b",
      "    \"async\": true,",
      "    \"file\": \"logs/server.log\",",
      "    \"flush_interval\": 3,",
      "    \"level\": \"INFO\",",
      "    \"queue_size\": 10000",
      "  \x7d,",
      "  \"metrics\": \x7b",
      "    \"collect_interval\": 5,",
      "    \"enable_prometheus\": true,",
      "    \"prometheus_port\": 9090",
      "  \x7d,",
      "  \"server\": \x7b",
      "    \"backlog\": 1024,",
      "    \"ip\": \"0.0.0.0\",",
      "    \"port\": " ++ port ++ ",",
      "    \"so_reuseport_sockets\": 0,",
      "    \"tcp_cork\": false,",
      "    \"tcp_nodelay\": true,",
      "    \"threads\": 4,",
      "    \"use_so_reuseport\": false",
      "  \x7d,",
      "  \"static\": \x7b",
      "    \"cache_size\": 100,",
      "    \"cache_ttl\": 300,",
      "    \"root\": \"./public\"",
      "  \x7d",
      "\x7d"])

/-- A library that knows the document of one configuration. -/
def libraryOf (text : Bytes) (config : ServerConfig) : IndentingLibrary where
  parse jsonStr := if jsonStr = text then some config.toJson else none
  dump _ := none
  dumpIndented _ _ := some text

lemma parse_libraryOf (text : Bytes) (config : ServerConfig) :
    (libraryOf text config).parse text = some config.toJson := by
  simp only [libraryOf, if_true]

theorem loadFromJson_toJsonString_default :
    loadFromJson (libraryOf (optionsText "8080") {}).toJsonLibrary
        (toJsonString (libraryOf (optionsText "8080") {}) {}) =
      { originalJson := optionsText "8080" } := by
  have htyped : ({} : ServerConfig).Typed := ⟨by decide, by decide⟩
  have htexts : ∀ s ∈ ({} : ServerConfig).texts, Utf8.Valid s := by
    simp only [texts, List.forall_mem_cons, List.not_mem_nil, false_implies, implies_true, and_true]
    exact ⟨Utf8.valid_bytes (by decide), Utf8.valid_bytes (by decide),
      Utf8.valid_bytes (by decide), Utf8.valid_bytes (by decide)⟩
  exact (loadFromJson_toJsonString htyped htexts fun _ =>
    ⟨optionsText "8080", rfl, parse_libraryOf _ _⟩).2

end ServerConfig

end TinyWebServer
