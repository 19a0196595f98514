import TinyWebServer.Config.RoundTrip

/-!
# Integers of a document and the ranges of their fields

`Validate` sees the integers of a document after their conversion to the types of the fields. A
field of type `size_t` keeps what does not belong to its range out of it; a field of type `int`
does not, for numbers that need more than 32 bits.
-/

namespace TinyWebServer

namespace ServerConfig

/-- An integer that `LoadFromJsonObject` reads, with the range that `Validate` states for it. -/
structure IntegerField where
  group : String
  key : String
  /-- Whether the field is a `size_t`; the others are of type `int`. -/
  isSize : Bool
  lower : ℤ
  upper : ℤ

namespace IntegerField

def value (field : IntegerField) (j : Json) : ℤ := j.number field.group field.key

/-- What the field holds of an integer. -/
def convert (field : IntegerField) (n : ℤ) : ℤ := if field.isSize then toSizeT n else toInt n

def InRange (field : IntegerField) (n : ℤ) : Prop := field.lower ≤ n ∧ n ≤ field.upper

end IntegerField

/-- The integers in the order of `Validate`. -/
def integerFields : List IntegerField :=
  [ ⟨"server", "port", false, 1, 65535⟩,
    ⟨"server", "threads", false, 1, 64⟩,
    ⟨"server", "backlog", false, 1, 65535⟩,
    ⟨"server", "so_reuseport_sockets", false, 0, 64⟩,
    ⟨"limits", "max_connections", false, 1, 1000000⟩,
    ⟨"limits", "max_request_size", true, 1024, 100 * 1024 * 1024⟩,
    ⟨"limits", "max_response_size", true, 1024, 500 * 1024 * 1024⟩,
    ⟨"limits", "connection_timeout", false, 1, 3600⟩,
    ⟨"limits", "keep_alive_timeout", false, 0, 3600⟩,
    ⟨"limits", "max_input_buffer", true, 1024, 100 * 1024 * 1024⟩,
    ⟨"limits", "max_output_buffer", true, 1024, 500 * 1024 * 1024⟩,
    ⟨"logging", "queue_size", true, 1, 1000000⟩,
    ⟨"logging", "flush_interval", false, 1, 3600⟩,
    ⟨"static", "cache_size", true, 0, 10000⟩,
    ⟨"static", "cache_ttl", false, 0, 86400⟩,
    ⟨"metrics", "prometheus_port", false, 1, 65535⟩,
    ⟨"metrics", "collect_interval", false, 1, 3600⟩ ]

/-- The integers of a document are those that the JSON library can hold. -/
def Holds64 (j : Json) : Prop :=
  ∀ field ∈ integerFields, -2 ^ 63 ≤ field.value j ∧ field.value j < 2 ^ 64

/-- The integers for fields of type `int` have 32 bits. -/
def FitsInt (j : Json) : Prop :=
  ∀ field ∈ integerFields, field.isSize = false →
    -2 ^ 31 ≤ field.value j ∧ field.value j < 2 ^ 31

/-! ### What `Validate` sees -/

/-- The fields themselves, in the same order. -/
def integers (config : ServerConfig) : List ℤ :=
  [config.server.port, config.server.threads, config.server.backlog,
    config.server.soReuseportSockets, config.limits.maxConnections, config.limits.maxRequestSize,
    config.limits.maxResponseSize, config.limits.connectionTimeout, config.limits.keepAliveTimeout,
    config.limits.maxInputBuffer, config.limits.maxOutputBuffer, config.logging.queueSize,
    config.logging.flushInterval, config.static.cacheSize, config.static.cacheTtl,
    config.metrics.prometheusPort, config.metrics.collectInterval]

/-- A configuration is accepted if each field holds a number of its range and the ports differ. -/
lemma validate_eq_nil_iff (config : ServerConfig) :
    config.validate = [] ↔ List.Forall₂ IntegerField.InRange integerFields config.integers ∧
      config.metrics.prometheusPort ≠ config.server.port := by
  simp only [validate, validateServer, validateLimits, validateLogging, validateStatic,
    validateMetrics, List.append_eq_nil_iff, check_eq_nil_iff, not_or, not_lt]
  simp only [integerFields, integers, List.forall₂_cons, List.Forall₂.nil, and_true,
    IntegerField.InRange]
  constructor
  · intro h
    omega
  · intro h
    omega

lemma integers_ofDocument (j : Json) :
    (ofDocument j).integers = integerFields.map fun field => field.convert (field.value j) := by
  simp only [integers, ofDocument, integerFields, List.map_cons, List.map_nil, IntegerField.convert,
    IntegerField.value, if_true, Bool.false_eq_true, if_false]

variable {library : JsonLibrary} {jsonStr : Bytes} {j : Json}

lemma accepted_iff (hparse : library.parse jsonStr = some j) (hcomplete : Complete j) :
    (loadFromJson library jsonStr).validate = [] ↔
      (∀ field ∈ integerFields, field.InRange (field.convert (field.value j))) ∧
        toInt (j.number "metrics" "prometheus_port") ≠ toInt (j.number "server" "port") := by
  have hintegers : { ofDocument j with originalJson := jsonStr }.integers =
      integerFields.map fun field => field.convert (field.value j) := integers_ofDocument j
  rw [loadFromJson_of_complete hparse hcomplete, validate_eq_nil_iff, hintegers,
    List.forall₂_map_right_iff, List.forall₂_same]
  rfl

/-! ### Integers that are narrowed -/

/-- The ranges lie within the numbers that both types have. -/
lemma range_bounds : ∀ field ∈ integerFields, 0 ≤ field.lower ∧ field.upper < 2 ^ 31 := by decide

/-- A negative number becomes too large for the range of its field, so that only a number of the
range itself gets into a `size_t`. -/
lemma inRange_of_isSize {field : IntegerField} (hfield : field ∈ integerFields)
    (hsize : field.isSize) {n : ℤ} (hlower : -2 ^ 63 ≤ n) (hupper : n < 2 ^ 64)
    (h : field.InRange (field.convert n)) : field.InRange n := by
  obtain ⟨hzero, htop⟩ := range_bounds field hfield
  rw [IntegerField.convert, if_pos hsize, toSizeT, Int.toNat_of_nonneg (by omega)] at h
  rcases lt_or_ge n 0 with hneg | hnonneg
  · have hwrapped : n % 2 ^ 64 = n + 2 ^ 64 := by omega
    rw [hwrapped, IntegerField.InRange] at h
    omega
  · rwa [Int.emod_eq_of_lt hnonneg hupper] at h

/-- What is accepted is in range if no `int` is narrowed. -/
lemma inRange_of_fitsInt (h64 : Holds64 j) (hfits : FitsInt j)
    (h : ∀ field ∈ integerFields, field.InRange (field.convert (field.value j))) :
    ∀ field ∈ integerFields, field.InRange (field.value j) := by
  intro field hfield
  have hrange := h field hfield
  by_cases hsize : field.isSize = true
  · exact inRange_of_isSize hfield hsize (h64 field hfield).1 (h64 field hfield).2 hrange
  · obtain ⟨hlower, hupper⟩ := hfits field hfield (Bool.not_eq_true _ ▸ hsize)
    rwa [IntegerField.convert, if_neg hsize, toInt_of_fits hlower hupper] at hrange

/-- The integers of the document of a configuration are its own. -/
lemma map_value_toJson (config : ServerConfig) :
    (integerFields.map fun field => field.value config.toJson) = config.integers := by
  simp only [integerFields, List.map_cons, List.map_nil, IntegerField.value, Json.number,
    Json.member, item_server, serverJson_eq, item_limits, limitsJson_eq, item_logging,
    loggingJson_eq, item_static, item_metrics]
  rfl

lemma forall_value_toJson {config : ServerConfig} (P : ℤ → Prop) (h : ∀ n ∈ config.integers, P n) :
    ∀ field ∈ integerFields, P (field.value config.toJson) := by
  rwa [← map_value_toJson, List.forall_mem_map] at h

/-- An accepted document has all its integers in range if and only if no number for an `int` needs
more than 32 bits, or some number is out of range still after its conversion, or the ports are the
same after theirs. -/
theorem accepted_inRange_iff (hparse : library.parse jsonStr = some j) (hcomplete : Complete j)
    (h64 : Holds64 j) :
    ((loadFromJson library jsonStr).validate = [] →
      ∀ field ∈ integerFields, field.InRange (field.value j)) ↔
    FitsInt j ∨ (∃ field ∈ integerFields, ¬ field.InRange (field.convert (field.value j))) ∨
      toInt (j.number "metrics" "prometheus_port") = toInt (j.number "server" "port") := by
  rw [accepted_iff hparse hcomplete]
  constructor
  · intro h
    by_contra hnone
    push Not at hnone
    obtain ⟨hnarrowed, hranges, hports⟩ := hnone
    refine hnarrowed fun field hfield _ => ?_
    obtain ⟨hlower, hupper⟩ := h ⟨hranges, hports⟩ field hfield
    obtain ⟨hzero, htop⟩ := range_bounds field hfield
    exact ⟨by omega, by omega⟩
  · rintro (hfits | ⟨field, hfield, hout⟩ | hports) ⟨hranges, hdistinct⟩
    · exact inRange_of_fitsInt h64 hfits hranges
    · exact absurd (hranges field hfield) hout
    · exact absurd hports hdistinct

theorem accepted_inRange_default :
    (loadFromJson (libraryOf (optionsText "8080") {}).toJsonLibrary
        (optionsText "8080")).validate = [] ∧
      ∀ field ∈ integerFields, field.InRange (field.value ({} : ServerConfig).toJson) := by
  have hparse := parse_libraryOf (optionsText "8080") {}
  have hcomplete := complete_toJson {}
  have h64 : Holds64 ({} : ServerConfig).toJson :=
    forall_value_toJson (fun n => -2 ^ 63 ≤ n ∧ n < 2 ^ 64) (by decide)
  have hfits : FitsInt ({} : ServerConfig).toJson := fun field hfield _ =>
    forall_value_toJson (fun n => -2 ^ 31 ≤ n ∧ n < 2 ^ 31) (by decide) field hfield
  have hvalid : (loadFromJson (libraryOf (optionsText "8080") {}).toJsonLibrary
      (optionsText "8080")).validate = [] := by
    rw [loadFromJson_of_complete hparse hcomplete, ofDocument_toJson]
    decide
  exact ⟨hvalid, (accepted_inRange_iff hparse hcomplete h64).mpr (.inl hfits) hvalid⟩

/-- The default options with `2 ^ 32 + 8080` for the port. -/
def narrowedPort : ServerConfig := { server := { port := 4294975376 } }

/-- The document asks for a port that does not exist, and is accepted with port 8080. -/
theorem not_accepted_inRange :
    ¬ ∀ (library : JsonLibrary) (jsonStr : Bytes) (j : Json), library.parse jsonStr = some j →
      Complete j → Holds64 j → (loadFromJson library jsonStr).validate = [] →
        ∀ field ∈ integerFields, field.InRange (field.value j) := by
  intro h
  have hparse := parse_libraryOf (optionsText "4294975376") narrowedPort
  have hcomplete := complete_toJson narrowedPort
  have h64 : Holds64 narrowedPort.toJson :=
    forall_value_toJson (fun n => -2 ^ 63 ≤ n ∧ n < 2 ^ 64) (by decide)
  have hvalid : (loadFromJson (libraryOf (optionsText "4294975376") narrowedPort).toJsonLibrary
      (optionsText "4294975376")).validate = [] := by
    rw [loadFromJson_of_complete hparse hcomplete, ofDocument_toJson]
    decide
  have hrange := (h _ _ _ hparse hcomplete h64 hvalid _ (List.mem_cons_self)).2
  have hport : narrowedPort.toJson.number "server" "port" = 4294975376 := rfl
  rw [IntegerField.value, hport] at hrange
  exact absurd hrange (by decide)

end ServerConfig

end TinyWebServer
