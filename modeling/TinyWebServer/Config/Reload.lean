import TinyWebServer.Config.ServerConfig
import TinyWebServer.Net.ReusePort

/-!
# Loading and reloading the configuration

A configuration file is read as a JSON value, and the members that are there and have the right type
replace the defaults. `LoadFromFile` answers a failure with the options it has so far, so `Reload`
cannot tell it from success.
-/

namespace TinyWebServer

/-- A value as the JSON library holds it. -/
inductive Json where
  | null
  | boolean (value : Bool)
  | integer (value : ℤ)
  | float (bits : UInt64)
  | string (value : Bytes)
  | array (elements : List Json)
  | object (members : List (Bytes × Json))

namespace Json

def contains (j : Json) (key : String) : Bool :=
  match j with
  | .object members => (members.lookup (bytes key)).isSome
  | _ => false

/-- `operator[]`, for a key that is contained. -/
def item (j : Json) (key : String) : Json :=
  match j with
  | .object members => (members.lookup (bytes key)).getD .null
  | _ => .null

def isObject : Json → Bool
  | .object _ => true
  | _ => false

def isString : Json → Bool
  | .string _ => true
  | _ => false

def isNumberInteger : Json → Bool
  | .integer _ => true
  | _ => false

def isBoolean : Json → Bool
  | .boolean _ => true
  | _ => false

/-! A conversion throws a type error for a value of another type. -/

def getString : Json → Option Bytes
  | .string value => some value
  | _ => none

def getBool : Json → Option Bool
  | .boolean value => some value
  | _ => none

/-- The conversion to `int` keeps the low bits of an integer. -/
def getInt : Json → Option ℤ
  | .integer value => some (Int.bmod value (2 ^ 32))
  | _ => none

def getSizeT : Json → Option ℕ
  | .integer value => some (toSizeT value)
  | _ => none

end Json

/-- The functions of the JSON library that read and write texts; `none` is an exception. -/
structure JsonLibrary where
  parse : Bytes → Option Json
  dump : Json → Option Bytes

/-- A library that knows one text. -/
def JsonLibrary.ofNull : JsonLibrary where
  parse text := if text = bytes "null" then some .null else none
  dump _ := some (bytes "null")

namespace ServerConfig

/-! ### Loading -/

/-- A statement that loads one member of a group. If it throws, what was loaded by then stays. -/
abbrev Member := Json → ServerConfig → Except ServerConfig ServerConfig

def loadMember {α : Type} (hasType : Json → Bool) (get : Json → Option α) (key : String)
    (set : ServerConfig → α → ServerConfig) : Member := fun group config =>
  if group.contains key && hasType (group.item key) then
    match get (group.item key) with
    | some value => .ok (set config value)
    | none => .error config
  else .ok config

def loadString := loadMember Json.isString Json.getString

def loadBool := loadMember Json.isBoolean Json.getBool

def loadInt := loadMember Json.isNumberInteger Json.getInt

def loadSizeT := loadMember Json.isNumberInteger Json.getSizeT

def serverMembers : List Member :=
  [ loadString "ip" fun c v => { c with server := { c.server with ip := v } },
    loadInt "port" fun c v => { c with server := { c.server with port := v } },
    loadInt "threads" fun c v => { c with server := { c.server with threads := v } },
    loadInt "backlog" fun c v => { c with server := { c.server with backlog := v } },
    loadBool "tcp_nodelay" fun c v => { c with server := { c.server with tcpNodelay := v } },
    loadBool "tcp_cork" fun c v => { c with server := { c.server with tcpCork := v } },
    loadBool "use_so_reuseport" fun c v =>
      { c with server := { c.server with useSoReuseport := v } },
    loadInt "so_reuseport_sockets" fun c v =>
      { c with server := { c.server with soReuseportSockets := v } } ]

def limitsMembers : List Member :=
  [ loadInt "max_connections" fun c v => { c with limits := { c.limits with maxConnections := v } },
    loadSizeT "max_request_size" fun c v =>
      { c with limits := { c.limits with maxRequestSize := v } },
    loadSizeT "max_response_size" fun c v =>
      { c with limits := { c.limits with maxResponseSize := v } },
    loadInt "connection_timeout" fun c v =>
      { c with limits := { c.limits with connectionTimeout := v } },
    loadInt "keep_alive_timeout" fun c v =>
      { c with limits := { c.limits with keepAliveTimeout := v } },
    loadSizeT "max_input_buffer" fun c v =>
      { c with limits := { c.limits with maxInputBuffer := v } },
    loadSizeT "max_output_buffer" fun c v =>
      { c with limits := { c.limits with maxOutputBuffer := v } } ]

def loggingMembers : List Member :=
  [ loadString "level" fun c v => { c with logging := { c.logging with level := v } },
    loadString "file" fun c v => { c with logging := { c.logging with file := v } },
    loadBool "async" fun c v => { c with logging := { c.logging with async := v } },
    loadSizeT "queue_size" fun c v => { c with logging := { c.logging with queueSize := v } },
    loadInt "flush_interval" fun c v =>
      { c with logging := { c.logging with flushInterval := v } } ]

def staticMembers : List Member :=
  [ loadString "root" fun c v => { c with static := { c.static with root := v } },
    loadSizeT "cache_size" fun c v => { c with static := { c.static with cacheSize := v } },
    loadInt "cache_ttl" fun c v => { c with static := { c.static with cacheTtl := v } } ]

def metricsMembers : List Member :=
  [ loadBool "enable_prometheus" fun c v =>
      { c with metrics := { c.metrics with enablePrometheus := v } },
    loadInt "prometheus_port" fun c v =>
      { c with metrics := { c.metrics with prometheusPort := v } },
    loadInt "collect_interval" fun c v =>
      { c with metrics := { c.metrics with collectInterval := v } } ]

/-- A group is looked at if it is an object. -/
def loadGroup (name : String) (members : List Member) : Member := fun j config =>
  if j.contains name && (j.item name).isObject then
    members.foldlM (fun config member => member (j.item name) config) config
  else .ok config

def groups : List Member :=
  [ loadGroup "server" serverMembers, loadGroup "limits" limitsMembers,
    loadGroup "logging" loggingMembers, loadGroup "static" staticMembers,
    loadGroup "metrics" metricsMembers ]

def loadFromJsonObject (config : ServerConfig) (j : Json) : Bool × ServerConfig :=
  match groups.foldlM (fun config group => group j config) config with
  | .ok config => (true, config)
  | .error config => (false, config)

/-- The files that can be opened, with their contents. -/
abbrev Files := Bytes → Option Bytes

def loadFromFile (library : JsonLibrary) (files : Files) (path : Bytes) : ServerConfig :=
  match files path with
  | none => {}
  | some content =>
    match library.parse content with
    | none => {}
    | some j =>
      let result := loadFromJsonObject {} j
      if ¬ result.1 then result.2
      else
        match library.dump j with
        | some text => { result.2 with originalJson := text }
        | none => result.2

def canReloadWithoutRestart : Bool := true

/-! ### A load that fails -/

/-- The file cannot be opened, is no JSON text, or `LoadFromJsonObject` returns false. -/
def LoadFails (library : JsonLibrary) (files : Files) (path : Bytes) : Prop :=
  match files path with
  | none => True
  | some content =>
    match library.parse content with
    | none => True
    | some j => (loadFromJsonObject {} j).1 = false

/-- A statement that throws for no value. -/
def Member.Total (member : Member) : Prop := ∀ j config, ∃ config', member j config = .ok config'

/-- The test of the type comes before the conversion, which then has a value to return. -/
lemma loadMember_total {α : Type} {hasType : Json → Bool} {get : Json → Option α}
    (h : ∀ j, hasType j → ∃ value, get j = some value) (key : String)
    (set : ServerConfig → α → ServerConfig) : (loadMember hasType get key set).Total := by
  intro j config
  rw [loadMember]
  split
  · rename_i htype
    rw [Bool.and_eq_true] at htype
    obtain ⟨value, hvalue⟩ := h _ htype.2
    rw [hvalue]
    exact ⟨_, rfl⟩
  · exact ⟨_, rfl⟩

lemma loadString_total (key : String) (set : ServerConfig → Bytes → ServerConfig) :
    (loadString key set).Total := by
  apply loadMember_total
  intro j hj
  cases j <;> simp [Json.isString, Json.getString] at hj ⊢

lemma loadBool_total (key : String) (set : ServerConfig → Bool → ServerConfig) :
    (loadBool key set).Total := by
  apply loadMember_total
  intro j hj
  cases j <;> simp [Json.isBoolean, Json.getBool] at hj ⊢

lemma loadInt_total (key : String) (set : ServerConfig → ℤ → ServerConfig) :
    (loadInt key set).Total := by
  apply loadMember_total
  intro j hj
  cases j <;> simp [Json.isNumberInteger, Json.getInt] at hj ⊢

lemma loadSizeT_total (key : String) (set : ServerConfig → ℕ → ServerConfig) :
    (loadSizeT key set).Total := by
  apply loadMember_total
  intro j hj
  cases j <;> simp [Json.isNumberInteger, Json.getSizeT] at hj ⊢

lemma foldlM_total {members : List Member} (h : ∀ member ∈ members, member.Total) (j : Json)
    (config : ServerConfig) :
    ∃ config', members.foldlM (fun config member => member j config) config =
      (.ok config' : Except ServerConfig ServerConfig) := by
  induction members generalizing config with
  | nil => exact ⟨config, rfl⟩
  | cons member members ih =>
    obtain ⟨config', hmember⟩ := h member List.mem_cons_self j config
    obtain ⟨config'', hmembers⟩ := ih (fun m hm => h m (List.mem_cons_of_mem _ hm)) config'
    refine ⟨config'', ?_⟩
    rw [List.foldlM_cons, hmember]
    exact hmembers

lemma loadGroup_total (name : String) {members : List Member}
    (h : ∀ member ∈ members, member.Total) : (loadGroup name members).Total := by
  intro j config
  rw [loadGroup]
  split
  · exact foldlM_total h _ config
  · exact ⟨config, rfl⟩

lemma groups_total : ∀ group ∈ groups, group.Total := by
  simp only [groups, List.forall_mem_cons, List.not_mem_nil, false_implies, implies_true, and_true]
  refine ⟨?_, ?_, ?_, ?_, ?_⟩ <;> apply loadGroup_total
  · simp [serverMembers, loadString_total, loadInt_total, loadBool_total]
  · simp [limitsMembers, loadInt_total, loadSizeT_total]
  · simp [loggingMembers, loadString_total, loadInt_total, loadBool_total, loadSizeT_total]
  · simp [staticMembers, loadString_total, loadInt_total, loadSizeT_total]
  · simp [metricsMembers, loadInt_total, loadBool_total]

/-- No JSON value makes `LoadFromJsonObject` return false: a member of a wrong type is passed
over. -/
lemma loadFromJsonObject_fst (config : ServerConfig) (j : Json) :
    (loadFromJsonObject config j).1 = true := by
  obtain ⟨config', h⟩ := foldlM_total groups_total j config
  rw [loadFromJsonObject, h]

/-- A load that fails hands out the defaults. -/
lemma loadFromFile_of_fails {library : JsonLibrary} {files : Files} {path : Bytes}
    (h : LoadFails library files path) : loadFromFile library files path = {} := by
  rw [LoadFails] at h
  rw [loadFromFile]
  split
  · rfl
  · rename_i content hfile
    rw [hfile] at h
    dsimp only at h ⊢
    split
    · rfl
    · rename_i j hparse
      rw [hparse] at h
      dsimp only at h
      rw [loadFromJsonObject_fst] at h
      contradiction

end ServerConfig

/-- The configuration object of a running server, with the flag of a reload in progress. -/
structure LiveConfig where
  config : ServerConfig
  reloading : Bool

namespace LiveConfig

open ServerConfig

/-- A second reload finds the flag set and leaves it set. -/
def reload (live : LiveConfig) (library : JsonLibrary) (files : Files) (newConfig : Bytes) :
    Bool × LiveConfig :=
  if live.reloading then (false, live)
  else
    let newConfigObj := loadFromFile library files newConfig
    if newConfigObj.validate ≠ [] then (false, { live with reloading := false })
    else if ¬ canReloadWithoutRestart then (false, { live with reloading := false })
    else
      let config := { live.config with
        server := newConfigObj.server, limits := newConfigObj.limits
        logging := newConfigObj.logging, static := newConfigObj.static
        metrics := newConfigObj.metrics, originalJson := newConfigObj.originalJson }
      (true, { config := config, reloading := false })

lemma reload_of_reloading {live : LiveConfig} (h : live.reloading) (library : JsonLibrary)
    (files : Files) (path : Bytes) : live.reload library files path = (false, live) := by
  rw [reload, if_pos h]

/-- The defaults pass the checks, so that a failed load is taken over as a new configuration. -/
lemma reload_of_fails {live : LiveConfig} (h : ¬ live.reloading) {library : JsonLibrary}
    {files : Files} {path : Bytes} (hfails : LoadFails library files path) :
    live.reload library files path = (true, { config := {}, reloading := false }) := by
  rw [reload, if_neg h, loadFromFile_of_fails hfails]
  dsimp only
  rw [if_neg (not_not.mpr validate_default), if_neg (by simp [canReloadWithoutRestart])]

/-- A reload whose load fails is reported and changes nothing exactly if it does not get as far as
the load. -/
theorem reload_failed_iff (live : LiveConfig) (library : JsonLibrary) (files : Files) (path : Bytes)
    (h : LoadFails library files path) :
    ((live.reload library files path).1 = false ∧
      (live.reload library files path).2.config = live.config) ↔ live.reloading := by
  constructor
  · rintro ⟨hresult, -⟩
    by_contra hreloading
    rw [reload_of_fails hreloading h] at hresult
    contradiction
  · intro hreloading
    rw [reload_of_reloading hreloading]
    exact ⟨rfl, rfl⟩

theorem reload_failed_missing_file :
    (LiveConfig.reload ⟨{}, true⟩ .ofNull (fun _ => none) (bytes "new.json")).1 = false ∧
      (LiveConfig.reload ⟨{}, true⟩ .ofNull (fun _ => none) (bytes "new.json")).2.config = {} :=
  (reload_failed_iff ⟨{}, true⟩ .ofNull (fun _ => none) (bytes "new.json") trivial).2 rfl

/-- A server on port 9000 that is told to reload a file that does not exist goes to port 8080 and
reports success. -/
theorem reload_missing_file :
    ¬ ∀ (live : LiveConfig) (library : JsonLibrary) (files : Files) (path : Bytes),
      LoadFails library files path →
        (live.reload library files path).1 = false ∧
          (live.reload library files path).2.config = live.config := by
  intro h
  let live : LiveConfig := ⟨{ server := { port := 9000 } }, false⟩
  have hfails : LoadFails .ofNull (fun _ => none) (bytes "new.json") := trivial
  have hresult := (h live .ofNull (fun _ => none) (bytes "new.json") hfails).1
  rw [reload_of_fails (by simp [live]) hfails] at hresult
  contradiction

end LiveConfig

end TinyWebServer
