import TinyWebServer.Http.OnMessage

/-!
# Which paths reach the file system

A valid request is looked up under the root by its normalised path. The kernel sees that path up
to its first NUL only, so that the names in front of the NUL, and what is left of the name that
holds it, decide where the lookup ends.
-/

namespace TinyWebServer

open RequestValidator (IsName normalizePath)

/-- The path is the root, a slash, and a single dot or names without dot segments. -/
def Contained (root path : Bytes) : Prop :=
  ∃ names : List Bytes, path = root ++ Bytes.slash :: List.intercalate [Bytes.slash] names ∧
    (names = [bytes "."] ∨ (names ≠ [] ∧ ∀ name ∈ names, IsName name))

/-- What is left of the name that holds the first NUL. -/
def cutName (path : Bytes) : Option Bytes := ((Bytes.cstr path).splitOn Bytes.slash).getLast?

/-- The root has no NUL, and a NUL in the normalised path neither cuts a name away nor leaves a
dot segment in its place. -/
def NulSafe (root normalized : Bytes) : Prop :=
  0 ∉ root ∧ (0 ∈ normalized →
    cutName normalized ≠ some [] ∧ cutName normalized ≠ some (bytes "..") ∧
      (cutName normalized = some (bytes ".") → Bytes.cstr normalized = bytes "."))

/-! ### Names in front of a NUL -/

/-- What the kernel sees of joined names ends in the name with the first NUL. -/
lemma cstr_intercalate {names : List Bytes} (hnul : 0 ∈ List.intercalate [Bytes.slash] names) :
    ∃ before name after, names = before ++ name :: after ∧ 0 ∈ name ∧
      Bytes.cstr (List.intercalate [Bytes.slash] names) =
        List.intercalate [Bytes.slash] (before ++ [Bytes.cstr name]) := by
  induction names with
  | nil => simp at hnul
  | cons first names ih =>
    by_cases hfirst : (0 : UInt8) ∈ first
    · refine ⟨[], first, names, rfl, hfirst, ?_⟩
      cases names with
      | nil => simp
      | cons second names =>
        rw [List.intercalate_cons_cons, List.append_assoc, Bytes.cstr_append_of_mem _ hfirst]
        simp
    · have hrest : names ≠ [] := by
        rintro rfl
        exact hfirst (by simpa using hnul)
      rw [List.intercalate_cons_of_ne_nil hrest] at hnul ⊢
      have hslash : (0 : UInt8) ∉ first ++ [Bytes.slash] := by
        simpa [Bytes.slash] using hfirst
      have hnul' : 0 ∈ List.intercalate [Bytes.slash] names :=
        (List.mem_append.mp hnul).resolve_left hslash
      obtain ⟨before, name, after, rfl, hname, hcstr⟩ := ih hnul'
      refine ⟨first :: before, name, after, rfl, hname, ?_⟩
      rw [Bytes.cstr_append_of_notMem _ hslash, hcstr, List.cons_append,
        List.intercalate_cons_of_ne_nil (by simp)]

lemma slash_notMem_cstr {name : Bytes} (h : Bytes.slash ∉ name) : Bytes.slash ∉ Bytes.cstr name :=
  fun hmem => h ((List.takeWhile_prefix _).subset hmem)

/-- A joined list of names with a shortened last one is contained if that one is no dot segment. -/
lemma contained_cut_iff (root : Bytes) {before : List Bytes} {cut : Bytes}
    (hbefore : ∀ name ∈ before, IsName name) (hcut : Bytes.slash ∉ cut) :
    Contained root (root ++ Bytes.slash :: List.intercalate [Bytes.slash] (before ++ [cut])) ↔
      cut ≠ [] ∧ cut ≠ bytes ".." ∧
        (cut = bytes "." → List.intercalate [Bytes.slash] (before ++ [cut]) = bytes ".") := by
  constructor
  · rintro ⟨names, heq, hnames⟩
    have hjoin := List.cons.inj (List.append_cancel_left heq)
    have hslash : ∀ name ∈ before ++ [cut], Bytes.slash ∉ name := by
      intro name hname
      rcases List.mem_append.mp hname with hname | hname
      · exact (hbefore name hname).no_slash
      · rwa [List.mem_singleton.mp hname]
    have hslash' : ∀ name ∈ names, Bytes.slash ∉ name := by
      rcases hnames with rfl | ⟨-, hnames⟩
      · simp only [List.mem_singleton, forall_eq]
        decide
      · exact fun name hname => (hnames name hname).no_slash
    have hne : names ≠ [] := by
      rcases hnames with rfl | ⟨hne, -⟩
      · exact List.cons_ne_nil _ _
      · exact hne
    have hsplit := congrArg (List.splitOn Bytes.slash) hjoin.2
    rw [List.splitOn_intercalate _ hslash (by simp), List.splitOn_intercalate _ hslash' hne] at hsplit
    subst hsplit
    rcases hnames with hdot | ⟨-, hnames⟩
    · cases before with
      | nil =>
        have hcutdot : cut = bytes "." := by simpa using hdot
        rw [hcutdot]
        exact ⟨by decide, by decide, fun _ => by simp⟩
      | cons first before => simp at hdot
    · obtain ⟨h₁, h₂, h₃, -⟩ := hnames cut (by simp)
      exact ⟨h₁, h₃, fun h => absurd h h₂⟩
  · rintro ⟨hne, hdotdot, hdot⟩
    by_cases hcutdot : cut = bytes "."
    · exact ⟨[bytes "."], by rw [hdot hcutdot, List.intercalate_singleton], Or.inl rfl⟩
    · refine ⟨before ++ [cut], rfl, Or.inr ⟨by simp, ?_⟩⟩
      intro name hname
      rcases List.mem_append.mp hname with hname | hname
      · exact hbefore name hname
      · rw [List.mem_singleton.mp hname]
        exact ⟨hne, hcutdot, hdotdot, hcut⟩

lemma not_contained_of_length_le {root path : Bytes} (h : path.length ≤ root.length) :
    ¬ Contained root path := by
  rintro ⟨names, rfl, -⟩
  simp only [List.length_append, List.length_cons] at h
  omega

/-- The path that the kernel sees for a valid request. -/
def seenPath (root path : Bytes) : Bytes :=
  Bytes.cstr (root ++ Bytes.slash :: normalizePath path)

/-- As a string, with all its NULs, the path is contained in the root. -/
lemma contained_normalizePath (root : Bytes) {path : Bytes} (h : normalizePath path ≠ []) :
    Contained root (root ++ Bytes.slash :: normalizePath path) := by
  rcases RequestValidator.normalizePath_cases h with hdot | ⟨names, hne, hnames, heq⟩
  · exact ⟨[bytes "."], by rw [hdot, List.intercalate_singleton], Or.inl rfl⟩
  · exact ⟨names, by rw [heq], Or.inr ⟨hne, hnames⟩⟩

/-- What the kernel sees is contained in the root exactly if the NULs are harmless. -/
lemma contained_seenPath_iff (root : Bytes) {path : Bytes} (h : normalizePath path ≠ []) :
    Contained root (seenPath root path) ↔ NulSafe root (normalizePath path) := by
  rw [NulSafe, seenPath]
  by_cases hroot : (0 : UInt8) ∈ root
  · rw [Bytes.cstr_append_of_mem _ hroot]
    refine iff_of_false (not_contained_of_length_le ?_) fun hsafe => hsafe.1 hroot
    exact (List.takeWhile_prefix _).length_le
  have hslash : (0 : UInt8) ∉ root ++ [Bytes.slash] := by simpa [Bytes.slash] using hroot
  have hcstr : Bytes.cstr (root ++ Bytes.slash :: normalizePath path) =
      root ++ Bytes.slash :: Bytes.cstr (normalizePath path) := by
    have happend := Bytes.cstr_append_of_notMem (normalizePath path) hslash
    simpa using happend
  rw [hcstr]
  by_cases hnul : (0 : UInt8) ∈ normalizePath path
  · rcases RequestValidator.normalizePath_cases h with hdot | ⟨names, -, hnames, heq⟩
    · rw [hdot] at hnul
      exact absurd hnul (by decide)
    · rw [heq] at hnul ⊢
      obtain ⟨before, name, after, rfl, hname, hcut⟩ := cstr_intercalate hnul
      have hbefore : ∀ name ∈ before, IsName name := fun n hn => hnames n (by simp [hn])
      have hnoslash := slash_notMem_cstr (hnames name (by simp)).no_slash
      have hslashes : ∀ n ∈ before ++ [Bytes.cstr name], Bytes.slash ∉ n := by
        intro n hn
        rcases List.mem_append.mp hn with hn | hn
        · exact (hbefore n hn).no_slash
        · rwa [List.mem_singleton.mp hn]
      rw [cutName, hcut, List.splitOn_intercalate _ hslashes (by simp), List.getLast?_append]
      rw [contained_cut_iff root hbefore hnoslash]
      simp [hroot, hnul]
  · rw [Bytes.cstr_of_notMem hnul]
    exact iff_of_true (contained_normalizePath root h) ⟨hroot, fun hmem => absurd hmem hnul⟩

/-! ### The paths of one request -/

section

variable (host : Host)

lemma decideCode_accessed (r : HttpResponse) (fullPath p : Bytes) :
    p ∈ (r.decideCode host fullPath).2 ↔ r.code = -1 ∧ p = Bytes.cstr fullPath := by
  have hfile := host.disk.existingFile_accessed fullPath p
  rw [HttpResponse.decideCode]
  split_ifs with hcode
  · simp only [hcode, true_and, ← hfile]
    split <;> rename_i heq <;> rw [heq]
  · simp [hcode]

lemma loadBody_accessed (resources : StaticResourceManager) (r : HttpResponse) (fullPath : Bytes)
    {p : Bytes} (h : p ∈ (r.loadBody host resources fullPath).2) :
    r.code = 200 ∧ p = Bytes.cstr fullPath := by
  rw [HttpResponse.loadBody] at h
  split_ifs at h with hcode hmodified
  · refine ⟨hcode, StaticResourceManager.getResource_accessed host.disk fullPath resources ?_⟩
    split at h <;> rename_i heq <;> rw [heq] <;> exact h
  · simp at h
  · simp at h

/-- An open response looks at its path and at no other. -/
lemma makeResponse_accessed_of_open (resources : StaticResourceManager) {r : HttpResponse}
    (h : r.code = -1) (p : Bytes) :
    p ∈ (r.makeResponse host resources).2 ↔ p = Bytes.cstr (r.srcDir ++ r.path) := by
  have hdecide := decideCode_accessed host r (r.srcDir ++ r.path) p
  simp only [h, true_and] at hdecide
  rw [HttpResponse.makeResponse]
  cases hcode : r.decideCode host (r.srcDir ++ r.path) with
  | mk code accessed =>
    rw [hcode] at hdecide
    cases code with
    | none => exact hdecide
    | some code =>
      simp only [List.mem_append, hdecide]
      refine ⟨?_, Or.inl⟩
      rintro (hp | hp)
      · exact hp
      · obtain ⟨hok, hp⟩ := loadBody_accessed host _ _ _ hp
        have hcode200 : code = 200 := hok
        have hpath : HttpResponse.codePath.lookup 200 = none := by decide
        rwa [hcode200, hpath] at hp

/-- A response with a forced code other than 200 looks at nothing. -/
lemma makeResponse_accessed_of_forced (resources : StaticResourceManager) {r : HttpResponse}
    (hopen : r.code ≠ -1) (hok : r.code ≠ 200) : (r.makeResponse host resources).2 = [] := by
  have hdecide : r.decideCode host (r.srcDir ++ r.path) = (some r.code, []) := by
    rw [HttpResponse.decideCode, if_neg hopen]
  rw [HttpResponse.makeResponse, hdecide]
  refine List.eq_nil_iff_forall_not_mem.mpr fun p hp => ?_
  exact hok (loadBody_accessed host _ _ _ hp).1

lemma init_of_forced (r : HttpResponse) (srcDir path : Bytes) (isKeepAlive : Bool) {code : ℤ}
    (request : HttpRequest) (h : code ≠ -1) :
    (r.init host srcDir path isKeepAlive code (some request)).2 = [] ∧
      (r.init host srcDir path isKeepAlive code (some request)).1.code = code := by
  simp [HttpResponse.init, h]

/-- `Init` looks at the path, if at any, and a response that is not modified has done so. -/
lemma init_of_open (r : HttpResponse) (srcDir path : Bytes) (isKeepAlive : Bool)
    (request : HttpRequest) :
    let result := r.init host srcDir path isKeepAlive (-1) (some request)
    result.1.srcDir = srcDir ∧ result.1.path = path ∧
      (∀ p ∈ result.2, p = Bytes.cstr (srcDir ++ path)) ∧
      (result.1.code = -1 ∨ (result.1.code = 304 ∧ Bytes.cstr (srcDir ++ path) ∈ result.2)) := by
  have haccessed := ConditionalRequestHandler.shouldReturn304_accessed host.ctime host.disk
    host.clock request (srcDir ++ path)
  simp only [HttpResponse.init]
  split_ifs with hmethod
  · split <;> rename_i heq <;> rw [heq] at haccessed
    · exact ⟨rfl, rfl, fun p hp => (haccessed p).mp hp, Or.inl rfl⟩
    · exact ⟨rfl, rfl, fun p hp => (haccessed p).mp hp, Or.inr ⟨rfl, (haccessed _).mpr rfl⟩⟩
  · simp

end

/-- A normalised path gets a slash in front. -/
lemma resourcePath_normalizePath {path : Bytes} (h : normalizePath path ≠ []) :
    ServerEnv.resourcePath (normalizePath path) = Bytes.slash :: normalizePath path := by
  have hhead : (normalizePath path).head? ≠ some Bytes.slash := by
    rcases RequestValidator.normalizePath_cases h with hdot | ⟨names, hne, hnames, heq⟩
    · rw [hdot]
      decide
    · obtain ⟨name, names, rfl⟩ := List.exists_cons_of_ne_nil hne
      obtain ⟨hname, -, -, hslash⟩ := hnames name (List.mem_cons_self ..)
      obtain ⟨b, name, rfl⟩ := List.exists_cons_of_ne_nil hname
      rw [heq, List.intercalate_cons_cons_left]
      simp only [List.mem_cons, not_or] at hslash
      simpa using Ne.symm hslash.1
  rw [ServerEnv.resourcePath, if_pos ⟨h, hhead⟩]

variable (env : ServerEnv)

def ServerEnv.Valid (env : ServerEnv) (request : HttpRequest) : Prop :=
  ((RequestValidator.new env.staticRoot).validateRequest request).valid = true

lemma errorCode_ne (error : Error) :
    ServerEnv.errorCode error ≠ -1 ∧ ServerEnv.errorCode error ≠ 200 := by
  rw [ServerEnv.errorCode]
  split_ifs <;> decide

/-- A valid request makes the server look at one path, an invalid one at none. -/
lemma answer_accessed (resources : StaticResourceManager) (request : HttpRequest) (p : Bytes) :
    p ∈ (env.answer resources request).2 ↔
      env.Valid request ∧ p = seenPath env.staticRoot request.path := by
  simp only [ServerEnv.answer, List.mem_append, ServerEnv.initResponse, ServerEnv.Valid]
  by_cases hvalid : ((RequestValidator.new env.staticRoot).validateRequest request).valid = true
  · rw [if_neg (not_not.mpr hvalid)]
    obtain ⟨hpath, hne⟩ := RequestValidator.validateRequest_valid hvalid
    simp only [hpath, resourcePath_normalizePath hne, hvalid, true_and, seenPath]
    obtain ⟨hsrc, hres, hinit, hcode⟩ := init_of_open env.host .new env.staticRoot
      (Bytes.slash :: normalizePath request.path) request.isKeepAlive request
    rcases hcode with hopen | ⟨hmodified, hmem⟩
    · rw [makeResponse_accessed_of_open env.host resources hopen, hsrc, hres]
      exact ⟨fun h => h.elim (hinit p) id, Or.inr⟩
    · rw [makeResponse_accessed_of_forced env.host resources (by rw [hmodified]; decide)
        (by rw [hmodified]; decide)]
      refine ⟨fun h => h.elim (hinit p) (fun h => nomatch h), ?_⟩
      rintro rfl
      exact Or.inl hmem
  · rw [if_pos hvalid]
    obtain ⟨hopen, hok⟩ := errorCode_ne
      ((RequestValidator.new env.staticRoot).validateRequest request).error
    obtain ⟨hinit, hcode⟩ := init_of_forced env.host .new env.staticRoot [] request.isKeepAlive
      request hopen
    rw [hinit, makeResponse_accessed_of_forced env.host resources (by rwa [hcode]) (by rwa [hcode])]
    simp [hvalid]

/-! ### The whole loop -/

/-- The paths of a trace are those of the valid requests in it. -/
def Accounted (env : ServerEnv) (trace : List Event) : Prop :=
  ∀ p, .access p ∈ trace ↔
    ∃ request, .request request ∈ trace ∧ env.Valid request ∧ p = seenPath env.staticRoot request.path

/-- An event that neither starts a request nor looks at a path. -/
def Event.isSilent : Event → Prop
  | .request _ | .access _ => False
  | _ => True

variable {env}

lemma Accounted.append_silent {trace : List Event} (h : Accounted env trace) (events : List Event)
    (hevents : ∀ e ∈ events, e.isSilent) : Accounted env (trace ++ events) := by
  have haccess : ∀ p, .access p ∉ events := fun p hmem => hevents _ hmem
  have hrequest : ∀ request, .request request ∉ events := fun request hmem => hevents _ hmem
  intro p
  simp only [List.mem_append, haccess, hrequest, or_false]
  exact h p

lemma Accounted.append_request {trace : List Event} (h : Accounted env trace)
    (resources : StaticResourceManager) (request : HttpRequest) :
    Accounted env
      (trace ++ .request request :: (env.answer resources request).2.map .access) := by
  have hanswer := answer_accessed env resources request
  intro p
  have hmem : Event.access p ∈ (env.answer resources request).2.map Event.access ↔
      env.Valid request ∧ p = seenPath env.staticRoot request.path := by
    rw [← hanswer p, List.mem_map_of_injective (fun _ _ heq => Event.access.inj heq)]
  have hother : ∀ request',
      Event.request request' ∉ (env.answer resources request).2.map Event.access := by
    simp
  simp only [List.mem_append, List.mem_cons, reduceCtorEq, false_or, h p, hmem, hother, or_false,
    Event.request.injEq]
  constructor
  · rintro (⟨request', hrequest', hp⟩ | hp)
    · exact ⟨request', Or.inl hrequest', hp⟩
    · exact ⟨request, Or.inr rfl, hp⟩
  · rintro ⟨request', hrequest' | rfl, hp⟩
    · exact Or.inl ⟨request', hrequest', hp⟩
    · exact Or.inr hp

lemma Event.isOutput.isSilent {e : Event} (h : e.isOutput) : e.isSilent := by
  cases e <;> trivial

namespace Session

lemma accounted_of_keepsInput {s t : Session} (h : KeepsInput s t) (hs : Accounted env s.trace) :
    Accounted env t.trace := by
  obtain ⟨events, htrace, hevents⟩ := h.trace
  rw [htrace]
  exact hs.append_silent events fun e he => (hevents e he).isSilent

lemma accounted_handleRequest {s : Session} (h : Accounted env s.trace) (headerEnd : ℕ)
    (request : HttpRequest) : Accounted env (s.handleRequest env headerEnd request).1.trace := by
  have hrequest := h.append_request s.resources request
  rcases handleRequest_cases env s headerEnd request with
    ⟨accessed, hanswer, heq⟩ | ⟨response, resources, accessed, hanswer, heq⟩
  · obtain ⟨keepAlive, haccepting⟩ := accepting_eq env s request
    rw [hanswer] at hrequest
    rw [heq, haccepting]
    simpa [noteAll] using hrequest
  · obtain ⟨keepAlive, hresponding⟩ := responding_eq env s request response resources accessed
    rw [hanswer] at hrequest
    have hready : Accounted env (s.responding env request response resources accessed).trace := by
      have hsilent := hrequest.append_silent [.response response] (by
        simp [Event.isSilent])
      simpa [hresponding] using hsilent
    have hsent := accounted_of_keepsInput (keepsInput_sendResponse _ response) hready
    rcases heq with heq | heq
    · rw [heq]
      exact accounted_of_keepsInput (keepsInput_shutdown _) hsent
    · rw [heq]
      exact hsent

lemma accounted_messageTurn {s : Session} (h : Accounted env s.trace) :
    Accounted env (s.messageTurn env).1.trace := by
  simp only [messageTurn]
  cases Bytes.find headEnd s.conn.inputBuffer with
  | none => exact h
  | some headerEnd =>
    have hparse : Accounted env (s.note (.parse s.conn.inputBuffer)).trace :=
      h.append_silent [.parse _] (by simp [Event.isSilent])
    dsimp only
    split_ifs
    · exact accounted_handleRequest hparse headerEnd _
    · exact accounted_of_keepsInput (keepsInput_shutdown _) hparse

lemma accounted_onMessage {s : Session} (h : Accounted env s.trace) :
    Accounted env (s.onMessage env).trace := by
  have hrun := onMessage_induction env
    (P := fun s t => Accounted env s.trace → Accounted env t.trace)
    (fun s _ hs => accounted_messageTurn hs)
    (fun s t _ ih hs => ih (accounted_messageTurn hs)) s
  exact hrun h

lemma accounted_messageEvents (env : ServerEnv) (s : Session) :
    Accounted env (s.messageEvents env) :=
  accounted_onMessage (s := { s with trace := [] }) fun p => by simp

/-- Every path that the server passes on as a string is contained in the root; what the kernel
makes of it stops at the first NUL. -/
theorem exists_contained_of_access (env : ServerEnv) (s : Session) {path : Bytes}
    (h : .access path ∈ s.messageEvents env) :
    ∃ full, Contained env.staticRoot full ∧ path = Bytes.cstr full := by
  obtain ⟨request, -, hvalid, hpath⟩ := (accounted_messageEvents env s path).mp h
  have hne := (RequestValidator.validateRequest_valid hvalid).2
  exact ⟨_, contained_normalizePath env.staticRoot hne, hpath⟩

/-- The server looks at paths contained in the root only, if and only if the root and the
normalised path of every valid request that it handles are safe from NULs. -/
theorem contained_iff_nulSafe (env : ServerEnv) (s : Session) :
    (∀ path, .access path ∈ s.messageEvents env → Contained env.staticRoot path) ↔
      ∀ request, .request request ∈ s.messageEvents env → env.Valid request →
        NulSafe env.staticRoot (normalizePath request.path) := by
  have haccounted := accounted_messageEvents env s
  constructor
  · intro h request hmem hvalid
    have hne := (RequestValidator.validateRequest_valid hvalid).2
    rw [← contained_seenPath_iff env.staticRoot hne]
    exact h _ ((haccounted _).mpr ⟨request, hmem, hvalid, rfl⟩)
  · intro h path hmem
    obtain ⟨request, hrequest, hvalid, rfl⟩ := (haccounted path).mp hmem
    have hne := (RequestValidator.validateRequest_valid hvalid).2
    rw [contained_seenPath_iff env.staticRoot hne]
    exact h request hrequest hvalid

/-- A server with an empty disk, its root at `./public`. -/
def emptySite : ServerEnv :=
  { staticRoot := bytes "./public", keepAliveTimeout := 15
    host :=
      { disk := fun _ => .notFound, clock := ⟨0, 0⟩
        ctime := ⟨fun _ _ _ => none, fun tm => (-1, tm), fun _ => .zero, fun _ _ => []⟩ } }

/-- A path of two dots and a NUL is a name to the validator and a step up to the kernel. -/
theorem not_contained_dotdot_nul :
    ¬ ∀ path, .access path ∈ (new { Connection.new 0 5 none false with
        state := .kConnected
        inputBuffer := bytes "GET /..\x00 HTTP/1.1\r\n\r\n" } fun _ => .again).messageEvents
          emptySite → Contained emptySite.staticRoot path := by
  intro h
  have hcontained : Contained (bytes "./public") (bytes "./public" ++ Bytes.slash ::
      List.intercalate [Bytes.slash] ([] ++ [bytes ".."])) :=
    h (bytes "./public/..") (by decide +kernel)
  exact ((contained_cut_iff _ (by simp) (by decide)).mp hcontained).2.1 rfl

end Session

end TinyWebServer
