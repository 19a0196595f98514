import TinyWebServer.Http.Containment
import TinyWebServer.Http.Wire

/-!
# What the query string selects

The validator cuts a query string off, whereas the parser puts the index page in place of a target
that is a slash and nothing else. Two heads that differ in a query string are compared.
-/

namespace TinyWebServer

open RequestValidator (normalizePath)

namespace ServerEnv

variable (env : ServerEnv)

/-- The file that `MakeResponse` looks up. -/
def lookedUp (request : HttpRequest) : Bytes :=
  let response := (env.initResponse request).1
  response.srcDir ++ response.path

/-- The status code of the answer; `none` where the file system throws. -/
def status (resources : StaticResourceManager) (request : HttpRequest) : Option ℤ :=
  (env.answer resources request).1.map fun result => result.1.code

/-- What the first head of the input leads to, if it can be parsed. -/
def outcome (resources : StaticResourceManager) (input : Bytes) : Option (Bytes × Option ℤ) :=
  let (parsed, request) := HttpRequest.reset.parse input
  if parsed then some (env.lookedUp request, env.status resources request) else none

end ServerEnv

namespace WireHead

/-- The head with a query string behind its path. -/
def withQuery (head : WireHead) (query : Bytes) (h : ∀ b ∈ query, Bytes.isspace b = false) :
    WireHead :=
  { head with
    path := head.path ++ 63 :: query
    path_word := by
      refine ⟨by simp, fun b hb => ?_⟩
      rcases List.mem_append.mp hb with hb | hb
      · exact head.path_word.2 b hb
      · rcases List.mem_cons.mp hb with rfl | hb
        · decide
        · exact h b hb }

end WireHead

namespace RequestValidator

/-- The validator refuses the request on account of its method, or it refuses the index page and
the root directory alike, or it accepts both and refuses the headers. -/
def RefusesAlike (v : RequestValidator) (request : HttpRequest) : Prop :=
  v.isMethodAllowed request.method = false ∨
    (v.validatePath (bytes "/index.html")).valid = (v.validatePath (bytes "/")).valid ∧
      ((v.validatePath (bytes "/")).valid = false ∨
        (v.validateHeaders request.headers request.getContentLength).valid = false)

/-! ### Verdicts -/

lemma code_refusedPath {v : RequestValidator} {path : Bytes}
    (h : (v.validatePath path).valid = false) :
    (v.validatePath path).error.code = .kInvalidPath := by
  simp only [validatePath] at h ⊢
  split_ifs at h ⊢
  · rfl
  · rfl

lemma code_refusedHeaders {v : RequestValidator} {headers : List (Bytes × Bytes)} {n : ℤ}
    (h : (v.validateHeaders headers n).valid = false) :
    (v.validateHeaders headers n).error.code = .kRequestTooLarge := by
  simp only [validateHeaders] at h ⊢
  split_ifs at h ⊢
  · rfl
  · rfl

lemma valid_iff (v : RequestValidator) (request : HttpRequest) :
    (v.validateRequest request).valid = true ↔
      v.isMethodAllowed request.method = true ∧ (v.validatePath request.path).valid = true ∧
        (v.validateHeaders request.headers request.getContentLength).valid = true := by
  simp only [validateRequest]
  split_ifs with hmethod hpath hheaders <;> simp_all [refuse]

/-- The status code of a request that is refused. -/
lemma errorCode_refused {v : RequestValidator} {request : HttpRequest}
    (h : (v.validateRequest request).valid = false) :
    ServerEnv.errorCode (v.validateRequest request).error =
      if v.isMethodAllowed request.method = false then 405
      else if (v.validatePath request.path).valid = false then 403
      else 413 := by
  by_cases hmethod : v.isMethodAllowed request.method = true
  · rw [if_neg (by simp [hmethod])]
    by_cases hpath : (v.validatePath request.path).valid = true
    · rw [if_neg (by simp [hpath])]
      have hheaders : (v.validateHeaders request.headers request.getContentLength).valid =
          false := by
        by_contra hheaders
        rw [Bool.not_eq_false] at hheaders
        rw [(v.valid_iff request).mpr ⟨hmethod, hpath, hheaders⟩] at h
        cases h
      have heq : v.validateRequest request =
          v.validateHeaders request.headers request.getContentLength := by
        simp [validateRequest, hmethod, hpath, hheaders]
      rw [heq, ServerEnv.errorCode, code_refusedHeaders hheaders]
      rfl
    · rw [if_pos (by simpa using hpath)]
      have heq : v.validateRequest request = v.validatePath request.path := by
        simp [validateRequest, hmethod, hpath]
      rw [heq, ServerEnv.errorCode, code_refusedPath (by simpa using hpath)]
      rfl
  · rw [if_pos (by simpa using hmethod)]
    have heq : v.validateRequest request =
        refuse .kUnsupportedMethod (bytes "HTTP method not allowed: " ++ request.method) := by
      simp [validateRequest, hmethod]
    rw [heq]
    rfl

/-- Paths with the same normal form are accepted or refused together. -/
lemma validatePath_congr (v : RequestValidator) {path path' : Bytes}
    (h : normalizePath path = normalizePath path') :
    (v.validatePath path).valid = (v.validatePath path').valid := by
  simp only [validatePath, h]
  split_ifs <;> rfl

lemma valid_congr (v : RequestValidator) (request : HttpRequest) {path : Bytes}
    (h : normalizePath path = normalizePath request.path) :
    (v.validateRequest { request with path := path }).valid =
      (v.validateRequest request).valid := by
  rw [Bool.eq_iff_iff, valid_iff, valid_iff, ← v.validatePath_congr h]
  exact Iff.rfl

lemma errorCode_congr (v : RequestValidator) (request : HttpRequest) {path : Bytes}
    (h : normalizePath path = normalizePath request.path)
    (hrefused : (v.validateRequest request).valid = false) :
    ServerEnv.errorCode (v.validateRequest { request with path := path }).error =
      ServerEnv.errorCode (v.validateRequest request).error := by
  rw [errorCode_refused hrefused, errorCode_refused (by rwa [valid_congr v request h]),
    ← v.validatePath_congr h]

/-- Without its query string a path has the same normal form. -/
lemma normalizePath_query {path : Bytes} (hne : path ≠ []) (hquery : 63 ∉ path) (query : Bytes) :
    normalizePath (path ++ 63 :: query) = normalizePath path := by
  have hcut : cutAt 63 (path ++ 63 :: query) = path := by
    rw [cutAt, Bytes.findByte_append_cons query hquery]
    exact List.take_left
  have hself : cutAt 63 path = path := by
    rw [cutAt, Bytes.findByte_of_notMem hquery]
  simp only [normalizePath, hcut, hself, List.append_eq_nil_iff, hne, false_and, if_false]

end RequestValidator

namespace ServerEnv

variable {env : ServerEnv}

lemma initResponse_refused {request : HttpRequest}
    (h : ((RequestValidator.new env.staticRoot).validateRequest request).valid = false) :
    env.initResponse request =
      HttpResponse.new.init env.host env.staticRoot [] request.isKeepAlive
        (errorCode ((RequestValidator.new env.staticRoot).validateRequest request).error)
        (some request) := by
  simp [initResponse, h]

lemma initResponse_valid {request : HttpRequest} (h : env.Valid request) :
    env.initResponse request =
      HttpResponse.new.init env.host env.staticRoot (Bytes.slash :: normalizePath request.path)
        request.isKeepAlive (-1) (some request) := by
  obtain ⟨hpath, hne⟩ := RequestValidator.validateRequest_valid h
  rw [Valid] at h
  simp only [initResponse]
  rw [if_neg (not_not.mpr h), hpath, resourcePath_normalizePath hne]

/-- A request that is refused looks up the root itself, so to speak, and no file. -/
lemma lookedUp_refused {request : HttpRequest}
    (h : ((RequestValidator.new env.staticRoot).validateRequest request).valid = false) :
    env.lookedUp request = env.staticRoot := by
  obtain ⟨hopen, -⟩ := errorCode_ne
    ((RequestValidator.new env.staticRoot).validateRequest request).error
  simp [lookedUp, initResponse_refused h, HttpResponse.init, hopen]

lemma lookedUp_valid {request : HttpRequest} (h : env.Valid request) :
    env.lookedUp request = env.staticRoot ++ Bytes.slash :: normalizePath request.path := by
  obtain ⟨hsrc, hpath, -⟩ := init_of_open env.host .new env.staticRoot
    (Bytes.slash :: normalizePath request.path) request.isKeepAlive request
  simp only [lookedUp, initResponse_valid h]
  rw [hsrc, hpath]

lemma errorCode_ne_304 (error : Error) : errorCode error ≠ 304 := by
  rw [errorCode]
  split_ifs <;> decide

/-- A forced code other than 200 and 304 is the code of the response. -/
lemma code_makeResponse_of_forced (host : Host) (resources : StaticResourceManager)
    {r : HttpResponse} (hopen : r.code ≠ -1) (hok : r.code ≠ 200) (hmodified : r.code ≠ 304) :
    (r.makeResponse host resources).1.map (fun result => result.1.code) = some r.code := by
  have hcode : ∀ r : HttpResponse,
      (r.addHeader host).code = r.code ∧ r.errorHtml.code = r.code := by
    intro r
    simp only [HttpResponse.addHeader, HttpResponse.errorHtml]
    constructor
    · split_ifs <;> rfl
    · split_ifs <;> rfl
  simp [HttpResponse.makeResponse, HttpResponse.decideCode, HttpResponse.loadBody, hopen, hok,
    hmodified, HttpResponse.addContent, HttpResponse.addStateLine, hcode]

lemma status_refused (resources : StaticResourceManager) {request : HttpRequest}
    (h : ((RequestValidator.new env.staticRoot).validateRequest request).valid = false) :
    env.status resources request =
      some (errorCode ((RequestValidator.new env.staticRoot).validateRequest request).error) := by
  obtain ⟨hopen, hok⟩ := errorCode_ne
    ((RequestValidator.new env.staticRoot).validateRequest request).error
  have hcode := (init_of_forced env.host .new env.staticRoot [] request.isKeepAlive request hopen).2
  have hforced := code_makeResponse_of_forced env.host resources (r := (env.initResponse request).1)
  rw [initResponse_refused h, hcode] at hforced
  simp only [status, answer, initResponse_refused h]
  exact hforced hopen hok (errorCode_ne_304 _)

/-- The path of a request counts for the answer only in its normal form. -/
lemma initResponse_congr (request : HttpRequest) {path : Bytes}
    (h : normalizePath path = normalizePath request.path) :
    env.initResponse { request with path := path } = env.initResponse request := by
  cases hvalid : ((RequestValidator.new env.staticRoot).validateRequest request).valid with
  | true =>
    have hvalid' : env.Valid { request with path := path } := by
      rw [Valid, RequestValidator.valid_congr _ request h, hvalid]
    rw [initResponse_valid hvalid', initResponse_valid hvalid, h]
    rfl
  | false =>
    have hvalid' := RequestValidator.valid_congr (RequestValidator.new env.staticRoot) request h
    rw [initResponse_refused hvalid, initResponse_refused (hvalid'.trans hvalid),
      RequestValidator.errorCode_congr _ request h hvalid]
    rfl

lemma outcome_print (env : ServerEnv) (resources : StaticResourceManager) (head : WireHead)
    (rest : Bytes) :
    env.outcome resources (head.print ++ rest) =
      some (env.lookedUp head.request, env.status resources head.request) := by
  simp [outcome, parse_print]

end ServerEnv

open RequestValidator (RefusesAlike)

lemma request_withQuery (head : WireHead) {query : Bytes}
    (h : ∀ b ∈ query, Bytes.isspace b = false) :
    (head.withQuery query h).request = { head.request with path := head.path ++ 63 :: query } := by
  have hne : head.path ++ 63 :: query ≠ bytes "/" := by
    intro heq
    have hmem : (63 : UInt8) ∈ bytes "/" := by
      rw [← heq]
      simp
    exact absurd hmem (by decide)
  simp [WireHead.request, WireHead.withQuery, hne]

/-- Only for the bare slash do the two heads have paths with different normal forms. -/
lemma normalizePath_request_of_ne (head : WireHead) (hquery : 63 ∉ head.path)
    (hne : head.path ≠ bytes "/") (query : Bytes) :
    normalizePath (head.path ++ 63 :: query) = normalizePath head.request.path := by
  rw [RequestValidator.normalizePath_query head.path_word.1 hquery]
  simp [WireHead.request, hne]

section Slash

variable {env : ServerEnv} {head : WireHead} {query : Bytes}

/-- With a query string behind it the bare slash is the root directory, not the index page. -/
lemma valid_slash (hpath : head.path = bytes "/") :
    ((RequestValidator.new env.staticRoot).validatePath (head.path ++ 63 :: query)).valid =
      ((RequestValidator.new env.staticRoot).validatePath (bytes "/")).valid := by
  apply RequestValidator.validatePath_congr
  rw [hpath]
  exact RequestValidator.normalizePath_query (by decide) (by decide) query

lemma path_request_slash (hpath : head.path = bytes "/") :
    head.request.path = bytes "/index.html" := by
  simp [WireHead.request, hpath]

/-- If the server looks up a file for one of the heads, it is another than for the other. -/
lemma lookedUp_slash_ne (hpath : head.path = bytes "/")
    (h : env.Valid head.request ∨
      env.Valid { head.request with path := head.path ++ 63 :: query }) :
    env.lookedUp { head.request with path := head.path ++ 63 :: query } ≠
      env.lookedUp head.request := by
  have hindex : normalizePath head.request.path = bytes "index.html" := by
    rw [path_request_slash hpath]
    decide
  have hdot : normalizePath (head.path ++ 63 :: query) = bytes "." := by
    rw [hpath, RequestValidator.normalizePath_query (by decide) (by decide)]
    decide
  cases hvalid : ((RequestValidator.new env.staticRoot).validateRequest head.request).valid with
  | true =>
    rw [ServerEnv.lookedUp_valid hvalid, hindex]
    cases hvalid' : ((RequestValidator.new env.staticRoot).validateRequest
        { head.request with path := head.path ++ 63 :: query }).valid with
    | true =>
      rw [ServerEnv.lookedUp_valid hvalid', hdot]
      intro heq
      exact absurd (List.append_cancel_left heq) (by decide)
    | false =>
      rw [ServerEnv.lookedUp_refused hvalid']
      simp
  | false =>
    have hvalid' := h.resolve_left (by simp [ServerEnv.Valid, hvalid])
    rw [ServerEnv.lookedUp_refused hvalid, ServerEnv.lookedUp_valid hvalid']
    simp

lemma not_valid_of_refusesAlike (query : Bytes) (hpath : head.path = bytes "/")
    (h : RefusesAlike (RequestValidator.new env.staticRoot) head.request) :
    ¬ env.Valid head.request ∧
      ¬ env.Valid { head.request with path := head.path ++ 63 :: query } := by
  simp only [ServerEnv.Valid, RequestValidator.valid_iff, valid_slash hpath,
    path_request_slash hpath]
  rcases h with hmethod | ⟨hsame, hroot | hheaders⟩
  · simp [hmethod]
  · simp [hsame, hroot]
  · constructor
    · rintro ⟨-, -, hvalid⟩
      exact absurd hvalid (by simp [hheaders])
    · rintro ⟨-, -, hvalid⟩
      exact Bool.false_ne_true (hheaders.symm.trans hvalid)

/-- If the server looks up no file for either head, they get the same status code exactly if they
are refused alike. -/
lemma status_slash_iff (resources : StaticResourceManager) (hpath : head.path = bytes "/")
    (h : ((RequestValidator.new env.staticRoot).validateRequest head.request).valid = false)
    (h' : ((RequestValidator.new env.staticRoot).validateRequest
      { head.request with path := head.path ++ 63 :: query }).valid = false) :
    env.status resources { head.request with path := head.path ++ 63 :: query } =
        env.status resources head.request ↔
      RefusesAlike (RequestValidator.new env.staticRoot) head.request := by
  have hinvalid :=
    ((RequestValidator.new env.staticRoot).valid_iff head.request).not.mp (by simp [h])
  rw [ServerEnv.status_refused resources h, ServerEnv.status_refused resources h',
    RequestValidator.errorCode_refused h, RequestValidator.errorCode_refused h']
  simp only [valid_slash hpath, path_request_slash hpath] at hinvalid ⊢
  rw [RefusesAlike]
  cases hmethod : (RequestValidator.new env.staticRoot).isMethodAllowed head.request.method with
  | false => simp
  | true =>
    cases hindex : ((RequestValidator.new env.staticRoot).validatePath
        (bytes "/index.html")).valid with
    | false =>
      cases ((RequestValidator.new env.staticRoot).validatePath (bytes "/")).valid <;> simp
    | true =>
      cases ((RequestValidator.new env.staticRoot).validatePath (bytes "/")).valid with
      | false => simp
      | true => simpa [hmethod, hindex] using hinvalid

/-- What the server looks up and answers does not depend on the query string, unless the path is
the bare slash and the request is not refused alike with and without it. -/
theorem outcome_withQuery_iff (env : ServerEnv) (resources : StaticResourceManager)
    (head : WireHead) (hquery : 63 ∉ head.path) {query : Bytes}
    (h : ∀ b ∈ query, Bytes.isspace b = false) (rest : Bytes) :
    env.outcome resources ((head.withQuery query h).print ++ rest) =
        env.outcome resources (head.print ++ rest) ↔
      head.path ≠ bytes "/" ∨
        RefusesAlike (RequestValidator.new env.staticRoot) head.request := by
  rw [ServerEnv.outcome_print, ServerEnv.outcome_print, request_withQuery, Option.some.injEq,
    Prod.mk.injEq]
  by_cases hpath : head.path = bytes "/"
  · rw [or_iff_right (not_not.mpr hpath)]
    by_cases hvalid : env.Valid head.request ∨
        env.Valid { head.request with path := head.path ++ 63 :: query }
    · refine iff_of_false (fun hsame => lookedUp_slash_ne hpath hvalid hsame.1) fun halike => ?_
      obtain ⟨hnot, hnot'⟩ := not_valid_of_refusesAlike query hpath halike
      exact hvalid.elim hnot hnot'
    · simp only [not_or, ServerEnv.Valid, Bool.not_eq_true] at hvalid
      rw [ServerEnv.lookedUp_refused hvalid.1, ServerEnv.lookedUp_refused hvalid.2,
        and_iff_right rfl]
      exact status_slash_iff resources hpath hvalid.1 hvalid.2
  · refine iff_of_true ?_ (Or.inl hpath)
    have hinit : env.initResponse { head.request with path := head.path ++ 63 :: query } =
        env.initResponse head.request :=
      ServerEnv.initResponse_congr head.request
        (normalizePath_request_of_ne head hquery hpath query)
    simp only [ServerEnv.lookedUp, ServerEnv.status, ServerEnv.answer, hinit, and_self]

end Slash

/-- A site of one page. -/
def onePage : ServerEnv :=
  { staticRoot := bytes "public", keepAliveTimeout := 15
    host :=
      { disk := fun path =>
          if path = bytes "public/index.html" then .regular ⟨bytes "hello", 0, true⟩
          else if path = bytes "public/." then .other
          else .notFound
        clock := ⟨0, 0⟩
        ctime := ⟨fun _ _ _ => none, fun tm => (-1, tm), fun _ => .zero, fun _ _ => []⟩ } }

lemma isWord_get : Bytes.IsWord (bytes "GET") := by decide +kernel

lemma isWord_version : Bytes.IsWord (bytes "HTTP/1.1") := by decide +kernel

lemma isWord_slash : Bytes.IsWord (bytes "/") := by decide +kernel

lemma isWord_index : Bytes.IsWord (bytes "/index.html") := by decide +kernel

/-- `GET` for a path, without header fields. -/
def getHead (path : Bytes) (h : Bytes.IsWord path) : WireHead :=
  { method := bytes "GET", path := path, version := bytes "HTTP/1.1", fields := []
    method_word := isWord_get, path_word := h, version_word := isWord_version }

def slashHead : WireHead := getHead (bytes "/") isWord_slash

def indexHead : WireHead := getHead (bytes "/index.html") isWord_index

lemma isspace_versionQuery : ∀ b ∈ bytes "v=1", Bytes.isspace b = false := by decide +kernel

/-- A query string turns the index page into a page that is not found. -/
theorem index_lost_with_query :
    onePage.outcome .new slashHead.print = some (bytes "public/index.html", some 200) ∧
      onePage.outcome .new (slashHead.withQuery (bytes "v=1") isspace_versionQuery).print =
        some (bytes "public/.", some 404) ∧
      onePage.outcome .new (slashHead.withQuery (bytes "v=1") isspace_versionQuery).print ≠
        onePage.outcome .new slashHead.print := by
  decide +kernel

theorem outcome_withQuery_index :
    onePage.outcome .new ((indexHead.withQuery (bytes "v=1") isspace_versionQuery).print ++ []) =
        onePage.outcome .new (indexHead.print ++ []) ↔
      indexHead.path ≠ bytes "/" ∨
        RefusesAlike (RequestValidator.new onePage.staticRoot) indexHead.request :=
  outcome_withQuery_iff onePage .new indexHead (by decide +kernel) isspace_versionQuery []

end TinyWebServer
