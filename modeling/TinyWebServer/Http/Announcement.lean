import TinyWebServer.Http.MessageLoop

/-!
# What the header of a response announces

The length of the body, and whether the connection stays open behind it.
-/

namespace TinyWebServer

namespace HttpResponse

/-- The number of body bytes that the header announces; a 304 has no line for it. -/
def announced (r : HttpResponse) : ℕ := if r.code = 304 then 0 else r.getBodyLen

/-- The last line of the header says that the connection will be closed. -/
def CarriesClose (r : HttpResponse) : Prop :=
  bytes "Connection: close" ++ Bytes.crlf ++ Bytes.crlf <:+ r.headerString

instance (r : HttpResponse) : Decidable r.CarriesClose :=
  inferInstanceAs (Decidable (_ <:+ _))

/-- The last steps of `MakeResponse`. -/
def finish (host : Host) (r : HttpResponse) : HttpResponse :=
  ((r.addStateLine).addHeader host).addContent

variable (host : Host)

lemma finish_eq (r : HttpResponse) :
    r.finish host =
      { r with
        statusLine := r.addStateLine.statusLine
        headerString := (r.finish host).headerString
        headers := (r.finish host).headers } := by
  rw [finish, addContent, addHeader]
  split_ifs <;> rfl

/-- The header ends with the connection header. -/
lemma connectionHeader_suffix (r : HttpResponse) :
    r.connectionHeader ++ Bytes.crlf <:+ (r.finish host).headerString := by
  rw [finish, addContent, addHeader]
  split_ifs
  · change _ <:+ _ ++ r.connectionHeader ++ Bytes.crlf
    rw [List.append_assoc]
    apply List.suffix_append
  · change _ <:+ _ ++ r.connectionHeader ++ Bytes.crlf
    rw [List.append_assoc]
    apply List.suffix_append

lemma headerString_finish_ne_nil (r : HttpResponse) : (r.finish host).headerString ≠ [] := by
  intro hnil
  have hsuffix := connectionHeader_suffix host r
  rw [hnil, List.suffix_nil, List.append_eq_nil_iff] at hsuffix
  exact absurd hsuffix.2 (by decide)

lemma carriesClose_finish (r : HttpResponse) :
    (r.finish host).CarriesClose ↔ r.isKeepAlive = false := by
  have hline := connectionHeader_suffix host r
  constructor
  · intro hclose
    by_contra hkeep
    rw [Bool.not_eq_false] at hkeep
    rw [connectionHeader, if_pos hkeep] at hline
    have hsuffix := List.suffix_of_suffix_length_le hclose hline (by decide)
    revert hsuffix
    decide +kernel
  · intro hkeep
    rw [connectionHeader, hkeep, if_neg (by simp)] at hline
    exact hline

/-! ### How a response comes about -/

/-- What is known of a response before it is finished. -/
structure Made (isKeepAlive : Bool) (r : HttpResponse) : Prop where
  isKeepAlive_eq : r.isKeepAlive = isKeepAlive
  body : r.code = 304 → r.fileBody = none ∧ r.bodyString = []

lemma made_init (r : HttpResponse) (srcDir path : Bytes) (isKeepAlive : Bool) (code : ℤ)
    (request : HttpRequest) :
    let r := (r.init host srcDir path isKeepAlive code (some request)).1
    r.isKeepAlive = isKeepAlive ∧ r.fileBody = none ∧ r.bodyString = [] := by
  simp only [init]
  split_ifs
  · split <;> exact ⟨rfl, rfl, rfl⟩
  · exact ⟨rfl, rfl, rfl⟩

lemma made_loadBody (resources : StaticResourceManager) {r : HttpResponse} (path : Bytes)
    (hfile : r.fileBody = none) (hbody : r.bodyString = []) :
    Made r.isKeepAlive (r.loadBody host resources path).1.1 := by
  have hkeep : ∀ u : HttpResponse, u.errorHtml.isKeepAlive = u.isKeepAlive := by
    intro u
    rw [errorHtml]
    split_ifs <;> rfl
  have hcode : ∀ u : HttpResponse, u.errorHtml.code = u.code := by
    intro u
    rw [errorHtml]
    split_ifs <;> rfl
  rw [loadBody]
  split_ifs with hok hmodified
  · split
    · refine ⟨rfl, fun h => ?_⟩
      exact absurd (hok.symm.trans h) (by decide)
    · refine ⟨hkeep _, fun h => ?_⟩
      rw [hcode] at h
      exact absurd (show (404 : ℤ) = 304 from h) (by decide)
  · refine ⟨hkeep r, fun h => ?_⟩
    rw [hcode] at h
    exact absurd h hmodified
  · exact ⟨rfl, fun _ => ⟨hfile, hbody⟩⟩

lemma made_makeResponse {resources resources' : StaticResourceManager} {r response : HttpResponse}
    (hfile : r.fileBody = none) (hbody : r.bodyString = [])
    (h : (r.makeResponse host resources).1 = some (response, resources')) :
    ∃ u, Made r.isKeepAlive u ∧ response = u.finish host := by
  rw [makeResponse] at h
  cases hdecide : r.decideCode host (r.srcDir ++ r.path) with
  | mk code accessed =>
    cases code with
    | none => simp [hdecide] at h
    | some code =>
      simp only [hdecide, Option.some.injEq, Prod.mk.injEq] at h
      obtain ⟨rfl, -⟩ := h
      exact ⟨_, made_loadBody host resources (r := { r with code := code, path := _ }) _ hfile hbody,
        rfl⟩

end HttpResponse

namespace ServerEnv

variable (env : ServerEnv)

lemma made_of_answer {resources resources' : StaticResourceManager} {request : HttpRequest}
    {response : HttpResponse} {accessed : List Bytes}
    (h : env.answer resources request = (some (response, resources'), accessed)) :
    ∃ u, HttpResponse.Made request.isKeepAlive u ∧ response = u.finish env.host := by
  have hinit : (env.initResponse request).1.isKeepAlive = request.isKeepAlive ∧
      (env.initResponse request).1.fileBody = none ∧
      (env.initResponse request).1.bodyString = [] := by
    simp only [initResponse]
    split_ifs
    · apply HttpResponse.made_init
    · apply HttpResponse.made_init
  obtain ⟨hkeep, hfile, hbody⟩ := hinit
  rw [answer] at h
  rw [← hkeep]
  have hresponse : ((env.initResponse request).1.makeResponse env.host resources).1 =
      some (response, resources') := congrArg Prod.fst h
  exact HttpResponse.made_makeResponse env.host hfile hbody hresponse

/-- A response says that it closes the connection where the request did not ask to keep it. -/
theorem carriesClose_iff {resources resources' : StaticResourceManager} {request : HttpRequest}
    {response : HttpResponse} {accessed : List Bytes}
    (h : env.answer resources request = (some (response, resources'), accessed)) :
    response.CarriesClose ↔ request.isKeepAlive = false := by
  obtain ⟨u, hmade, rfl⟩ := env.made_of_answer h
  rw [HttpResponse.carriesClose_finish, hmade.isKeepAlive_eq]

lemma headerString_ne_nil {resources resources' : StaticResourceManager} {request : HttpRequest}
    {response : HttpResponse} {accessed : List Bytes}
    (h : env.answer resources request = (some (response, resources'), accessed)) :
    response.headerString ≠ [] := by
  obtain ⟨u, -, rfl⟩ := env.made_of_answer h
  exact HttpResponse.headerString_finish_ne_nil env.host u

/-- The body is as long as the header says. -/
theorem announced_eq_length {resources resources' : StaticResourceManager} {request : HttpRequest}
    {response : HttpResponse} {accessed : List Bytes}
    (h : env.answer resources request = (some (response, resources'), accessed)) :
    response.announced = response.body.length := by
  obtain ⟨u, hmade, rfl⟩ := env.made_of_answer h
  rw [HttpResponse.finish_eq, HttpResponse.announced, HttpResponse.body]
  by_cases hcode : u.code = 304
  · obtain ⟨hfile, hbody⟩ := hmade.body hcode
    simp [hcode, hfile, hbody]
  · rw [if_neg hcode, HttpResponse.getBodyLen]
    cases u.fileBody with
    | none => rfl
    | some resource => rfl

end ServerEnv

end TinyWebServer
