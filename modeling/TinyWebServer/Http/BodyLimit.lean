import TinyWebServer.Http.Validator
import TinyWebServer.Library.Decimal

/-!
# The limit on the body size

The validator compares the announced length of a body with its limit. It sees the length as a
64-bit number, and `-1` where the digits denote none.
-/

namespace Bytes

/-- A string of digits, however large the number. -/
structure IsNumeral (s : Bytes) : Prop where
  ne_nil : s ≠ []
  digits : ∀ b ∈ s, isdigit b = true

/-- A numeral has no sign in front of it. -/
lemma IsNumeral.head?_ne {s : Bytes} (h : IsNumeral s) {c : UInt8} (hc : isdigit c = false) :
    s.head? ≠ some c := by
  intro hhead
  rw [h.digits c (List.mem_of_head? hhead)] at hc
  cases hc

lemma IsNumeral.stoll_eq {s : Bytes} (h : IsNumeral s) :
    stoll s = if digitsVal s < 2 ^ 63 then some (digitsVal s : ℤ) else none := by
  have hspace : s.dropWhile isspace = s := by
    obtain ⟨b, rest, rfl⟩ := List.exists_cons_of_ne_nil h.ne_nil
    have hb := not_isspace_of_isdigit (h.digits b List.mem_cons_self)
    exact List.dropWhile_cons_of_neg (by simp [hb])
  have hplus : s.head? ≠ some 43 := h.head?_ne (by decide)
  have hminus : s.head? ≠ some 45 := h.head?_ne (by decide)
  have hdigits : s.takeWhile isdigit = s := List.takeWhile_eq_self_iff.mpr h.digits
  simp only [stoll, hspace, hminus, hplus, or_self, if_false, hdigits,
    if_neg h.ne_nil]
  by_cases hfits : digitsVal s < 2 ^ 63
  · rw [if_pos hfits, if_neg (by omega)]
  · rw [if_neg hfits, if_pos (by omega)]

end Bytes

namespace TinyWebServer

namespace RequestValidator

/-- Nothing but the body can be against the request. -/
structure Acceptable (v : RequestValidator) (request : HttpRequest) : Prop where
  method : v.isMethodAllowed request.method = true
  path : (v.validatePath request.path).valid = true
  headers : calculateHeadersSize request.headers ≤ v.maxHeadersSize

/-- The validator refuses the request for its size. -/
def RefusesTooLarge (v : RequestValidator) (request : HttpRequest) : Prop :=
  (v.validateRequest request).valid = false ∧
    (v.validateRequest request).error.code = .kRequestTooLarge

variable {v : RequestValidator} {request : HttpRequest} {s : Bytes}

/-- Of an acceptable request only the announced length is compared. -/
lemma Acceptable.refusesTooLarge_iff (h : v.Acceptable request) :
    v.RefusesTooLarge request ↔
      0 < request.getContentLength ∧ v.maxRequestSize < request.getContentLength.toNat := by
  have hmethod := not_not.mpr h.method
  have hpath := not_not.mpr h.path
  by_cases hlarge : 0 < request.getContentLength ∧
      v.maxRequestSize < request.getContentLength.toNat
  · refine iff_of_true ?_ hlarge
    simp only [RefusesTooLarge, validateRequest, if_neg hmethod, if_neg hpath, validateHeaders,
      if_neg (not_lt.mpr h.headers), if_pos hlarge, refuse]
    exact ⟨rfl, rfl⟩
  · refine iff_of_false ?_ hlarge
    simp only [RefusesTooLarge, validateRequest, if_neg hmethod, if_neg hpath, validateHeaders,
      if_neg (not_lt.mpr h.headers), if_neg hlarge]
    simp

lemma getContentLength_of_numeral
    (hlength : request.headers.lookup (bytes "content-length") = some s) (hs : Bytes.IsNumeral s) :
    request.getContentLength =
      if Bytes.digitsVal s < 2 ^ 63 then (Bytes.digitsVal s : ℤ) else -1 := by
  simp only [HttpRequest.getContentLength, hlength, hs.stoll_eq]
  split_ifs <;> rfl

/-- A request that is otherwise acceptable is refused exactly if its announced body is too large,
if and only if the announced length fits a signed number of 64 bits or is not too large. -/
theorem limit_iff (h : v.Acceptable request)
    (hlength : request.headers.lookup (bytes "content-length") = some s) (hs : Bytes.IsNumeral s) :
    (v.RefusesTooLarge request ↔ v.maxRequestSize < Bytes.digitsVal s) ↔
      Bytes.digitsVal s < 2 ^ 63 ∨ Bytes.digitsVal s ≤ v.maxRequestSize := by
  rw [h.refusesTooLarge_iff, getContentLength_of_numeral hlength hs]
  split_ifs with hfits
  · refine iff_of_true ?_ (Or.inl hfits)
    rw [Int.toNat_natCast]
    omega
  · omega

/-- A request with a small limit that announces `2 ^ 63` bytes. -/
def hugeUpload : HttpRequest :=
  { path := bytes "/upload", method := bytes "POST", version := bytes "HTTP/1.1"
    headers := [(bytes "content-length", bytes "9223372036854775808")], isFinished := true }

lemma acceptable_hugeUpload : (new (bytes "./www")).Acceptable hugeUpload where
  method := by decide
  path := by
    simp only [validatePath]
    rw [if_neg (by decide), if_neg (by decide)]
  headers := by decide

lemma isNumeral_hugeUpload : Bytes.IsNumeral (bytes "9223372036854775808") :=
  ⟨by decide, List.all_eq_true.mp (by decide)⟩

/-- The validator does not refuse it. -/
theorem hugeUpload_passes :
    (new (bytes "./www")).Acceptable hugeUpload ∧
      ¬ ((new (bytes "./www")).RefusesTooLarge hugeUpload ↔
        (new (bytes "./www")).maxRequestSize < Bytes.digitsVal (bytes "9223372036854775808")) := by
  refine ⟨acceptable_hugeUpload, fun hiff => ?_⟩
  have hrefuses := hiff.mpr (by decide)
  rw [acceptable_hugeUpload.refusesTooLarge_iff,
    getContentLength_of_numeral rfl isNumeral_hugeUpload, if_neg (by decide)] at hrefuses
  exact absurd hrefuses.1 (by decide)

theorem limit_hugeUpload :
    ((new (bytes "./www")).RefusesTooLarge hugeUpload ↔
        (new (bytes "./www")).maxRequestSize < Bytes.digitsVal (bytes "9223372036854775808")) ↔
      Bytes.digitsVal (bytes "9223372036854775808") < 2 ^ 63 ∨
        Bytes.digitsVal (bytes "9223372036854775808") ≤ (new (bytes "./www")).maxRequestSize :=
  limit_iff acceptable_hugeUpload rfl isNumeral_hugeUpload

end RequestValidator

end TinyWebServer
