import TinyWebServer.Http.Conditional
import TinyWebServer.Http.StaticResource

/-!
# HTTP/1.x responses

`init` decides about `304 Not Modified`, `makeResponse` about the other codes, and loads the body.
Both return the paths that they passed to the kernel.
-/

namespace TinyWebServer

/-- What a response depends on outside the process. -/
structure Host where
  disk : Disk
  clock : Clock
  ctime : CTime

structure HttpResponse where
  /-- `-1` while it is open. -/
  code : ℤ
  isKeepAlive : Bool
  path : Bytes
  srcDir : Bytes
  statusLine : Bytes
  headerString : Bytes
  headers : List (Bytes × Bytes)
  bodyString : Bytes
  fileBody : Option StaticResource
  deriving DecidableEq

namespace HttpResponse

def suffixType : List (Bytes × Bytes) :=
  [(bytes ".html", bytes "text/html"),
    (bytes ".xml", bytes "text/xml"),
    (bytes ".xhtml", bytes "application/xhtml+xml"),
    (bytes ".txt", bytes "text/plain"),
    (bytes ".rtf", bytes "application/rtf"),
    (bytes ".pdf", bytes "application/pdf"),
    (bytes ".word", bytes "application/msword"),
    (bytes ".png", bytes "image/png"),
    (bytes ".gif", bytes "image/gif"),
    (bytes ".jpg", bytes "image/jpeg"),
    (bytes ".jpeg", bytes "image/jpeg"),
    (bytes ".au", bytes "audio/basic"),
    (bytes ".mpeg", bytes "video/mpeg"),
    (bytes ".mpg", bytes "video/mpeg"),
    (bytes ".avi", bytes "video/x-msvideo"),
    (bytes ".gz", bytes "application/x-gzip"),
    (bytes ".tar", bytes "application/x-tar"),
    (bytes ".css", bytes "text/css"),
    (bytes ".js", bytes "text/javascript")]

def codeStatus : List (ℤ × Bytes) :=
  [(200, bytes "OK"), (400, bytes "Bad Request"), (403, bytes "Forbidden"),
    (404, bytes "Not Found")]

def codePath : List (ℤ × Bytes) :=
  [(400, bytes "/400.html"), (403, bytes "/403.html"), (404, bytes "/404.html")]

def new : HttpResponse :=
  { code := -1, isKeepAlive := false, path := [], srcDir := [], statusLine := []
    headerString := [], headers := [], bodyString := [], fileBody := none }

/-- A forced code, a missing request and other methods than GET and HEAD skip the conditional
request. -/
def init (host : Host) (r : HttpResponse) (srcDir path : Bytes) (isKeepAlive : Bool) (code : ℤ)
    (request : Option HttpRequest) : HttpResponse × List Bytes :=
  let r := { r with
    code := code, isKeepAlive := isKeepAlive, path := path, srcDir := srcDir, fileBody := none
    bodyString := [], statusLine := [], headers := [] }
  match request with
  | none => (r, [])
  | some request =>
    if code = -1 ∧ (request.method = bytes "GET" ∨ request.method = bytes "HEAD") then
      match ConditionalRequestHandler.shouldReturn304 host.ctime host.disk host.clock request
        (srcDir ++ path) with
      | ((false, _), accessed) => (r, accessed)
      | ((true, etag), accessed) =>
        ({ r with
          code := 304
          headers := if etag = [] then r.headers else insertHeader r.headers (bytes "ETag") etag },
          accessed)
    else (r, [])

def getBodyLen (r : HttpResponse) : ℕ :=
  match r.fileBody with
  | some resource => resource.size
  | none => r.bodyString.length

def statusText (code : ℤ) : Bytes := (codeStatus.lookup code).getD (bytes "Unknown")

/-- The page that stands in for a body. -/
def errorHtml (r : HttpResponse) : HttpResponse :=
  if r.bodyString = [] then
    { r with
      bodyString := bytes "<html><title>Error</title>" ++ bytes "<body bgcolor=\"ffffff\">" ++
        Bytes.ofInt r.code ++ bytes " : " ++ statusText r.code ++
        bytes "<hr><em>TinyWebServer</em></body></html>" }
  else r

def addStateLine (r : HttpResponse) : HttpResponse :=
  { r with
    statusLine := bytes "HTTP/1.1 " ++ Bytes.ofInt r.code ++ bytes " " ++ statusText r.code ++
      Bytes.crlf }

/-- The suffix behind the last dot, with the dot. -/
def suffix (path : Bytes) : Option Bytes :=
  (Bytes.findByte 46 path.reverse).map fun idx => path.drop (path.length - 1 - idx)

def getFileType (r : HttpResponse) : Bytes :=
  match suffix r.path with
  | none => bytes "text/plain"
  | some suffix => (suffixType.lookup suffix).getD (bytes "text/plain")

def connectionHeader (r : HttpResponse) : Bytes :=
  (if r.isKeepAlive then bytes "Connection: keep-alive" else bytes "Connection: close") ++
    Bytes.crlf

/-- A response with code 304 announces no content. -/
def addHeader (host : Host) (r : HttpResponse) : HttpResponse :=
  if r.code = 304 then
    let date := ConditionalRequestHandler.formatHttpDate host.ctime host.clock.systemNow
    let etag := match r.headers.lookup (bytes "ETag") with
      | none => []
      | some etag => bytes "ETag: " ++ etag ++ Bytes.crlf
    { r with
      headerString := r.statusLine ++ bytes "Date: " ++ date ++ Bytes.crlf ++ etag ++
        r.connectionHeader ++ Bytes.crlf }
  else
    { r with
      headerString := r.statusLine ++ bytes "Content-Type: " ++ r.getFileType ++ Bytes.crlf ++
        bytes "Content-Length: " ++ Bytes.ofNat r.getBodyLen ++ Bytes.crlf ++
        r.connectionHeader ++ Bytes.crlf }

def addContent (r : HttpResponse) : HttpResponse :=
  { r with
    headers := insertHeader r.headers (bytes "Content-length") (Bytes.ofNat r.getBodyLen) }

/-- The code of an open response; `none` where the status of the path throws. -/
def decideCode (host : Host) (r : HttpResponse) (fullPath : Bytes) :
    Option ℤ × List Bytes :=
  if r.code = -1 then
    match host.disk.existingFile fullPath with
    | (none, accessed) => (none, accessed)
    | (some (some _), accessed) => (some 200, accessed)
    | (some none, accessed) => (some 404, accessed)
  else (some r.code, [])

/-- The body of a response whose code is decided. A file that cannot be mapped turns 200 into
404. -/
def loadBody (host : Host) (resources : StaticResourceManager) (r : HttpResponse)
    (fullPath : Bytes) : (HttpResponse × StaticResourceManager) × List Bytes :=
  if r.code = 200 then
    match StaticResourceManager.getResource host.disk fullPath resources with
    | ((some resource, resources), accessed) =>
      (({ r with fileBody := some resource }, resources), accessed)
    | ((none, resources), accessed) =>
      ((({ r with code := 404 } : HttpResponse).errorHtml, resources), accessed)
  else if r.code ≠ 304 then ((r.errorHtml, resources), [])
  else ((r, resources), [])

def makeResponse (host : Host) (resources : StaticResourceManager) (r : HttpResponse) :
    Option (HttpResponse × StaticResourceManager) × List Bytes :=
  let fullPath := r.srcDir ++ r.path
  match r.decideCode host fullPath with
  | (none, accessed) => (none, accessed)
  | (some code, accessed) =>
    let r := { r with code := code }
    let r := { r with path := (codePath.lookup code).getD r.path }
    let ((r, resources), opened) := r.loadBody host resources (r.srcDir ++ r.path)
    (some (((r.addStateLine).addHeader host).addContent, resources), accessed ++ opened)

end HttpResponse

end TinyWebServer
