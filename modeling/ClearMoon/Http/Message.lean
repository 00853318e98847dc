import ClearMoon.Net.Buffer

/-!
# HTTP requests and responses

The request and response objects of `net/Http`, with their setters, and the two serialisers of a
response. Header maps are `std::map<std::string, std::string>`: ordered by the unsigned byte
order of the names, which is the order in which the serialisers emit them.
-/

namespace ClearMoon.Http

open ClearMoon.Net

/-- `std::map<std::string, std::string>`. -/
abbrev Headers := Std.ExtTreeMap Bytes Bytes

/-- `operator[]` as the getters use it: an absent name reads as the empty string. -/
def Headers.get (h : Headers) (key : Bytes) : Bytes := (h[key]?).getD []

/-- The decimal digits `snprintf` writes for a non-negative number. -/
def decimal (n : Nat) : Bytes := (Nat.toDigits 10 n).map Char.toUInt8

/-! ## Requests -/

inductive HttpMethod where
  | kInvalid | kGet | kPost | kHead | kPut | kDelete | kOptions | kPatch
  deriving DecidableEq, Repr

inductive HttpVersion where
  | kUnknown | kHttp10 | kHttp11
  deriving DecidableEq, Repr

/-- `HttpRequest::methodToString`. -/
def methodToString : HttpMethod → Bytes
  | .kGet => ascii "GET"
  | .kPost => ascii "POST"
  | .kHead => ascii "HEAD"
  | .kPut => ascii "PUT"
  | .kDelete => ascii "DELETE"
  | .kOptions => ascii "OPTIONS"
  | .kPatch => ascii "PATCH"
  | .kInvalid => ascii "INVALID"

/-- `net/Http/HttpRequest.h`. -/
structure HttpRequest where
  method : HttpMethod := .kInvalid
  path : Bytes := []
  query : Bytes := []
  version : HttpVersion := .kUnknown
  body : Bytes := []
  headers : Headers := ∅
  deriving DecidableEq

namespace HttpRequest

def setMethod (r : HttpRequest) (method : HttpMethod) : HttpRequest := { r with method }

def setPath (r : HttpRequest) (path : Bytes) : HttpRequest := { r with path }

def setQuery (r : HttpRequest) (query : Bytes) : HttpRequest := { r with query }

def setVersion (r : HttpRequest) (version : HttpVersion) : HttpRequest := { r with version }

def setBody (r : HttpRequest) (body : Bytes) : HttpRequest := { r with body }

def setHeader (r : HttpRequest) (key value : Bytes) : HttpRequest :=
  { r with headers := r.headers.insert key value }

def getHeader (r : HttpRequest) (key : Bytes) : Bytes := r.headers.get key

end HttpRequest

/-! ## Responses -/

inductive HttpStatusCode where
  | kUnknown
  | k200Ok
  | k301MovedPermanently
  | k302Found
  | k400BadRequest
  | k403Forbidden
  | k404NotFound
  | k405MethodNotAllowed
  | k408RequestTimeout
  | k413PayloadTooLarge
  | k414UriTooLong
  | k500InternalServerError
  | k501NotImplemented
  | k502BadGateway
  | k503ServiceUnavailable
  deriving DecidableEq, Repr

/-- The numbers of the enumerators. -/
def HttpStatusCode.toNat : HttpStatusCode → Nat
  | .kUnknown => 0
  | .k200Ok => 200
  | .k301MovedPermanently => 301
  | .k302Found => 302
  | .k400BadRequest => 400
  | .k403Forbidden => 403
  | .k404NotFound => 404
  | .k405MethodNotAllowed => 405
  | .k408RequestTimeout => 408
  | .k413PayloadTooLarge => 413
  | .k414UriTooLong => 414
  | .k500InternalServerError => 500
  | .k501NotImplemented => 501
  | .k502BadGateway => 502
  | .k503ServiceUnavailable => 503

/-- `HttpResponse::statusCodeToString`. -/
def statusCodeToString : HttpStatusCode → Bytes
  | .k200Ok => ascii "OK"
  | .k301MovedPermanently => ascii "Moved Permanently"
  | .k302Found => ascii "Found"
  | .k400BadRequest => ascii "Bad Request"
  | .k403Forbidden => ascii "Forbidden"
  | .k404NotFound => ascii "Not Found"
  | .k405MethodNotAllowed => ascii "Method Not Allowed"
  | .k408RequestTimeout => ascii "Request Timeout"
  | .k413PayloadTooLarge => ascii "Payload Too Large"
  | .k414UriTooLong => ascii "URI Too Long"
  | .k500InternalServerError => ascii "Internal Server Error"
  | .k501NotImplemented => ascii "Not Implemented"
  | .k502BadGateway => ascii "Bad Gateway"
  | .k503ServiceUnavailable => ascii "Service Unavailable"
  | .kUnknown => ascii "Unknown"

/-- `net/Http/HttpResponse.h`. -/
structure HttpResponse where
  statusCode : HttpStatusCode := .kUnknown
  body : Bytes := []
  headers : Headers := ∅
  closeConnection : Bool := false
  fileMode : Bool := false
  filePath : Bytes := []
  fileSize : Nat := 0
  deriving DecidableEq

namespace HttpResponse

def setStatus (r : HttpResponse) (code : HttpStatusCode) : HttpResponse :=
  { r with statusCode := code }

def setBody (r : HttpResponse) (body : Bytes) : HttpResponse := { r with body }

def setHeader (r : HttpResponse) (key value : Bytes) : HttpResponse :=
  { r with headers := r.headers.insert key value }

def setContentType (r : HttpResponse) (contentType : Bytes) : HttpResponse :=
  r.setHeader (ascii "Content-Type") contentType

def setCloseConnection (r : HttpResponse) (on : Bool) : HttpResponse :=
  { r with closeConnection := on }

/-- `setFilePath`, given what `stat` says about the file: its size, or that there is none. -/
def setFilePath (r : HttpResponse) (path contentType : Bytes) (stat : Option Nat) :
    Bool × HttpResponse :=
  match stat with
  | none => (false, r)
  | some size =>
    let r := { r with fileMode := true, filePath := path, fileSize := size }
    let r := r.setHeader (ascii "Content-Type") contentType
    let r := r.setHeader (ascii "Content-Length") (decimal size)
    (true, r.setHeader (ascii "Accept-Ranges") (ascii "bytes"))

/-- The status line both serialisers begin with. -/
def statusLine (r : HttpResponse) : Bytes :=
  ascii "HTTP/1.1 " ++ decimal r.statusCode.toNat ++ ascii " " ++
    statusCodeToString r.statusCode ++ kCRLF

/-- The header lines, in map order. -/
def headerLines (r : HttpResponse) : Bytes :=
  r.headers.toList.flatMap fun kv => kv.1 ++ ascii ": " ++ kv.2 ++ kCRLF

/-- `HttpResponse::serializeHeaders`. -/
def serializeHeaders (r : HttpResponse) (output : Buffer) : Buffer :=
  output.append (r.statusLine ++ r.headerLines ++ kCRLF)

/-- The computed length `appendToBuffer` stores into the header map of its `const` object. -/
def fillContentLength (r : HttpResponse) : HttpResponse :=
  if ascii "Content-Length" ∉ r.headers ∧ ascii "Transfer-Encoding" ∉ r.headers then
    r.setHeader (ascii "Content-Length") (decimal r.body.length)
  else r

/-- `HttpResponse::appendToBuffer`: the response as it leaves it, and the output. -/
def appendToBuffer (r : HttpResponse) (output : Buffer) : HttpResponse × Buffer :=
  let filled := r.fillContentLength
  (filled, output.append (r.statusLine ++ filled.headerLines ++ kCRLF ++ filled.body))

end HttpResponse

end ClearMoon.Http
