/-
# Http.HttpRequest -- the request object the parser fills

`headers_` is a `std::map` that the sources only ever look up, so it is the
function that sends a key to its value.  `request_params_` and `protocol_` are
written by nothing in the repository and are left out.
-/
import CppFileServer.Cpp.Basic

namespace CppFileServer.Http

set_option autoImplicit false

open CppFileServer.Cpp

inductive Method
  | kGet
  | kPost
  | kHead
  | kPut
  | kDelete
  deriving DecidableEq, Repr

/-- The enumerators are numbered from zero and `kINVALID_METHOD = 0`: an invalid
method is the same value as `kGET`. -/
abbrev Method.kInvalidMethod : Method := .kGet

inductive Version
  | kHttp10
  | kHttp11
  deriving DecidableEq, Repr

/-- Likewise `kINVALID_VERSION = 0` is the same value as `kHTTP_1_0`. -/
abbrev Version.kInvalidVersion : Version := .kHttp10

structure HttpRequest where
  method : Method := .kInvalidMethod
  version : Version := .kInvalidVersion
  url : Bytes := []
  headers : Bytes → Option Bytes := fun _ => none
  body : Bytes := []

namespace HttpRequest

def setMethod (r : HttpRequest) (method : Bytes) : HttpRequest :=
  if method = ascii "GET" then { r with method := .kGet }
  else if method = ascii "POST" then { r with method := .kPost }
  else if method = ascii "HEAD" then { r with method := .kHead }
  else if method = ascii "PUT" then { r with method := .kPut }
  else if method = ascii "DELETE" then { r with method := .kDelete }
  else { r with method := .kInvalidMethod }

def getMethodString (r : HttpRequest) : Bytes :=
  if r.method = .kGet then ascii "GET"
  else if r.method = .kPost then ascii "POST"
  else if r.method = .kHead then ascii "HEAD"
  else if r.method = .kPut then ascii "PUT"
  else if r.method = .kDelete then ascii "DELETE"
  else ascii "INVALID_METHOD"

def setVersion (r : HttpRequest) (version : Bytes) : HttpRequest :=
  if version = ascii "HTTP/1.0" then { r with version := .kHttp10 }
  else if version = ascii "HTTP/1.1" then { r with version := .kHttp11 }
  else { r with version := .kInvalidVersion }

def getVersionString (r : HttpRequest) : Bytes :=
  if r.version = .kHttp10 then ascii "http1.0"
  else if r.version = .kHttp11 then ascii "http1.1"
  else ascii "INVALID_VERSION"

def setUrl (r : HttpRequest) (url : Bytes) : HttpRequest := { r with url := url }

def setHeader (r : HttpRequest) (key value : Bytes) : HttpRequest :=
  { r with headers := fun k => if k = key then some value else r.headers k }

/-- `GetHeaders().count(key)`, which is 0 or 1. -/
def hasHeader (r : HttpRequest) (key : Bytes) : Bool := (r.headers key).isSome

def getHeaderString (r : HttpRequest) (key : Bytes) : Bytes := (r.headers key).getD []

def setBody (r : HttpRequest) (body : Bytes) : HttpRequest := { r with body := body }

def addBody (r : HttpRequest) (body : Bytes) : HttpRequest := { r with body := r.body ++ body }

/-! ## What each setter leaves alone -/

@[simp] theorem setMethod_body (r : HttpRequest) (method : Bytes) :
    (r.setMethod method).body = r.body := by
  unfold setMethod
  split_ifs <;> rfl

@[simp] theorem setVersion_body (r : HttpRequest) (version : Bytes) :
    (r.setVersion version).body = r.body := by
  unfold setVersion
  split_ifs <;> rfl

@[simp] theorem setVersion_url (r : HttpRequest) (version : Bytes) :
    (r.setVersion version).url = r.url := by
  unfold setVersion
  split_ifs <;> rfl

/-- No method string is empty, that of an invalid method included, so the test
`GetMethodString().empty()` never refuses a request line. -/
theorem getMethodString_ne_nil (r : HttpRequest) : r.getMethodString ≠ [] := by
  unfold getMethodString
  split_ifs <;> decide

theorem getVersionString_ne_nil (r : HttpRequest) : r.getVersionString ≠ [] := by
  unfold getVersionString
  split_ifs <;> decide

end HttpRequest

end CppFileServer.Http
