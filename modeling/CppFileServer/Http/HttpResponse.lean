/-
# Http.HttpResponse -- the response object and its bytes

`headers_` is an `std::unordered_map` that is only written to and iterated over;
it is the list of its entries in the order of the iteration.  `content_length_`,
`body_type_` and `file_fd_` reach no byte of the message and are left out.
-/
import CppFileServer.Cpp.Decimal

namespace CppFileServer.Http

set_option autoImplicit false

open CppFileServer.Cpp

inductive StatusCode
  | kUnknown
  | k100Continue
  | k200OK
  | k201Created
  | k206PartialContent
  | k301MovedPermanently
  | k302MovedTemporarily
  | k400BadRequest
  | k403Forbidden
  | k404NotFound
  | k409Conflict
  | k500InternalServerError
  deriving DecidableEq, Repr

def StatusCode.encode : StatusCode → Bytes
  | .kUnknown => ascii "1"
  | .k100Continue => ascii "100"
  | .k200OK => ascii "200"
  | .k201Created => ascii "201"
  | .k206PartialContent => ascii "206"
  | .k301MovedPermanently => ascii "301"
  | .k302MovedTemporarily => ascii "302"
  | .k400BadRequest => ascii "400"
  | .k403Forbidden => ascii "403"
  | .k404NotFound => ascii "404"
  | .k409Conflict => ascii "409"
  | .k500InternalServerError => ascii "500"

structure HttpResponse where
  closeConnection : Bool
  statusCode : StatusCode := .kUnknown
  statusMessage : Bytes := []
  headers : List (Bytes × Bytes) := []
  body : Bytes := []

namespace HttpResponse

def construct (on : Bool) : HttpResponse where
  closeConnection := on

def setStatusCode (r : HttpResponse) (code : StatusCode) : HttpResponse := { r with statusCode := code }

def setStatusMessage (r : HttpResponse) (text : Bytes) : HttpResponse := { r with statusMessage := text }

def setCloseConnection (r : HttpResponse) (on : Bool) : HttpResponse := { r with closeConnection := on }

/-- `headers_[key] = value`: a value that is there is replaced where it stands. -/
def addHeader (r : HttpResponse) (key value : Bytes) : HttpResponse :=
  { r with headers :=
      if r.headers.any fun header => header.1 = key then
        r.headers.map fun header => if header.1 = key then (key, value) else header
      else (key, value) :: r.headers }

def setContentType (r : HttpResponse) (type : Bytes) : HttpResponse :=
  r.addHeader (ascii "Content-Type") type

def setContentLength (r : HttpResponse) (length : Nat) : HttpResponse :=
  r.addHeader (ascii "Content-Length") (toDecimal length)

def setBody (r : HttpResponse) (body : Bytes) : HttpResponse := { r with body := body }

/-- `GetHeaderString`: the status line, the fields and the empty line. -/
def getHeaderString (r : HttpResponse) : Bytes :=
  ascii "HTTP/1.1 " ++ r.statusCode.encode ++ ascii " " ++ r.statusMessage ++ crlf ++
    (if r.closeConnection then ascii "Connection: close\r\n"
      else ascii "Connection: Keep-Alive\r\n") ++
    (r.headers.map fun header => header.1 ++ ascii ": " ++ header.2 ++ crlf).flatten ++
    ascii "Cache-Control: no-cache, no-store, must-revalidate\r\n" ++ crlf

def message (r : HttpResponse) : Bytes := r.getHeaderString ++ r.body

/-! ## What the setters set -/

variable (r : HttpResponse) (key value k : Bytes)

/-- The value under a key. -/
def header (r : HttpResponse) (key : Bytes) : Option Bytes := r.headers.lookup key

@[simp] theorem setStatusCode_header (code : StatusCode) :
    (r.setStatusCode code).header k = r.header k := rfl

@[simp] theorem setStatusMessage_header (text : Bytes) :
    (r.setStatusMessage text).header k = r.header k := rfl

@[simp] theorem setBody_header (body : Bytes) : (r.setBody body).header k = r.header k := rfl

theorem lookup_replace (headers : List (Bytes × Bytes)) :
    (headers.map fun header => if header.1 = key then (key, value) else header).lookup k =
      if k = key ∧ (headers.any fun header => header.1 = key) = true then some value
      else headers.lookup k := by
  induction headers with
  | nil => simp
  | cons header headers ih =>
      obtain ⟨name, old⟩ := header
      rw [List.map_cons, List.any_cons, List.lookup_cons]
      by_cases isKey : k = key
      · subst isKey
        by_cases here : name = k
        · simp [here]
        · have different : (k == name) = false := beq_eq_false_iff_ne.mpr (Ne.symm here)
          rw [if_neg here, List.lookup_cons, ih, decide_eq_false here, Bool.false_or]
          simp only [different]
      · have different : (k == key) = false := beq_eq_false_iff_ne.mpr isKey
        by_cases here : name = key
        · rw [if_pos here, List.lookup_cons, ih]
          simp [isKey, here, different]
        · rw [if_neg here, List.lookup_cons, ih]
          simp [isKey]

@[simp] theorem addHeader_header : (r.addHeader key value).header k =
    if k = key then some value else r.header k := by
  unfold addHeader header
  simp only
  split_ifs with present isKey isKey
  · rw [lookup_replace, if_pos ⟨isKey, present⟩]
  · rw [lookup_replace, if_neg fun both => isKey both.1]
  · rw [isKey, List.lookup_cons_self]
  · rw [List.lookup_cons, beq_eq_false_iff_ne.mpr isKey]

@[simp] theorem setContentLength_header (length : Nat) : (r.setContentLength length).header k =
    if k = ascii "Content-Length" then some (toDecimal length) else r.header k :=
  addHeader_header _ _ _ _

end HttpResponse

end CppFileServer.Http
