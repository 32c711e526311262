/-
# Http.RangeDownload -- a range comes without its last byte

`Range` names its last byte; `readFileBinary` reads up to its end without it.  The
status and the fields of the response are those of the range that was asked for,
and the body is one byte short, so that the pieces of a file do not make it up.
-/
import CppFileServer.Http.FileReplies
import CppFileServer.Theory.Pieces
import Mathlib.Data.List.Forall2

namespace CppFileServer.Http

set_option autoImplicit false

open CppFileServer.Cpp CppFileServer.Theory CppFileServer.Utils

namespace FileServer

/-! ## The field is read -/

/-- `bytes=a-b`. -/
def rangeField (a b : Nat) : Bytes := ascii "bytes=" ++ toDecimal a ++ ascii "-" ++ toDecimal b

theorem find_equals (a b : Nat) : find (ascii "=") (rangeField a b) = some 5 := by
  have split : rangeField a b = ascii "bytes" ++ [61] ++ (toDecimal a ++ ascii "-" ++ toDecimal b) := by
    simp only [rangeField, List.append_assoc]
    rfl
  have absent : (61 : UInt8) ∉ ascii "bytes" := by decide
  rw [split]
  exact Search.find_skip_here absent _

theorem find_dash (a b : Nat) :
    find (ascii "-") (rangeField a b) = some (6 + (toDecimal a).length) := by
  have absent : (45 : UInt8) ∉ ascii "bytes=" ++ toDecimal a := by
    rw [List.mem_append, not_or]
    refine ⟨by decide, ?_⟩
    intro inside
    exact (isDigit_plain (toDecimal_isDigit inside)).2.1 rfl
  have found : Search.find [45] (ascii "bytes=" ++ toDecimal a ++ [45] ++ toDecimal b) =
      some (ascii "bytes=" ++ toDecimal a).length := Search.find_skip_here absent _
  rw [List.length_append] at found
  exact found

theorem rangeFirst_rangeField {a : Nat} (b : Nat) (fits : a < 2 ^ 31) :
    rangeFirst (rangeField a b) = .ok (toDecimal a) := by
  have modulus : sizeModulus = 2 ^ 64 := rfl
  have bound := toDecimal_length_le a
  have split : rangeField a b = ascii "bytes=" ++ (toDecimal a ++ (ascii "-" ++ toDecimal b)) := by
    simp only [rangeField, List.append_assoc]
  have six : (ascii "bytes=").length = 6 := rfl
  have begins : sizeT (5 + 1) = 6 := by decide
  have behind : (rangeField a b).drop 6 = toDecimal a ++ (ascii "-" ++ toDecimal b) := by
    rw [split, ← six, List.drop_left]
  have inside : 6 ≤ (rangeField a b).length := by
    rw [split, List.length_append, six]
    omega
  have span : sizeSub (6 + (toDecimal a).length) 5 = (toDecimal a).length + 1 := by
    rw [sizeSub_of_le (by omega) (by omega)]
    omega
  have count : sizeSub ((toDecimal a).length + 1) 1 = (toDecimal a).length :=
    sizeSub_of_le (by omega) (by omega)
  simp only [rangeFirst, find_equals, find_dash, position, Option.getD_some, begins, span,
    count, substrCount, substr_of_le inside, ok_bind, behind, List.take_left, pure_eq_ok]

theorem rangeLast_rangeField {a : Nat} (b : Nat) (fits : a < 2 ^ 31) :
    rangeLast (rangeField a b) = .ok (toDecimal b) := by
  have bound := toDecimal_length_le a
  have front : (ascii "bytes=" ++ toDecimal a ++ ascii "-").length = 6 + (toDecimal a).length + 1 := by
    rw [List.length_append, List.length_append]
    rfl
  have begins : sizeT (6 + (toDecimal a).length + 1) = 6 + (toDecimal a).length + 1 := by
    apply sizeT_of_lt
    rw [show sizeModulus = 2 ^ 64 from rfl]
    omega
  have inside : 6 + (toDecimal a).length + 1 ≤ (rangeField a b).length := by
    rw [rangeField, List.length_append, front]
    omega
  have behind : (rangeField a b).drop (6 + (toDecimal a).length + 1) = toDecimal b := by
    rw [rangeField, ← front, List.drop_left]
  simp only [rangeLast, find_dash, position, Option.getD_some, begins, substr_of_le inside, behind]

/-- **The two numbers of the field are read as they were written.** -/
theorem parseRange_rangeField {a b : Nat} (firstFits : a < 2 ^ 31) (lastFits : b < 2 ^ 31) :
    parseRange (rangeField a b) = .ok ((a : Int), (b : Int)) := by
  have ends : ∀ (d : UInt8) (more : Bytes), [] = d :: more →
      isDigit 10 d = false ∧ d ≠ 120 ∧ d ≠ 88 := fun _ _ impossible => by cases impossible
  have first : stoi (toDecimal a) = .ok (a : Int) := by
    simpa using stoi_toDecimal firstFits ends
  have last : stoi (toDecimal b) = .ok (b : Int) := by
    simpa using stoi_toDecimal lastFits ends
  simp only [parseRange, rangeFirst_rangeField b firstFits, rangeLast_rangeField b firstFits, first,
    last, ok_bind, pure_eq_ok]

/-! ## The answer to a range -/

variable {server : FileServer} {fs : FileSystem} {url : Bytes} {closeConnection : Bool}
  {content : Bytes} {r : HttpResponse} {a b : Nat}

/-- The request downloads the bytes from `a` to `b` of a file. -/
structure AsksRange (request : HttpRequest) (url : Bytes) (a b : Nat) : Prop where
  method : request.method = .kGet
  url : request.url = url
  range : request.headers (ascii "Range") = some (rangeField a b)

def rangeRequest (url : Bytes) (a b : Nat) : HttpRequest :=
  { method := .kGet, version := .kHttp11, url := url,
    headers := fun name => if name = ascii "Range" then some (rangeField a b) else none }

theorem rangeRequest_asksRange (url : Bytes) (a b : Nat) :
    AsksRange (rangeRequest url a b) url a b :=
  ⟨rfl, rfl, by simp [rangeRequest]⟩

/-- The server answers such a request with `r`. -/
def AnswersRange (server : FileServer) (fs : FileSystem) (closeConnection : Bool) (url : Bytes)
    (a b : Nat) (r : HttpResponse) : Prop :=
  ∃ request change, AsksRange request url a b ∧
    server.analyzeRequest fs request (.construct closeConnection) = .ok (r, change)

/-- `bytes a-b/size`. -/
def contentRange (a b size : Nat) : Bytes :=
  ascii "bytes " ++ toDecimal a ++ ascii "-" ++ toDecimal b ++ ascii "/" ++ toDecimal size

/-- The response to a range that is served as `Range` means it. -/
structure ServesRange (r : HttpResponse) (file : Bytes) (a b : Nat) : Prop where
  statusCode : r.statusCode = .k206PartialContent
  body : r.body = slice file a b
  length : r.body.length = b - a + 1
  contentRange : r.header (ascii "Content-Range") = some (contentRange a b file.length)

theorem intToDecimal_natCast (n : Nat) : intToDecimal (n : Int) = toDecimal n := by
  have notNegative : ¬ (n : Int) < 0 := by omega
  rw [intToDecimal, if_neg notNegative, Int.natAbs_natCast]

/-- A download of a range comes down to the one call that builds its response. -/
theorem analyzeRequest_of_asksRange {request : HttpRequest} (response : HttpResponse)
    (asks : AsksRange request url a b) (noList : url ≠ ascii "/")
    (noIcon : url ≠ ascii "/favicon.ico")
    (offers : fs.Offers (server.rootPath ++ afterLast 47 url) content)
    (firstFits : a < 2 ^ 31) (lastFits : b < 2 ^ 31) :
    server.analyzeRequest fs request response = unchanged
      (buildRangeDownloadResponse fs response (server.rootPath ++ afterLast 47 url) a b) := by
  have path : server.filePath request = server.rootPath ++ afterLast 47 url := by
    rw [filePath, asks.url]
  have parsed : liftFault (parseRange (rangeField a b)) = .ok ((a : Int), (b : Int)) :=
    FileResult.liftFault_eq_ok.mpr (parseRange_rangeField firstFits lastFits)
  rw [analyzeRequest, asks.url, if_neg noList, if_neg noIcon, if_pos asks.method, handleDownload,
    path, FileSystem.pathExists_of_offers offers, FileResult.ok_bind, asks.range]
  simp only [parsed, FileResult.ok_bind]

theorem answersRange_iff (noList : url ≠ ascii "/") (noIcon : url ≠ ascii "/favicon.ico")
    (offers : fs.Offers (server.rootPath ++ afterLast 47 url) content)
    (firstFits : a < 2 ^ 31) (lastFits : b < 2 ^ 31) :
    AnswersRange server fs closeConnection url a b r ↔
      buildRangeDownloadResponse fs (.construct closeConnection)
        (server.rootPath ++ afterLast 47 url) a b = .ok r := by
  constructor
  · rintro ⟨request, change, asks, returned⟩
    rw [analyzeRequest_of_asksRange _ asks noList noIcon offers firstFits lastFits] at returned
    exact (unchanged_eq_ok.mp returned).1
  · intro built
    have asks := rangeRequest_asksRange url a b
    refine ⟨rangeRequest url a b, none, asks, ?_⟩
    rw [analyzeRequest_of_asksRange _ asks noList noIcon offers firstFits lastFits]
    exact unchanged_eq_ok.mpr ⟨built, rfl⟩

/-- What is built for a range inside of the file: everything but the last byte is right. -/
theorem buildRangeDownloadResponse_short {path : Bytes} (response : HttpResponse)
    (offers : fs.Offers path content) (ordered : a ≤ b) (inside : b < content.length)
    (fits : b - a + 1 < 2 ^ 31) :
    ∃ r, buildRangeDownloadResponse fs response path a b = .ok r ∧
      r.statusCode = .k206PartialContent ∧ r.body = (slice content a b).dropLast ∧
      r.header (ascii "Content-Range") = some (contentRange a b content.length) := by
  have spans : Spans a b := ⟨by omega, by omega⟩
  have difference : ((b : Int) - (a : Int)).toNat = b - a := by omega
  have notNegative : ¬ (a : Int) < 0 := by omega
  obtain ⟨r, body, returned, read, -, shows, range⟩ :=
    buildRangeDownloadResponse_of_offers response offers spans
  have bytes := FileSystem.readFileRange_of_offers offers spans.1 (by omega)
  rw [if_neg notNegative, difference, Int.toNat_natCast, FileSystem.readInto_of_le (by omega),
    ← slice_dropLast ordered inside] at bytes
  rw [bytes, Except.ok.injEq] at read
  refine ⟨r, returned, shows.statusCode, shows.body.trans read.symm, ?_⟩
  rw [range, intToDecimal_natCast, intToDecimal_natCast]
  rfl

/-- The body of any answer to a range inside of the file. -/
theorem answersRange_body (noList : url ≠ ascii "/") (noIcon : url ≠ ascii "/favicon.ico")
    (offers : fs.Offers (server.rootPath ++ afterLast 47 url) content) (ordered : a ≤ b)
    (inside : b < content.length) (lastFits : b < 2 ^ 31)
    (answers : AnswersRange server fs closeConnection url a b r) :
    r.body = (slice content a b).dropLast := by
  rw [answersRange_iff noList noIcon offers (by omega) lastFits] at answers
  obtain ⟨-, -, fits⟩ := spans_of_buildRangeDownloadResponse answers
  obtain ⟨r', built, -, body, -⟩ := buildRangeDownloadResponse_short (.construct closeConnection)
    offers ordered inside (by omega)
  rw [answers, Except.ok.injEq] at built
  rw [built, body]

/-- **Ranges fall short**: no answer to a range inside of the file serves it, because the last
byte of the body is missing; and the bodies of consecutive ranges make up only an empty file. -/
theorem ranges_fall_short (closeConnection : Bool) (noList : url ≠ ascii "/")
    (noIcon : url ≠ ascii "/favicon.ico")
    (offers : fs.Offers (server.rootPath ++ afterLast 47 url) content) :
    (∀ a b, a ≤ b → b < content.length → b < 2 ^ 31 →
      (¬ ∃ r, AnswersRange server fs closeConnection url a b r ∧ ServesRange r content a b) ∧
      (b - a + 1 < 2 ^ 31 → ∃ r, AnswersRange server fs closeConnection url a b r ∧
        r.statusCode = .k206PartialContent ∧ r.body = (slice content a b).dropLast ∧
        r.header (ascii "Content-Range") = some (contentRange a b content.length))) ∧
    ∀ ranges, Tiles 0 content.length ranges → (∀ p ∈ ranges, p.2 < 2 ^ 31) →
      ∀ bodies, List.Forall₂ (fun p body => ∃ r,
          AnswersRange server fs closeConnection url p.1 p.2 r ∧ r.body = body) ranges bodies →
        (bodies.flatten = content ↔ content = []) := by
  refine ⟨?_, ?_⟩
  · intro a b ordered inside lastFits
    refine ⟨?_, ?_⟩
    · rintro ⟨r, answers, serves⟩
      have short := answersRange_body noList noIcon offers ordered inside lastFits answers
      have length := serves.length
      rw [short, List.length_dropLast, slice_length ordered inside] at length
      omega
    · intro fits
      obtain ⟨r, built, shows⟩ := buildRangeDownloadResponse_short (.construct closeConnection)
        offers ordered inside fits
      exact ⟨r, (answersRange_iff noList noIcon offers (by omega) lastFits).mpr built, shows⟩
  · intro ranges tiles fits bodies answered
    have short : bodies = ranges.map fun p => (slice content p.1 p.2).dropLast := by
      have each := ((List.forall₂_and_left ranges bodies).mpr ⟨fun p among => among, answered⟩)
      have bodyOf : List.Forall₂ (fun p body =>
          (slice content p.1 p.2).dropLast = body) ranges bodies := by
        apply each.imp
        rintro p body ⟨among, r, answers, rfl⟩
        obtain ⟨ordered, inside⟩ := tiles.le.2 p among
        exact (answersRange_body noList noIcon offers ordered inside (fits p among) answers).symm
      have same : List.Forall₂ (· = ·)
          (ranges.map fun p => (slice content p.1 p.2).dropLast) bodies :=
        List.forall₂_map_left_iff.mpr bodyOf
      rw [List.forall₂_eq_eq_eq] at same
      exact same.symm
    rw [short]
    exact flatten_dropLast_slices_iff tiles

/-- `hello`, in the file `a.txt`. -/
def helloSystem : FileSystem := .oneFile (ascii "../files/a.txt") ⟨ascii "hello", by decide⟩

/-- All five bytes are asked for and announced, and four are sent. -/
theorem ranges_fall_short_fails :
    ∃ r, AnswersRange {} helloSystem false (ascii "/download/a.txt") 0 4 r ∧
      r.body = ascii "hell" ∧
      r.header (ascii "Content-Range") = some (ascii "bytes 0-4/5") ∧
      ¬ ServesRange r (ascii "hello") 0 4 := by
  have answered : ∃ answer, ({} : FileServer).analyzeRequest helloSystem
      (rangeRequest (ascii "/download/a.txt") 0 4) (.construct false) = .ok answer ∧
      answer.1.body = ascii "hell" ∧
      answer.1.header (ascii "Content-Range") = some (ascii "bytes 0-4/5") :=
    ⟨_, rfl, by decide +kernel, by decide +kernel⟩
  obtain ⟨⟨r, change⟩, returned, body, range⟩ := answered
  refine ⟨r, ⟨_, change, rangeRequest_asksRange _ 0 4, returned⟩, body, range, ?_⟩
  intro serves
  have length := serves.length
  rw [body] at length
  exact absurd length (by decide)

/-- Both halves of the same file come short as well. -/
theorem ranges_fall_short_halves :
    (∀ r, AnswersRange {} helloSystem false (ascii "/download/a.txt") 0 1 r →
      ¬ ServesRange r (ascii "hello") 0 1) ∧
    ∀ first second, (∃ r, AnswersRange {} helloSystem false (ascii "/download/a.txt") 0 1 r ∧
        r.body = first) →
      (∃ r, AnswersRange {} helloSystem false (ascii "/download/a.txt") 2 4 r ∧ r.body = second) →
      first ++ second ≠ ascii "hello" := by
  have offers : helloSystem.Holds (({} : FileServer).rootPath ++ afterLast 47
      (ascii "/download/a.txt")) ⟨ascii "hello", by decide⟩ := rfl
  obtain ⟨ranges, pieces⟩ := ranges_fall_short false (by decide) (by decide) offers
  refine ⟨?_, ?_⟩
  · intro r answers serves
    exact (ranges 0 1 (by decide) (by decide) (by decide)).1 ⟨r, answers, serves⟩
  · intro first second answersFirst answersSecond same
    have tiles : Tiles 0 5 [(0, 1), (2, 4)] := by simp [Tiles]
    have whole := pieces [(0, 1), (2, 4)] tiles (by decide) [first, second]
      (.cons answersFirst (.cons answersSecond .nil))
    have joined : [first, second].flatten = ascii "hello" := by simpa using same
    exact absurd (whole.mp joined) (by decide)

end FileServer

end CppFileServer.Http
