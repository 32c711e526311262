/-
# Http.HeaderFields -- header fields with white space around their values

A sender may put any number of spaces and tabs between the colon and the value,
and behind the value.  `ParseRequestHeaders` keeps what stands one byte behind the
colon, whatever it is: with no blank it loses the first byte of the value, with
more than one, or with one behind the value, it keeps blanks, and with nothing
behind the colon `substr` throws.  So fields are recovered exactly if each has its
one blank (`recovered_iff_oneBlank`).
-/
import CppFileServer.Http.Encoding

namespace CppFileServer.Http

set_option autoImplicit false

open CppFileServer.Cpp CppFileServer.Theory

/-- A field as its sender lays it out. -/
structure LaidField where
  name : Bytes
  before : Bytes
  value : Bytes
  after : Bytes
  nonempty : name ≠ []
  colonless : (58 : UInt8) ∉ name
  unbroken : ¬ crlf <:+: name
  plain : (13 : UInt8) ∉ value ∧ (10 : UInt8) ∉ value
  trimmed : (∀ b ∈ value.head?, isBlank b = false) ∧ ∀ b ∈ value.getLast?, isBlank b = false
  blanks : ∀ b ∈ before ++ after, isBlank b = true

namespace LaidField

/-- What stands behind the colon. -/
def laid (f : LaidField) : Bytes := f.before ++ f.value ++ f.after

def line (f : LaidField) : Bytes := f.name ++ ascii ":" ++ f.laid

/-- One blank in all, and not behind a value. -/
def OneBlank (f : LaidField) : Prop :=
  (f.before ++ f.after).length = 1 ∧ (f.value ≠ [] → f.after = [])

/-- The value as the parser cuts it. -/
def kept (f : LaidField) : Bytes × Bytes := (f.name, f.laid.drop 1)

theorem isBlank_plain {b : UInt8} (blank : isBlank b = true) : b ≠ 13 ∧ b ≠ 58 := by
  refine ⟨?_, ?_⟩ <;> rintro rfl <;> exact absurd blank (by decide)

theorem laid_noCr (f : LaidField) : (13 : UInt8) ∉ f.laid := by
  intro inside
  rw [laid, List.mem_append, List.mem_append] at inside
  rcases inside with (before | value) | after
  · exact (isBlank_plain (f.blanks 13 (List.mem_append_left _ before))).1 rfl
  · exact f.plain.1 value
  · exact (isBlank_plain (f.blanks 13 (List.mem_append_right _ after))).1 rfl

theorem line_unbroken (f : LaidField) : ¬ crlf <:+: f.line := by
  have colon : (13 : UInt8) ∉ ascii ":" ++ f.laid := by
    simp [f.laid_noCr, show (13 : UInt8) ∉ ascii ":" from by decide]
  rw [line, List.append_assoc]
  apply unbroken_seam f.unbroken (SentRequest.unbroken_of_noCr colon)
  intro _ starts
  exact absurd (List.cons_prefix_cons.mp starts).1 (by decide)

theorem parseFieldLine_line (f : LaidField) (r : HttpRequest) :
    HttpContext.parseFieldLine r f.line =
      if f.laid = [] then .error .outOfRange
      else .ok (some (r.setHeader f.kept.1 f.kept.2)) :=
  HttpContext.parseFieldLine_colon f.colonless f.laid r

/-- **The value comes out exactly behind one blank.** -/
theorem drop_laid_iff_oneBlank (f : LaidField) :
    (f.laid ≠ [] ∧ f.laid.drop 1 = f.value) ↔ f.OneBlank := by
  have length : f.laid.length = (f.before ++ f.after).length + f.value.length := by
    simp only [laid, List.length_append]
    omega
  constructor
  · rintro ⟨nonempty, same⟩
    have positive := List.length_pos_iff.mpr nonempty
    have shorter := congrArg List.length same
    rw [List.length_drop] at shorter
    refine ⟨by omega, fun filled => ?_⟩
    -- a blank behind the value would be the last byte of what is kept
    by_contra blank
    have last : f.laid.getLast? = f.after.getLast? := by
      rw [laid, List.getLast?_append_of_ne_nil _ blank]
    have keptLast : f.value.getLast? = f.laid.getLast? := by
      rw [← same, List.getLast?_drop, if_neg]
      have := List.length_pos_iff.mpr filled
      omega
    obtain ⟨b, isLast⟩ := List.getLast?_isSome.mpr blank |> Option.isSome_iff_exists.mp
    have isBlank := f.blanks b (List.mem_append_right _ (List.mem_of_getLast? isLast))
    have notBlank := f.trimmed.2 b (by rw [keptLast, last, isLast]; rfl)
    rw [isBlank] at notBlank
    cases notBlank
  · rintro ⟨one, front⟩
    refine ⟨by rw [← List.length_pos_iff]; omega, ?_⟩
    by_cases empty : f.value = []
    · rw [empty, List.drop_eq_nil_iff, length, one, empty]
      rfl
    · have noneAfter := front empty
      rw [noneAfter, List.append_nil] at one
      rw [laid, noneAfter, List.append_nil]
      exact List.drop_left' one

end LaidField

/-- Fields with distinct names. -/
structure LaidFields where
  fields : List LaidField
  distinct : (fields.map LaidField.name).Nodup

namespace LaidFields

/-- The parser returns true and maps each name to its value, and nothing else. -/
def Recovered (sent : LaidFields) (r : HttpRequest) : Prop :=
  HttpContext.parseRequestHeaders { r with headers := fun _ => none }
      (block (sent.fields.map LaidField.line)) =
    .ok (true, { r with
      headers := fun key => (sent.fields.map fun f => (f.name, f.value)).lookup key })

/-- With something behind each colon the fields are set as they are cut. -/
theorem parseFields_kept {fields : List LaidField} (each : ∀ f ∈ fields, f.laid ≠ [])
    (r : HttpRequest) : HttpContext.parseFields r (fields.map LaidField.line) =
      .ok (true, (fields.map LaidField.kept).foldl
        (fun r field => r.setHeader field.1 field.2) r) := by
  induction fields generalizing r with
  | nil => rfl
  | cons f fields ih =>
      simp only [List.map_cons, HttpContext.parseFields, f.parseFieldLine_line,
        if_neg (each f List.mem_cons_self), List.foldl_cons]
      exact ih (fun g among => each g (List.mem_cons_of_mem _ among)) _

/-- With nothing behind a colon the loop throws. -/
theorem parseFields_throws {fields : List LaidField} {f : LaidField} (among : f ∈ fields)
    (bare : f.laid = []) (r : HttpRequest) :
    HttpContext.parseFields r (fields.map LaidField.line) = .error .outOfRange := by
  induction fields generalizing r with
  | nil => cases among
  | cons g fields ih =>
      simp only [List.map_cons, HttpContext.parseFields, g.parseFieldLine_line]
      by_cases first : g.laid = []
      · simp only [if_pos first]
      · simp only [if_neg first]
        rcases List.mem_cons.mp among with rfl | later
        · exact absurd bare first
        · exact ih later _

theorem parseRequestHeaders_lines (sent : LaidFields) (r : HttpRequest) :
    HttpContext.parseRequestHeaders r (block (sent.fields.map LaidField.line)) =
      HttpContext.parseFields r (sent.fields.map LaidField.line) := by
  have unbroken : ∀ l ∈ sent.fields.map LaidField.line, ¬ crlf <:+: l := by
    intro l member
    obtain ⟨f, -, rfl⟩ := List.mem_map.mp member
    exact f.line_unbroken
  rw [HttpContext.parseRequestHeaders_lines, crlfLines_block unbroken]

/-- What a list of distinct fields says of one of them. -/
theorem lookup_map {fields : List LaidField} (distinct : (fields.map LaidField.name).Nodup)
    (value : LaidField → Bytes) {f : LaidField} (among : f ∈ fields) :
    (fields.map fun f => (f.name, value f)).lookup f.name = some (value f) := by
  induction fields with
  | nil => cases among
  | cons g fields ih =>
      rw [List.map_cons, List.nodup_cons] at distinct
      rcases List.mem_cons.mp among with rfl | later
      · exact List.lookup_cons_self
      · have different : f.name ≠ g.name := by
          intro same
          exact distinct.1 (List.mem_map.mpr ⟨f, later, same⟩)
        rw [List.map_cons, List.lookup_cons, beq_eq_false_iff_ne.mpr different]
        exact ih distinct.2 later

/-- What comes out when nothing throws. -/
theorem parseFields_eq (sent : LaidFields) (each : ∀ f ∈ sent.fields, f.laid ≠ [])
    (r : HttpRequest) :
    HttpContext.parseFields { r with headers := fun _ => none }
      (sent.fields.map LaidField.line) =
    .ok (true, { r with headers := fun key => (sent.fields.map LaidField.kept).lookup key }) := by
  have distinct : ((sent.fields.map LaidField.kept).map Prod.fst).Nodup := by
    rw [List.map_map]
    exact sent.distinct
  rw [parseFields_kept each, SentRequest.foldl_setHeader distinct]
  simp only [Option.or_none]

/-- **Fields come out as they were sent exactly if each has one blank**, between the
colon and the value. -/
theorem recovered_iff_oneBlank (sent : LaidFields) (r : HttpRequest) :
    sent.Recovered r ↔ ∀ f ∈ sent.fields, f.OneBlank := by
  unfold Recovered
  rw [sent.parseRequestHeaders_lines]
  constructor
  · intro recovered f among
    have each : ∀ g ∈ sent.fields, g.laid ≠ [] := by
      intro g among' bare
      rw [parseFields_throws among' bare] at recovered
      cases recovered
    rw [sent.parseFields_eq each] at recovered
    have same := congrFun (congrArg (fun answer => answer.2.headers)
      (Except.ok.inj recovered)) f.name
    have kept : (sent.fields.map LaidField.kept).lookup f.name = some (f.laid.drop 1) :=
      lookup_map sent.distinct (fun f => f.laid.drop 1) among
    simp only [kept, lookup_map sent.distinct LaidField.value among, Option.some.injEq] at same
    exact f.drop_laid_iff_oneBlank.mp ⟨each f among, same⟩
  · intro oneBlank
    have each : ∀ g ∈ sent.fields, g.laid ≠ [] ∧ g.laid.drop 1 = g.value :=
      fun g among => g.drop_laid_iff_oneBlank.mpr (oneBlank g among)
    have kept : sent.fields.map LaidField.kept = sent.fields.map fun f => (f.name, f.value) := by
      apply List.map_congr_left
      intro g among
      rw [LaidField.kept, (each g among).2]
    rw [sent.parseFields_eq fun g among => (each g among).1, kept]

/-- A length with no blank behind the colon. -/
def tightLength : LaidField where
  name := ascii "Content-Length"
  before := []
  value := ascii "12"
  after := []
  nonempty := by decide
  colonless := by decide
  unbroken := SentRequest.unbroken_of_noCr (by decide)
  plain := by decide
  trimmed := ⟨by rintro b ⟨⟩; rfl, by rintro b ⟨⟩; rfl⟩
  blanks := by rintro b ⟨⟩

/-- `Content-Length:12` is read as a length of 2. -/
theorem tightLength_misread :
    HttpContext.parseRequestHeaders {} (block [tightLength.line]) =
        .ok (true, { headers := fun key => [(ascii "Content-Length", ascii "2")].lookup key }) ∧
      ¬ Recovered ⟨[tightLength], by decide⟩ {} := by
  have read := (parseRequestHeaders_lines ⟨[tightLength], by decide⟩ {}).trans
    (parseFields_eq ⟨[tightLength], by decide⟩ (by decide) {})
  refine ⟨read, ?_⟩
  intro recovered
  have same := congrArg (fun answer => answer.2.headers (ascii "Content-Length"))
    (Except.ok.inj (read.symm.trans recovered))
  exact absurd same (by decide)

end LaidFields

end CppFileServer.Http
