/-
# Http.HeaderLines -- the header block as a list of lines

`block` ends each of its lines with a CRLF and `crlfLines` reads the lines of a
text back.  Over lines that hold no CRLF the two are inverse, whatever bytes stand
at the seams (`crlfLines_block`).  The header loop is then a recursion over lines.
-/
import CppFileServer.Http.HttpContext

namespace CppFileServer.Http

set_option autoImplicit false

open CppFileServer.Cpp CppFileServer.Theory

/-- A space or a tab. -/
def isBlank (b : UInt8) : Bool := b == 32 || b == 9

/-- Lines, each ended by a CRLF. -/
def block (lines : List Bytes) : Bytes := (lines.map (· ++ crlf)).flatten

/-- The lines of a text, each ended by a CRLF. -/
def crlfLines (s : Bytes) : List Bytes :=
  match _found : find crlf s with
  | none => []
  | some e => s.take e :: crlfLines (s.drop (e + 2))
termination_by s.length
decreasing_by
  have inside := Search.find_le _found
  rw [crlf_length] at inside
  rw [List.length_drop]
  omega

theorem block_nil : block [] = [] := rfl

theorem block_cons (line : Bytes) (lines : List Bytes) :
    block (line :: lines) = line ++ crlf ++ block lines := by
  simp [block]

theorem crlfLines_eq (s : Bytes) :
    crlfLines s = match find crlf s with
      | none => []
      | some e => s.take e :: crlfLines (s.drop (e + 2)) := by
  rw [crlfLines]
  split <;> rename_i found <;> rw [found]

/-- No line that is read holds a CRLF. -/
theorem crlfLines_unbroken {s line : Bytes} (member : line ∈ crlfLines s) : ¬ crlf <:+: line := by
  induction measured : s.length using Nat.strongRecOn generalizing s with
  | ind n ih =>
      rw [crlfLines_eq] at member
      cases found : find crlf s with
      | none =>
          rw [found] at member
          cases member
      | some e =>
          have bound := Search.find_le found
          rw [crlf_length] at bound
          rw [found] at member
          rcases List.mem_cons.mp member with rfl | later
          · exact Search.not_infix_take (by decide) found
          · exact ih _ (by rw [List.length_drop]; omega) later rfl

/-- A CRLF in two pieces put together stands in one of them or across the seam. -/
theorem unbroken_seam {front back : Bytes} (unbroken : ¬ crlf <:+: front)
    (unbroken' : ¬ crlf <:+: back) (seam : [13] <:+ front → ¬ [10] <+: back) :
    ¬ crlf <:+: front ++ back := by
  intro inside
  rcases List.infix_append_iff_ne_nil.mp inside with left | right | ⟨cr, lf, some₁, some₂, cut, across⟩
  · exact unbroken left
  · exact unbroken' right
  · obtain ⟨a, cr, rfl⟩ := List.exists_cons_of_ne_nil some₁
    obtain ⟨b, lf, rfl⟩ := List.exists_cons_of_ne_nil some₂
    rw [crlf_eq, List.cons_append, List.cons.injEq] at cut
    cases cr with
    | nil =>
        rw [List.nil_append, List.cons.injEq] at cut
        obtain ⟨rfl, rfl, empty⟩ := cut
        rw [← empty] at across
        exact seam across.1 across.2
    | cons d cr => simp at cut

/-- **Lines that hold no CRLF are read back.** -/
theorem crlfLines_block {lines : List Bytes} (unbroken : ∀ l ∈ lines, ¬ crlf <:+: l) :
    crlfLines (block lines) = lines := by
  induction lines with
  | nil =>
      rw [crlfLines_eq]
      rfl
  | cons line lines ih =>
      have found : find crlf (line ++ crlf ++ block lines) = some line.length :=
        find_crlf_unbroken (unbroken line (by simp)) _
      have taken : (line ++ crlf ++ block lines).take line.length = line := by
        rw [List.append_assoc]
        exact List.take_left' rfl
      have rest : (line ++ crlf ++ block lines).drop (line.length + 2) = block lines :=
        List.drop_left' (by simp)
      rw [crlfLines_eq, block_cons, found]
      simp only [taken, rest]
      rw [ih fun l member => unbroken l (List.mem_cons_of_mem _ member)]

namespace HttpContext

/-- A line is cut at its first colon: the key stands in front of it, the value one byte
behind it. -/
theorem parseFieldLine_colon {name : Bytes} (plain : (58 : UInt8) ∉ name) (value : Bytes)
    (r : HttpRequest) :
    parseFieldLine r (name ++ ascii ":" ++ value) =
      if value = [] then .error .outOfRange
      else .ok (some (r.setHeader name (value.drop 1))) := by
  have colon : find (ascii ":") (name ++ ascii ":" ++ value) = some name.length :=
    Search.find_skip_here plain _
  have length : (name ++ ascii ":" ++ value).length = name.length + 1 + value.length := by
    simp only [List.length_append]
    rfl
  have key : (name ++ ascii ":" ++ value).take name.length = name := by
    rw [List.append_assoc]
    exact List.take_left' rfl
  have behind : (name ++ ascii ":" ++ value).drop (name.length + 1) = value :=
    List.drop_left' (by simp [ascii])
  have kept : (name ++ ascii ":" ++ value).drop (name.length + 2) = value.drop 1 := by
    rw [← behind, List.drop_drop, behind]
  simp only [parseFieldLine, colon]
  by_cases empty : value = []
  · rw [if_pos empty, substr_of_gt (by rw [length, empty, List.length_nil]; omega), error_bind]
  · have positive := List.length_pos_iff.mpr empty
    rw [if_neg empty, substr_of_le (by omega), key, kept]
    rfl

/-- The header loop over lines. -/
def parseFields (r : HttpRequest) : List Bytes → Result (Bool × HttpRequest)
  | [] => .ok (true, r)
  | line :: lines =>
      match parseFieldLine r line with
      | .error f => .error f
      | .ok none => .ok (false, r)
      | .ok (some r') => parseFields r' lines

theorem parseRequestHeaders_lines (r : HttpRequest) (rest : Bytes) :
    parseRequestHeaders r rest = parseFields r (crlfLines rest) := by
  induction measured : rest.length using Nat.strongRecOn generalizing r rest with
  | ind n ih =>
      rw [parseRequestHeaders_eq, crlfLines_eq]
      cases found : find crlf rest with
      | none => rfl
      | some e =>
          have inside := Search.find_le found
          rw [crlf_length] at inside
          simp only [parseFields]
          cases parseFieldLine r (rest.take e) with
          | error f => rfl
          | ok kept =>
              cases kept with
              | none => rfl
              | some r' => exact ih _ (by rw [List.length_drop]; omega) r' _ rfl

theorem parseHeader_lines (r : HttpRequest) (header : Bytes) :
    parseHeader r header = match crlfLines header with
      | [] => .ok (false, r)
      | requestLine :: fields =>
          if requestLine = [] then .ok (false, r)
          else
            match parseRequestLine r requestLine with
            | .error f => .error f
            | .ok (false, r) => .ok (false, r)
            | .ok (true, r) => parseFields r fields := by
  rw [parseHeader, crlfLines_eq]
  cases found : find crlf header with
  | none => rfl
  | some pos =>
      have inside := Search.find_le found
      rw [crlf_length] at inside
      have empty : header.take pos = [] ↔ pos = 0 := by
        rw [List.take_eq_nil_iff]
        constructor
        · rintro (zero | nil)
          · exact zero
          · rw [nil, List.length_nil] at inside
            omega
        · exact Or.inl
      simp only [empty]
      by_cases first : pos = 0
      · rw [if_pos first, if_pos first]
      · rw [if_neg first, if_neg first]
        cases parseRequestLine r (header.take pos) with
        | error f => rfl
        | ok answer =>
            obtain ⟨ok, r'⟩ := answer
            cases ok with
            | false => rfl
            | true =>
                simp only
                rw [substr_of_le inside, ok_bind, parseRequestHeaders_lines]

end HttpContext

end CppFileServer.Http
