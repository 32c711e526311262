/-
# Theory.Walk -- names looked up one after the other

A walk looks each name up where the last one has led; a link leads on to the names of
its target.  It arrives, or stops before a name for a reason.  `Arrives` says the first
without the function, so that what holds of a walk is an induction over its steps: a
walk goes on from where its first names have led (`Arrives.walk_append`), and an entry
that leads no further matters only to a walk that ends there (`Arrives.avoids`).
-/
import Mathlib.Data.List.Basic

namespace CppFileServer.Theory

set_option autoImplicit false

universe u v w

/-- Where a walk stops, with the names ahead of it. -/
structure Stop (I : Type u) (A : Type v) (E : Type w) where
  place : I
  ahead : List A
  reason : E

/-- The ways of a graph whose edges have names. -/
structure Ways (I : Type u) (A : Type v) (E : Type w) where
  look : I → A → Except E I
  /-- For a link that is found at a place: where its target starts, and the names there. -/
  link : I → I → Option (I × List A)
  /-- The reason for which a walk of too many links stops. -/
  tooMany : E

namespace Ways

variable {I : Type u} {A : Type v} {E : Type w} (ways : Ways I A E)

def along (follow : I → List A → Except (Stop I A E) I) : I → List A → Except (Stop I A E) I
  | here, [] => .ok here
  | here, name :: rest =>
      match ways.look here name with
      | .error reason => .error ⟨here, name :: rest, reason⟩
      | .ok there =>
          match ways.link here there with
          | some (start, target) => follow start (target ++ rest)
          | none => along follow there rest

/-- A walk that may follow so many links. -/
def walk : Nat → I → List A → Except (Stop I A E) I
  | 0 => ways.along fun start names => .error ⟨start, names, ways.tooMany⟩
  | links + 1 => ways.along (walk links)

/-- The walks that arrive. -/
inductive Arrives : Nat → I → List A → I → Prop
  | here (links : Nat) (place : I) : Arrives links place [] place
  | on {links : Nat} {place there goal : I} {name : A} {rest : List A}
      (looked : ways.look place name = .ok there) (plain : ways.link place there = none)
      (later : Arrives links there rest goal) : Arrives links place (name :: rest) goal
  | follow {links : Nat} {place there start goal : I} {name : A} {rest target : List A}
      (looked : ways.look place name = .ok there)
      (linked : ways.link place there = some (start, target))
      (later : Arrives links start (target ++ rest) goal) :
      Arrives (links + 1) place (name :: rest) goal

variable {ways} {links : Nat} {place there goal : I} {name : A} {rest : List A}

@[simp] theorem walk_nil (links : Nat) (place : I) : ways.walk links place [] = .ok place := by
  cases links <;> rfl

theorem walk_cons_error {reason : E} (looked : ways.look place name = .error reason) :
    ways.walk links place (name :: rest) = .error ⟨place, name :: rest, reason⟩ := by
  cases links <;> simp only [walk, along, looked]

theorem walk_cons_on (looked : ways.look place name = .ok there)
    (plain : ways.link place there = none) :
    ways.walk links place (name :: rest) = ways.walk links there rest := by
  cases links <;> simp only [walk, along, looked, plain]

theorem walk_cons_follow {start : I} {target : List A} (looked : ways.look place name = .ok there)
    (linked : ways.link place there = some (start, target)) :
    ways.walk (links + 1) place (name :: rest) = ways.walk links start (target ++ rest) := by
  simp only [walk, along, looked, linked]

theorem walk_cons_tooMany {start : I} {target : List A}
    (looked : ways.look place name = .ok there)
    (linked : ways.link place there = some (start, target)) :
    ways.walk 0 place (name :: rest) = .error ⟨start, target ++ rest, ways.tooMany⟩ := by
  simp only [walk, along, looked, linked]

theorem Arrives.walk {names : List A} (arrives : ways.Arrives links place names goal) :
    ways.walk links place names = .ok goal := by
  induction arrives with
  | here links place => exact walk_nil links place
  | on looked plain _ ih => rw [walk_cons_on looked plain, ih]
  | follow looked linked _ ih => rw [walk_cons_follow looked linked, ih]

/-- One name of a walk that arrives: it leads on, or a link is followed. -/
theorem walk_cons_eq_ok (walked : ways.walk links place (name :: rest) = .ok goal) :
    ∃ there, ways.look place name = .ok there ∧
      (ways.link place there = none ∧ ways.walk links there rest = .ok goal ∨
        ∃ left start target, links = left + 1 ∧ ways.link place there = some (start, target) ∧
          ways.walk left start (target ++ rest) = .ok goal) := by
  cases looked : ways.look place name with
  | error reason =>
      rw [walk_cons_error looked] at walked
      cases walked
  | ok there =>
      refine ⟨there, rfl, ?_⟩
      cases linked : ways.link place there with
      | none => exact Or.inl ⟨rfl, walk_cons_on looked linked ▸ walked⟩
      | some found =>
          right
          cases links with
          | zero =>
              rw [walk_cons_tooMany looked linked] at walked
              cases walked
          | succ left =>
              exact ⟨left, found.1, found.2, rfl, rfl, walk_cons_follow looked linked ▸ walked⟩

/-- The induction is on the links that are left, and in it on the names. -/
theorem arrives_of_walk {names : List A} (walked : ways.walk links place names = .ok goal) :
    ways.Arrives links place names goal := by
  induction links using Nat.strongRecOn generalizing place names with
  | ind links ihLinks =>
      induction names generalizing place with
      | nil =>
          rw [walk_nil, Except.ok.injEq] at walked
          exact walked ▸ .here links place
      | cons name rest ih =>
          obtain ⟨there, looked, onwards⟩ := walk_cons_eq_ok walked
          rcases onwards with ⟨plain, walked⟩ | ⟨left, start, target, rfl, linked, walked⟩
          · exact .on looked plain (ih walked)
          · exact .follow looked linked (ihLinks left (Nat.lt_succ_self left) walked)

/-- **A walk goes on from where its first names have led**, with the links that are left. -/
theorem Arrives.walk_append {front : List A} (arrives : ways.Arrives links place front goal) :
    ∃ left, ∀ back, ways.walk links place (front ++ back) = ways.walk left goal back := by
  induction arrives with
  | here links place => exact ⟨links, fun back => rfl⟩
  | on looked plain _ ih =>
      obtain ⟨left, goesOn⟩ := ih
      refine ⟨left, fun back => ?_⟩
      rw [List.cons_append, walk_cons_on looked plain, goesOn]
  | follow looked linked _ ih =>
      obtain ⟨left, goesOn⟩ := ih
      refine ⟨left, fun back => ?_⟩
      rw [List.cons_append, walk_cons_follow looked linked, ← List.append_assoc, goesOn]

/-- The first names of a walk that arrives lead somewhere. -/
theorem Arrives.front {names front back : List A} (arrives : ways.Arrives links place names goal)
    (split : names = front ++ back) : ∃ middle, ways.Arrives links place front middle := by
  induction arrives generalizing front with
  | here links place =>
      obtain ⟨rfl, -⟩ := List.append_eq_nil_iff.mp split.symm
      exact ⟨place, .here links place⟩
  | @on links place there goal name rest looked plain _ ih =>
      cases front with
      | nil => exact ⟨place, .here links place⟩
      | cons first front =>
          rw [List.cons_append, List.cons.injEq] at split
          obtain ⟨rfl, behind⟩ := split
          obtain ⟨middle, later⟩ := ih behind
          exact ⟨middle, .on looked plain later⟩
  | @follow links place there start goal name rest target looked linked _ ih =>
      cases front with
      | nil => exact ⟨place, .here (links + 1) place⟩
      | cons first front =>
          rw [List.cons_append, List.cons.injEq] at split
          obtain ⟨rfl, behind⟩ := split
          have through : target ++ rest = (target ++ front) ++ back := by
            rw [behind, List.append_assoc]
          obtain ⟨middle, later⟩ := ih through
          exact ⟨middle, .follow looked linked later⟩

section Other

variable {ways' : Ways I A E} {names : List A}

/-- Where more can be looked up, a walk still arrives. -/
theorem Arrives.mono (links_eq : ways'.link = ways.link)
    (more : ∀ place name there, ways.look place name = .ok there →
      ways'.look place name = .ok there)
    (arrives : ways.Arrives links place names goal) : ways'.Arrives links place names goal := by
  induction arrives with
  | here links place => exact .here links place
  | on looked plain _ ih => exact .on (more _ _ _ looked) (links_eq ▸ plain) ih
  | follow looked linked _ ih => exact .follow (more _ _ _ looked) (links_eq ▸ linked) ih

/-- **An entry that leads no further** matters only to a walk that ends there. -/
theorem Arrives.avoids {entry : I × A} {last : I} (links_eq : ways'.link = ways.link)
    (same : ∀ place name, (place, name) ≠ entry → ways'.look place name = ways.look place name)
    (leads : ways.look entry.1 entry.2 = .ok last) (plain : ways.link entry.1 last = none)
    (deadEnd : ∀ name there, ways.look last name ≠ .ok there)
    (arrives : ways.Arrives links place names goal) (elsewhere : goal ≠ last) :
    ways'.Arrives links place names goal := by
  induction arrives with
  | here links place => exact .here links place
  | @on links place there goal name rest looked noLink later ih =>
      by_cases here : (place, name) = entry
      · subst here
        -- the walk is at the dead end: it ends there, or looks a name up that it cannot
        rw [leads, Except.ok.injEq] at looked
        subst looked
        cases later with
        | here => exact absurd rfl elsewhere
        | on looked' => exact absurd looked' (deadEnd _ _)
        | follow looked' => exact absurd looked' (deadEnd _ _)
      · exact .on ((same place name here).trans looked) (links_eq ▸ noLink) (ih elsewhere)
  | @follow links place there start goal name rest target looked linked later ih =>
      by_cases here : (place, name) = entry
      · subst here
        rw [leads, Except.ok.injEq] at looked
        subst looked
        rw [plain] at linked
        cases linked
      · exact .follow ((same place name here).trans looked) (links_eq ▸ linked) (ih elsewhere)

end Other

end Ways

end CppFileServer.Theory
