/-
# Theory.Parts -- a system whose parts take steps of their own

A system is made of parts that come into being one by one.  When every step of the
system leaves a part as it is, brings it into being, or takes one step of the part
itself, then every run of the system is a run of each of its parts (`parts_run`), and
what the runs of a part keep holds of all parts of every system (`Lived.invariant`).
-/
import CppFileServer.Theory.Machine
import CppFileServer.Theory.Run

namespace CppFileServer.Theory

set_option autoImplicit false

universe u v w x y

variable {S : Type u} {A : Type v} {ι : Type w} {C : Type x} {B : Type y} {E F : Type*}

/-- What a step of the system does to one of its parts. -/
inductive Touches (partStep : C → B → Except F C) (born : C → Prop) (ok : B → Prop) :
    Option C → Option C → Prop
  | stays (part : Option C) : Touches partStep born ok part part
  | begins {c : C} (new : born c) : Touches partStep born ok none (some c)
  | steps {c d : C} {b : B} (allowed : ok b) (stepped : partStep c b = .ok d) :
      Touches partStep born ok (some c) (some d)

/-- A run of a part leads here. -/
def Lived (partStep : C → B → Except F C) (born : C → Prop) (ok : B → Prop) (c : C) : Prop :=
  ∃ c₀ bs, born c₀ ∧ (∀ b ∈ bs, ok b) ∧ run partStep c₀ bs = .ok c

variable {step : S → A → Option (Except E S)} {part : S → ι → Option C}
  {partStep : C → B → Except F C} {born : C → Prop} {ok : B → Prop}

theorem lived_of_born {c : C} (new : born c) : Lived partStep born ok c :=
  ⟨c, [], new, ⟨by simp, rfl⟩⟩

theorem Lived.next {c d : C} {b : B} (lived : Lived partStep born ok c) (allowed : ok b)
    (stepped : partStep c b = .ok d) : Lived partStep born ok d := by
  obtain ⟨c₀, bs, new, all, ran⟩ := lived
  refine ⟨c₀, bs ++ [b], new, ?_, ?_⟩
  · intro b' inside
    rcases List.mem_append.mp inside with before | last
    · exact all b' before
    · exact List.mem_singleton.mp last ▸ allowed
  · rw [run_append, ran]
    exact run_cons_of_ok stepped []

/-- **Invariant rule for parts**: what holds when a part begins, and is kept by its allowed
steps, holds of it ever after. -/
theorem Lived.invariant {Q : C → Prop} (begins : ∀ c, born c → Q c)
    (preserved : ∀ c b d, Q c → ok b → partStep c b = .ok d → Q d) {c : C}
    (lived : Lived partStep born ok c) : Q c := by
  obtain ⟨c₀, bs, new, all, ran⟩ := lived
  have initial := begins c₀ new
  clear new
  induction bs generalizing c₀ with
  | nil =>
      cases ran
      exact initial
  | cons b bs ih =>
      obtain ⟨d, stepped, ran⟩ := run_cons_eq_ok ran
      exact ih d (fun b' inside => all b' (List.mem_cons_of_mem _ inside)) ran
        (preserved c₀ b d initial (all b List.mem_cons_self) stepped)

theorem Touches.lived {before : Option C} {c : C}
    (touches : Touches partStep born ok before (some c))
    (earlier : ∀ d, before = some d → Lived partStep born ok d) : Lived partStep born ok c := by
  cases touches with
  | stays => exact earlier c rfl
  | begins new => exact lived_of_born new
  | steps allowed stepped => exact (earlier _ rfl).next allowed stepped

/-- **Every run of the system is a run of each of its parts**, under an invariant of the
system that its allowed steps keep. -/
theorem parts_run {P : S → Prop} {allowed : A → Prop}
    (touches : ∀ s a t, P s → allowed a → step s a = some (.ok t) →
      P t ∧ ∀ i, Touches partStep born ok (part s i) (part t i))
    {s t : S} {as : List A} (performed : perform step s as = some t)
    (all : ∀ a ∈ as, allowed a) (initial : P s) (unborn : ∀ i, part s i = none) {i : ι} {c : C}
    (found : part t i = some c) : Lived partStep born ok c := by
  have throughout : Throughout step (fun _ a => a ∈ as) s as :=
    throughout_of_forall fun _ _ inside => inside
  have lived : P t ∧ ∀ c, part t i = some c → Lived partStep born ok c := by
    apply throughout.invariant (P := fun s => P s ∧ ∀ c, part s i = some c →
      Lived partStep born ok c) _ performed
    · refine ⟨initial, ?_⟩
      intro c impossible
      rw [unborn i] at impossible
      cases impossible
    · rintro s a t ⟨holds, earlier⟩ inside stepped
      obtain ⟨kept, touched⟩ := touches s a t holds (all a inside) stepped
      refine ⟨kept, ?_⟩
      intro c found
      exact (found ▸ touched i).lived earlier
  exact lived.2 c found

end CppFileServer.Theory
