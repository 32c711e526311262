/-
# Tcp.Dispatch -- which loop gets which connection

`HandleNewConnection` asks `GetNextLoop` for a loop, which goes round the loops of the
pool, and nothing moves a connection to another loop afterwards.  So the connections are
dealt out in turn, in every run and whatever is closed in between, and the load of the
loops differs by one connection at most (`dealt_evenly`).
-/
import CppFileServer.Tcp.Draining
import CppFileServer.Tcp.EventLoopThreadPool
import CppFileServer.Tcp.TimerThreads
import Mathlib.Data.Int.CardIntervalMod

namespace CppFileServer.Tcp

set_option autoImplicit false

open CppFileServer.Cpp CppFileServer.Http CppFileServer.Theory

namespace TcpServer

section Steps

variable {σ L : Type} [DecidableEq L] {main : L} {loops : List L} {s t : TcpServer σ L}

/-- How many of the connections that have been constructed are on a loop. -/
def load (s : TcpServer σ L) (l : L) : Nat :=
  Nat.count (fun c => (s.connection c).any fun k => k.loop = l) s.created

theorem settle_created (s : TcpServer σ L) (l : L) (c : Nat) (k : Connection σ L)
    (session : Session σ) (rest : List (Active Ready)) :
    (s.settle l c k session rest).created = s.created := by
  unfold settle
  split <;> rfl

variable [Fintype L] {server : HttpServer σ}

/-- Only accepting constructs a connection. -/
theorem step_created {action : ServerAction σ L}
    (noAccept : ∀ fd state completeHeaders world, action ≠ .accept fd state completeHeaders world)
    (stepped : s.step server main loops action = some (.ok t)) : t.created = s.created := by
  cases steps_of_step stepped with
  | poll reported polled => rfl
  | accept handling notOpen => exact absurd rfl (noAccept _ _ _ _)
  | establish handling found => rfl
  | event handling found held handled => exact settle_created ..
  | timer handling found held set own => exact settle_created ..
  | expired found => rfl
  | close handling closed => exact (handsOn_handleClose closed).created
  | proceed proceeded noTask noCallback => rfl
  | task running proceeded ran => exact (handsOn_runTask ran).created

/-- The connections so far have been dealt out in turn. -/
structure Dealt (loops : List L) (s : TcpServer σ L) : Prop where
  next : s.next = s.created % loops.length
  connection : ∀ c < s.created, ∃ k, s.connection c = some k ∧ loops[c % loops.length]? = some k.loop

omit [DecidableEq L] [Fintype L] in
theorem accept_dealt (nonempty : 0 < loops.length) (dealt : Dealt loops s) (fd : Nat)
    (state : ConnectionState) (completeHeaders : Bool) (world : σ) :
    Dealt loops (s.newConnection main loops fd state completeHeaders world) := by
  have inside : s.next < loops.length := by
    rw [dealt.next]
    exact Nat.mod_lt _ nonempty
  have chosen : getNextLoop main loops s.next = (loops[s.next], (s.next + 1) % loops.length) := by
    rw [getNextLoop, if_neg (by simp [List.ne_nil_of_length_pos nonempty]),
      List.getElem?_eq_getElem inside]
    rfl
  obtain ⟨k₀, connection, own⟩ :=
    newConnection_connection s main loops fd state completeHeaders world
  refine ⟨?_, ?_⟩
  · change (getNextLoop main loops s.next).2 = (s.created + 1) % loops.length
    rw [chosen]
    calc (s.next + 1) % loops.length
        = (s.created % loops.length + 1) % loops.length := by rw [dealt.next]
      _ = (s.created + 1) % loops.length := Nat.mod_add_mod ..
  · intro c known
    have known : c < s.created + 1 := known
    rw [connection]
    by_cases here : c = s.created
    · rw [here, Function.update_self]
      refine ⟨k₀, rfl, ?_⟩
      rw [own, chosen, ← dealt.next]
      exact List.getElem?_eq_getElem inside
    · rw [Function.update_of_ne here]
      exact dealt.connection c (by omega)

/-- **Step lemma**: no step but accepting changes what has been dealt out. -/
theorem step_dealt (nonempty : 0 < loops.length) (invariant : Invariant main s)
    (dealt : Dealt loops s) {action : ServerAction σ L}
    (stepped : s.step server main loops action = some (.ok t)) : Dealt loops t := by
  by_cases noAccept : ∀ fd state completeHeaders world, action ≠ .accept fd state completeHeaders world
  · have created := step_created noAccept stepped
    have stays := step_stays noAccept stepped
    refine ⟨by rw [stays.next, created, dealt.next], ?_⟩
    intro c known
    obtain ⟨k, found, turn⟩ := dealt.connection c (created ▸ known)
    obtain ⟨k', found', -⟩ := (step_advances invariant stepped).silent c k found
    obtain ⟨k'', found'', same⟩ := stays.connection c k' found'
    rw [found] at found''
    cases found''
    exact ⟨k', found', same ▸ turn⟩
  push Not at noAccept
  obtain ⟨fd, state, completeHeaders, world, rfl⟩ := noAccept
  cases steps_of_step stepped with
  | accept handling notOpen =>
      have accepted : Dealt loops (s.newConnection main loops fd state completeHeaders world) :=
        accept_dealt nonempty dealt fd state completeHeaders world
      exact ⟨accepted.next, accepted.connection⟩

theorem dealt_of_reaches (nonempty : 0 < loops.length)
    (reaches : Reaches (step server main loops) {} s) :
    Dealt loops s := by
  have empty : Reaches (step server main loops) {} {} := .refl _
  have both := reaches.invariant (P := fun s => Invariant main s ∧ Dealt loops s)
    (fun _ _ _ kept stepped =>
      ⟨(step_advances kept.1 stepped).invariant, step_dealt nonempty kept.1 kept.2 stepped⟩)
    ⟨reaches_invariant empty, (Nat.zero_mod _).symm, nofun⟩
  exact both.2

omit [Fintype L] in
/-- The load of each loop, when no loop is there twice. -/
theorem Dealt.load_eq (dealt : Dealt loops s) (distinct : loops.Nodup) {i : Nat} {l : L}
    (dealtTo : loops[i]? = some l) :
    s.load l = s.created / loops.length + if i < s.created % loops.length then 1 else 0 := by
  obtain ⟨inside, -⟩ := List.getElem?_eq_some_iff.mp dealtTo
  have turn (c : Nat) (known : c < s.created) :
      ((s.connection c).any fun k => decide (k.loop = l)) = true ↔ c ≡ i [MOD loops.length] := by
    obtain ⟨k, found, turn⟩ := dealt.connection c known
    rw [found, Option.any_some, decide_eq_true_iff, Nat.ModEq, Nat.mod_eq_of_lt inside]
    constructor
    · intro same
      have again : loops[i]? = loops[c % loops.length]? := by rw [dealtTo, turn, same]
      exact ((List.getElem?_inj inside distinct).mp again).symm
    · intro same
      rw [same, dealtTo] at turn
      exact (Option.some.inj turn).symm
  calc s.load l = Nat.count (· ≡ i [MOD loops.length]) s.created := by
        rw [load, Nat.count_eq_card_filter_range, Nat.count_eq_card_filter_range]
        exact congrArg Finset.card
          (Finset.filter_congr fun c known => turn c (Finset.mem_range.mp known))
    _ = _ := by
        rw [Nat.count_modEq_card _ (Nat.zero_lt_of_lt inside), Nat.mod_eq_of_lt inside]

omit [Fintype L] in
theorem Dealt.load_main (dealt : Dealt loops s) (away : main ∉ loops) : s.load main = 0 := by
  rw [load, Nat.count_eq_card_filter_range, Finset.card_eq_zero, Finset.filter_eq_empty_iff]
  intro c known
  obtain ⟨k, found, turn⟩ := dealt.connection c (Finset.mem_range.mp known)
  rw [found, Option.any_some, decide_eq_true_iff]
  rintro rfl
  exact away (List.mem_of_getElem? turn)

end Steps

section Runs

variable {σ L : Type} [DecidableEq L] [Fintype L] {server : HttpServer σ} {main : L} {n : Int}
  {pool : EventLoopThreadPool L} {s : TcpServer σ L}

/-- **The connections are dealt out evenly** to the loops of a pool that has been started:
the `c`-th is on the loop of thread `c mod n` in every state that the server reaches, none
is on the main loop, and of the connections so far each thread has one `n`-th, with at most
one more for the first of them. -/
theorem dealt_evenly
    (started : Reaches EventLoopThreadPool.step { mainReactor := main, threadNums := n } pool)
    (returned : pool.starting = .started) (asked : 0 < n)
    (reaches : Reaches (step server main pool.loops) {} s) :
    (∀ c k, s.connection c = some k →
      ∃ t : EventLoopThread L, pool.threads[c % n.toNat]? = some t ∧ t.stack = some k.loop) ∧
    s.load main = 0 ∧
    ∀ (i : Nat) (l : L), pool.loops[i]? = some l →
      s.load l = s.created / n.toNat + if i < s.created % n.toNat then 1 else 0 := by
  obtain ⟨-, distinct, own, -, all⟩ := EventLoopThreadPool.loops_of_threads started
  obtain ⟨away, distinct⟩ := List.nodup_cons.mp distinct
  obtain ⟨-, length⟩ := all returned
  have dealt := dealt_of_reaches (by omega) reaches
  rw [← length]
  refine ⟨?_, dealt.load_main away, fun i l dealtTo => dealt.load_eq distinct dealtTo⟩
  intro c k found
  obtain ⟨k', found', turn⟩ := dealt.connection c ((reaches_invariant reaches).known c k found)
  rw [found] at found'
  cases found'
  obtain ⟨t, created, held, -⟩ := own _ _ turn
  exact ⟨t, created, held⟩

end Runs

/-- A pool of two threads is started. -/
def twoThreads : List (StartAction (Fin 3)) :=
  (List.range 2).flatMap (fun i => [.main, .construct i (Fin.ofNat 3 (i + 1)), .thread i, .thread i,
    .thread i, .thread i, .main, .main, .main]) ++ [.main]

/-- Three connections are accepted. -/
def threeAccepted : List (ServerAction Unit (Fin 3)) :=
  (List.range 3).flatMap fun fd => [.poll 0 [.channel .accept], .accept fd .Connected true (),
    .establish, .proceed 0, .proceed 0, .proceed 0, .proceed 0]

theorem dealt_evenly_three :
    ∃ (pool : EventLoopThreadPool (Fin 3)) (s : TcpServer Unit (Fin 3)), pool.loops = [1, 2] ∧
      Reaches (step (HttpServer.construct 0) 0 pool.loops) {} s ∧ s.created = 3 ∧
      s.load 0 = 0 ∧ s.load 1 = 2 ∧ s.load 2 = 1 := by
  have started : ((perform EventLoopThreadPool.step
      { mainReactor := (0 : Fin 3), threadNums := 2 } twoThreads).any fun pool =>
        pool.starting = .started ∧ pool.loops = [1, 2]) = true := by
    decide
  have accepted : ((perform (step (HttpServer.construct 0) 0 [1, 2]) {} threeAccepted).any
      fun s => s.created = 3) = true := by
    decide
  obtain ⟨pool, started, known⟩ := (Option.any_eq_true _ _).mp started
  obtain ⟨returned, loops⟩ := of_decide_eq_true known
  obtain ⟨s, accepted, created⟩ := (Option.any_eq_true _ _).mp accepted
  have created : s.created = 3 := of_decide_eq_true created
  rw [← loops] at accepted
  obtain ⟨-, idle, loads⟩ := dealt_evenly (reaches_of_perform started) returned (by decide)
    (reaches_of_perform accepted)
  rw [created, loops] at loads
  exact ⟨pool, s, loops, reaches_of_perform accepted, created, idle, loads 0 1 rfl, loads 1 2 rfl⟩

end TcpServer

end CppFileServer.Tcp
