/-
# Http.IdleServer -- the timers of all connections

Each connection that a server closes when it is idle has one timer, which
`HandleActiveClose` either sets anew or spends on closing the connection; `IdleTimer`
follows one connection and its clock.  Here are all of them, on their loops: whatever the
loops do, no connection in service is without its timer, and when that runs it closes an
idle connection and leaves every other one in service (`in_service_watched`).
-/
import CppFileServer.Tcp.Sessions

namespace CppFileServer.Http

set_option autoImplicit false

open CppFileServer.Cpp CppFileServer.Tcp CppFileServer.Tcp.TcpServer CppFileServer.Theory

section Steps

variable {σ L : Type} [DecidableEq L] {server : HttpServer σ} {main : L} {loops : List L}
  {s t : TcpServer σ L}

/-- Every connection in service has the timer that the server sets. -/
def TimersSet (server : HttpServer σ) (s : TcpServer σ L) : Prop :=
  ∀ c k, s.connection c = some k → k.stage = .established → k.timer = server.autoCloseConn

/-- A callback closes the connection, or leaves it where it was. -/
theorem settle_stage (s : TcpServer σ L) (l : L) (c : Nat) (k : Connection σ L)
    (session : Session σ) (rest : List (Active Ready)) :
    (s.settle l c k session rest).connection = Function.update s.connection c (some { k with
      session := session
      stage := if k.session.conn.closeRequests < session.conn.closeRequests then .closing
        else k.stage }) := by
  unfold settle
  split_ifs <;> rfl

omit [DecidableEq L] in
/-- `HandleActiveClose` closes the connections in service that are idle. -/
theorem handleActiveClose_closes {k : Connection σ L} (healthy : k.Healthy)
    (stage : k.stage = .established) (now : Int) :
    k.session.conn.closeRequests <
        (server.handleActiveClose k.session now).conn.closeRequests ↔
      k.session.conn.timerstamp + server.timeout < now := by
  simp only [Connection.Healthy, stage] at healthy
  obtain ⟨-, connected, -⟩ := healthy
  unfold HttpServer.handleActiveClose
  split_ifs with idle
  · simp [TcpConnection.handleClose, connected, idle]
  · simp [idle]

variable [Fintype L]

omit [DecidableEq L] [Fintype L] in
/-- A connection in service is in the map, and so not destroyed. -/
theorem held_of_established (invariant : Invariant main s) {c : Nat} {k : Connection σ L}
    (found : s.connection c = some k) (stage : k.stage = .established) : s.Held c :=
  Or.inl ⟨k, found, (invariant.mapped k.fd c).mpr ⟨k, found, rfl, by rw [stage]; rfl⟩⟩

/-- The timer of a connection in service runs. -/
theorem timer_step (invariant : Invariant main s) {l : L} {c : Nat} {now : Int}
    {k : Connection σ L} {rest : List (Active Ready)}
    (handling : (s.loop l).phase = .handling (.channel .timers :: rest))
    (found : s.connection c = some k) (stage : k.stage = .established) (set : k.timer = true)
    (own : k.loop = l) :
    s.step server main loops (.timer l c now) = some (.ok (s.settle l c
      { k with timer := !decide (k.session.conn.timerstamp + server.timeout < now) }
      (server.handleActiveClose k.session now) (.channel .timers :: rest))) := by
  simp only [step, handling, found, set, own, and_self, if_true,
    if_pos (held_of_established invariant found stage)]

/-- A timer that runs is set, and its `weak_ptr` may have expired. -/
theorem timer_cases {l : L} {c : Nat} {now : Int}
    (stepped : s.step server main loops (.timer l c now) = some (.ok t)) :
    ∃ k rest, (s.loop l).phase = .handling (.channel .timers :: rest) ∧
      s.connection c = some k ∧ k.timer = true ∧ k.loop = l ∧
      (s.Held c ∧ t = s.settle l c
          { k with timer := !decide (k.session.conn.timerstamp + server.timeout < now) }
          (server.handleActiveClose k.session now) (.channel .timers :: rest) ∨
        ¬ s.Held c ∧ t = s.setConnection c { k with timer := false }) := by
  simp only [step] at stepped
  split at stepped
  case h_1 rest k handling found =>
      split_ifs at stepped with running held
      · cases stepped
        exact ⟨k, rest, handling, found, running.1, running.2, .inl ⟨held, rfl⟩⟩
      · cases stepped
        exact ⟨k, rest, handling, found, running.1, running.2, .inr ⟨held, rfl⟩⟩
  case h_2 => cases stepped

theorem timer_timersSet (invariant : Invariant main s) (timers : TimersSet server s)
    {l : L} {c : Nat} {now : Int}
    (stepped : s.step server main loops (.timer l c now) = some (.ok t)) : TimersSet server t := by
  obtain ⟨k, rest, -, found, set, -, ⟨held, rfl⟩ | ⟨gone, rfl⟩⟩ := timer_cases stepped
  · refine every_of_update timers (settle_stage ..) ?_
    intro stage
    split_ifs at stage with closes
    have stage : k.stage = .established := stage
    have staysOpen := mt (handleActiveClose_closes (invariant.healthy c k found) stage now).mpr closes
    rw [← timers c k found stage, set, decide_eq_false staysOpen]
    rfl
  · exact every_of_update timers rfl fun stage =>
      absurd (held_of_established invariant found stage) gone

/-- **Step lemma**. -/
theorem step_timersSet (invariant : Invariant main s) (timers : TimersSet server s)
    {action : ServerAction σ L} (stepped : s.step server main loops action = some (.ok t)) :
    TimersSet server t := by
  cases steps_of_step stepped with
  | poll reported polled => exact timers
  | @accept fd state completeHeaders world rest handling notOpen =>
      obtain ⟨k₀, connection, fresh⟩ : ∃ k₀ : Connection σ L,
          (s.newConnection main loops fd state completeHeaders world).connection =
            Function.update s.connection s.created (some k₀) ∧ k₀.stage = .fresh := ⟨_, rfl, rfl⟩
      refine every_of_update timers connection ?_
      rw [fresh]
      nofun
  | establish handling found => exact every_of_update timers rfl fun _ => rfl
  | @event l inputs c events k session rest handling found held handled =>
      refine every_of_update timers (settle_stage ..) ?_
      intro stage
      split_ifs at stage
      exact timers c k found stage
  | timer => exact timer_timersSet invariant timers stepped
  | expired => exact timer_timersSet invariant timers stepped
  | close handling closed =>
      obtain ⟨k, stage, found, passed, changed⟩ := handleClose_connection closed
      refine every_of_update timers changed ?_
      rintro (rfl : stage = .established)
      simp at passed
  | task running proceeded ran =>
      obtain ⟨k, k', -, -, changed, rfl | ⟨gone, -⟩⟩ := task_connection server invariant running ran
      · exact every_of_update timers changed nofun
      · exact every_of_update timers changed fun stage => by rw [gone] at stage; cases stage
  | proceed proceeded noTask noCallback => exact timers

theorem timersSet_of_reaches (reaches : Reaches (TcpServer.step server main loops) {} s) :
    TimersSet server s := by
  have initial : Invariant main ({} : TcpServer σ L) ∧ TimersSet server ({} : TcpServer σ L) := by
    have start : Reaches (TcpServer.step server main loops) {} {} := Reaches.refl _
    refine ⟨reaches_invariant start, ?_⟩
    intro c k found
    cases found
  have both := reaches.invariant (P := fun s => Invariant main s ∧ TimersSet server s)
    (fun _ _ _ kept stepped =>
      ⟨(step_advances kept.1 stepped).invariant, step_timersSet kept.1 kept.2 stepped⟩) initial
  exact both.2

/-- **No connection is forgotten, and none is closed too soon**: in every state that a server
with a time limit can reach, a connection in service has its timer, and when its loop runs that
timer, the connection is closed if it is idle and stays in service, with its timer, if not. -/
theorem in_service_watched (limited : 0 < server.timeout)
    (reaches : Reaches (TcpServer.step server main loops) {} s) {c : Nat} {k : Connection σ L}
    (found : s.connection c = some k) (stage : k.stage = .established) :
    k.timer = true ∧ ∀ (now : Int) (rest : List (Active Ready)),
      (s.loop k.loop).phase = .handling (.channel .timers :: rest) →
      ∃ t k', s.step server main loops (.timer k.loop c now) = some (.ok t) ∧
        t.connection c = some k' ∧
        if k.session.conn.timerstamp + server.timeout < now then
          k'.stage = .closing ∧ k'.session.conn.state = .Disconected ∧
            (t.loop k.loop).phase = .handling (.channel (.closing c) :: .channel .timers :: rest)
        else k'.stage = .established ∧ k'.timer = true ∧ k'.session = k.session := by
  have invariant := reaches_invariant reaches
  have set : k.timer = true := by
    rw [timersSet_of_reaches reaches c k found stage]
    exact decide_eq_true limited
  refine ⟨set, fun now rest handling => ?_⟩
  have stepped : s.step server main loops (.timer k.loop c now) = _ :=
    timer_step invariant handling found stage set rfl
  have changed := congrFun (settle_stage s k.loop c
    { k with timer := !decide (k.session.conn.timerstamp + server.timeout < now) }
    (server.handleActiveClose k.session now) (.channel .timers :: rest)) c
  rw [Function.update_self] at changed
  refine ⟨_, _, stepped, changed, ?_⟩
  have closes : _ < (server.handleActiveClose k.session now).conn.closeRequests ↔ _ :=
    handleActiveClose_closes (invariant.healthy c k found) stage now
  by_cases idle : k.session.conn.timerstamp + server.timeout < now
  · rw [if_pos idle, if_pos (closes.mpr idle)]
    refine ⟨rfl, ?_, ?_⟩
    · simp only [HttpServer.handleActiveClose, if_pos idle]
      exact TcpConnection.handleClose_state _
    · simp only [settle, if_pos (closes.mpr idle)]
      simp only [setLoop, Function.update_self]
  · rw [if_neg idle, if_neg (mt closes.mp idle), decide_eq_false idle]
    refine ⟨stage, rfl, ?_⟩
    simp only [HttpServer.handleActiveClose, if_neg idle]

end Steps

/-- The main loop has accepted two connections and runs its timers. -/
def timersDue : List (ServerAction Unit Bool) :=
  [.poll false [.channel .accept], .accept 7 .Connected true (), .establish, .proceed false,
    .proceed false, .proceed false, .proceed false, .poll false [.channel .accept],
    .accept 8 .Connected true (), .establish, .proceed false, .proceed false, .proceed false,
    .proceed false, .poll false [.channel .timers]]

/-- The first is closed. -/
theorem in_service_watched_due :
    ∃ s t k', Reaches (TcpServer.step (HttpServer.construct 5) false []) {} s ∧
      s.step (HttpServer.construct 5) false [] (.timer false 0 6000000) = some (.ok t) ∧
      t.connection 0 = some k' ∧ k'.stage = .closing := by
  have performed : ((perform (TcpServer.step (HttpServer.construct 5) false []) {}
      timersDue).any fun s =>
        (s.loop false).phase = .handling [.channel .timers] ∧
        (s.connection 0).any fun k => k.stage = .established ∧ k.loop = false ∧
          k.session.conn.timerstamp + (HttpServer.construct 5).timeout < 6000000) = true := by
    decide +kernel
  obtain ⟨s, performed, known⟩ := (Option.any_eq_true _ _).mp performed
  obtain ⟨handling, known⟩ := of_decide_eq_true known
  obtain ⟨k, found, outcome⟩ := (Option.any_eq_true _ _).mp known
  obtain ⟨stage, own, idle⟩ := of_decide_eq_true outcome
  have reaches := reaches_of_perform performed
  obtain ⟨-, runs⟩ := in_service_watched (by decide) reaches found stage
  rw [← own] at handling
  obtain ⟨t, k', stepped, found', closed⟩ := runs 6000000 [] handling
  rw [if_pos idle] at closed
  rw [own] at stepped
  exact ⟨s, t, k', reaches, stepped, found', closed.1⟩

end CppFileServer.Http
