/-
# Http.IdleTimer -- the timer that closes an idle connection

`onConnection` sets one timer for a connection.  A message does not move it: it only
notes the time, and the timer, when it runs, compares that time with the clock and
either closes the connection or sets itself anew.

`IdleConnection` is a connection with its clock and with the expiries of its timers
that are pending.  A step reads the clock once, which `tick` lets advance between
steps; the clock is `CLOCK_MONOTONIC` and not negative.  `onConnected` and
`lastMessage` are records that the source does not keep.
-/
import CppFileServer.Tcp.Callbacks
import CppFileServer.Theory.Machine

namespace CppFileServer.Http

set_option autoImplicit false

open CppFileServer.Cpp CppFileServer.Tcp CppFileServer.Theory

structure IdleConnection (σ : Type) where
  session : Session σ
  now : Int
  /-- The expiries of the timers that call `HandleActiveClose` for this connection. -/
  pending : List Int := []
  /-- A `shared_ptr` to the connection is left. -/
  alive : Bool := true
  /-- When `onConnection` ran. -/
  onConnected : Option Int := none
  /-- When `onMessage` last ran in the state `Connected`. -/
  lastMessage : Option Int := none

inductive IdleAction
  | tick (elapsed : Nat)
  | onConnection
  | onMessage (result : WriteResult)
  /-- `HandleActiveClose`, of the timer with this expiry. -/
  | handleActiveClose (expiry : Int)
  | read (results : List ReadResult)
  | handleWrite (result : WriteResult)
  /-- `HandleClose`, called from elsewhere. -/
  | handleClose
  /-- The last `shared_ptr` goes, which is after the connection was closed. -/
  | destroy

namespace IdleConnection

variable {σ : Type}

def onMessage (server : HttpServer σ) (s : IdleConnection σ) (result : WriteResult) :
    Result (IdleConnection σ) := do
  let session ← server.onMessage s.now result s.session
  pure { s with
    session := session
    lastMessage := if s.session.conn.state = .Connected then some s.now else s.lastMessage }

/-- `HandleActiveClose`; `weak_ptr::lock` fails when the connection is gone. -/
def handleActiveClose (server : HttpServer σ) (s : IdleConnection σ) (expiry : Int) :
    IdleConnection σ :=
  let pending := s.pending.erase expiry
  if s.alive then
    { s with
      session := server.handleActiveClose s.session s.now
      pending :=
        if s.session.conn.timerstamp + server.timeout < s.now then pending
        else (s.now + server.timeout) :: pending }
  else { s with pending := pending }

def step (server : HttpServer σ) (s : IdleConnection σ) :
    IdleAction → Option (Result (IdleConnection σ))
  | .tick elapsed => some (.ok { s with now := s.now + elapsed })
  | .onConnection =>
      if s.onConnected = none ∧ s.alive then some (.ok { s with
        pending := if server.autoCloseConn then (s.now + server.timeout) :: s.pending else s.pending
        onConnected := some s.now })
      else none
  | .onMessage result => if s.alive then some (s.onMessage server result) else none
  | .handleActiveClose expiry =>
      -- a timer runs no earlier than its expiry
      if expiry ∈ s.pending ∧ expiry ≤ s.now then some (.ok (s.handleActiveClose server expiry))
      else none
  | .read results =>
      if s.alive then some do
        let conn ← s.session.conn.readNonBlocking results
        pure { s with session := { s.session with conn := conn } }
      else none
  | .handleWrite result =>
      if s.alive then some do
        let conn ← s.session.conn.handleWrite result
        pure { s with session := { s.session with conn := conn } }
      else none
  | .handleClose =>
      if s.alive then
        some (.ok { s with session := { s.session with conn := s.session.conn.handleClose } })
      else none
  | .destroy =>
      if s.session.conn.state = .Disconected then some (.ok { s with alive := false }) else none

/-- A connection that has been established at some time, before `onConnection` runs. -/
def start (state : ConnectionState) (completeHeaders : Bool) (world : σ) (now : Nat) :
    IdleConnection σ where
  session :=
    { conn := (TcpConnection.construct state completeHeaders).connectionEstablished, world := world }
  now := now

/-! ## The time of the last message -/

theorem send_timerstamp {c t : TcpConnection} {msg : Bytes} {result : WriteResult}
    (sends : c.send msg result = .ok t) : t.timerstamp = c.timerstamp := by
  obtain ⟨b, channel, wire, rfl⟩ := TcpConnection.send_eq_ok sends
  rfl

theorem handleClose_timerstamp (c : TcpConnection) : c.handleClose.timerstamp = c.timerstamp := by
  unfold TcpConnection.handleClose
  split_ifs <;> rfl

theorem handleWrite_timerstamp {c t : TcpConnection} {result : WriteResult}
    (wrote : c.handleWrite result = .ok t) : t.timerstamp = c.timerstamp := by
  obtain ⟨b, channel, wire, rfl⟩ := TcpConnection.handleWrite_frame wrote
  rfl

theorem readNonBlocking_timerstamp {c t : TcpConnection} {results : List ReadResult}
    (read : c.readNonBlocking results = .ok t) : t.timerstamp = c.timerstamp := by
  obtain ⟨b, rfl | rfl⟩ := TcpConnection.readNonBlocking_frame read
  · rfl
  · exact handleClose_timerstamp _

theorem onRequest_timerstamp {server : HttpServer σ} {s t : Session σ} {req : HttpRequest}
    {result : WriteResult} (answered : server.onRequest s req result = .ok t) :
    t.conn.timerstamp = s.conn.timerstamp := by
  obtain ⟨conn, sends, ended⟩ := bind_eq_ok answered
  have sent := send_timerstamp sends
  cases ended
  split_ifs
  · exact (handleClose_timerstamp conn).trans sent
  · exact sent

theorem answer_timerstamp {server : HttpServer σ} {s t : Session σ} {result : WriteResult}
    {parsed : Bool × HttpContext} (answered : server.answer s result parsed = .ok t) :
    t.conn.timerstamp = s.conn.timerstamp := by
  obtain ⟨ok, context⟩ := parsed
  cases ok with
  | false =>
      obtain ⟨conn, sends, ended⟩ := bind_eq_ok answered
      have sent : conn.timerstamp = s.conn.timerstamp :=
        send_timerstamp (c := { s.conn with context := context }) sends
      cases ended
      rw [← sent]
      exact handleClose_timerstamp conn
  | true =>
      cases complete : context.completeRequest with
      | false =>
          rw [server.answer_incomplete s complete] at answered
          cases answered
          rfl
      | true =>
          simp only [HttpServer.answer, complete, if_true] at answered
          obtain ⟨u, requested, ended⟩ := bind_eq_ok answered
          have kept : u.conn.timerstamp = s.conn.timerstamp :=
            onRequest_timerstamp (s := { s with conn := { s.conn with context := context } })
              requested
          cases ended
          exact kept

/-- **A message in the state `Connected` notes the time.** -/
theorem onMessage_timerstamp {server : HttpServer σ} (closing : 0 < server.timeout)
    {s t : Session σ} (connected : s.conn.state = .Connected) {now : Int} {result : WriteResult}
    (answered : server.onMessage now result s = .ok t) : t.conn.timerstamp = now := by
  have closes : server.autoCloseConn = true := decide_eq_true closing
  have noted : (server.setActTime s.conn now).timerstamp = now := by
    rw [HttpServer.setActTime, if_pos closes]
  rw [HttpServer.onMessage, if_pos connected] at answered
  simp only at answered
  split_ifs at answered
  · cases answered
    exact noted
  · obtain ⟨⟨inBuffer, readBuf⟩, -, answered⟩ := bind_eq_ok answered
    obtain ⟨parsed, -, answered⟩ := bind_eq_ok answered
    rw [answer_timerstamp answered]
    exact noted

/-! ## The timer that is pending -/

/-- The later of `onConnection` and the last message. -/
def lastActivity (s : IdleConnection σ) (connected : Int) : Int :=
  max connected (s.lastMessage.getD connected)

/-- The connection has been silent for longer than the timeout since its last message,
or for the timeout since `onConnection` when there was none. -/
def Idle (server : HttpServer σ) (s : IdleConnection σ) : Prop :=
  (∃ message, s.lastMessage = some message ∧ server.timeout < s.now - message) ∨
    s.lastMessage = none ∧
      ∃ connected, s.onConnected = some connected ∧ server.timeout ≤ s.now - connected

/-- What holds in every run of a connection. -/
structure Watched (server : HttpServer σ) (s : IdleConnection σ) : Prop where
  clock : 0 ≤ s.now
  /-- Until the first message `timerstamp_` is zero. -/
  stamp : s.session.conn.timerstamp = s.lastMessage.getD 0
  message : ∀ message, s.lastMessage = some message → message ≤ s.now
  connected : ∀ connected, s.onConnected = some connected → 0 ≤ connected ∧ connected ≤ s.now
  unset : s.onConnected = none → s.pending = []
  set : s.onConnected.isSome → s.session.conn.state = .Connected → s.pending.length = 1
  single : s.pending.length ≤ 1
  earliest : ∀ expiry ∈ s.pending, ∀ connected, s.onConnected = some connected →
    connected + server.timeout ≤ expiry
  latest : ∀ expiry ∈ s.pending, ∀ connected, s.onConnected = some connected →
    expiry ≤ s.lastActivity connected + 2 * server.timeout
  gone : s.alive = false → s.session.conn.state = .Disconected

theorem start_watched (server : HttpServer σ) (state : ConnectionState) (completeHeaders : Bool)
    (world : σ) (now : Nat) : Watched server (start state completeHeaders world now) where
  clock := Int.natCast_nonneg now
  stamp := rfl
  message := by rintro message ⟨⟩
  connected := by rintro connected ⟨⟩
  unset _ := rfl
  set := by rintro ⟨⟩
  single := Nat.zero_le 1
  earliest := by rintro expiry ⟨⟩
  latest := by rintro expiry ⟨⟩
  gone := by rintro ⟨⟩

variable {server : HttpServer σ} {s t : IdleConnection σ}

/-- A connection that a callback leaves `Connected` was `Connected` before. -/
theorem connected_of_evolves {s t : Session σ} (evolves : Evolves s t)
    (connected : t.conn.state = .Connected) : s.conn.state = .Connected := by
  rcases evolves.closes with ⟨-, same⟩ | ⟨-, -, closed⟩
  · exact same ▸ connected
  · rw [closed] at connected
    cases connected

/-- A callback that takes no message and sets no timer. -/
theorem Watched.callback (watched : s.Watched server) (alive : s.alive = true) {session : Session σ}
    (evolves : Evolves s.session session)
    (kept : session.conn.timerstamp = s.session.conn.timerstamp) :
    Watched server { s with session := session } where
  clock := watched.clock
  stamp := kept.trans watched.stamp
  message := watched.message
  connected := watched.connected
  unset := watched.unset
  set called connected := watched.set called (connected_of_evolves evolves connected)
  single := watched.single
  earliest := watched.earliest
  latest := watched.latest
  gone dead := by
    rw [show s.alive = false from dead] at alive
    cases alive

theorem onMessage_watched (closing : 0 < server.timeout) (watched : s.Watched server)
    (alive : s.alive = true) {result : WriteResult} (answered : s.onMessage server result = .ok t) :
    t.Watched server := by
  obtain ⟨session, replied, ended⟩ := bind_eq_ok answered
  have evolves : Evolves s.session session := Evolves.onMessage replied
  cases ended
  by_cases connected : s.session.conn.state = .Connected
  · rw [if_pos connected]
    have noted := onMessage_timerstamp closing connected replied
    refine ⟨watched.clock, noted, ?_, watched.connected, watched.unset, ?_, watched.single,
      watched.earliest, ?_, ?_⟩
    · rintro message ⟨⟩
      exact le_refl s.now
    · intro called still
      exact watched.set called connected
    · -- The last message only moves forward.
      intro expiry inside connectedAt called
      have bound := watched.latest expiry inside connectedAt called
      have order := (watched.connected connectedAt called).2
      have later : s.lastActivity connectedAt ≤ s.now := by
        rw [lastActivity]
        cases last : s.lastMessage with
        | none => exact max_le order order
        | some message => exact max_le order (watched.message message last)
      have moved : s.now ≤ max connectedAt ((some s.now).getD connectedAt) :=
        le_max_right connectedAt s.now
      show expiry ≤ max connectedAt ((some s.now).getD connectedAt) + 2 * server.timeout
      omega
    · intro dead
      rw [show s.alive = false from dead] at alive
      cases alive
  · rw [if_neg connected]
    rw [server.onMessage_of_not_connected connected] at replied
    cases replied
    exact watched

theorem Watched.called (watched : s.Watched server) {expiry : Int} (inside : expiry ∈ s.pending) :
    ∃ connected, s.onConnected = some connected := by
  rcases Option.eq_none_or_eq_some s.onConnected with uncalled | called
  · rw [watched.unset uncalled] at inside
    cases inside
  · exact called

/-- **The timer hits an idle connection only.** -/
theorem Watched.idle (watched : s.Watched server) {expiry : Int} (inside : expiry ∈ s.pending)
    (due : expiry ≤ s.now) (silent : s.session.conn.timerstamp + server.timeout < s.now) :
    s.Idle server := by
  rw [watched.stamp] at silent
  cases last : s.lastMessage with
  | some message =>
      rw [last, Option.getD_some] at silent
      exact Or.inl ⟨message, last, by omega⟩
  | none =>
      obtain ⟨connected, called⟩ := watched.called inside
      have early := watched.earliest expiry inside connected called
      exact Or.inr ⟨last, connected, called, by omega⟩

/-- The timer sets itself anew no later than twice the timeout after the last activity. -/
theorem Watched.anew (watched : s.Watched server) {connected : Int}
    (called : s.onConnected = some connected)
    (recent : ¬ s.session.conn.timerstamp + server.timeout < s.now) :
    s.now + server.timeout ≤ s.lastActivity connected + 2 * server.timeout := by
  have order := (watched.connected connected called).1
  rw [watched.stamp] at recent
  rw [lastActivity]
  cases last : s.lastMessage with
  | some message =>
      rw [last, Option.getD_some] at recent
      have later := le_max_right connected message
      rw [Option.getD_some]
      omega
  | none =>
      rw [last, Option.getD_none] at recent
      rw [Option.getD_none, max_self]
      omega

/-- **One timer**: it closes the connection or sets itself anew, so that it is pending still. -/
theorem handleActiveClose_watched (watched : s.Watched server) {expiry : Int}
    (inside : expiry ∈ s.pending) : (s.handleActiveClose server expiry).Watched server := by
  have taken : s.pending.erase expiry = [] := by
    have length := List.length_erase_of_mem inside
    have single := watched.single
    exact List.length_eq_zero_iff.mp (by omega)
  obtain ⟨connected, called⟩ := watched.called inside
  have order := (watched.connected connected called).2
  rw [handleActiveClose, taken, HttpServer.handleActiveClose]
  split_ifs with alive silent
  · -- It closes the connection.
    refine ⟨watched.clock, (handleClose_timerstamp _).trans watched.stamp, watched.message,
      watched.connected, fun _ => rfl, ?_, Nat.zero_le 1, by rintro expiry ⟨⟩, by rintro expiry ⟨⟩,
      ?_⟩
    · intro _ still
      cases (s.session.conn.handleClose_state).symm.trans still
    · exact fun _ => s.session.conn.handleClose_state
  · -- It sets itself anew.
    refine ⟨watched.clock, watched.stamp, watched.message, watched.connected, ?_, fun _ _ => rfl,
      le_refl 1, ?_, ?_, watched.gone⟩
    · intro unset
      cases called.symm.trans unset
    · intro next inside connectedAt called'
      cases List.mem_singleton.mp inside
      cases called.symm.trans called'
      show connected + server.timeout ≤ s.now + server.timeout
      omega
    · intro next inside connectedAt called'
      cases List.mem_singleton.mp inside
      cases called.symm.trans called'
      exact watched.anew called silent
  · -- The connection is gone, and closed with it.
    refine ⟨watched.clock, watched.stamp, watched.message, watched.connected, fun _ => rfl, ?_,
      Nat.zero_le 1, by rintro expiry ⟨⟩, by rintro expiry ⟨⟩, watched.gone⟩
    intro _ still
    rw [watched.gone (Bool.eq_false_iff.mpr alive)] at still
    cases still

theorem tick_watched (watched : s.Watched server) (elapsed : Nat) :
    Watched server { s with now := s.now + elapsed } := by
  have later : s.now ≤ s.now + elapsed := Int.le_add_of_nonneg_right (Int.natCast_nonneg elapsed)
  refine ⟨watched.clock.trans later, watched.stamp, ?_, ?_, watched.unset, watched.set,
    watched.single, watched.earliest, watched.latest, watched.gone⟩
  · intro message last
    exact (watched.message message last).trans later
  · intro connected called
    obtain ⟨started, past⟩ := watched.connected connected called
    exact ⟨started, past.trans later⟩

/-- The first timer of a connection. -/
theorem onConnection_watched (closing : 0 < server.timeout) (watched : s.Watched server)
    (unset : s.onConnected = none) :
    Watched server
      { s with pending := (s.now + server.timeout) :: s.pending, onConnected := some s.now } := by
  rw [watched.unset unset]
  refine ⟨watched.clock, watched.stamp, watched.message, ?_, by rintro ⟨⟩, fun _ _ => rfl,
    le_refl 1, ?_, ?_, watched.gone⟩
  · rintro connected ⟨⟩
    exact ⟨watched.clock, le_refl s.now⟩
  · rintro expiry inside connected ⟨⟩
    cases List.mem_singleton.mp inside
    exact le_refl _
  · rintro expiry inside connected ⟨⟩
    cases List.mem_singleton.mp inside
    have later : s.now ≤ max s.now (s.lastMessage.getD s.now) := le_max_left _ _
    show s.now + server.timeout ≤ max s.now (s.lastMessage.getD s.now) + 2 * server.timeout
    omega

/-- **Step lemma**. -/
theorem step_watched (closing : 0 < server.timeout) (watched : s.Watched server)
    {action : IdleAction} (stepped : s.step server action = some (.ok t)) : t.Watched server := by
  cases action with
  | tick elapsed =>
      cases stepped
      exact tick_watched watched elapsed
  | onConnection =>
      have closes : server.autoCloseConn = true := decide_eq_true closing
      simp only [step, closes, if_true] at stepped
      split_ifs at stepped with first
      cases stepped
      exact onConnection_watched closing watched first.1
  | onMessage result =>
      simp only [step] at stepped
      split_ifs at stepped with alive
      exact onMessage_watched closing watched alive (Option.some.inj stepped)
  | handleActiveClose expiry =>
      simp only [step] at stepped
      split_ifs at stepped with due
      cases stepped
      exact handleActiveClose_watched watched due.1
  | read results =>
      simp only [step] at stepped
      split_ifs at stepped with alive
      obtain ⟨conn, read, ended⟩ := bind_eq_ok (Option.some.inj stepped)
      cases ended
      exact watched.callback alive (Evolves.readNonBlocking read) (readNonBlocking_timerstamp read)
  | handleWrite result =>
      simp only [step] at stepped
      split_ifs at stepped with alive
      obtain ⟨conn, wrote, ended⟩ := bind_eq_ok (Option.some.inj stepped)
      cases ended
      exact watched.callback alive (Evolves.handleWrite wrote) (handleWrite_timerstamp wrote)
  | handleClose =>
      simp only [step] at stepped
      split_ifs at stepped with alive
      cases stepped
      exact watched.callback alive (Evolves.handleClose s.session) (handleClose_timerstamp _)
  | destroy =>
      simp only [step] at stepped
      split_ifs at stepped with closed
      cases stepped
      exact ⟨watched.clock, watched.stamp, watched.message, watched.connected, watched.unset,
        watched.set, watched.single, watched.earliest, watched.latest, fun _ => closed⟩

/-- **Run lemma**. -/
theorem reaches_watched (closing : 0 < server.timeout) {state : ConnectionState}
    {completeHeaders : Bool} {world : σ} {now : Nat}
    (reaches : Reaches (step server) (start state completeHeaders world now) s) :
    s.Watched server :=
  reaches.invariant (fun _ _ _ watched stepped => step_watched closing watched stepped)
    (start_watched server state completeHeaders world now)

/-- **Idle closing never hits an active connection and never forgets one**: in every run
the timer closes an idle connection only; a connection that is `Connected` has exactly one
timer pending from `onConnection` on, and none has two; and the timer that is pending runs
out within twice the timeout of the last activity. -/
theorem idle_closing_sound (closing : 0 < server.timeout) {state : ConnectionState}
    {completeHeaders : Bool} {world : σ} {now : Nat}
    (reaches : Reaches (step server) (start state completeHeaders world now) s) :
    (∀ expiry t, s.step server (.handleActiveClose expiry) = some (.ok t) →
      s.session.conn.state = .Connected → t.session.conn.state ≠ .Connected → s.Idle server) ∧
      (s.onConnected.isSome → s.session.conn.state = .Connected → s.pending.length = 1) ∧
      s.pending.length ≤ 1 ∧
      ∀ expiry ∈ s.pending, ∃ connected, s.onConnected = some connected ∧
        expiry ≤ s.lastActivity connected + 2 * server.timeout := by
  have watched := reaches_watched closing reaches
  refine ⟨?_, watched.set, watched.single, ?_⟩
  · intro expiry t stepped connected shut
    simp only [step] at stepped
    split_ifs at stepped with due
    cases stepped
    rw [handleActiveClose, HttpServer.handleActiveClose] at shut
    split_ifs at shut with alive silent
    · exact watched.idle due.1 due.2 silent
    · exact absurd connected shut
    · exact absurd connected shut
  · intro expiry inside
    obtain ⟨connected, called⟩ := watched.called inside
    exact ⟨connected, called, watched.latest expiry inside connected called⟩

/-- A connection that has sent nothing, when its timer is due. -/
def silent : IdleConnection Unit :=
  { start .Connected false () 1 with
    now := 60000001
    pending := [60000001]
    onConnected := some 1 }

/-- The timer of a silent connection finds it idle, and is the only one. -/
theorem idle_closing_sound_silent :
    (silent.handleActiveClose (HttpServer.construct 60000000) 60000001).session.conn.state =
        .Disconected ∧
      silent.Idle (HttpServer.construct 60000000) ∧ silent.pending.length = 1 := by
  have performed : perform (step (HttpServer.construct 60000000)) (start .Connected false () 1)
      [.onConnection, .tick 60000000] = some silent := rfl
  have sound := idle_closing_sound (by decide) (reaches_of_perform performed)
  have fired : silent.step (HttpServer.construct 60000000) (.handleActiveClose 60000001) =
      some (.ok (silent.handleActiveClose (HttpServer.construct 60000000) 60000001)) := rfl
  have closed : (silent.handleActiveClose (HttpServer.construct 60000000)
      60000001).session.conn.state = .Disconected := rfl
  exact ⟨closed, sound.1 60000001 _ fired rfl (by rw [closed]; decide), sound.2.1 rfl rfl⟩

end IdleConnection

end CppFileServer.Http
