/-
# Http.Unsent -- bytes that wait for the socket

A loop tries a `write` once, when it sends.  What the socket did not take is written when
`epoll_wait` reports the descriptor writable, and it does so only for a channel that is
registered for `EPOLLOUT`.  Every live connection that has not written all of its messages is
(`owed_watched`), in every run without a socket error or a message over `INT_MAX`.
-/
import CppFileServer.Http.Exchange
import CppFileServer.Tcp.WriteInterest

namespace CppFileServer.Http

set_option autoImplicit false

open CppFileServer.Cpp CppFileServer.Tcp CppFileServer.Theory CppFileServer.Utils

section Callbacks

variable {σ : Type} {server : HttpServer σ} {s t : Session σ}

/-- Only the send buffer and the channel matter. -/
theorem PendingWatched.congr {c c' : TcpConnection} (watched : c.PendingWatched)
    (sendBuf : c'.sendBuf = c.sendBuf) (channel : c'.channel = c.channel) : c'.PendingWatched := by
  unfold TcpConnection.PendingWatched
  rw [sendBuf, channel]
  exact watched

theorem handleClose_watched {c : TcpConnection} (watched : c.PendingWatched) :
    c.handleClose.PendingWatched := by
  unfold TcpConnection.handleClose
  split_ifs
  · exact PendingWatched.congr watched rfl rfl
  · exact watched

theorem onRequest_watched {req : HttpRequest} {result : WriteResult}
    (answered : server.onRequest s req result = .ok t) : t.conn.PendingWatched := by
  obtain ⟨conn, sends, ended⟩ := bind_eq_ok answered
  have watched := TcpConnection.send_pendingWatched sends
  cases ended
  split_ifs
  · exact handleClose_watched watched
  · exact watched

theorem answer_watched (watched : s.conn.PendingWatched) {result : WriteResult}
    {parsed : Bool × HttpContext} (answered : server.answer s result parsed = .ok t) :
    t.conn.PendingWatched := by
  obtain ⟨ok, context⟩ := parsed
  cases ok with
  | false =>
      obtain ⟨conn, sends, ended⟩ := bind_eq_ok answered
      cases ended
      exact handleClose_watched (TcpConnection.send_pendingWatched sends)
  | true =>
      simp only [HttpServer.answer] at answered
      split_ifs at answered
      · obtain ⟨u, requested, ended⟩ := bind_eq_ok answered
        cases ended
        exact PendingWatched.congr (onRequest_watched requested) rfl rfl
      · cases answered
        exact PendingWatched.congr watched rfl rfl

theorem onMessage_watched (watched : s.conn.PendingWatched) {now : Int} {result : WriteResult}
    (answered : server.onMessage now result s = .ok t) : t.conn.PendingWatched := by
  have stamped : (server.setActTime s.conn now).PendingWatched := by
    unfold HttpServer.setActTime
    split_ifs
    · exact PendingWatched.congr watched rfl rfl
    · exact watched
  simp only [HttpServer.onMessage] at answered
  split_ifs at answered
  · cases answered
    exact stamped
  · obtain ⟨taken, -, answered⟩ := bind_eq_ok answered
    obtain ⟨parsed, -, answered⟩ := bind_eq_ok answered
    exact answer_watched (PendingWatched.congr stamped rfl rfl) answered
  · cases answered
    exact watched

theorem handleMessage_watched (watched : s.conn.PendingWatched) {results : List ReadResult}
    {now : Int} {result : WriteResult}
    (handled : server.handleMessage s results now result = .ok t) : t.conn.PendingWatched := by
  obtain ⟨conn, read, answered⟩ := bind_eq_ok handled
  have filled : conn.PendingWatched := by
    obtain ⟨b, rfl | rfl⟩ := TcpConnection.readNonBlocking_frame read
    · exact PendingWatched.congr watched rfl rfl
    · exact handleClose_watched (PendingWatched.congr watched rfl rfl)
  exact onMessage_watched (s := { s with conn := conn }) filled answered

end Callbacks

section Sessions

variable {σ : Type} {server : HttpServer σ} {s t : Session σ}

theorem bounded_of_valid {b : Buffer} (valid : b.Valid) : Bounded b := by
  obtain ⟨⟨front, order, inside⟩, small⟩ := valid
  exact ⟨front.trans order, order, inside, small⟩

/-- A session whose unsent bytes are accounted for and watched. -/
structure Session.Watchful (s : Session σ) : Prop where
  accounted : s.conn.Accounted
  watched : s.conn.PendingWatched

theorem watchful_of_established {memory : Bool → Prop} (established : Established memory s) :
    s.Watchful := by
  refine ⟨accounted_of_established established, ?_⟩
  obtain ⟨state, completeHeaders, world, -, rfl⟩ := established
  intro pending
  exact absurd pending (lt_irrefl _)

/-- Until the channel is deleted, a step without a socket error keeps what is unsent watched. -/
theorem watchful_step (watchful : s.Watchful) {action : SessionAction σ}
    (present : action ≠ .connectionDestructor) (clean : action.Answers CleanWrites)
    (stepped : sessionStep server s action = .ok t) : t.Watchful := by
  refine ⟨accounted_step watchful.accounted clean stepped, ?_⟩
  cases action with
  | connectionDestructor => exact absurd rfl present
  | activeClose now =>
      cases stepped
      unfold HttpServer.handleActiveClose
      split_ifs
      · exact handleClose_watched watchful.watched
      · exact watchful.watched
  | event events inputs =>
      obtain ⟨u, read, handled⟩ := bind_eq_ok stepped
      have first : u.Watchful := by
        unfold readCallback at read
        split_ifs at read
        · exact ⟨Life.handleMessage_accounted (s := { s with world := inputs.world })
            watchful.accounted clean.1 read,
            handleMessage_watched (s := { s with world := inputs.world }) watchful.watched read⟩
        · cases read
          exact ⟨watchful.accounted, watchful.watched⟩
      unfold writeCallback at handled
      split_ifs at handled
      · obtain ⟨conn, wrote, handled⟩ := bind_eq_ok handled
        cases handled
        have kept := TcpConnection.call_pendingWatched_iff first.watched
          (bounded_of_valid first.accounted.valid) (.handleWrite inputs.result')
        exact kept.mpr (Or.inl clean.2) conn wrote
      · cases handled
        exact first.watched

end Sessions

section Runs

variable {σ L : Type} [DecidableEq L] [Fintype L] {server : HttpServer σ} {main : L}
  {loops : List L} {s : TcpServer σ L} {actions : List (ServerAction σ L)} {c : Nat}
  {k : Connection σ L}

/-- **Nothing owed is forgotten**: in every run without a socket error, a live connection that
sent no message over `INT_MAX` and has not written all of them is registered for `EPOLLOUT`,
whatever the loops and the other connections do. -/
theorem owed_watched
    (performed : perform (TcpServer.step server main loops) {} actions = some s)
    (clean : ∀ action ∈ actions, action.Answers CleanWrites fun _ => True)
    (found : s.connection c = some k) (live : k.Live) (uncut : k.session.conn.Uncut)
    (owed : k.session.conn.wire ≠ k.session.conn.messages.flatten) :
    k.session.conn.channel.Watched := by
  have watchful : k.session.Watchful :=
    TcpServer.live_invariant (fun _ => watchful_of_established)
      (fun _ _ _ before => watchful_step before) performed clean c k found live
  have conserved : k.session.conn.sent = k.session.conn.wire ++ k.session.conn.sendBuf.readable :=
    watchful.accounted.whole uncut
  apply watchful.watched
  by_contra drained
  have length := watchful.accounted.valid.readable_length
  have empty : k.session.conn.sendBuf.readable = [] := List.eq_nil_of_length_eq_zero (by omega)
  rw [empty, List.append_nil] at conserved
  exact owed conserved.symm

end Runs

/-- Five bytes of the answer are written, and the connection waits for the socket. -/
theorem owed_watched_rest :
    ∃ s k, perform (TcpServer.step (HttpServer.construct 0) false [true]) {}
        (oneEventRun (ascii "GET / HTTP/1.1\r\n\r\n")) = some s ∧
      s.connection 0 = some k ∧ k.session.conn.wire = ascii "HTTP/" ∧
      k.session.conn.channel.Watched := by
  have performed : ((perform (TcpServer.step (HttpServer.construct 0) false [true]) {}
      (oneEventRun (ascii "GET / HTTP/1.1\r\n\r\n"))).any fun s =>
        (s.connection 0).any fun k => k.stage ≠ .fresh ∧ k.stage ≠ .destructed ∧
          k.session.conn.wire = ascii "HTTP/" ∧
          (k.session.conn.messages.all fun msg => msg.length < 2 ^ 31) = true ∧
          k.session.conn.wire ≠ k.session.conn.messages.flatten) = true := by
    decide +kernel
  obtain ⟨s, performed, known⟩ := (Option.any_eq_true _ _).mp performed
  obtain ⟨k, found, outcome⟩ := (Option.any_eq_true _ _).mp known
  obtain ⟨begun, present, wire, uncut, owed⟩ := of_decide_eq_true outcome
  have uncut : k.session.conn.Uncut := by
    intro msg inside
    exact of_decide_eq_true (List.all_eq_true.mp uncut msg inside)
  exact ⟨s, k, performed, found, wire, owed_watched performed (oneEventRun_clean _) found
    ⟨begun, present⟩ uncut owed⟩

end CppFileServer.Http
