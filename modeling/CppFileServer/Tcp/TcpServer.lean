/-
# Tcp.TcpServer -- connections across the loops

The main loop accepts connections and hands each to a loop.  A connection is
closed in three hops: `HandleClose` on its own loop, `HandleCloseInLoop` on the
main loop, which takes it out of `connectionsMap_`, and `ConnectionDestructor`
again on its own.  It is destroyed, and its descriptor closed, when the last
`shared_ptr` to it is gone; `Held` lists where these are.

Every loop is a thread: a step is taken by one of them, in any order.  A step is
short enough for two of them to commute unless they touch a queue or the map.
Descriptors are reused, so connections have an index of their own; `stage` and
`destructions` are records that the source does not keep.
-/
import CppFileServer.Http.HttpServer
import CppFileServer.Tcp.EventLoop
import Mathlib.Data.Fintype.Basic

namespace CppFileServer.Tcp

set_option autoImplicit false

open CppFileServer.Cpp CppFileServer.Http CppFileServer.Theory

def EPOLLERR : BitVec 32 := 0x008

def EPOLLHUP : BitVec 32 := 0x010

def EPOLLRDHUP : BitVec 32 := 0x2000

/-- What a callback of a channel is about to do. -/
inductive Ready
  /-- `AcceptConnection`, of the listening channel. -/
  | accept
  /-- The rest of `HandleNewConnection`, which has constructed this connection. -/
  | establishing (conn : Nat)
  /-- `HandleEvent` of the channel of this connection. -/
  | connection (conn : Nat) (events : BitVec 32)
  /-- The call of `on_close_` of this connection. -/
  | closing (conn : Nat)
  /-- `HandleRead` of the timer queue. -/
  | timers
  deriving DecidableEq

/-- What is queued; each binds a `shared_ptr` to the connection. -/
inductive Task
  | handleCloseInLoop (conn : Nat)
  | connectionDestructor (conn : Nat)
  deriving DecidableEq

def Task.conn : Task → Nat
  | handleCloseInLoop conn => conn
  | connectionDestructor conn => conn

/-- How far the life of a connection has come. -/
inductive Stage
  /-- Constructed. -/
  | fresh
  /-- In the map, `HandleClose` not called. -/
  | established
  /-- `on_close_` is being called. -/
  | closing
  /-- `HandleCloseInLoop` is queued. -/
  | requested
  /-- Out of the map, `ConnectionDestructor` queued. -/
  | erased
  /-- `ConnectionDestructor` has run. -/
  | destructed
  deriving DecidableEq

structure Connection (σ L : Type) where
  loop : L
  fd : Nat
  session : Session σ
  /-- A timer of the loop has a `weak_ptr` to the connection. -/
  timer : Bool := false
  stage : Stage := .fresh
  /-- How often `ConnectionDestructor` has run. -/
  destructions : Nat := 0

structure TcpServer (σ L : Type) where
  loop : L → EventLoop Ready Task := fun _ => {}
  /-- `next_` of the thread pool. -/
  next : Nat := 0
  connection : Nat → Option (Connection σ L) := fun _ => none
  /-- How many connections have been constructed. -/
  created : Nat := 0
  connectionsMap : Nat → Option Nat := fun _ => none

/-- Work that a loop has not begun. -/
inductive Work
  | establishing (conn : Nat)
  | closing (conn : Nat)
  | task (f : Task)
  deriving DecidableEq

def Work.conn : Work → Nat
  | establishing conn => conn
  | closing conn => conn
  | task f => f.conn

/-- A callback that holds a `shared_ptr`: a local variable of `HandleNewConnection`, or the
guard of the callback that calls `on_close_`. -/
def Active.work : Active Ready → Option Work
  | .channel (.establishing conn) => some (.establishing conn)
  | .channel (.closing conn) => some (.closing conn)
  | _ => none

namespace EventLoop

variable (loop : EventLoop Ready Task)

def work : List Work :=
  loop.ready.filterMap Active.work ++ (loop.round ++ loop.toDoList).map Work.task

/-- The connections a loop holds a `shared_ptr` to. -/
def held : List Nat :=
  (loop.ready.filterMap Active.work).map Work.conn ++
    (loop.functors ++ loop.toDoList).map Task.conn

end EventLoop

namespace TcpServer

variable {σ L : Type} [DecidableEq L]

/-! ## References -/

/-- Some `shared_ptr` to the connection is left, so that it is not destroyed. -/
def Held (s : TcpServer σ L) (c : Nat) : Prop :=
  (∃ k, s.connection c = some k ∧ s.connectionsMap k.fd = some c) ∨ ∃ l, c ∈ (s.loop l).held

instance [Fintype L] (s : TcpServer σ L) (c : Nat) : Decidable (s.Held c) := by
  unfold Held
  have : Decidable (∃ k, s.connection c = some k ∧ s.connectionsMap k.fd = some c) :=
    match found : s.connection c with
    | none => .isFalse (by simp)
    | some k => decidable_of_iff (s.connectionsMap k.fd = some c) (by simp)
  infer_instance

/-- The descriptor belongs to a connection that is not destroyed. -/
def fdOpen [Fintype L] (s : TcpServer σ L) (fd : Nat) : Bool :=
  (List.range s.created).any fun c =>
    match s.connection c with
    | some k => k.fd == fd && decide (s.Held c)
    | none => false

def setLoop (s : TcpServer σ L) (l : L) (loop : EventLoop Ready Task) : TcpServer σ L :=
  { s with loop := Function.update s.loop l loop }

def setConnection (s : TcpServer σ L) (c : Nat) (k : Connection σ L) : TcpServer σ L :=
  { s with connection := Function.update s.connection c (some k) }

/-- `loop->QueueOneFunc(f)`, by the thread of the loop `caller`. -/
def queueOneFunc (s : TcpServer σ L) (caller l : L) (f : Task) : Result (TcpServer σ L) := do
  let loop ← (s.loop l).queueOneFunc (caller = l) f
  pure (s.setLoop l loop)

variable (server : HttpServer σ) (main : L) (loops : List L)

/-- `GetNextLoop`, with the new `next_`. -/
def getNextLoop (next : Nat) : L × Nat :=
  if loops.isEmpty then (main, next)
  else (loops[next]?.getD main, (next + 1) % loops.length)

/-! ## The functions of the server -/

/-- `HandleNewConnection`, to the construction of the connection; the callbacks are set
before any event can come. -/
def newConnection (s : TcpServer σ L) (fd : Nat) (state : ConnectionState)
    (completeHeaders : Bool) (world : σ) : TcpServer σ L :=
  let (subReactor, next) := getNextLoop main loops s.next
  let conn : Connection σ L :=
    { loop := subReactor
      fd := fd
      session := { conn := TcpConnection.construct state completeHeaders, world := world } }
  { s with
    next := next
    connection := Function.update s.connection s.created (some conn)
    created := s.created + 1 }

/-- The rest of `HandleNewConnection`, with `onConnection`. -/
def establish (s : TcpServer σ L) (c : Nat) (k : Connection σ L) : TcpServer σ L :=
  { s with
    connectionsMap := Function.update s.connectionsMap k.fd (some c)
    connection := Function.update s.connection c (some { k with
      session := { k.session with conn := k.session.conn.connectionEstablished }
      timer := server.autoCloseConn
      stage := .established }) }

def handleCloseInLoop (s : TcpServer σ L) (c : Nat) : Result (TcpServer σ L) :=
  match s.connection c with
  | none => .error .undefined
  | some k =>
      if s.connectionsMap k.fd = none then .error .assertion
      else
        let s := { s with connectionsMap := Function.update s.connectionsMap k.fd none }
        let s := s.setConnection c { k with stage := .erased }
        s.queueOneFunc main k.loop (.connectionDestructor c)

/-- `HandleClose`, called on the loop `l`. -/
def handleClose (s : TcpServer σ L) (l : L) (c : Nat) : Result (TcpServer σ L) :=
  match s.connection c with
  | none => .error .undefined
  | some k =>
      if l = main then s.handleCloseInLoop main c
      else (s.setConnection c { k with stage := .requested }).queueOneFunc l main
        (.handleCloseInLoop c)

def connectionDestructor (s : TcpServer σ L) (c : Nat) : Result (TcpServer σ L) :=
  match s.connection c with
  | none => .error .undefined
  | some k =>
      let conn := { k.session.conn with channel := k.session.conn.channel.delete }
      .ok (s.setConnection c { k with
        session := { k.session with conn := conn }
        stage := .destructed
        destructions := k.destructions + 1 })

def runTask (s : TcpServer σ L) : Task → Result (TcpServer σ L)
  | .handleCloseInLoop c => s.handleCloseInLoop main c
  | .connectionDestructor c => s.connectionDestructor c

end TcpServer

/-! ## Events of a connection -/

/-- What the system calls of a callback answer, and the state behind `on_request_`, which
other connections change too. -/
structure Inputs (σ : Type) where
  world : σ
  results : List ReadResult
  now : Int
  result : WriteResult
  result' : WriteResult

section Callbacks

variable {σ : Type} (server : HttpServer σ) (s : Session σ) (events : BitVec 32) (inputs : Inputs σ)

def readCallback : Result (Session σ) :=
  if events &&& (EPOLLIN ||| EPOLLPRI ||| EPOLLRDHUP) ≠ 0 then
    server.handleMessage s inputs.results inputs.now inputs.result
  else .ok s

def writeCallback : Result (Session σ) :=
  if events &&& EPOLLOUT ≠ 0 then do
    let conn ← s.conn.handleWrite inputs.result'
    pure { s with conn := conn }
  else .ok s

/-- `HandleEventWithGuard`. -/
def handleEvent : Result (Session σ) := do
  let s ← readCallback server s events inputs
  writeCallback s events inputs

end Callbacks

/-- The events that lead to a callback. -/
def callbackEvents : BitVec 32 := EPOLLIN ||| EPOLLPRI ||| EPOLLRDHUP ||| EPOLLOUT

inductive ServerAction (σ L : Type)
  | poll (l : L) (ready : List (Active Ready))
  | accept (fd : Nat) (state : ConnectionState) (completeHeaders : Bool) (world : σ)
  | establish
  | event (l : L) (inputs : Inputs σ)
  | timer (l : L) (conn : Nat) (now : Int)
  | close (l : L)
  | proceed (l : L)

namespace TcpServer

variable {σ L : Type} [DecidableEq L] [Fintype L]

/-- Epoll may report this channel on the loop `l`. -/
def reports (main : L) (s : TcpServer σ L) (l : L) : Active Ready → Bool
  | .wakeup => true
  | .channel .accept => l = main
  | .channel .timers => true
  | .channel (.connection c events) =>
      match s.connection c with
      | none => false
      | some k =>
          match k.session.conn.channel.registered with
          | none => false
          | some wanted => k.loop = l ∧ events &&& ~~~(wanted ||| EPOLLERR ||| EPOLLHUP) = 0
  | _ => false

/-- The session of a connection after a callback.  If the callback has called `on_close_`,
that call is what the loop does next. -/
def settle (s : TcpServer σ L) (l : L) (c : Nat) (k : Connection σ L) (session : Session σ)
    (rest : List (Active Ready)) : TcpServer σ L :=
  if k.session.conn.closeRequests < session.conn.closeRequests then
    (s.setConnection c { k with session := session, stage := .closing }).setLoop l
      { s.loop l with phase := .handling (.channel (.closing c) :: rest) }
  else
    (s.setConnection c { k with session := session }).setLoop l
      { s.loop l with phase := .handling rest }

variable (server : HttpServer σ) (main : L) (loops : List L)

def step (s : TcpServer σ L) : ServerAction σ L → Option (Result (TcpServer σ L))
  | .poll l ready =>
      if ready.all (s.reports main l) then
        ((s.loop l).poll ready).map fun loop => .ok (s.setLoop l loop)
      else none
  | .accept fd state completeHeaders world =>
      match (s.loop main).phase with
      | .handling (.channel .accept :: rest) =>
          if s.fdOpen fd then none
          else some (.ok ((s.newConnection main loops fd state completeHeaders world).setLoop main
            { s.loop main with phase := .handling (.channel (.establishing s.created) :: rest) }))
      | _ => none
  | .establish =>
      match (s.loop main).phase with
      | .handling (.channel (.establishing c) :: rest) =>
          (s.connection c).map fun k => .ok ((s.establish server c k).setLoop main
            { s.loop main with phase := .handling rest })
      | _ => none
  | .event l inputs =>
      match (s.loop l).phase with
      | .handling (.channel (.connection c events) :: rest) =>
          match s.connection c with
          | none => some (.error .undefined)
          | some k =>
              if s.Held c then some do
                let session ← handleEvent server { k.session with world := inputs.world } events inputs
                pure (s.settle l c k session rest)
              else some (.error .undefined)
      | _ => none
  | .timer l c now =>
      match (s.loop l).phase, s.connection c with
      | .handling (.channel .timers :: rest), some k =>
          if k.timer ∧ k.loop = l then
            if s.Held c then
              let again := !decide (k.session.conn.timerstamp + server.timeout < now)
              some (.ok (s.settle l c { k with timer := again } (server.handleActiveClose k.session now)
                (.channel .timers :: rest)))
            else some (.ok (s.setConnection c { k with timer := false }))
          else none
      | _, _ => none
  | .close l =>
      match (s.loop l).phase with
      | .handling (.channel (.closing c) :: rest) => some
          ((s.setLoop l { s.loop l with phase := .handling rest }).handleClose main l c)
      | _ => none
  | .proceed l =>
      match (s.loop l).phase with
      | .handling (.channel .timers :: _) | .handling (.wakeup :: _) | .handling []
      | .swapping | .running _ [] | .releasing _ =>
          (s.loop l).proceed.map fun proceeded => (do
            let loop ← proceeded
            pure (s.setLoop l loop))
      | .running _ (f :: _) =>
          (s.loop l).proceed.map fun proceeded => (do
            let loop ← proceeded
            (s.setLoop l loop).runTask main f)
      | _ => none

/-! ## What a step does -/

/-- The steps that return, by what is done in them. -/
inductive Steps (s : TcpServer σ L) : ServerAction σ L → TcpServer σ L → Prop
  | poll {l : L} {ready : List (Active Ready)} {loop : EventLoop Ready Task}
      (reported : ready.all (s.reports main l) = true)
      (polled : (s.loop l).poll ready = some loop) : Steps s (.poll l ready) (s.setLoop l loop)
  | accept {fd : Nat} {state : ConnectionState} {completeHeaders : Bool} {world : σ}
      {rest : List (Active Ready)}
      (handling : (s.loop main).phase = .handling (.channel .accept :: rest))
      (notOpen : s.fdOpen fd = false) :
      Steps s (.accept fd state completeHeaders world)
        ((s.newConnection main loops fd state completeHeaders world).setLoop main
          { s.loop main with phase := .handling (.channel (.establishing s.created) :: rest) })
  | establish {c : Nat} {k : Connection σ L} {rest : List (Active Ready)}
      (handling : (s.loop main).phase = .handling (.channel (.establishing c) :: rest))
      (found : s.connection c = some k) :
      Steps s .establish ((s.establish server c k).setLoop main
        { s.loop main with phase := .handling rest })
  | event {l : L} {inputs : Inputs σ} {c : Nat} {events : BitVec 32} {k : Connection σ L}
      {session : Session σ} {rest : List (Active Ready)}
      (handling : (s.loop l).phase = .handling (.channel (.connection c events) :: rest))
      (found : s.connection c = some k) (held : s.Held c)
      (handled : handleEvent server { k.session with world := inputs.world } events inputs =
        .ok session) : Steps s (.event l inputs) (s.settle l c k session rest)
  | timer {l : L} {c : Nat} {now : Int} {k : Connection σ L} {rest : List (Active Ready)}
      (handling : (s.loop l).phase = .handling (.channel .timers :: rest))
      (found : s.connection c = some k) (held : s.Held c) (set : k.timer = true) (own : k.loop = l) :
      Steps s (.timer l c now) (s.settle l c
        { k with timer := !decide (k.session.conn.timerstamp + server.timeout < now) }
        (server.handleActiveClose k.session now) (.channel .timers :: rest))
  | expired {l : L} {c : Nat} {now : Int} {k : Connection σ L} (found : s.connection c = some k) :
      Steps s (.timer l c now) (s.setConnection c { k with timer := false })
  | close {l : L} {c : Nat} {rest : List (Active Ready)} {t : TcpServer σ L}
      (handling : (s.loop l).phase = .handling (.channel (.closing c) :: rest))
      (closed : (s.setLoop l { s.loop l with phase := .handling rest }).handleClose main l c = .ok t) :
      Steps s (.close l) t
  | proceed {l : L} {loop : EventLoop Ready Task} (proceeded : (s.loop l).proceed = some (.ok loop))
      (noTask : ∀ done f rest, (s.loop l).phase ≠ .running done (f :: rest))
      (noCallback : ∀ active rest, (s.loop l).phase = .handling (active :: rest) →
        Active.work active = none) : Steps s (.proceed l) (s.setLoop l loop)
  | task {l : L} {f : Task} {done rest : List Task} {loop : EventLoop Ready Task}
      {t : TcpServer σ L} (running : (s.loop l).phase = .running done (f :: rest))
      (proceeded : (s.loop l).proceed = some (.ok loop))
      (ran : (s.setLoop l loop).runTask main f = .ok t) : Steps s (.proceed l) t

variable {server main loops}

theorem steps_of_proceed {s t : TcpServer σ L} {l : L}
    (stepped : s.step server main loops (.proceed l) = some (.ok t)) :
    Steps server main loops s (.proceed l) t := by
  have goes_on (noTask : ∀ done f rest, (s.loop l).phase ≠ .running done (f :: rest))
      (noCallback : ∀ active rest, (s.loop l).phase = .handling (active :: rest) →
        Active.work active = none)
      (went : ((s.loop l).proceed.map fun proceeded => (do
        let loop ← proceeded
        pure (s.setLoop l loop))) = some (.ok t)) : Steps server main loops s (.proceed l) t := by
    obtain ⟨outcome, proceeded, ended⟩ := Option.map_eq_some_iff.mp went
    obtain ⟨loop, rfl, same⟩ := bind_eq_ok ended
    cases same
    exact .proceed proceeded noTask noCallback
  simp only [step] at stepped
  split at stepped
  case h_7 done f rest running =>
      obtain ⟨outcome, proceeded, ended⟩ := Option.map_eq_some_iff.mp stepped
      obtain ⟨loop, rfl, ran⟩ := bind_eq_ok ended
      exact .task running proceeded ran
  case h_8 => cases stepped
  all_goals
    rename_i phase
    refine goes_on ?_ ?_ stepped
    · simp [phase]
    · rintro active rest handling
      rw [phase] at handling
      cases handling
      try rfl

theorem steps_of_step {s t : TcpServer σ L} {action : ServerAction σ L}
    (stepped : s.step server main loops action = some (.ok t)) :
    Steps server main loops s action t := by
  cases action with
  | poll l ready =>
      simp only [step] at stepped
      split_ifs at stepped with reported
      obtain ⟨loop, polled, same⟩ := Option.map_eq_some_iff.mp stepped
      cases same
      exact .poll reported polled
  | accept fd state completeHeaders world =>
      simp only [step] at stepped
      split at stepped
      · rename_i rest handling
        split_ifs at stepped with isOpen
        cases stepped
        exact .accept handling (by simpa using isOpen)
      · cases stepped
  | establish =>
      simp only [step] at stepped
      split at stepped
      · rename_i c rest handling
        obtain ⟨k, found, same⟩ := Option.map_eq_some_iff.mp stepped
        cases same
        exact .establish handling found
      · cases stepped
  | event l inputs =>
      simp only [step] at stepped
      split at stepped
      · rename_i c events rest handling
        split at stepped
        · cases stepped
        · rename_i k found
          split_ifs at stepped with held
          · obtain ⟨session, handled, settled⟩ := bind_eq_ok (Option.some.inj stepped)
            cases settled
            exact .event handling found held handled
          · cases stepped
      · cases stepped
  | timer l c now =>
      simp only [step] at stepped
      split at stepped
      · rename_i rest k handling found
        split_ifs at stepped with set held
        · cases stepped
          exact .timer handling found held set.1 set.2
        · cases stepped
          exact .expired found
      · cases stepped
  | close l =>
      simp only [step] at stepped
      split at stepped
      · rename_i c rest handling
        exact .close handling (Option.some.inj stepped)
      · cases stepped
  | proceed l =>
      exact steps_of_proceed stepped

end TcpServer

end CppFileServer.Tcp
