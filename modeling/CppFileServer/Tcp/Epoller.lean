/-
# Tcp.Epoller -- the interest set of the kernel

`Epoller` asks the kernel for ADD, MOD or DEL and notes in `in_epoll_` that a channel
has been added.  `EpollCtl` is such a call, and the kernel carries it out when its
precondition holds.  `Polled` is a channel with the calls made for it and with what was
last asked of it; the three flags that say this are records, like `calls`.

The calls are always the right ones, and of reading and writing the kernel is told what
was last asked (`follows_of_step`).  `EPOLLET` is the highest bit of an `int`, which a
`short` does not have: it is lost before the kernel is told.
-/
import CppFileServer.Cpp.Basic
import CppFileServer.Tcp.Channel
import CppFileServer.Theory.Machine

namespace CppFileServer.Tcp

set_option autoImplicit false

open CppFileServer.Cpp CppFileServer.Theory

/-! ## epoll_ctl -/

inductive EpollCtl
  | add (events : BitVec 32)
  | mod (events : BitVec 32)
  | del

/-- The entry of the descriptor after the call, when its precondition holds. -/
def epollCtl (registered : Option (BitVec 32)) : EpollCtl → Option (Option (BitVec 32))
  | .add events => if registered.isSome then none else some (some events)
  | .mod events => if registered.isSome then some (some events) else none
  | .del => if registered.isSome then some none else none

/-- The call is made for a descriptor that is registered, or is not, as it has to be. -/
def EpollCtl.Apt : EpollCtl → Bool → Prop
  | .add _, registered => registered = false
  | .mod _, registered => registered = true
  | .del, registered => registered = true

/-! ## Channels and their loop -/

structure Polled where
  channel : Channel := {}
  /-- The calls of `epoll_ctl`, each with whether the descriptor was registered. -/
  calls : List (EpollCtl × Bool) := []
  /-- Reading was last enabled. -/
  reading : Bool := false
  /-- Writing was last enabled. -/
  writing : Bool := false
  /-- `EnableET` has been called. -/
  edge : Bool := false

inductive ChannelOp
  | enableRead
  | disableRead
  | enableWrite
  | disableWrite
  | enableET
  | deleteChannel
  deriving DecidableEq

namespace Polled

/-- A call of `epoll_ctl`; one that fails leaves the entry as it is. -/
def issue (s : Polled) (call : EpollCtl) : Polled where
  channel := { s.channel with
    registered := (epollCtl s.channel.registered call).getD s.channel.registered }
  calls := s.calls ++ [(call, s.channel.registered.isSome)]
  reading := s.reading
  writing := s.writing
  edge := s.edge

def setInEpoll (s : Polled) (inEpoll : Bool) : Polled :=
  { s with channel := { s.channel with inEpoll := inEpoll } }

def updateChannel (s : Polled) : Polled :=
  let events := s.channel.listenEvents.signExtend 32
  if s.channel.inEpoll then s.issue (.mod events)
  else (s.issue (.add events)).setInEpoll true

def deleteChannel (s : Polled) : Polled := (s.issue .del).setInEpoll false

/-- `listen_events_ |= events`, computed in 32 bits and cut to the `short`. -/
def listen (s : Polled) (events : BitVec 32) : Polled :=
  { s with channel := { s.channel with
      listenEvents := (s.channel.listenEvents.signExtend 32 ||| events).truncate 16 } }

/-- `listen_events_ &= ~events`. -/
def ignore (s : Polled) (events : BitVec 32) : Polled :=
  { s with channel := { s.channel with
      listenEvents := (s.channel.listenEvents.signExtend 32 &&& ~~~events).truncate 16 } }

def act (s : Polled) : ChannelOp → Polled
  | .enableRead => ({ s with reading := true }.listen (EPOLLIN ||| EPOLLPRI)).updateChannel
  | .disableRead => ({ s with reading := false }.ignore (EPOLLIN ||| EPOLLPRI)).updateChannel
  | .enableWrite => ({ s with writing := true }.listen EPOLLOUT).updateChannel
  | .disableWrite => ({ s with writing := false }.ignore EPOLLOUT).updateChannel
  | .enableET => ({ s with edge := true }.listen EPOLLET).updateChannel
  | .deleteChannel => s.deleteChannel

/-- `DeleteChannel` is called only for a channel that is registered. -/
def step (s : Polled) (op : ChannelOp) : Option (Result Polled) :=
  if op = .deleteChannel ∧ s.channel.registered = none then none else some (.ok (s.act op))

/-! ## What is kept -/

def askedEvents (reading writing : Bool) : BitVec 32 :=
  (if reading then EPOLLIN ||| EPOLLPRI else 0) ||| (if writing then EPOLLOUT else 0)

/-- The events of reading and writing that were last asked for. -/
def asked (s : Polled) : BitVec 32 := askedEvents s.reading s.writing

/-- All events that were last asked for. -/
def wanted (s : Polled) : BitVec 32 := s.asked ||| (if s.edge then EPOLLET else 0)

/-- **The interest set mirrors the channel**: the calls were apt, `in_epoll_` says whether the
descriptor is registered, and it is registered for what was last asked for. -/
structure Mirrors (s : Polled) : Prop where
  apt : ∀ call ∈ s.calls, call.1.Apt call.2
  tracked : s.channel.inEpoll = true ↔ s.channel.registered ≠ none
  told : ∀ events, s.channel.registered = some events → events = s.wanted

/-- What the source does keep: all of this but the edges. -/
structure Follows (s : Polled) : Prop where
  apt : ∀ call ∈ s.calls, call.1.Apt call.2
  tracked : s.channel.inEpoll = s.channel.registered.isSome
  listens : s.channel.listenEvents = s.asked.truncate 16
  told : ∀ events, s.channel.registered = some events → events = s.asked

variable {s t : Polled} {op : ChannelOp}

/-- A `short` holds the events of reading and writing. -/
theorem asked_extended (s : Polled) : (s.asked.truncate 16).signExtend 32 = s.asked := by
  rw [asked]
  cases s.reading <;> cases s.writing <;> decide

theorem initial_follows : Follows {} :=
  ⟨fun _ inside => absurd inside List.not_mem_nil, rfl, rfl,
    fun _ impossible => by cases impossible⟩

/-- `UpdateChannel` makes an apt call, and tells the kernel what the channel listens to. -/
theorem updateChannel_eq (tracked : s.channel.inEpoll = s.channel.registered.isSome) :
    ∃ call : EpollCtl, call.Apt s.channel.registered.isSome ∧ s.updateChannel = { s with
      channel := s.channel.update
      calls := s.calls ++ [(call, s.channel.registered.isSome)] } := by
  unfold updateChannel
  cases inside : s.channel.inEpoll with
  | true =>
      rw [inside] at tracked
      refine ⟨.mod (s.channel.listenEvents.signExtend 32), tracked.symm, ?_⟩
      simp only [if_true, issue, epollCtl, if_pos tracked.symm, Option.getD_some, Channel.update,
        inside]
  | false =>
      rw [inside] at tracked
      have absent : ¬ s.channel.registered.isSome = true := by
        rw [← tracked]
        exact Bool.false_ne_true
      refine ⟨.add (s.channel.listenEvents.signExtend 32), tracked.symm, ?_⟩
      simp only [Bool.false_eq_true, if_false, setInEpoll, issue, epollCtl, if_neg absent,
        Option.getD_some, Channel.update]

theorem deleteChannel_eq (registered : s.channel.registered.isSome = true) :
    s.deleteChannel = { s with
      channel := s.channel.delete
      calls := s.calls ++ [(.del, s.channel.registered.isSome)] } := by
  simp only [deleteChannel, setInEpoll, issue, epollCtl, if_pos registered, Option.getD_some,
    Channel.delete]

theorem apt_concat {calls : List (EpollCtl × Bool)} (apt : ∀ call ∈ calls, call.1.Apt call.2)
    {call : EpollCtl} {registered : Bool} (last : call.Apt registered) :
    ∀ c ∈ calls ++ [(call, registered)], c.1.Apt c.2 := by
  intro c inside
  rcases List.mem_append.mp inside with earlier | new
  · exact apt c earlier
  · rw [List.mem_singleton.mp new]
    exact last

/-- A channel whose `short` holds what was asked for tells it to the kernel. -/
theorem follows_updateChannel (apt : ∀ call ∈ s.calls, call.1.Apt call.2)
    (tracked : s.channel.inEpoll = s.channel.registered.isSome)
    (listens : s.channel.listenEvents = s.asked.truncate 16) :
    Follows s.updateChannel ∧ s.updateChannel.channel.registered = some s.asked := by
  obtain ⟨call, aptCall, same⟩ := updateChannel_eq tracked
  have told : s.channel.update.registered = some s.asked := by
    rw [Channel.update, listens, asked_extended]
  rw [same]
  refine ⟨⟨apt_concat apt aptCall, rfl, listens, ?_⟩, told⟩
  intro events registered
  exact Option.some.inj (registered.symm.trans told)

/-- Each change of the flags puts into the `short` what is asked for then; `EPOLLET` has no
place in it. -/
theorem follows_act (follows : Follows s) (notDelete : op ≠ .deleteChannel) :
    Follows (s.act op) ∧ (s.act op).channel.registered = some (s.act op).asked := by
  obtain ⟨apt, tracked, listens, -⟩ := follows
  have extended := asked_extended s
  have after (t : Polled) (calls : t.calls = s.calls)
      (inEpoll : t.channel.inEpoll = s.channel.inEpoll)
      (registered : t.channel.registered = s.channel.registered)
      (listens : t.channel.listenEvents = t.asked.truncate 16) :
      Follows t.updateChannel ∧ t.updateChannel.channel.registered = some t.updateChannel.asked := by
    have tracked' : t.channel.inEpoll = t.channel.registered.isSome := by
      rw [inEpoll, registered, tracked]
    obtain ⟨call, -, same⟩ := updateChannel_eq tracked'
    have kept : t.updateChannel.asked = t.asked := by rw [same]; rfl
    rw [kept]
    exact follows_updateChannel (calls ▸ apt) tracked' listens
  have listened (events : BitVec 32) (reading writing : Bool)
      (changed : (s.asked ||| events).truncate 16 = (askedEvents reading writing).truncate 16) :
      (s.listen events).channel.listenEvents = (askedEvents reading writing).truncate 16 := by
    rw [← changed, ← extended, ← listens]
    rfl
  have ignored (events : BitVec 32) (reading writing : Bool)
      (changed : (s.asked &&& ~~~events).truncate 16 =
        (askedEvents reading writing).truncate 16) :
      (s.ignore events).channel.listenEvents = (askedEvents reading writing).truncate 16 := by
    rw [← changed, ← extended, ← listens]
    rfl
  rw [asked] at listened ignored
  cases op with
  | enableRead =>
      refine after ({ s with reading := true }.listen _) rfl rfl rfl (listened _ true s.writing ?_)
      cases s.reading <;> cases s.writing <;> decide
  | disableRead =>
      refine after ({ s with reading := false }.ignore _) rfl rfl rfl (ignored _ false s.writing ?_)
      cases s.reading <;> cases s.writing <;> decide
  | enableWrite =>
      refine after ({ s with writing := true }.listen _) rfl rfl rfl (listened _ s.reading true ?_)
      cases s.reading <;> cases s.writing <;> decide
  | disableWrite =>
      refine after ({ s with writing := false }.ignore _) rfl rfl rfl
        (ignored _ s.reading false ?_)
      cases s.reading <;> cases s.writing <;> decide
  | enableET =>
      refine after ({ s with edge := true }.listen _) rfl rfl rfl
        (listened _ s.reading s.writing ?_)
      cases s.reading <;> cases s.writing <;> decide
  | deleteChannel => exact absurd rfl notDelete

theorem step_eq_ok (stepped : s.step op = some (.ok t)) :
    (op = .deleteChannel → s.channel.registered.isSome = true) ∧ t = s.act op := by
  unfold step at stepped
  split_ifs at stepped with refused
  cases stepped
  refine ⟨?_, rfl⟩
  intro isDelete
  exact Option.isSome_iff_ne_none.mpr fun unregistered => refused ⟨isDelete, unregistered⟩

/-- **Step lemma**: every call that is allowed keeps what the source keeps. -/
theorem follows_of_step (follows : Follows s) (stepped : s.step op = some (.ok t)) :
    Follows t := by
  obtain ⟨registered, rfl⟩ := step_eq_ok stepped
  by_cases isDelete : op = .deleteChannel
  · subst isDelete
    show Follows s.deleteChannel
    rw [deleteChannel_eq (registered rfl)]
    refine ⟨apt_concat follows.apt (registered rfl), rfl, follows.listens, ?_⟩
    intro events impossible
    cases impossible
  · exact (follows_act follows isDelete).1

theorem act_edge (s : Polled) (op : ChannelOp) :
    (s.act op).edge = (s.edge || decide (op = .enableET)) := by
  have updated (u : Polled) : u.updateChannel.edge = u.edge := by
    unfold updateChannel
    split_ifs <;> rfl
  cases op with
  | enableRead => exact (updated _).trans (Bool.or_false _).symm
  | disableRead => exact (updated _).trans (Bool.or_false _).symm
  | enableWrite => exact (updated _).trans (Bool.or_false _).symm
  | disableWrite => exact (updated _).trans (Bool.or_false _).symm
  | enableET => exact (updated _).trans (Bool.or_true _).symm
  | deleteChannel => exact (Bool.or_false _).symm

theorem mirrors_of_follows (follows : Follows s) (level : s.edge = false) : Mirrors s := by
  have noEdge : s.wanted = s.asked := by
    rw [wanted, level]
    exact BitVec.or_zero
  refine ⟨follows.apt, ?_, ?_⟩
  · rw [follows.tracked, Option.isSome_iff_ne_none]
  · rw [noEdge]
    exact follows.told

/-- `EPOLLET` is never told. -/
theorem not_mirrors_of_edge (registered : s.channel.registered = some s.asked)
    (edge : s.edge = true) : ¬ Mirrors s := by
  intro mirrors
  have same := mirrors.told _ registered
  rw [wanted, asked, edge] at same
  revert same
  cases s.reading <;> cases s.writing <;> decide

/-- **The interest set** mirrors the channel in every state of a run exactly when the run
never asks for edges. -/
theorem mirrors_iff (ops : List ChannelOp) {s : Polled} (performed : perform step {} ops = some s) :
    (∀ earlier t, earlier <+: ops → perform step {} earlier = some t → Mirrors t) ↔
      .enableET ∉ ops := by
  constructor
  · intro mirrors inside
    obtain ⟨front, back, rfl⟩ := List.append_of_mem inside
    obtain ⟨u, before, after⟩ := perform_append.mp performed
    obtain ⟨t, stepped, -⟩ := perform_cons after
    have follows : Follows u :=
      (reaches_of_perform before).invariant (fun _ _ _ => follows_of_step) initial_follows
    have upTo : perform step {} (front ++ [.enableET]) = some t :=
      perform_append.mpr ⟨u, before, by rw [perform, stepped]; rfl⟩
    have good : Mirrors t := mirrors (front ++ [.enableET]) t
      (List.prefix_append_right_inj front |>.mpr (List.prefix_append [_] back)) upTo
    obtain ⟨-, rfl⟩ := step_eq_ok stepped
    have notDelete : ChannelOp.enableET ≠ .deleteChannel := by decide
    have told := (follows_act follows notDelete).2
    exact not_mirrors_of_edge told (by rw [act_edge]; exact Bool.or_true _) good
  · intro absent earlier t isPrefix before
    have follows : Follows t :=
      (reaches_of_perform before).invariant (fun _ _ _ => follows_of_step) initial_follows
    have allowed : Throughout step (fun _ op => op ≠ .enableET) {} earlier :=
      throughout_of_forall fun _ op inside same => absent (isPrefix.subset (same ▸ inside))
    have level : t.edge = false := by
      refine allowed.invariant (P := fun u => u.edge = false) ?_ before rfl
      intro u op v level notEdge stepped
      obtain ⟨-, rfl⟩ := step_eq_ok stepped
      rw [act_edge, level, decide_eq_false notEdge]
      rfl
    exact mirrors_of_follows follows level

/-- A channel that is read and written, removed and added again. -/
theorem mirrors_iff_readWrite :
    let ops : List ChannelOp := [.enableRead, .enableWrite, .disableWrite, .deleteChannel, .enableRead]
    (∀ earlier t, earlier <+: ops → perform step {} earlier = some t → Mirrors t) ↔
      .enableET ∉ ops :=
  mirrors_iff _ rfl

/-- The calls of a connection, whose constructor asks for edges. -/
theorem edge_lost : ∃ s, perform step {} [.enableET, .enableRead] = some s ∧
    s.channel.registered = some (EPOLLIN ||| EPOLLPRI) ∧ ¬ Mirrors s := by
  refine ⟨_, rfl, by decide, ?_⟩
  exact not_mirrors_of_edge (by decide) rfl

end Polled

end CppFileServer.Tcp
