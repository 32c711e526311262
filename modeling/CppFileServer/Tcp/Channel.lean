/-
# Tcp.Channel -- the events a connection listens to

A channel keeps the wanted events in a `short` and tells the poller after every
change; `registered` is the entry the kernel holds for the descriptor.  The event
mask handed to the kernel is the `short`, sign-extended.
-/
import Mathlib.Data.BitVec

namespace CppFileServer.Tcp

set_option autoImplicit false

def EPOLLIN : BitVec 32 := 0x001

def EPOLLPRI : BitVec 32 := 0x002

def EPOLLOUT : BitVec 32 := 0x004

def EPOLLET : BitVec 32 := 0x80000000

structure Channel where
  listenEvents : BitVec 16 := 0
  inEpoll : Bool := false
  registered : Option (BitVec 32) := none

namespace Channel

/-- `Epoller::UpdateChannel`: ADD for a channel not in the poller, MOD for one that is. -/
def update (c : Channel) : Channel :=
  { c with inEpoll := true, registered := some (c.listenEvents.signExtend 32) }

/-- `Epoller::DeleteChannel`. -/
def delete (c : Channel) : Channel := { c with inEpoll := false, registered := none }

/-- `listen_events_ |= events`, computed in 32 bits and cut to the `short`. -/
def enable (c : Channel) (events : BitVec 32) : Channel :=
  { c with listenEvents := (c.listenEvents.signExtend 32 ||| events).truncate 16 }.update

def disable (c : Channel) (events : BitVec 32) : Channel :=
  { c with listenEvents := (c.listenEvents.signExtend 32 &&& ~~~events).truncate 16 }.update

def enableRead (c : Channel) : Channel := c.enable (EPOLLIN ||| EPOLLPRI)

def disableRead (c : Channel) : Channel := c.disable (EPOLLIN ||| EPOLLPRI)

def enableWrite (c : Channel) : Channel := c.enable EPOLLOUT

def disableWrite (c : Channel) : Channel := c.disable EPOLLOUT

def enableET (c : Channel) : Channel := c.enable EPOLLET

end Channel

end CppFileServer.Tcp
