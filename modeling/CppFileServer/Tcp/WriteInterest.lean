/-
# Tcp.WriteInterest -- unsent data and the interest in writing

`Send` listens to `EPOLLOUT` when something is left over and `HandleWrite` stops
when nothing is.  Between the two only one thing can go wrong: a `write` that fails
outright puts a byte back into an empty buffer, and `HandleWrite` leaves the
channel alone then.  It is called for `EPOLLOUT` only, so the channel listens to it.

`Bounded` is what is left of the buffer's invariant when `Retrieve` has been given -1:
the write index stays inside the storage, the read index may stand anywhere in front.
-/
import CppFileServer.Tcp.SendPath

namespace CppFileServer.Tcp

set_option autoImplicit false

open CppFileServer.Cpp CppFileServer.Utils CppFileServer.Theory

/-! ## A buffer after errors -/

/-- The write index stands inside the storage, behind the read index. -/
structure Bounded (b : Buffer) : Prop where
  front : kPrePendIndex ≤ b.writeIndex
  order : b.readIndex ≤ b.writeIndex
  inside : b.writeIndex ≤ b.buf.length
  small : b.buf.length < 2 ^ 31

namespace Bounded

variable {b b' : Buffer}

theorem construct : Bounded Buffer.construct := by
  refine ⟨?_, ?_, ?_, ?_⟩ <;> decide

theorem retrieve (bounded : Bounded b) {len : Int} (retrieved : b.retrieve len = .ok b') :
    Bounded b' := by
  obtain ⟨front, order, inside, small⟩ := bounded
  obtain ⟨readable, -, retrieved⟩ := bind_eq_ok retrieved
  split_ifs at retrieved
  obtain ⟨next, -, retrieved⟩ := bind_eq_ok retrieved
  split_ifs at retrieved with within
  · cases retrieved
    exact ⟨front, within.le, inside, small⟩
  · cases retrieved
    refine ⟨le_refl _, le_refl _, ?_, small⟩
    show kPrePendIndex ≤ (b.buf.length : Int)
    omega

theorem slice_length {first last : Int} {data : Bytes} (cut : b.slice first last = .ok data) :
    first ≤ last ∧ (data.length : Int) = last - first := by
  unfold Buffer.slice at cut
  split_ifs at cut with inside
  cases cut
  rw [List.length_take, List.length_drop]
  omega

theorem ensureWritableBytes (bounded : Bounded b) {len : Int}
    (ensured : b.ensureWritableBytes len = .ok b') : Bounded b' := by
  obtain ⟨front, order, inside, small⟩ := id bounded
  obtain ⟨writable, free, ensured⟩ := bind_eq_ok ensured
  rw [Buffer.writablebytes, toInt_of_fits (by omega) (by omega)] at free
  obtain ⟨-, rfl⟩ := checkedInt_eq_ok.mp free
  split_ifs at ensured with enough
  · cases ensured
    exact bounded
  · obtain ⟨room, -, ensured⟩ := bind_eq_ok ensured
    obtain ⟨wanted, -, ensured⟩ := bind_eq_ok ensured
    split_ifs at ensured
    · obtain ⟨buf, moved, ensured⟩ := bind_eq_ok ensured
      obtain ⟨readable, counted, ensured⟩ := bind_eq_ok ensured
      obtain ⟨writeIndex, sum, ensured⟩ := bind_eq_ok ensured
      cases ensured
      obtain ⟨-, rfl⟩ := checkedInt_eq_ok.mp counted
      obtain ⟨-, rfl⟩ := checkedInt_eq_ok.mp sum
      unfold Buffer.moveToFront at moved
      split_ifs at moved
      obtain ⟨data, cut, written⟩ := bind_eq_ok moved
      have size := Buffer.overwrite_length written
      have length := slice_length cut
      unfold Buffer.overwrite at written
      split_ifs at written with fits
      refine ⟨?_, ?_, ?_, ?_⟩
      · show kPrePendIndex ≤ kPrePendIndex + _
        omega
      · show kPrePendIndex ≤ kPrePendIndex + _
        omega
      · show kPrePendIndex + _ ≤ (buf.length : Int)
        omega
      · show buf.length < 2 ^ 31
        omega
    · obtain ⟨size, sum, ensured⟩ := bind_eq_ok ensured
      obtain ⟨buf, resized, ensured⟩ := bind_eq_ok ensured
      cases ensured
      obtain ⟨⟨-, high⟩, rfl⟩ := checkedInt_eq_ok.mp sum
      unfold Buffer.resize at resized
      split_ifs at resized
      cases resized
      have length : (b.buf.take (b.writeIndex + len).toNat ++
          List.replicate ((b.writeIndex + len).toNat - b.buf.length) (0 : UInt8)).length =
          (b.writeIndex + len).toNat := by
        rw [List.length_append, List.length_take, List.length_replicate]
        omega
      refine ⟨front, order, ?_, ?_⟩
      · simp only [length]
        omega
      · simp only [length]
        omega

theorem append (bounded : Bounded b) {str : Bytes} {size : Int}
    (appended : b.append str size = .ok b') : Bounded b' := by
  obtain ⟨b₁, ensured, appended⟩ := bind_eq_ok appended
  obtain ⟨front, order, inside, small⟩ := bounded.ensureWritableBytes ensured
  split_ifs at appended with short
  obtain ⟨buf, written, appended⟩ := bind_eq_ok appended
  obtain ⟨writeIndex, sum, appended⟩ := bind_eq_ok appended
  cases appended
  obtain ⟨-, rfl⟩ := checkedInt_eq_ok.mp sum
  have length := Buffer.overwrite_length written
  unfold Buffer.overwrite at written
  split_ifs at written with fits
  rw [List.length_take] at fits
  refine ⟨?_, ?_, ?_, ?_⟩
  · simp only
    omega
  · simp only
    omega
  · simp only
    omega
  · simp only
    omega

end Bounded

/-! ## The interest in writing -/

namespace Channel

/-- `EPOLLOUT` is in `listen_events_` and in what the poller was told. -/
structure Watched (c : Channel) : Prop where
  listens : c.listenEvents.signExtend 32 &&& EPOLLOUT ≠ 0
  registered : ∃ mask, c.registered = some mask ∧ mask &&& EPOLLOUT ≠ 0

/-- `EPOLLOUT` is in neither. -/
structure Unwatched (c : Channel) : Prop where
  listens : c.listenEvents.signExtend 32 &&& EPOLLOUT = 0
  registered : ∀ mask, c.registered = some mask → mask &&& EPOLLOUT = 0

theorem and_EPOLLOUT_eq_zero (mask : BitVec 32) :
    mask &&& EPOLLOUT = 0 ↔ mask.getLsbD 2 = false := by
  have bit : EPOLLOUT = BitVec.twoPow 32 2 := by decide
  rw [bit, BitVec.and_twoPow]
  cases mask.getLsbD 2 <;> decide

theorem enableWrite_watched (c : Channel) : c.enableWrite.Watched := by
  have listens : c.enableWrite.listenEvents.signExtend 32 &&& EPOLLOUT ≠ 0 := by
    rw [ne_eq, and_EPOLLOUT_eq_zero]
    simp [enableWrite, enable, update, EPOLLOUT]
  exact ⟨listens, _, rfl, listens⟩

theorem disableWrite_unwatched (c : Channel) : c.disableWrite.Unwatched := by
  have deaf : c.disableWrite.listenEvents.signExtend 32 &&& EPOLLOUT = 0 := by
    rw [and_EPOLLOUT_eq_zero]
    simp [disableWrite, disable, update, EPOLLOUT]
  refine ⟨deaf, ?_⟩
  intro mask told
  cases told
  exact deaf

end Channel

namespace TcpConnection

/-- Unsent data is watched. -/
def PendingWatched (c : TcpConnection) : Prop :=
  c.sendBuf.readIndex < c.sendBuf.writeIndex → c.channel.Watched

/-- `HandleWrite` is called on a channel that listens to `EPOLLOUT`, unless its `write`
does not fail outright. -/
def WritesWatched (c : TcpConnection) : SendCall → Prop
  | .send _ _ => True
  | .handleWrite result => result.Clean ∨ c.channel.Watched

theorem send_pendingWatched {c t : TcpConnection} {msg : Bytes} {result : WriteResult}
    (sends : c.send msg result = .ok t) : t.PendingWatched := by
  obtain ⟨b, -, sends⟩ := bind_eq_ok sends
  obtain ⟨c₁, -, sends⟩ := bind_eq_ok sends
  obtain ⟨left, counted, sends⟩ := bind_eq_ok sends
  obtain ⟨-, rfl⟩ := checkedInt_eq_ok.mp counted
  split_ifs at sends with pending
  · cases sends
    exact fun _ => c₁.channel.enableWrite_watched
  · cases sends
    intro pending
    omega

theorem handleWrite_of_left {c c₁ : TcpConnection} {result : WriteResult}
    (written : c.writeNonBlocking result = .ok c₁)
    (pending : 0 < c₁.sendBuf.writeIndex - c₁.sendBuf.readIndex)
    (few : c₁.sendBuf.writeIndex - c₁.sendBuf.readIndex < 2 ^ 31) :
    c.handleWrite result = .ok c₁ := by
  rw [handleWrite, written, ok_bind, Buffer.readablebytes, checkedInt_of_fits (by omega) few,
    ok_bind, if_neg (by omega)]
  rfl

/-- A write on an empty buffer: there is nothing to offer, and an error puts back a byte. -/
theorem writeNonBlocking_of_empty {c : TcpConnection} (bounded : Bounded c.sendBuf)
    (empty : c.sendBuf.readIndex = c.sendBuf.writeIndex) (result : WriteResult) :
    c.writeNonBlocking result = .ok { c with
      sendBuf := if result.Clean then c.sendBuf.retrieveAll
        else { c.sendBuf with readIndex := c.sendBuf.readIndex - 1 }
      wire := c.wire ++ accepted [] result } := by
  obtain ⟨front, order, inside, small⟩ := bounded
  simp only [kPrePendIndex_eq] at front
  have size : c.sendBuf.readablebytes = .ok 0 := by
    rw [Buffer.readablebytes, empty, Int.sub_self]
    exact checkedInt_of_fits (by omega) (by omega)
  have offered : c.sendBuf.peek 0 = .ok [] := by
    rw [Buffer.peek, Buffer.slice, if_pos ⟨by omega, by omega, by omega⟩]
    simp
  have moved (len : Int) (low : -1 ≤ len) (high : len ≤ 0) : c.sendBuf.retrieve len =
      if len + c.sendBuf.readIndex < c.sendBuf.writeIndex
        then .ok { c.sendBuf with readIndex := len + c.sendBuf.readIndex }
        else .ok c.sendBuf.retrieveAll := by
    rw [Buffer.retrieve, size, ok_bind, if_neg (by omega),
      checkedInt_of_fits (by omega) (by omega), ok_bind]
    rfl
  rw [writeNonBlocking, size, ok_bind, offered, ok_bind]
  by_cases clean : result.Clean
  · have nothing : dataSend [] result = 0 := by
      rw [dataSend_of_clean [] clean]
      have := accepted_length_le [] result
      simpa using this
    rw [nothing, moved 0 (by omega) (by omega), if_neg (by omega), ok_bind, if_pos clean]
    rfl
  · have minusOne := dataSend_of_error [] clean
    rw [minusOne, moved (-1) (by omega) (by omega), if_pos (by omega), ok_bind, if_neg clean,
      show -1 + c.sendBuf.readIndex = c.sendBuf.readIndex - 1 by omega]
    rfl

theorem call_bounded {c t : TcpConnection} (bounded : Bounded c.sendBuf) {i : SendCall}
    (called : c.call i = .ok t) : Bounded t.sendBuf := by
  have written {c t : TcpConnection} {result : WriteResult} (bounded : Bounded c.sendBuf)
      (wrote : c.writeNonBlocking result = .ok t) : Bounded t.sendBuf := by
    obtain ⟨offered, b, retrieved, rfl⟩ := writeNonBlocking_eq_ok wrote
    exact bounded.retrieve retrieved
  cases i with
  | send msg result =>
      obtain ⟨b, appended, called⟩ := bind_eq_ok called
      obtain ⟨c₁, wrote, called⟩ := bind_eq_ok called
      have bounded₁ := written (c := { c with sendBuf := b, messages := c.messages ++ [msg] })
        (bounded.append appended) wrote
      rw [send_tail called]
      exact bounded₁
  | handleWrite result =>
      obtain ⟨c₁, wrote, called⟩ := bind_eq_ok called
      have bounded₁ := written bounded wrote
      rw [send_tail called]
      exact bounded₁

/-- **One call**: in a state whose unsent data is watched, a call keeps it watched
exactly if it does not write outside the interest in writing. -/
theorem call_pendingWatched_iff {c : TcpConnection} (watched : c.PendingWatched)
    (bounded : Bounded c.sendBuf) (i : SendCall) :
    (∀ t, c.call i = .ok t → t.PendingWatched) ↔ c.WritesWatched i := by
  cases i with
  | send msg result => exact ⟨fun _ => trivial, fun _ t sends => send_pendingWatched sends⟩
  | handleWrite result =>
      constructor
      · intro kept
        by_contra careless
        obtain ⟨error, unwatched⟩ := not_or.mp careless
        -- what is unsent is watched, so there is nothing unsent
        have empty : c.sendBuf.readIndex = c.sendBuf.writeIndex := by
          by_contra differ
          exact unwatched (watched (lt_of_le_of_ne bounded.order differ))
        have wrote := writeNonBlocking_of_empty bounded empty result
        rw [if_neg error] at wrote
        have called : c.call (.handleWrite result) = _ :=
          handleWrite_of_left wrote (by simp only; omega) (by simp only; omega)
        have pending : c.sendBuf.readIndex - 1 < c.sendBuf.writeIndex := by omega
        have stillWatched := kept _ called
        exact unwatched (stillWatched pending)
      · intro careful t wrote pending
        obtain ⟨c₁, written, ⟨drained, rfl⟩ | ⟨left, rfl⟩⟩ := handleWrite_eq_ok wrote
        · exact absurd drained (by simp only at pending; omega)
        · have sameChannel : t.channel = c.channel := by
            obtain ⟨offered, b, -, rfl⟩ := writeNonBlocking_eq_ok written
            rfl
          rw [sameChannel]
          by_cases empty : c.sendBuf.readIndex = c.sendBuf.writeIndex
          · apply careful.resolve_left
            intro clean
            rw [writeNonBlocking_of_empty bounded empty, if_pos clean] at written
            cases written
            exact absurd pending (lt_irrefl _)
          · exact watched (lt_of_le_of_ne bounded.order empty)

/-- **Unsent data always has write interest**, in every run of calls on an established
connection, exactly if every `HandleWrite` whose `write` fails outright is called while
the channel listens to `EPOLLOUT`; and a `HandleWrite` that leaves nothing unsent stops
listening. -/
theorem unsent_watched_iff :
    (∀ (state : ConnectionState) (completeHeaders : Bool) (calls : List SendCall),
      Safe call PendingWatched (established state completeHeaders) calls ↔
        Meets call WritesWatched (established state completeHeaders) calls) ∧
    ∀ (c t : TcpConnection) (result : WriteResult), c.handleWrite result = .ok t →
      t.sendBuf.readIndex = t.sendBuf.writeIndex → t.channel.Unwatched := by
  refine ⟨?_, ?_⟩
  · intro state completeHeaders calls
    have initial : (established state completeHeaders).PendingWatched ∧
        Bounded (established state completeHeaders).sendBuf := by
      refine ⟨?_, Bounded.construct⟩
      intro pending
      exact absurd pending (lt_irrefl _)
    apply safe_iff_meets (Q := fun c : TcpConnection => c.PendingWatched ∧ Bounded c.sendBuf)
      (fun c kept => kept.1) _ _ initial
    · intro c i ⟨watched, bounded⟩
      exact call_pendingWatched_iff watched bounded i
    · intro c i t ⟨_, bounded⟩ called watched
      exact ⟨watched, call_bounded bounded called⟩
  · intro c t result wrote empty
    obtain ⟨c₁, -, ⟨-, rfl⟩ | ⟨left, rfl⟩⟩ := handleWrite_eq_ok wrote
    · exact c₁.channel.disableWrite_unwatched
    · exact absurd (by omega) left

/-- A connection breaks while a tail is unsent. -/
theorem unsent_watched_tail :
    Safe call PendingWatched (established .Invalid false)
      [.send (ascii "ab") (.accepts 1), .handleWrite (.failed .econnreset)] := by
  apply (unsent_watched_iff.1 .Invalid false _).mpr
  refine ⟨trivial, fun t sends => ⟨Or.inr ?_, fun _ _ => trivial⟩⟩
  have answered : ((established .Invalid false).call (.send (ascii "ab") (.accepts 1))).toOption.map
      (fun t => (t.sendBuf.readIndex, t.sendBuf.writeIndex)) = some (9, 10) := by decide
  rw [sends] at answered
  obtain ⟨read, write⟩ := Prod.mk.inj (Option.some.inj answered)
  exact send_pendingWatched sends (by rw [read, write]; decide)

/-- A `HandleWrite` on a channel that does not listen, to a peer that has reset the connection. -/
theorem unwatched_handleWrite :
    ¬ Safe call PendingWatched (established .Invalid false) [.handleWrite (.failed .econnreset)] := by
  rintro ⟨-, later⟩
  have answered : ((established .Invalid false).call (.handleWrite (.failed .econnreset))).toOption.map
      (fun t => (t.sendBuf.readIndex, t.sendBuf.writeIndex, t.channel.listenEvents)) =
      some (7, 8, 3) := by decide
  obtain ⟨t, called, indices⟩ := eq_ok_of_map answered
  simp only [Prod.mk.injEq] at indices
  obtain ⟨read, write, events⟩ := indices
  have watched : t.channel.Watched := later t called (by rw [read, write]; decide)
  have listens := watched.listens
  rw [events] at listens
  exact absurd listens (by decide)

end TcpConnection

end CppFileServer.Tcp
