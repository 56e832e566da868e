/-!
# Sources of bytes

A link is read by offering it a buffer. `Source` is what the library asks of a link, and nothing is
taken for granted of what it answers: it may fail, and it may claim more bytes than it has written
or than there was room for.

`ByteQueue` is a link in memory: bytes wait in a queue, and reads can be made to fail, to come in
small chunks, or to claim too much.
-/

namespace Marquee

/-- What one read of a link did. -/
structure Delivery where
  /-- The bytes that the link wrote to the start of the buffer. -/
  written : List UInt8
  /-- The number of bytes that the link claims to have written; none if the read failed. -/
  claimed : Option Nat
  deriving DecidableEq, Repr, Inhabited

/-- What bytes can be read from. -/
class Source (S : Type) where
  /-- Read into a buffer with room for a number of bytes, without waiting. -/
  read : S → (room : Nat) → Delivery × S

/-- Bytes that wait to be read. -/
structure ByteQueue where
  /-- The bytes, the oldest first. -/
  bytes : List UInt8
  /-- The most bytes of one read; `0` for no limit. -/
  chunk : Nat
  /-- The next read fails. -/
  failNext : Bool
  /-- How many bytes too many the next read claims that finds any. -/
  excess : Nat
  deriving DecidableEq, Repr, Inhabited

namespace ByteQueue

/-- A queue without bytes. -/
def empty : ByteQueue := ⟨[], 0, false, 0⟩

/-- The number of bytes that wait. -/
def size (q : ByteQueue) : Nat := q.bytes.length

/-- Append bytes. -/
def send (q : ByteQueue) (bytes : List UInt8) : ByteQueue := { q with bytes := q.bytes ++ bytes }

/-- Read from the queue. -/
def read (q : ByteQueue) (room : Nat) : Delivery × ByteQueue :=
  if q.failNext then (⟨[], none⟩, { q with failNext := false })
  else
    let limit := if q.chunk = 0 then room else min room q.chunk
    let bytes := q.bytes.take limit
    if bytes.isEmpty then (⟨[], some 0⟩, q)
    else
      (⟨bytes, some (bytes.length + q.excess)⟩,
        { q with bytes := q.bytes.drop limit, excess := 0 })

instance : Source ByteQueue where
  read := read

end ByteQueue

end Marquee
