import ChatServer.Lib.EdgeTrigger
import ChatServer.Model.Protocol

/-!
# Blocking reads and writes (`protocol.cpp`)

`read_one_message` and `write_one_message` are the client's side of the wire. The
peer's bytes are a stream that ends when the peer closes. A schedule says how the
calls of `read` or `write` turn out; when it has run out, calls transfer all they
are asked for.
-/

namespace ChatServer

open EdgeTrigger (Errno)

/-- The outcome of one blocking call: at most `k + 1` bytes, or an error. -/
inductive Transfer where
  | upTo (k : Nat)
  | fail (e : Errno)
  deriving DecidableEq, Repr

/-- `while (bytes_to_read > 0)`: the bytes read, with what is left of the schedule and
of the stream, or `none` at the end of the stream or at an error. Only the loop over
the header starts a call that was interrupted again. -/
def readLoop (retryEintr : Bool) :
    Nat → List Transfer → Bytes → Option (Bytes × List Transfer × Bytes)
  | 0, sched, stream => some ([], sched, stream)
  | need + 1, [], stream =>
    if stream.length < need + 1 then none
    else some (stream.take (need + 1), [], stream.drop (need + 1))
  | need + 1, .upTo k :: sched, stream =>
    let got := stream.take (min (k + 1) (need + 1))
    if got = [] then none
    else
      match readLoop retryEintr (need + 1 - got.length) sched (stream.drop got.length) with
      | none => none
      | some (rest, sched, stream) => some (got ++ rest, sched, stream)
  | need + 1, .fail e :: sched, stream =>
    if retryEintr && e == .EINTR then readLoop retryEintr (need + 1) sched stream else none

/-- `buffer` is the caller's payload buffer. -/
def readOneMessage (buffer : Bytes) (sched : List Transfer) (stream : Bytes) :
    Except Int (Message × List Transfer × Bytes) :=
  match readLoop true MSG_HEADER_SIZE sched stream with
  | none => .error (-1)
  | some (header, sched, stream) =>
    let payloadLength := htonl (Words.ofLe32 ((header.drop 3).take 4))
    if payloadLength > MSG_MAX_PAYLOAD_SIZE then .error (-1)
    else
      match readLoop false payloadLength.toNat sched stream with
      | none => .error (-1)
      | some (payload, sched, stream) =>
        .ok (⟨payloadLength, header.getD 0 0, header.getD 1 0, header.getD 2 0,
          some (payload ++ buffer.drop payload.length)⟩, sched, stream)

/-- `while (bytes_sent < bytes_to_send)`: whether all was sent, the bytes that went onto the
stream, and what is left of the schedule. -/
def writeLoop : Bytes → List Transfer → Bool × Bytes × List Transfer
  | [], sched => (true, [], sched)
  | b :: bs, [] => (true, b :: bs, [])
  | b :: bs, .upTo k :: sched =>
    let sent := writeLoop ((b :: bs).drop (k + 1)) sched
    (sent.1, (b :: bs).take (k + 1) ++ sent.2.1, sent.2.2)
  | b :: bs, .fail e :: sched =>
    if e == .EINTR then writeLoop (b :: bs) sched else (false, [], sched)

/-- The return code, the bytes that went onto the stream, and what is left of the schedule. -/
def writeOneMessage (sched : List Transfer) (message : Bytes) : Int × Bytes × List Transfer :=
  let sent := writeLoop message sched
  (if sent.1 then (message.length : Int) else -1, sent.2.1, sent.2.2)

end ChatServer
