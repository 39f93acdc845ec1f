import Mathlib.Logic.Relation
import ChatServer.Model.Protocol

/-!
# The two threads of the client (`client_utils.cpp`)

The main thread runs `run_messaging_loop`, which starts the other one in `socket_thread_handler`.
They share the connection, its mutex, and a pipe by which the main thread tells the other to
stop. A step is one call or one test of either thread, in any order, or something that happens to
the process. A thread that waits has no step before what it waits for has happened: `poll` for
something to report, `read` for bytes, the end of the stream or an error, `join` for the other
thread, `lock` for the mutex. What is in the lines and in the messages is left out here, the
length of a message apart.
-/

namespace ChatServer

/-- Where the main thread is. It is `terminated` with the whole process when a `std::thread` that
was not joined is destroyed. -/
inductive MainPoint where
  | pipe
  | test
  | getline
  | shell
  | signal
  | join
  | closeRead
  | closeWrite
  | lock
  | closeConn
  | returned
  | terminated
  deriving DecidableEq, Repr

/-- Where the socket thread is: at `poll`, in one of the two loops of `read_one_message`, in a
handler, at the mutex that the handler of a login takes, or there with the mutex. -/
inductive ThreadPoint where
  | unborn
  | poll
  | header (got : Bytes)
  | payload (bytesToRead : Nat)
  | response
  | locking
  | locked
  | finished
  deriving DecidableEq, Repr

inductive FdState where
  | absent
  | opened
  | closed
  deriving DecidableEq, Repr

/-- What comes behind the bytes that have arrived: perhaps more of them, the end of the stream, or
an error. -/
inductive Inflow where
  | going
  | ended
  | broken
  deriving DecidableEq, Repr

/-- The two threads and what they share: the ends of `g_shutdown_pipe`, whether the byte is in
it, the descriptor of the connection with what has arrived there, `g_conn_mutex` and
`g_keep_running`. Two counters are kept beside them: the messages handled since the byte was
written, and the lines since the interrupt. -/
structure Messaging where
  main : MainPoint
  thread : ThreadPoint
  readEnd : FdState
  writeEnd : FdState
  signalled : Bool
  conn : FdState
  arrived : Bytes
  inflow : Inflow
  mutex : Bool
  keepRunning : Bool
  lateMessages : Nat
  lateLines : Nat
  deriving DecidableEq, Repr

namespace Messaging

/-- A connected client, in front of `pipe`. -/
def start : Messaging :=
  ⟨.pipe, .unborn, .absent, .absent, false, .opened, [], .going, false, true, 0, 0⟩

/-- A message is handled. -/
def countMessage (s : Messaging) : Messaging :=
  { s with lateMessages := s.lateMessages + if s.signalled then 1 else 0 }

/-- A line is handled. -/
def countLine (s : Messaging) : Messaging :=
  { s with lateLines := s.lateLines + if s.keepRunning then 0 else 1 }

/-- `read` on the connection has something to return. -/
def Readable (s : Messaging) : Prop := s.arrived ≠ [] ∨ s.inflow ≠ .going

/-- The socket thread is at a call of `read`. -/
inductive Reading (s : Messaging) : Prop where
  | header {got} : s.thread = .header got → got.length < MSG_HEADER_SIZE → Reading s
  | payload {n} : s.thread = .payload (n + 1) → Reading s

/-- The length of the payload, as the header has it. -/
def payloadLength (header : Bytes) : UInt32 := htonl (Words.ofLe32 ((header.drop 3).take 4))

/-- The calls and tests of the main thread, each with the ways in which it may turn out. -/
inductive MainStep (s : Messaging) : Messaging → Prop where
  | pipeFails : s.main = .pipe → MainStep s { s with main := .returned }
  | spawn : s.main = .pipe →
      MainStep s { s with main := .test, thread := .poll, readEnd := .opened, writeEnd := .opened }
  | goOn : s.main = .test → s.keepRunning = true → MainStep s { s with main := .getline }
  | interrupted : s.main = .test → s.keepRunning = false → MainStep s { s with main := .signal }
  | line : s.main = .getline → MainStep s { s with main := .shell }
  | endOfInput : s.main = .getline → MainStep s { s with main := .terminated }
  | proceed : s.main = .shell → MainStep s { s.countLine with main := .test }
  | quit : s.main = .shell → MainStep s { s.countLine with main := .signal }
  | signal : s.main = .signal → MainStep s { s with main := .join, signalled := true }
  | signalFails : s.main = .signal → MainStep s { s with main := .terminated }
  | join : s.main = .join → s.thread = .finished → MainStep s { s with main := .closeRead }
  | closeRead : s.main = .closeRead →
      MainStep s { s with main := .closeWrite, readEnd := .closed }
  | closeWrite : s.main = .closeWrite → MainStep s { s with main := .lock, writeEnd := .closed }
  | lock : s.main = .lock → s.mutex = false →
      MainStep s { s with main := .closeConn, mutex := true }
  | closeConn : s.main = .closeConn →
      MainStep s { s with main := .returned, conn := .closed, mutex := false }

/-- The steps of the socket thread. `poll` reports both descriptors at once, and the pipe is
looked at first. A call of `read` takes some of what has arrived, and only behind it are the end
of the stream and an error reported. -/
inductive ThreadStep (s : Messaging) : Messaging → Prop where
  | pollFails : s.thread = .poll → ThreadStep s { s with thread := .finished }
  | told : s.thread = .poll → s.signalled = true → ThreadStep s { s with thread := .finished }
  | ready : s.thread = .poll → s.signalled = false → s.Readable →
      ThreadStep s { s with thread := .header [] }
  | other : s.thread = .poll → s.signalled = false → ThreadStep s s
  | readHeader {got chunk rest} : s.thread = .header got → s.arrived = chunk ++ rest →
      chunk ≠ [] → (got ++ chunk).length ≤ MSG_HEADER_SIZE →
      ThreadStep s { s with thread := .header (got ++ chunk), arrived := rest }
  | tooBig {header} : s.thread = .header header → header.length = MSG_HEADER_SIZE →
      payloadLength header > MSG_MAX_PAYLOAD_SIZE → ThreadStep s { s with thread := .finished }
  | sized {header} : s.thread = .header header → header.length = MSG_HEADER_SIZE →
      payloadLength header ≤ MSG_MAX_PAYLOAD_SIZE →
      ThreadStep s { s with thread := .payload (payloadLength header).toNat }
  | readPayload {n chunk rest} : s.thread = .payload n → s.arrived = chunk ++ rest →
      chunk ≠ [] → chunk.length ≤ n →
      ThreadStep s { s with thread := .payload (n - chunk.length), arrived := rest }
  | readFails : s.Reading → s.arrived = [] → s.inflow ≠ .going →
      ThreadStep s { s with thread := .finished }
  | whole : s.thread = .payload 0 → ThreadStep s { s with thread := .response }
  | handled : s.thread = .response → ThreadStep s { s.countMessage with thread := .poll }
  | login : s.thread = .response → ThreadStep s { s with thread := .locking }
  | lock : s.thread = .locking → s.mutex = false →
      ThreadStep s { s with thread := .locked, mutex := true }
  | unlock : s.thread = .locked →
      ThreadStep s { s.countMessage with thread := .poll, mutex := false }

/-- A step of one of the two threads, while there is a process. -/
inductive Advance (s : Messaging) : Messaging → Prop where
  | main {t} : MainStep s t → Advance s t
  | thread {t} : s.main ≠ .terminated → ThreadStep s t → Advance s t

/-- What happens to the process: bytes arrive, the stream ends or breaks, or `SIGINT` comes. The
handler runs in either thread; in the socket thread it makes `poll` fail, and `read` too where that
waits for a payload, while `read` is called again for a header. -/
inductive Outside (s : Messaging) : Messaging → Prop where
  | arrive (bs) : s.inflow = .going → Outside s { s with arrived := s.arrived ++ bs }
  | ends (how) : s.inflow = .going → Outside s { s with inflow := how }
  | sigint : Outside s { s with keepRunning := false }
  | pollInterrupted : s.thread = .poll →
      Outside s { s with keepRunning := false, thread := .finished }
  | readInterrupted {n} : s.thread = .payload (n + 1) → s.arrived = [] →
      Outside s { s with keepRunning := false, thread := .finished }

inductive Step (s : Messaging) : Messaging → Prop where
  | advance {t} : Advance s t → Step s t
  | outside {t} : s.main ≠ .terminated → Outside s t → Step s t

abbrev Steps : Messaging → Messaging → Prop := Relation.ReflTransGen Step

end Messaging

end ChatServer
