import Mathlib.Logic.Relation
import ChatServer.Model.Services

/-!
# The event loop (`server_utils.cpp`, `server.cpp`)

What the outside world answers to the system calls of one event is a script. A
script that has run out stands for a quiet world: reads and accepts would block,
writes take the whole buffer, and the SQLite calls succeed.
-/

namespace ChatServer

open EdgeTrigger (Errno Rv Interest Syscall)

def STDIN_FILENO : Nat := 0

def isWouldBlock (err : Errno) : Bool := err == .EAGAIN

/-- The answer to one `write`: it took `k + 1` bytes, or all when there are
fewer, or it failed. -/
inductive WriteAnswer where
  | took (k : Nat)
  | fail (e : Errno)
  deriving DecidableEq, Repr

/-- The answer to one `accept`, with whether `fcntl` and `EPOLL_CTL_ADD` succeed on
the new descriptor. -/
inductive AcceptAnswer where
  | conn (fd : Nat) (nonblocking registered : Bool)
  | fail (e : Errno)
  deriving DecidableEq, Repr

/-- The answers to the system calls made while one event is handled; `sql` has one
outcome for each request served. -/
structure Script where
  accepts : List AcceptAnswer := []
  reads : List (Rv UInt8) := []
  writes : List WriteAnswer := []
  sql : List SqlOutcome := []
  deriving DecidableEq, Repr

/-- An entry of the array that `epoll_wait` fills. -/
structure Event where
  fd : Nat
  epollerr : Bool := false
  script : Script := {}
  deriving DecidableEq, Repr

namespace Server

/-! ## Requests -/

/-- The `switch` on the request type. -/
def dispatch (s : Server) (connfd : Nat) (request : Message) (o : SqlOutcome) :
    Server × Message :=
  if request.type = MsgType.register.code then s.registerUser request o
  else if request.type = MsgType.login.code then s.loginUser connfd request o
  else if request.type = MsgType.chat.code then s.handleBroadcastMessage connfd request
  else (s, buildServerResponse request.type ResponseCode.unknownCommand.code none 0)

/-- The request is answered in `s`: the response is queued and the history grows. -/
def respond (s : Server) (connfd : Nat) (frame : Bytes) (response : Message) (before : View)
    (o : SqlOutcome) : Server :=
  (s.setOutgoing connfd (writeMessageToBuffer (s.connManager.outgoingBuffers connfd)
    response)).record (.served ⟨connfd, frame, response, before, o⟩)

def tryOneRequest (s : Server) (connfd : Nat) (o : SqlOutcome) : Server × Bool :=
  let incoming := s.connManager.incomingBuffers connfd
  if incoming.length < MSG_HEADER_SIZE + 1 then (s, false)
  else
    let request := parseMessage incoming
    if request.payloadLength > MSG_MAX_PAYLOAD_SIZE then
      (s.setConnectionState connfd .closing, false)
    else
      let size := (UInt32.ofNat MSG_HEADER_SIZE + request.payloadLength).toNat
      if size > incoming.length then (s, false)
      else
        let handled := s.dispatch connfd request o
        let consumed := handled.1.setIncoming connfd
          (bufConsume (handled.1.connManager.incomingBuffers connfd) size)
        (consumed.respond connfd (incoming.take size) handled.2 s.view o, true)

/-- `while (try_one_request(connfd, epollfd))`. Every served request takes at least
seven bytes off the incoming buffer, so `fuel` above its length is enough. -/
def serveRequests (connfd : Nat) : Nat → Server → List SqlOutcome → Server
  | 0, s, _ => s
  | fuel + 1, s, sql =>
    match s.tryOneRequest connfd (sql.headD {}) with
    | (s', true) => serveRequests connfd fuel s' sql.tail
    | (s', false) => s'

/-! ## Reading and writing -/

/-- The `read` loop: `true` when the socket is drained, `false` when the
connection is to be closed. -/
def readAvailable (s : Server) (connfd : Nat) : List (Rv UInt8) → Server × Bool
  | [] => (s.sys (.read connfd (.fail .EAGAIN)), true)
  | .bytes [] :: _ =>
    ((s.sys (.read connfd (.bytes []))).setConnectionState connfd .closing, false)
  | .bytes (b :: bs) :: rvs =>
    let s := s.sys (.read connfd (.bytes (b :: bs)))
    readAvailable (s.setIncoming connfd
      (bufAppend (s.connManager.incomingBuffers connfd) (b :: bs))) connfd rvs
  | .fail e :: _ =>
    let s := s.sys (.read connfd (.fail e))
    if isWouldBlock e then (s, true) else (s.setConnectionState connfd .closing, false)

def handleReadConnection (s : Server) (connfd : Nat) (script : Script) : Server :=
  let drained := s.readAvailable connfd script.reads
  if !drained.2 then drained.1
  else
    let s := serveRequests connfd ((drained.1.connManager.incomingBuffers connfd).length + 1)
      drained.1 script.sql
    if (s.connManager.outgoingBuffers connfd).length > 0 then s.setConnectionState connfd .writing
    else s

/-- `write` took `n` bytes, which `buf_consume` then removes. -/
def written (s : Server) (connfd n : Nat) : Server :=
  let outgoing := s.connManager.outgoingBuffers connfd
  (s.sys (.write connfd (.bytes (outgoing.take n)))).setOutgoing connfd (bufConsume outgoing n)

/-- A `write` on a connection the peer has reset raises `SIGPIPE`, for which `main`
installs no handler. -/
def handleWriteConnection (s : Server) (connfd : Nat) : List WriteAnswer → Server
  | [] =>
    (s.written connfd (s.connManager.outgoingBuffers connfd).length).setConnectionState connfd
      .reading
  | .took k :: answers =>
    let s := s.written connfd (min (k + 1) (s.connManager.outgoingBuffers connfd).length)
    if (s.connManager.outgoingBuffers connfd).length = 0 then s.setConnectionState connfd .reading
    else handleWriteConnection s connfd answers
  | .fail e :: _ =>
    let s := s.sys (.write connfd (.fail e))
    if e = .EPIPE then s.setStatus .killed
    else if isWouldBlock e then s
    else s.setConnectionState connfd .closing

/-! ## The connection table -/

/-- Reallocate the table if `connfd` is behind its end. -/
def grow (s : Server) (connfd : Nat) : Server :=
  if s.getSize ≤ connfd then { s with connManager := s.connManager.resize (connfd + 1) } else s

/-- The tail of `add_connection`, after `EPOLL_CTL_ADD` has succeeded. -/
def activate (s : Server) (connfd : Nat) : Server :=
  (s.grow connfd).setFlags connfd (.isActive ||| .wantRead)

def addConnection (s : Server) (connfd : Nat) (nonblocking registered : Bool) : Server :=
  if !nonblocking then s.setStatus (.exited (-1))
  else if !registered then s
  else (s.sys (.add connfd .input)).activate connfd

def removeConnection (s : Server) (connfd : Nat) : Server :=
  (s.setFlags connfd .none).sys (.delete connfd)

def acceptAllConnections (s : Server) : List AcceptAnswer → Server
  | [] => s
  | .fail e :: _ => if isWouldBlock e then s else s.setStatus (.exited (-1))
  | .conn fd nonblocking registered :: answers =>
    let s := (s.sys (.accept fd)).addConnection fd nonblocking registered
    if s.status = .running then acceptAllConnections s answers else s

/-! ## The loop of `main` -/

def readStage (s : Server) (ev : Event) : Server :=
  if hasFlag (s.connManager.flags ev.fd) .wantRead then s.handleReadConnection ev.fd ev.script
  else s

def writeStage (s : Server) (ev : Event) : Server :=
  if hasFlag (s.connManager.flags ev.fd) .wantWrite then
    s.handleWriteConnection ev.fd ev.script.writes
  else s

def closeStage (s : Server) (ev : Event) : Server :=
  if s.status = .running ∧
      (ev.epollerr = true ∨ hasFlag (s.connManager.flags ev.fd) .wantClose = true) then
    s.removeConnection ev.fd
  else s

/-- The events of a connection: read, write and close, as the flags ask by then. -/
def handleConnection (s : Server) (ev : Event) : Server :=
  ((s.readStage ev).writeStage ev).closeStage ev

/-- One iteration of the loop over the ready events. Commands typed on standard
input only print metrics. -/
def handleEvent (s : Server) (ev : Event) : Server :=
  if s.status ≠ .running then s
  else if ev.fd = s.listenfd then
    if ev.epollerr then s.setStatus (.exited (-1)) else s.acceptAllConnections ev.script.accepts
  else if ev.fd = STDIN_FILENO then
    if ev.epollerr then s.setStatus (.exited (-1)) else s
  else s.handleConnection ev

end Server

/-- What `epoll_wait` returned. -/
inductive Wait where
  | ready (events : List Event)
  | fail

namespace Server

/-- One iteration of `while (true)`. -/
def iterate (s : Server) : Wait → Server
  | .ready events => events.foldl handleEvent s
  | .fail => if s.status = .running then s.setStatus (.exited (-1)) else s

/-- The server when `main` enters its loop. -/
def boot (capacity listenfd : Nat) (db : Db) : Server :=
  ⟨listenfd, createConnectionManager capacity, db, .running, []⟩

end Server

/-- `accept` never returns standard input or the listening socket, which stay open. -/
def Event.Legal (listenfd : Nat) (ev : Event) : Prop :=
  ∀ fd nonblocking registered, .conn fd nonblocking registered ∈ ev.script.accepts →
    fd ≠ STDIN_FILENO ∧ fd ≠ listenfd

def Wait.Legal (listenfd : Nat) : Wait → Prop
  | .ready events => ∀ ev ∈ events, ev.Legal listenfd
  | .fail => True

/-- The states at the top of the loop, over every run and every answer of the
outside world. A batch of events may be of any length, so the state between two
events of a batch is one of them. -/
def Reaches : Server → Server → Prop :=
  Relation.ReflTransGen fun s t => ∃ w : Wait, w.Legal s.listenfd ∧ t = s.iterate w

/-- Control is at the call of `try_one_request` for connection `c`. -/
inductive AtRequest (s₀ : Server) (c : Nat) : Server → Prop where
  | first {s t reads} : Reaches s₀ s → s.status = .running → c ≠ s.listenfd →
      c ≠ STDIN_FILENO → hasFlag (s.connManager.flags c) .wantRead = true →
      s.readAvailable c reads = (t, true) → AtRequest s₀ c t
  | next {t t' o} : AtRequest s₀ c t → t.tryOneRequest c o = (t', true) → AtRequest s₀ c t'

end ChatServer
