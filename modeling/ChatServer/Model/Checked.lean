import ChatServer.Model.EventLoop

/-!
# The event loop with checked indices (`server_utils.cpp`, `server.cpp`)

The functions that index the connection table, with each access checked against the length of
the array it is made on. `none` is an access out of range. What is computed is the same.
-/

namespace ChatServer.Checked

open EdgeTrigger (Errno Rv Interest Syscall)

/-! ## Accesses -/

section Accesses

variable (s : Server) (i : Nat)

def flags : Option ConnFlags :=
  s.connManager.flags.access i (s.connManager.flags i)

def incoming : Option Bytes :=
  s.connManager.incomingBuffers.access i (s.connManager.incomingBuffers i)

def outgoing : Option Bytes :=
  s.connManager.outgoingBuffers.access i (s.connManager.outgoingBuffers i)

def username : Option Bytes :=
  s.connManager.usernames.access i (s.connManager.usernames i)

def setFlags (f : ConnFlags) : Option Server :=
  s.connManager.flags.access i (s.setFlags i f)

def setIncoming (b : Bytes) : Option Server :=
  s.connManager.incomingBuffers.access i (s.setIncoming i b)

def setOutgoing (b : Bytes) : Option Server :=
  s.connManager.outgoingBuffers.access i (s.setOutgoing i b)

def setUserId (id : UInt32) : Option Server :=
  s.connManager.userIds.access i (s.setUserId i id)

def setUsername (name : Bytes) : Option Server :=
  s.connManager.usernames.access i (s.setUsername i name)

end Accesses

def setConnectionState (s : Server) (connfd : Nat) (next : ConnState) : Option Server := do
  let current ← flags s connfd
  let s ← setFlags s connfd (next.nextFlags current)
  match next with
  | .reading => some (s.sys (.modify connfd .input))
  | .writing => some (s.sys (.modify connfd .output))
  | .closing => some s

/-! ## Login and broadcasts -/

def loginUser (s : Server) (connfd : Nat) (request : Message) (o : SqlOutcome) :
    Option (Server × Message) :=
  match parseLoginRequest request with
  | .error rc => some (s, buildServerResponse MsgType.login.code rc none 0)
  | .ok credentials =>
    let found := getUserByUsername s.db (stringToLower credentials.username) .empty o
    if found.1 ≠ 1 then
      if found.1 = 0 then
        some (s, buildServerResponse MsgType.login.code ResponseCode.userNotFound.code none 0)
      else some (s, buildServerResponse MsgType.login.code ResponseCode.internal.code none 0)
    else if found.2.password ≠ credentials.password then
      some (s, buildServerResponse MsgType.login.code ResponseCode.invalidCredentials.code none 0)
    else do
      let s ← setUserId s connfd found.2.userId
      let s ← setUsername s connfd found.2.username
      let current ← flags s connfd
      let s ← setFlags s connfd (current ||| .isAuth)
      match buildLoginResponse found.2 with
      | .error _ =>
        some (s, buildServerResponse MsgType.login.code ResponseCode.internal.code none 0)
      | .ok response => some (s, response)

def isValidRecipient (s : Server) (connfd i : Nat) : Option Bool := do
  let current ← flags s i
  some (hasFlag current .isAuth && i != connfd)

def deliver (s : Server) (i : Nat) (serialized : Bytes) : Option Server := do
  let queued ← outgoing s i
  let s ← setOutgoing s i (bufAppend queued serialized)
  setConnectionState s i .writing

/-- The loop of the world broadcast over the indices that are left. -/
def fanOutFrom (connfd : Nat) (serialized : Bytes) : List Nat → Server → Option Server
  | [], s => some s
  | i :: is, s => do
    let valid ← isValidRecipient s connfd i
    let s ← if valid then deliver s i serialized else some s
    fanOutFrom connfd serialized is s

def fanOut (s : Server) (connfd : Nat) (serialized : Bytes) : Option Server :=
  fanOutFrom connfd serialized (List.range s.getSize) s

/-- The search of the P2P broadcast over the indices that are left. -/
def findRecipientFrom (s : Server) (connfd : Nat) (recipient : Bytes) :
    List Nat → Option (Option Nat)
  | [] => some none
  | i :: is => do
    let valid ← isValidRecipient s connfd i
    if !valid then findRecipientFrom s connfd recipient is
    else
      let name ← username s i
      if name == recipient then some (some i) else findRecipientFrom s connfd recipient is

def findRecipient (s : Server) (connfd : Nat) (recipient : Bytes) : Option (Option Nat) :=
  findRecipientFrom s connfd recipient (List.range s.getSize)

def handleWorldBroadcast (s : Server) (connfd : Nat) (request : Message) :
    Option (Server × Message) :=
  match parseWorldBroadcast request with
  | .error ret => some (s.rejectChat ret)
  | .ok broadcast =>
    if broadcast.messageContent.isEmpty then some (s.rejectChat ResponseCode.malformed.code)
    else do
      let sender ← username s connfd
      match buildWorldBroadcastNotification { broadcast with senderUsername := sender } with
      | .error ret => some (s.rejectChat ret)
      | .ok response =>
        let s ← fanOut s connfd (writeMessageToBuffer [] response)
        some (s, response)

def handleP2pBroadcast (s : Server) (connfd : Nat) (request : Message) :
    Option (Server × Message) :=
  match parseP2pBroadcast request with
  | .error ret => some (s.rejectChat ret)
  | .ok broadcast =>
    if broadcast.messageContent.isEmpty then some (s.rejectChat ResponseCode.malformed.code)
    else do
      let sender ← username s connfd
      let broadcast := { broadcast with senderUsername := sender }
      if broadcast.senderUsername = broadcast.recipientUsername then
        some (s.rejectChat ResponseCode.malformed.code)
      else
        match buildP2pBroadcastNotification broadcast with
        | .error ret => some (s.rejectChat ret)
        | .ok response =>
          match ← findRecipient s connfd broadcast.recipientUsername with
          | none => some (s.rejectChat ResponseCode.userNotFound.code)
          | some i =>
            let s ← deliver s i (writeMessageToBuffer [] response)
            some (s, response)

def handleBroadcastMessage (s : Server) (connfd : Nat) (request : Message) :
    Option (Server × Message) := do
  let current ← flags s connfd
  if !hasFlag current .isAuth then some (s.rejectChat ResponseCode.invalidCredentials.code)
  else if peekBroadcastType request = TlvTag.worldBroadcast.code then
    handleWorldBroadcast s connfd request
  else if peekBroadcastType request = TlvTag.p2pBroadcast.code then
    handleP2pBroadcast s connfd request
  else some (s.rejectChat ResponseCode.malformed.code)

/-! ## Requests -/

/-- `register_user` does not touch the table. -/
def dispatch (s : Server) (connfd : Nat) (request : Message) (o : SqlOutcome) :
    Option (Server × Message) :=
  if request.type = MsgType.register.code then some (s.registerUser request o)
  else if request.type = MsgType.login.code then loginUser s connfd request o
  else if request.type = MsgType.chat.code then handleBroadcastMessage s connfd request
  else some (s, buildServerResponse request.type ResponseCode.unknownCommand.code none 0)

def tryOneRequest (s : Server) (connfd : Nat) (o : SqlOutcome) : Option (Server × Bool) := do
  let buffer ← incoming s connfd
  if buffer.length < MSG_HEADER_SIZE + 1 then some (s, false)
  else
    let request := parseMessage buffer
    if request.payloadLength > MSG_MAX_PAYLOAD_SIZE then
      let s ← setConnectionState s connfd .closing
      some (s, false)
    else
      let size := (UInt32.ofNat MSG_HEADER_SIZE + request.payloadLength).toNat
      if size > buffer.length then some (s, false)
      else
        let before := s.view
        let (s, response) ← dispatch s connfd request o
        let rest ← incoming s connfd
        let s ← setIncoming s connfd (bufConsume rest size)
        let queued ← outgoing s connfd
        let s ← setOutgoing s connfd (writeMessageToBuffer queued response)
        some (s.record (.served ⟨connfd, buffer.take size, response, before, o⟩), true)

def serveRequests (connfd : Nat) : Nat → Server → List SqlOutcome → Option Server
  | 0, s, _ => some s
  | fuel + 1, s, sql => do
    match ← tryOneRequest s connfd (sql.headD {}) with
    | (s', true) => serveRequests connfd fuel s' sql.tail
    | (s', false) => some s'

/-! ## Reading and writing -/

/-- At the end of the stream the log line is chosen by what the table says. -/
def logDisconnect (s : Server) (connfd : Nat) : Option Unit := do
  let buffer ← incoming s connfd
  if buffer.length = 0 then
    let current ← flags s connfd
    if hasFlag current .isAuth then
      let _ ← username s connfd
      some ()
    else some ()
  else some ()

def readAvailable (s : Server) (connfd : Nat) : List (Rv UInt8) → Option (Server × Bool)
  | [] => some (s.sys (.read connfd (.fail .EAGAIN)), true)
  | .bytes [] :: _ => do
    let s := s.sys (.read connfd (.bytes []))
    logDisconnect s connfd
    let s ← setConnectionState s connfd .closing
    some (s, false)
  | .bytes (b :: bs) :: rvs => do
    let s := s.sys (.read connfd (.bytes (b :: bs)))
    let buffer ← incoming s connfd
    let s ← setIncoming s connfd (bufAppend buffer (b :: bs))
    readAvailable s connfd rvs
  | .fail e :: _ => do
    let s := s.sys (.read connfd (.fail e))
    if isWouldBlock e then some (s, true)
    else
      let s ← setConnectionState s connfd .closing
      some (s, false)

def handleReadConnection (s : Server) (connfd : Nat) (script : Script) : Option Server := do
  let (s, drained) ← readAvailable s connfd script.reads
  if !drained then some s
  else
    let buffer ← incoming s connfd
    let s ← serveRequests connfd (buffer.length + 1) s script.sql
    let queued ← outgoing s connfd
    if queued.length > 0 then setConnectionState s connfd .writing else some s

def written (s : Server) (connfd n : Nat) : Option Server := do
  let queued ← outgoing s connfd
  setOutgoing (s.sys (.write connfd (.bytes (queued.take n)))) connfd (bufConsume queued n)

def handleWriteConnection (s : Server) (connfd : Nat) : List WriteAnswer → Option Server
  | [] => do
    let queued ← outgoing s connfd
    let s ← written s connfd queued.length
    setConnectionState s connfd .reading
  | .took k :: answers => do
    let queued ← outgoing s connfd
    let s ← written s connfd (min (k + 1) queued.length)
    let queued ← outgoing s connfd
    if queued.length = 0 then setConnectionState s connfd .reading
    else handleWriteConnection s connfd answers
  | .fail e :: _ => do
    let _ ← outgoing s connfd
    let s := s.sys (.write connfd (.fail e))
    if e = .EPIPE then some (s.setStatus .killed)
    else if isWouldBlock e then some s
    else setConnectionState s connfd .closing

/-! ## The connection table -/

def addConnection (s : Server) (connfd : Nat) (nonblocking registered : Bool) : Option Server :=
  if !nonblocking then some (s.setStatus (.exited (-1)))
  else if !registered then some s
  else setFlags ((s.sys (.add connfd .input)).grow connfd) connfd (.isActive ||| .wantRead)

def removeConnection (s : Server) (connfd : Nat) : Option Server := do
  let s ← setFlags s connfd .none
  some (s.sys (.delete connfd))

def acceptAllConnections (s : Server) : List AcceptAnswer → Option Server
  | [] => some s
  | .fail e :: _ => if isWouldBlock e then some s else some (s.setStatus (.exited (-1)))
  | .conn fd nonblocking registered :: answers => do
    let s ← addConnection (s.sys (.accept fd)) fd nonblocking registered
    if s.status = .running then acceptAllConnections s answers else some s

/-! ## The loop of `main` -/

def readStage (s : Server) (ev : Event) : Option Server := do
  let current ← flags s ev.fd
  if hasFlag current .wantRead then handleReadConnection s ev.fd ev.script else some s

def writeStage (s : Server) (ev : Event) : Option Server := do
  let current ← flags s ev.fd
  if hasFlag current .wantWrite then handleWriteConnection s ev.fd ev.script.writes else some s

def closeStage (s : Server) (ev : Event) : Option Server := do
  let current ← flags s ev.fd
  if s.status = .running ∧ (ev.epollerr = true ∨ hasFlag current .wantClose = true) then
    removeConnection s ev.fd
  else some s

def handleConnection (s : Server) (ev : Event) : Option Server := do
  let s ← readStage s ev
  let s ← writeStage s ev
  closeStage s ev

def handleEvent (s : Server) (ev : Event) : Option Server :=
  if s.status ≠ .running then some s
  else if ev.fd = s.listenfd then
    if ev.epollerr then some (s.setStatus (.exited (-1)))
    else acceptAllConnections s ev.script.accepts
  else if ev.fd = STDIN_FILENO then
    if ev.epollerr then some (s.setStatus (.exited (-1))) else some s
  else handleConnection s ev

def handleEvents : List Event → Server → Option Server
  | [], s => some s
  | ev :: events, s => do
    let s ← handleEvent s ev
    handleEvents events s

def iterate (s : Server) : Wait → Option Server
  | .ready events => handleEvents events s
  | .fail => some (if s.status = .running then s.setStatus (.exited (-1)) else s)

end ChatServer.Checked
