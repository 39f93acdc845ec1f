import ChatServer.Model.State

/-!
# Connection states and application services (`server_utils.cpp`)

The services return the state and the response they leave in `response`; their
own return code is ignored by the caller.
-/

namespace ChatServer

open EdgeTrigger (Errno Rv Interest Syscall)

/-- `enum class ConnState`. -/
inductive ConnState where
  | reading
  | writing
  | closing
  deriving DecidableEq, Repr

/-- The flags that `set_connection_state` leaves. -/
def ConnState.nextFlags (next : ConnState) (f : ConnFlags) : ConnFlags :=
  match next with
  | .reading => (f ||| .wantRead) &&& ~~~.wantWrite
  | .writing => (f &&& ~~~.wantRead) ||| .wantWrite
  | .closing => f ||| .wantClose

namespace Server

/-- A failing `epoll_ctl` is logged and otherwise ignored. -/
def setConnectionState (s : Server) (connfd : Nat) (next : ConnState) : Server :=
  let s := s.setFlags connfd (next.nextFlags (s.connManager.flags connfd))
  match next with
  | .reading => s.sys (.modify connfd .input)
  | .writing => s.sys (.modify connfd .output)
  | .closing => s

/-! ## Registration and login -/

def registerUser (s : Server) (request : Message) (o : SqlOutcome) : Server × Message :=
  match parseRegisterRequest request with
  | .error rc => (s, buildServerResponse MsgType.register.code rc none 0)
  | .ok credentials =>
    let found := getUserByUsername s.db (stringToLower credentials.username) .empty o
    if found.1 = 1 then
      (s, buildServerResponse MsgType.register.code ResponseCode.userExists.code none 0)
    else if found.1 = -1 then
      (s, buildServerResponse MsgType.register.code ResponseCode.internal.code none 0)
    else
      let inserted := insertUser s.db ⟨0, credentials.username, credentials.password⟩ o
      let s := s.setDb inserted.2.2
      if inserted.1 ≠ 0 then
        (s, buildServerResponse MsgType.register.code ResponseCode.internal.code none 0)
      else
        match buildRegisterResponse inserted.2.1 with
        | .error _ =>
          (s, buildServerResponse MsgType.register.code ResponseCode.internal.code none 0)
        | .ok response => (s, response)

def loginUser (s : Server) (connfd : Nat) (request : Message) (o : SqlOutcome) :
    Server × Message :=
  match parseLoginRequest request with
  | .error rc => (s, buildServerResponse MsgType.login.code rc none 0)
  | .ok credentials =>
    let found := getUserByUsername s.db (stringToLower credentials.username) .empty o
    if found.1 ≠ 1 then
      if found.1 = 0 then
        (s, buildServerResponse MsgType.login.code ResponseCode.userNotFound.code none 0)
      else (s, buildServerResponse MsgType.login.code ResponseCode.internal.code none 0)
    else if found.2.password ≠ credentials.password then
      (s, buildServerResponse MsgType.login.code ResponseCode.invalidCredentials.code none 0)
    else
      let s := s.setUserId connfd found.2.userId
      let s := s.setUsername connfd found.2.username
      let s := s.setFlags connfd (s.connManager.flags connfd ||| .isAuth)
      match buildLoginResponse found.2 with
      | .error _ => (s, buildServerResponse MsgType.login.code ResponseCode.internal.code none 0)
      | .ok response => (s, response)

/-! ## Broadcasts -/

def isValidRecipient (s : Server) (connfd i : Nat) : Bool :=
  hasFlag (s.connManager.flags i) .isAuth && i != connfd

/-- One recipient of a broadcast: the bytes go behind what is already queued. -/
def deliver (s : Server) (i : Nat) (serialized : Bytes) : Server :=
  (s.queueBytes i serialized).setConnectionState i .writing

/-- The loop of the world broadcast over the whole table. -/
def fanOut (s : Server) (connfd : Nat) (serialized : Bytes) : Server :=
  (List.range s.getSize).foldl
    (fun s i => if isValidRecipient s connfd i then s.deliver i serialized else s) s

/-- The search of the P2P broadcast, left at the first match. -/
def findRecipient (s : Server) (connfd : Nat) (recipient : Bytes) : Option Nat :=
  (List.range s.getSize).find? fun i =>
    s.isValidRecipient connfd i && s.connManager.usernames i == recipient

def rejectChat (s : Server) (rc : Int) : Server × Message :=
  (s, buildServerResponse MsgType.chat.code rc none 0)

def handleWorldBroadcast (s : Server) (connfd : Nat) (request : Message) : Server × Message :=
  match parseWorldBroadcast request with
  | .error ret => s.rejectChat ret
  | .ok broadcast =>
    if broadcast.messageContent.isEmpty then s.rejectChat ResponseCode.malformed.code
    else
      let broadcast := { broadcast with senderUsername := s.connManager.usernames connfd }
      match buildWorldBroadcastNotification broadcast with
      | .error ret => s.rejectChat ret
      | .ok response => (s.fanOut connfd (writeMessageToBuffer [] response), response)

def handleP2pBroadcast (s : Server) (connfd : Nat) (request : Message) : Server × Message :=
  match parseP2pBroadcast request with
  | .error ret => s.rejectChat ret
  | .ok broadcast =>
    if broadcast.messageContent.isEmpty then s.rejectChat ResponseCode.malformed.code
    else
      let broadcast := { broadcast with senderUsername := s.connManager.usernames connfd }
      if broadcast.senderUsername = broadcast.recipientUsername then
        s.rejectChat ResponseCode.malformed.code
      else
        match buildP2pBroadcastNotification broadcast with
        | .error ret => s.rejectChat ret
        | .ok response =>
          match s.findRecipient connfd broadcast.recipientUsername with
          | none => s.rejectChat ResponseCode.userNotFound.code
          | some i => (s.deliver i (writeMessageToBuffer [] response), response)

/-- The two `case` blocks of the source are `handleWorldBroadcast` and
`handleP2pBroadcast`. -/
def handleBroadcastMessage (s : Server) (connfd : Nat) (request : Message) : Server × Message :=
  if !hasFlag (s.connManager.flags connfd) .isAuth then
    s.rejectChat ResponseCode.invalidCredentials.code
  else if peekBroadcastType request = TlvTag.worldBroadcast.code then
    s.handleWorldBroadcast connfd request
  else if peekBroadcastType request = TlvTag.p2pBroadcast.code then
    s.handleP2pBroadcast connfd request
  else s.rejectChat ResponseCode.malformed.code

end Server

end ChatServer
