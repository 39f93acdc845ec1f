import ChatServer.Model.Db
import ChatServer.Model.ClientProtocol
import ChatServer.Model.Transport

/-!
# The client's reaction to the server (`client_utils.cpp`)

The socket thread reads one message at a time and hands it to the handler of its type. A
handler prints or logs one line, which is modelled by the values that its format string shows;
text is cut at its first NUL there. Only the handler of a login touches the connection.
-/

namespace ChatServer

/-- The part of `conn_t` that the handlers write. -/
structure Client where
  user : User
  flags : ConnFlags
  deriving DecidableEq, Repr

def getResponseMessage (rc : UInt8) : String :=
  if rc = ResponseCode.ok.byte then "Success"
  else if rc = ResponseCode.malformed.byte then "Malformed request"
  else if rc = ResponseCode.userExists.byte then "Username already taken"
  else if rc = ResponseCode.userNotFound.byte then "User not found"
  else if rc = ResponseCode.invalidCredentials.byte then "Invalid credentials"
  else if rc = ResponseCode.internal.byte then "Internal server error"
  else if rc = ResponseCode.unknownCommand.byte then "Unknown command"
  else "Unknown response code (" ++ toString rc ++ ")"

/-- The line that a handler shows. An id is printed as a signed number. -/
inductive Notice where
  | registrationFailed (reason : String)
  | registrationUndecoded
  | registered (id : Int) (username : Bytes)
  | loginFailed (reason : String)
  | loginUndecoded
  | loggedIn (id : Int) (username : Bytes)
  | sendFailed (reason : String)
  | direct (sender recipient content : Bytes)
  | global (sender content : Bytes)
  | unknownBroadcast (tag : UInt8)
  | unknownType (type : UInt8)
  deriving DecidableEq, Repr

/-- `%d` of an unsigned id. -/
def printedId (id : UInt32) : Int := id.toInt32.toInt

def printChatMessage (sender recipient message : Bytes) : Notice :=
  if recipient ≠ [] then .direct (cString sender) (cString recipient) (cString message)
  else .global (cString sender) (cString message)

/-- The result is `none` where the parser's behaviour is not defined. -/
def handleRegistrationResponse (response : Message) : Option Notice :=
  if response.rc ≠ 0 then some (.registrationFailed (getResponseMessage response.rc))
  else
    match parseRegisterResponse response .empty with
    | none => none
    | some (ret, user) =>
      if ret = -1 then some .registrationUndecoded
      else some (.registered (printedId user.userId) (cString user.username))

def Client.handleLoginResponse (conn : Client) (response : Message) : Option (Client × Notice) :=
  if response.rc ≠ 0 then some (conn, .loginFailed (getResponseMessage response.rc))
  else
    match parseLoginResponse response .empty with
    | none => none
    | some (ret, user) =>
      if ret = -1 then some (conn, .loginUndecoded)
      else
        some (⟨⟨user.userId, user.username, conn.user.password⟩, conn.flags ||| .isAuth⟩,
          .loggedIn (printedId user.userId) (cString user.username))

/-- The code of the parser is not looked at. -/
def handleBroadcastResponse (response : Message) : Notice :=
  if response.rc ≠ 0 then .sendFailed (getResponseMessage response.rc)
  else
    let broadcastType := peekBroadcastType response
    if broadcastType = TlvTag.p2pBroadcast.code then
      let broadcast := (fillP2pBroadcast response).2
      printChatMessage broadcast.senderUsername broadcast.recipientUsername
        broadcast.messageContent
    else if broadcastType = TlvTag.worldBroadcast.code then
      let broadcast := (fillWorldBroadcast response).2
      printChatMessage broadcast.senderUsername [] broadcast.messageContent
    else .unknownBroadcast broadcastType

/-- The `switch` of `handle_server_response`. -/
def Client.handleResponse (conn : Client) (response : Message) : Option (Client × Notice) :=
  if response.type = MsgType.register.code then
    (handleRegistrationResponse response).map fun notice => (conn, notice)
  else if response.type = MsgType.login.code then conn.handleLoginResponse response
  else if response.type = MsgType.chat.code then some (conn, handleBroadcastResponse response)
  else some (conn, .unknownType response.type)

/-- How a call of `handle_server_response` ends. After `stopped` it returns false and the
thread leaves its loop. -/
inductive Reaction where
  | stopped
  | handled (conn : Client) (notice : Notice) (sched : List Transfer) (stream : Bytes)
  | undefined
  deriving DecidableEq, Repr

/-- `payloadBuffer` is what the uninitialised buffer on the stack holds. -/
def Client.handleServerResponse (conn : Client) (payloadBuffer : Bytes) (sched : List Transfer)
    (stream : Bytes) : Reaction :=
  match readOneMessage payloadBuffer sched stream with
  | .error _ => .stopped
  | .ok (response, sched, stream) =>
    match conn.handleResponse response with
    | none => .undefined
    | some (conn, notice) => .handled conn notice sched stream

end ChatServer
