import ChatServer.Lib.Tlv
import ChatServer.Lib.Words
import ChatServer.Model.Shared

/-!
# The wire protocol (`protocol.hpp`, `protocol.cpp`)

A message is a seven-byte header (version, type, response code, payload length
in network order) followed by a payload of tag-length-value fields. A `message_t`
holds a pointer to its payload, which for a request points into the connection's
incoming buffer: the memory behind it runs past the payload's end. The parsers
return `.error rc` where the source returns a non-zero `rc`.
-/

namespace ChatServer

def MSG_HEADER_SIZE : Nat := 7
def MSG_MAX_PAYLOAD_SIZE : UInt32 := 4096

/-- `message_t`; `none` is the null payload pointer. -/
structure Message where
  payloadLength : UInt32
  version : UInt8
  type : UInt8
  rc : UInt8
  payload : Option Bytes
  deriving DecidableEq, Repr

/-- `msg_type_t`. -/
inductive MsgType where
  | register
  | login
  | chat
  | list
  deriving DecidableEq, Repr

def MsgType.code : MsgType → UInt8
  | .register => 0
  | .login => 1
  | .chat => 2
  | .list => 3

/-- `response_code_t`. -/
inductive ResponseCode where
  | ok
  | malformed
  | userExists
  | userNotFound
  | invalidCredentials
  | internal
  | unknownCommand
  deriving DecidableEq, Repr

def ResponseCode.code : ResponseCode → Int
  | .ok => 0
  | .malformed => 1
  | .userExists => 2
  | .userNotFound => 3
  | .invalidCredentials => 4
  | .internal => 5
  | .unknownCommand => 6

/-- The code in the `rc` byte of a message. -/
def ResponseCode.byte (code : ResponseCode) : UInt8 := UInt8.ofNat (code.code % 256).toNat

/-- `tlv_tag_t`. -/
inductive TlvTag where
  | username
  | password
  | responseCode
  | responseMessage
  | worldBroadcast
  | p2pBroadcast
  | userId
  | roomId
  | isAuth
  | senderUsername
  | recipientUsername
  | messageContent
  | timestamp
  deriving DecidableEq, Repr

def TlvTag.code : TlvTag → UInt8
  | .username => 0
  | .password => 1
  | .responseCode => 2
  | .responseMessage => 3
  | .worldBroadcast => 4
  | .p2pBroadcast => 5
  | .userId => 6
  | .roomId => 7
  | .isAuth => 8
  | .senderUsername => 9
  | .recipientUsername => 10
  | .messageContent => 11
  | .timestamp => 12

/-- `registration_credentials_t` and `login_credentials_t`. -/
structure Credentials where
  username : Bytes
  password : Bytes
  deriving DecidableEq, Repr

/-- `world_broadcast_t`. -/
structure WorldBroadcast where
  senderUsername : Bytes
  messageContent : Bytes
  deriving DecidableEq, Repr

/-- `p2p_broadcast_t`. -/
structure P2pBroadcast where
  senderUsername : Bytes
  recipientUsername : Bytes
  messageContent : Bytes
  deriving DecidableEq, Repr

/-! ## Utilities -/

/-- `htonl` and `ntohl` on a little-endian host. -/
def htonl (v : UInt32) : UInt32 := Words.swap v

/-- `static_cast<uint8_t>` of a string length. -/
def lengthByte (s : Bytes) : UInt8 := UInt8.ofNat s.length

/-- `value` is the memory at the value pointer, of which `len` bytes are copied.
Two- and four-byte numbers are stored in network order on request. -/
def writeTlv (buf : Bytes) (tag : TlvTag) (len : UInt8) (value : Bytes)
    (convertToNetwork : Bool) : Bytes :=
  buf ++ [tag.code, len] ++
    if convertToNetwork then
      if len = 2 then (value.take 2).reverse
      else if len = 4 then Words.le32 (htonl (Words.ofLe32 (value.take 4)))
      else value.take len.toNat
    else value.take len.toNat

def bufAppend (buf data : Bytes) : Bytes := buf ++ data

def bufConsume (buf : Bytes) (n : Nat) : Bytes := buf.drop n

def writeMessageToBuffer (buffer : Bytes) (message : Message) : Bytes :=
  let buffer := bufAppend buffer [message.version]
  let buffer := bufAppend buffer [message.type]
  let buffer := bufAppend buffer [message.rc]
  let buffer := bufAppend buffer (Words.le32 (htonl message.payloadLength))
  match message.payload with
  | some payload =>
    if 0 < message.payloadLength then bufAppend buffer (payload.take message.payloadLength.toNat)
    else buffer
  | none => buffer

def parseMessage (buffer : Bytes) : Message where
  version := buffer.getD 0 0
  type := buffer.getD 1 0
  rc := buffer.getD 2 0
  payloadLength := htonl (Words.ofLe32 ((buffer.drop 3).take 4))
  payload := some (buffer.drop MSG_HEADER_SIZE)

/-- The tag byte is read at the payload pointer, whatever the payload length. -/
def peekBroadcastType (request : Message) : UInt8 := (request.payload.getD []).headD 0

def buildServerResponse (type : UInt8) (rc : Int) (payload : Option Bytes)
    (payloadLen : UInt32) : Message where
  version := 1
  type := type
  rc := UInt8.ofNat (rc % 256).toNat
  payload := payload
  payloadLength := payloadLen

/-- The bytes from the payload pointer to the payload's end. -/
def Message.payloadBytes (msg : Message) : Bytes :=
  (msg.payload.getD []).take msg.payloadLength.toNat

/-! ## Registration and login -/

/-- The locals of the credential parsers. -/
structure CredentialFields where
  credentials : Credentials
  hasUsername : Bool
  hasPassword : Bool

def onCredentialTlv (st : CredentialFields) (tag : UInt8) (value : Bytes) :
    Except Int CredentialFields :=
  if tag = TlvTag.username.code then
    if value.length > MAX_USERNAME_SIZE then .error ResponseCode.malformed.code
    else .ok { st with credentials.username := value, hasUsername := true }
  else if tag = TlvTag.password.code then
    if value.length > MAX_PASSWORD_SIZE then .error ResponseCode.malformed.code
    else .ok { st with credentials.password := value, hasPassword := true }
  else .ok st

/-- The loop and the checks that the two credential parsers share. -/
def parseCredentials (msg : Message) : Except Int Credentials :=
  match Tlv.scan ResponseCode.malformed.code onCredentialTlv ⟨⟨[], []⟩, false, false⟩
    msg.payloadBytes with
  | .error rc => .error rc
  | .ok st =>
    if !st.hasUsername || !st.hasPassword then .error ResponseCode.malformed.code
    else .ok st.credentials

def parseRegisterRequest (msg : Message) : Except Int Credentials := parseCredentials msg

def parseLoginRequest (request : Message) : Except Int Credentials := parseCredentials request

/-- The two responses that report a user: its id in network order and its name. -/
def buildUserResponse (type : MsgType) (user : User) : Except Int Message :=
  let payload := writeTlv [] .userId 4 (Words.le32 user.userId) true
  let payload := writeTlv payload .username (lengthByte user.username) user.username false
  let payloadLength := UInt32.ofNat payload.length
  if payloadLength > MSG_MAX_PAYLOAD_SIZE then .error (-1)
  else .ok ⟨payloadLength, 1, type.code, UInt8.ofNat (ResponseCode.ok.code).toNat, some payload⟩

def buildRegisterResponse (user : User) : Except Int Message := buildUserResponse .register user

def buildLoginResponse (user : User) : Except Int Message := buildUserResponse .login user

/-! ## World broadcasts -/

/-- The overload of `build_world_broadcast` that fills a `message_t`. -/
def buildWorldBroadcast (broadcast : WorldBroadcast) : Except Int Message :=
  let payload := writeTlv [] .worldBroadcast 0 [] false
  let payload := writeTlv payload .senderUsername (lengthByte broadcast.senderUsername)
    broadcast.senderUsername false
  let payload := writeTlv payload .messageContent (lengthByte broadcast.messageContent)
    broadcast.messageContent false
  let payloadLen := UInt32.ofNat payload.length
  if payloadLen > MSG_MAX_PAYLOAD_SIZE then .error (-1)
  else .ok ⟨payloadLen, 1, MsgType.chat.code, 0, some payload⟩

def buildWorldBroadcastNotification (broadcast : WorldBroadcast) : Except Int Message :=
  buildWorldBroadcast broadcast

/-- The locals of `parse_world_broadcast`. -/
structure WorldFields where
  broadcast : WorldBroadcast
  hasBroadcastTag : Bool
  hasSender : Bool
  hasContent : Bool

def onWorldTlv (st : WorldFields) (tag : UInt8) (value : Bytes) : Except Int WorldFields :=
  if tag = TlvTag.worldBroadcast.code then .ok { st with hasBroadcastTag := true }
  else if tag = TlvTag.senderUsername.code then
    if value.length > MAX_USERNAME_SIZE then .error ResponseCode.malformed.code
    else .ok { st with broadcast.senderUsername := value, hasSender := true }
  else if tag = TlvTag.messageContent.code then
    .ok { st with broadcast.messageContent := value, hasContent := true }
  else .ok st

def parseWorldBroadcast (request : Message) : Except Int WorldBroadcast :=
  match Tlv.scan ResponseCode.malformed.code onWorldTlv ⟨⟨[], []⟩, false, false, false⟩
    request.payloadBytes with
  | .error rc => .error rc
  | .ok st =>
    if !st.hasBroadcastTag || !st.hasSender || !st.hasContent then
      .error ResponseCode.malformed.code
    else .ok st.broadcast

def parseWorldBroadcastNotification (msg : Message) : Except Int WorldBroadcast :=
  parseWorldBroadcast msg

/-! ## P2P broadcasts -/

/-- The overload of `build_p2p_broadcast` that fills a `message_t`. -/
def buildP2pBroadcast (broadcast : P2pBroadcast) : Except Int Message :=
  if broadcast.senderUsername = broadcast.recipientUsername then .error (-1)
  else
    let payload := writeTlv [] .p2pBroadcast 0 [] false
    let payload := writeTlv payload .senderUsername (lengthByte broadcast.senderUsername)
      broadcast.senderUsername false
    let payload := writeTlv payload .recipientUsername (lengthByte broadcast.recipientUsername)
      broadcast.recipientUsername false
    let payload := writeTlv payload .messageContent (lengthByte broadcast.messageContent)
      broadcast.messageContent false
    let payloadLen := UInt32.ofNat payload.length
    if payloadLen > MSG_MAX_PAYLOAD_SIZE then .error (-1)
    else .ok ⟨payloadLen, 1, MsgType.chat.code, 0, some payload⟩

def buildP2pBroadcastNotification (broadcast : P2pBroadcast) : Except Int Message :=
  buildP2pBroadcast broadcast

/-- The locals of `parse_p2p_broadcast`. -/
structure P2pFields where
  broadcast : P2pBroadcast
  hasBroadcastTag : Bool
  hasSender : Bool
  hasRecipient : Bool
  hasContent : Bool

def onP2pTlv (st : P2pFields) (tag : UInt8) (value : Bytes) : Except Int P2pFields :=
  if tag = TlvTag.p2pBroadcast.code then .ok { st with hasBroadcastTag := true }
  else if tag = TlvTag.senderUsername.code then
    if value.length > MAX_USERNAME_SIZE then .error ResponseCode.malformed.code
    else .ok { st with broadcast.senderUsername := value, hasSender := true }
  else if tag = TlvTag.recipientUsername.code then
    if value.length > MAX_USERNAME_SIZE then .error ResponseCode.malformed.code
    else .ok { st with broadcast.recipientUsername := value, hasRecipient := true }
  else if tag = TlvTag.messageContent.code then
    .ok { st with broadcast.messageContent := value, hasContent := true }
  else .ok st

def parseP2pBroadcast (request : Message) : Except Int P2pBroadcast :=
  match Tlv.scan ResponseCode.malformed.code onP2pTlv ⟨⟨[], [], []⟩, false, false, false, false⟩
    request.payloadBytes with
  | .error rc => .error rc
  | .ok st =>
    if !st.hasBroadcastTag || !st.hasSender || !st.hasRecipient || !st.hasContent then
      .error ResponseCode.malformed.code
    else .ok st.broadcast

def parseP2pBroadcastNotification (msg : Message) : Except Int P2pBroadcast :=
  parseP2pBroadcast msg

end ChatServer
