import ChatServer.Model.Protocol

/-!
# The client's side of the protocol (`protocol.cpp`)

The client serialises its requests straight into a raw buffer of its own, and parses what the
server answers. A parser fills its out-parameter as it goes, so the caller may see it
half-filled after a failure; the parsers here return the code and the out-parameter.
-/

namespace ChatServer

/-! ## Requests -/

/-- The header in front of the payload, in the buffer of the caller; the message length is a
difference of pointers. -/
def writeRequest (type : MsgType) (requestBuffer payload : Bytes) : Except Int (Bytes × UInt32) :=
  let messageLen := UInt32.ofNat (MSG_HEADER_SIZE + payload.length)
  let payloadLen := messageLen - UInt32.ofNat MSG_HEADER_SIZE
  if payloadLen > MSG_MAX_PAYLOAD_SIZE then .error (-1)
  else
    .ok ([1, type.code, 0] ++ Words.le32 (htonl payloadLen) ++ payload ++
      requestBuffer.drop (MSG_HEADER_SIZE + payload.length), messageLen)

/-- The two requests that carry credentials. -/
def buildCredentialsRequest (type : MsgType) (requestBuffer : Bytes) (credentials : Credentials) :
    Except Int (Bytes × UInt32) :=
  if credentials.username.length > MAX_USERNAME_SIZE then .error (-1)
  else if credentials.password.length > MAX_PASSWORD_SIZE then .error (-1)
  else
    let payload := writeTlv [] .username (lengthByte credentials.username) credentials.username false
    let payload := writeTlv payload .password (lengthByte credentials.password)
      credentials.password false
    writeRequest type requestBuffer payload

def buildRegisterRequest (requestBuffer : Bytes) (credentials : Credentials) :
    Except Int (Bytes × UInt32) := buildCredentialsRequest .register requestBuffer credentials

def buildLoginRequest (requestBuffer : Bytes) (credentials : Credentials) :
    Except Int (Bytes × UInt32) := buildCredentialsRequest .login requestBuffer credentials

/-- The overload of `build_world_broadcast` that fills a raw buffer. -/
def buildWorldBroadcastRequest (requestBuffer : Bytes) (broadcast : WorldBroadcast) :
    Except Int (Bytes × UInt32) :=
  if broadcast.senderUsername.length > MAX_USERNAME_SIZE then .error (-1)
  else if broadcast.messageContent.length > MAX_MSG_CONTENT_SIZE then .error (-1)
  else
    let payload := writeTlv [] .worldBroadcast 0 [] false
    let payload := writeTlv payload .senderUsername (lengthByte broadcast.senderUsername)
      broadcast.senderUsername false
    let payload := writeTlv payload .messageContent (lengthByte broadcast.messageContent)
      broadcast.messageContent false
    writeRequest .chat requestBuffer payload

/-- The overload of `build_p2p_broadcast` that fills a raw buffer. -/
def buildP2pBroadcastRequest (requestBuffer : Bytes) (broadcast : P2pBroadcast) :
    Except Int (Bytes × UInt32) :=
  if broadcast.senderUsername.length > MAX_USERNAME_SIZE then .error (-1)
  else if broadcast.recipientUsername.length > MAX_USERNAME_SIZE then .error (-1)
  else if broadcast.senderUsername = broadcast.recipientUsername then .error (-1)
  else if broadcast.messageContent.length > MAX_MSG_CONTENT_SIZE then .error (-1)
  else
    let payload := writeTlv [] .p2pBroadcast 0 [] false
    let payload := writeTlv payload .senderUsername (lengthByte broadcast.senderUsername)
      broadcast.senderUsername false
    let payload := writeTlv payload .recipientUsername (lengthByte broadcast.recipientUsername)
      broadcast.recipientUsername false
    let payload := writeTlv payload .messageContent (lengthByte broadcast.messageContent)
      broadcast.messageContent false
    writeRequest .chat requestBuffer payload

/-! ## Responses that report a user -/

/-- Why a response parser stops: it returns a code, or it copies past the end of the id, and
from there on nothing is defined. -/
inductive ResponseFault where
  | rc (code : Int)
  | overrun
  deriving DecidableEq, Repr

/-- The locals of the two response parsers. -/
structure ResponseFields where
  user : User
  hasId : Bool
  hasUsername : Bool

/-- `memcpy` into the four bytes of the id, and the byte swap in place: a short value leaves
the upper bytes in memory as they were. -/
def onResponseTlv (st : ResponseFields) (tag : UInt8) (value : Bytes) :
    Except ResponseFault ResponseFields :=
  if tag = TlvTag.userId.code then
    if value.length > 4 then .error .overrun
    else
      let memory := value ++ (Words.le32 st.user.userId).drop value.length
      .ok { st with user.userId := htonl (Words.ofLe32 memory), hasId := true }
  else if tag = TlvTag.username.code then
    if value.length > MAX_USERNAME_SIZE then .error (.rc ResponseCode.malformed.code)
    else .ok { st with user.username := value, hasUsername := true }
  else .ok st

/-- The two parsers differ in the code for a missing tag only. The result is `none` where
the behaviour is not defined. -/
def parseUserResponse (missing : Int) (response : Message) (user : User) : Option (Int × User) :=
  match Tlv.sweep (.rc ResponseCode.malformed.code) onResponseTlv ⟨user, false, false⟩
    response.payloadBytes with
  | (_, some .overrun) => none
  | (st, some (.rc code)) => some (code, st.user)
  | (st, none) => some (if !st.hasId || !st.hasUsername then missing else 0, st.user)

def parseRegisterResponse (response : Message) (user : User) : Option (Int × User) :=
  parseUserResponse (-1) response user

def parseLoginResponse (response : Message) (user : User) : Option (Int × User) :=
  parseUserResponse ResponseCode.malformed.code response user

/-! ## Broadcasts, with the out-parameter -/

/-- `parse_world_broadcast_notification` as its caller sees it: the code, and the broadcast as far
as it was filled. -/
def fillWorldBroadcast (msg : Message) : Int × WorldBroadcast :=
  match Tlv.sweep ResponseCode.malformed.code onWorldTlv ⟨⟨[], []⟩, false, false, false⟩
    msg.payloadBytes with
  | (st, some rc) => (rc, st.broadcast)
  | (st, none) =>
    (if !st.hasBroadcastTag || !st.hasSender || !st.hasContent then ResponseCode.malformed.code
      else 0, st.broadcast)

/-- `parse_p2p_broadcast_notification` as its caller sees it. -/
def fillP2pBroadcast (msg : Message) : Int × P2pBroadcast :=
  match Tlv.sweep ResponseCode.malformed.code onP2pTlv ⟨⟨[], [], []⟩, false, false, false, false⟩
    msg.payloadBytes with
  | (st, some rc) => (rc, st.broadcast)
  | (st, none) =>
    (if !st.hasBroadcastTag || !st.hasSender || !st.hasRecipient || !st.hasContent then
      ResponseCode.malformed.code else 0, st.broadcast)

end ChatServer
