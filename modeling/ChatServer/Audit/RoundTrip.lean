import ChatServer.Audit.Delivery
import ChatServer.Audit.Grammar
import ChatServer.Model.ClientProtocol

/-!
# What one side encodes, the other decodes

Every request the client builds is one frame that the server parses back into the same
fields, and every response that reports a user is parsed back by the client. The client
refuses what is too long; the builders of the server rely on their callers for that.
-/

namespace ChatServer

open Tlv (Field last)

/-! ## Requests -/

/-- The builder wrote one frame of this type to the front of the buffer and returned its length.
Wherever it is read, `parse_message` gives its header and a message with the property. -/
def Sends (type : MsgType) (buffer : Bytes) (r : Except Int (Bytes × UInt32))
    (reads : Message → Prop) : Prop :=
  ∃ frame messageLen, r = .ok (frame ++ buffer.drop frame.length, messageLen) ∧
    messageLen.toNat = frame.length ∧ ∀ rest,
      (parseMessage (frame ++ rest)).version = 1 ∧
      (parseMessage (frame ++ rest)).type = type.code ∧
      (parseMessage (frame ++ rest)).rc = 0 ∧
      MSG_HEADER_SIZE + (parseMessage (frame ++ rest)).payloadLength.toNat = messageLen.toNat ∧
      (parseMessage (frame ++ rest)).payloadLength ≤ MSG_MAX_PAYLOAD_SIZE ∧
      reads (parseMessage (frame ++ rest))

/-- The header is written in front of the payload, which is far below the limit. -/
theorem writeRequest_encode (type : MsgType) (buffer : Bytes) {fs : List Field}
    (h : fs.length ≤ 4) :
    ∃ messageLen, writeRequest type buffer (Tlv.encode fs) =
        .ok (requestFrame 1 type 0 fs ++ buffer.drop (requestFrame 1 type 0 fs).length, messageLen) ∧
      messageLen.toNat = (requestFrame 1 type 0 fs).length := by
  have hshort := length_encode_le fs
  have h4096 : MSG_MAX_PAYLOAD_SIZE.toNat = 4096 := rfl
  have hlen : (Tlv.encode fs).length ≤ MSG_MAX_PAYLOAD_SIZE.toNat := by omega
  have hframe := length_requestFrame 1 0 type fs
  have hdiff : UInt32.ofNat (MSG_HEADER_SIZE + (Tlv.encode fs).length) -
      UInt32.ofNat MSG_HEADER_SIZE = UInt32.ofNat (Tlv.encode fs).length := by
    rw [UInt32.ofNat_add, UInt32.add_comm, UInt32.add_sub_cancel]
  refine ⟨UInt32.ofNat (MSG_HEADER_SIZE + (Tlv.encode fs).length), ?_, ?_⟩
  · simp only [writeRequest, hdiff, if_neg (payload_not_too_big hlen)]
    rw [hframe, htonl, Words.le32_swap]
    rfl
  · rw [UInt32.toNat_ofNat', hframe]
    simp only [MSG_HEADER_SIZE]
    omega

theorem sends_writeRequest {type : MsgType} {buffer : Bytes} {fs : List Field}
    {reads : Message → Prop} (h : fs.length ≤ 4)
    (hreads : ∀ m : Message, m.payloadBytes = Tlv.encode fs → reads m) :
    Sends type buffer (writeRequest type buffer (Tlv.encode fs)) reads := by
  have hshort := length_encode_le fs
  have h4096 : MSG_MAX_PAYLOAD_SIZE.toNat = 4096 := rfl
  have hlen : (Tlv.encode fs).length ≤ MSG_MAX_PAYLOAD_SIZE.toNat := by omega
  obtain ⟨messageLen, hwrite, hmessage⟩ := writeRequest_encode type buffer h
  refine ⟨requestFrame 1 type 0 fs, messageLen, hwrite, hmessage, fun rest => ?_⟩
  rw [parseMessage_requestFrame_append]
  refine ⟨rfl, rfl, rfl, ?_, UInt32.not_lt.mp (payload_not_too_big hlen), hreads _ ?_⟩
  · show MSG_HEADER_SIZE + (UInt32.ofNat (Tlv.encode fs).length).toNat = _
    rw [toNat_payload hlen, hmessage, length_requestFrame]
  · exact payloadBytes_append (toNat_payload hlen).symm

def credentialFields (c : Credentials) : List Field :=
  [textField .username c.username, textField .password c.password]

theorem parseCredentials_credentialFields {m : Message} {c : Credentials}
    (hm : m.payloadBytes = Tlv.encode (credentialFields c))
    (hu : c.username.length ≤ MAX_USERNAME_SIZE) (hp : c.password.length ≤ MAX_PASSWORD_SIZE) :
    parseCredentials m = .ok c := by
  have hus : short c.username = c.username :=
    short_eq_self (by simp only [MAX_USERNAME_SIZE] at hu; omega)
  have hps : short c.password = c.password :=
    short_eq_self (by simp only [MAX_PASSWORD_SIZE] at hp; omega)
  have hne : ¬ TlvTag.password.code = TlvTag.username.code := by decide
  rw [parseCredentials_iff hm]
  simp [credentialFields, textField, hus, hps, hu, hp, hne, Ne.symm hne, CredentialFits, Tlv.last]

theorem sends_credentials (type : MsgType) (buffer : Bytes) {c : Credentials}
    (hu : c.username.length ≤ MAX_USERNAME_SIZE) (hp : c.password.length ≤ MAX_PASSWORD_SIZE) :
    Sends type buffer (buildCredentialsRequest type buffer c)
      fun m => parseCredentials m = .ok c := by
  have hpayload : writeTlv (writeTlv [] .username (lengthByte c.username) c.username false)
      .password (lengthByte c.password) c.password false = Tlv.encode (credentialFields c) := by
    rw [writeTlv_text, writeTlv_text]
    simp [credentialFields]
  simp only [buildCredentialsRequest, if_neg (Nat.not_lt.mpr hu), if_neg (Nat.not_lt.mpr hp),
    gt_iff_lt, hpayload]
  exact sends_writeRequest (by simp [credentialFields])
    fun m hm => parseCredentials_credentialFields hm hu hp

theorem sends_world (buffer : Bytes) {b : WorldBroadcast}
    (hs : b.senderUsername.length ≤ MAX_USERNAME_SIZE)
    (hc : b.messageContent.length ≤ MAX_MSG_CONTENT_SIZE) :
    Sends .chat buffer (buildWorldBroadcastRequest buffer b)
      fun m => parseWorldBroadcast m = .ok b := by
  simp only [buildWorldBroadcastRequest, if_neg (Nat.not_lt.mpr hs), if_neg (Nat.not_lt.mpr hc),
    gt_iff_lt, writeTlv_world]
  exact sends_writeRequest (by simp [worldFields])
    fun m hm => parseWorldBroadcast_worldFields hm hs hc

theorem sends_p2p (buffer : Bytes) {b : P2pBroadcast}
    (hs : b.senderUsername.length ≤ MAX_USERNAME_SIZE)
    (hr : b.recipientUsername.length ≤ MAX_USERNAME_SIZE)
    (hne : b.senderUsername ≠ b.recipientUsername)
    (hc : b.messageContent.length ≤ MAX_MSG_CONTENT_SIZE) :
    Sends .chat buffer (buildP2pBroadcastRequest buffer b)
      fun m => parseP2pBroadcast m = .ok b := by
  simp only [buildP2pBroadcastRequest, if_neg (Nat.not_lt.mpr hs), if_neg (Nat.not_lt.mpr hr),
    if_neg hne, if_neg (Nat.not_lt.mpr hc), gt_iff_lt, writeTlv_p2p]
  exact sends_writeRequest (by simp [p2pFields])
    fun m hm => parseP2pBroadcast_p2pFields hm hs hr hc

/-! ## Responses that report a user -/

/-- What the fields are read into. -/
def readUser (user : User) (bs : Bytes) : Except ResponseFault ResponseFields :=
  Tlv.scan (.rc ResponseCode.malformed.code) onResponseTlv ⟨user, false, false⟩ bs

theorem parseUserResponse_read {missing : Int} {m : Message} {user : User} {st : ResponseFields}
    (h : readUser user m.payloadBytes = .ok st) :
    parseUserResponse missing m user =
      some (if !st.hasId || !st.hasUsername then missing else 0, st.user) := by
  unfold parseUserResponse
  rw [Tlv.sweep_of_scan h]

/-- The four bytes of an id overwrite what was there. -/
theorem htonl_be32 (v : UInt32) (memory : Bytes) (h : memory.length ≤ 4) :
    htonl (Words.ofLe32 (Words.be32 v ++ memory.drop 4)) = v := by
  rw [List.drop_eq_nil_of_le h, List.append_nil, htonl, Words.swap_ofLe32 (Words.length_be32 v),
    Words.ofBe32_be32]

theorem readUser_userFields {user user' : User} (h : user.username.length ≤ MAX_USERNAME_SIZE) :
    readUser user' (Tlv.encode (userFields user)) =
      .ok ⟨⟨user.userId, user.username, user'.password⟩, true, true⟩ := by
  have hs : short user.username = user.username :=
    short_eq_self (by simp only [MAX_USERNAME_SIZE] at h; omega)
  have hne : ¬ TlvTag.username.code = TlvTag.userId.code := by decide
  have hid := htonl_be32 user.userId (Words.le32 user'.userId) (Nat.le_of_eq rfl)
  have h' : ¬ user.username.length > MAX_USERNAME_SIZE := Nat.not_lt.mpr h
  rw [readUser, Tlv.scan_encode]
  simp [userFields, wordField, textField, onResponseTlv, hs, h', hne, hid, List.foldlM, bind,
    Except.bind]
  rfl

/-- The builder succeeded; what is appended to any buffer for its message is read off the wire,
in reads of any length, and parsed into an empty user as that user. -/
def Reports (r : Except Int Message) (parse : Message → User → Option (Int × User))
    (user : User) : Prop :=
  ∃ response frame, r = .ok response ∧
    (∀ buffer, writeMessageToBuffer buffer response = buffer ++ frame) ∧
    ∀ (payloadBuffer rest : Bytes) (sched : List Transfer), (∀ e, .fail e ∉ sched) →
      ∃ m sched', readOneMessage payloadBuffer sched (frame ++ rest) = .ok (m, sched', rest) ∧
        parse m .empty = some (0, ⟨user.userId, user.username, []⟩)

theorem reports_user (type : MsgType) (missing : Int) {user : User}
    (h : user.username.length ≤ MAX_USERNAME_SIZE) :
    Reports (buildUserResponse type user) (parseUserResponse missing) user := by
  have hs : (userFields user).length ≤ 4 := by simp [userFields]
  refine ⟨_, (Message.ofFields type (userFields user)).wire, buildUserResponse_eq type user,
    fun buffer => writeMessageToBuffer_eq buffer _, fun payloadBuffer rest sched hsched => ?_⟩
  have hlen := (toNat_length_encode hs).symm
  obtain ⟨sched', hread⟩ := readOneMessage_frame type.code 0 hlen (not_payload_too_big hs)
    payloadBuffer rest hsched
  have hparse : ∀ m : Message, m.payloadBytes = Tlv.encode (userFields user) →
      parseUserResponse missing m .empty = some (0, ⟨user.userId, user.username, []⟩) := by
    intro m hm
    rw [parseUserResponse_read (hm ▸ readUser_userFields h)]
    rfl
  rw [Message.wire, payloadBytes_ofFields hs]
  exact ⟨_, sched', hread, hparse _ (payloadBytes_append hlen)⟩

/-! ## The whole protocol -/

/-- Within the limits of the client. -/
def Credentials.Fits (c : Credentials) : Prop :=
  c.username.length ≤ MAX_USERNAME_SIZE ∧ c.password.length ≤ MAX_PASSWORD_SIZE

def WorldBroadcast.Fits (b : WorldBroadcast) : Prop :=
  b.senderUsername.length ≤ MAX_USERNAME_SIZE ∧ b.messageContent.length ≤ MAX_MSG_CONTENT_SIZE

def P2pBroadcast.Fits (b : P2pBroadcast) : Prop :=
  b.senderUsername.length ≤ MAX_USERNAME_SIZE ∧ b.recipientUsername.length ≤ MAX_USERNAME_SIZE ∧
    b.senderUsername ≠ b.recipientUsername ∧ b.messageContent.length ≤ MAX_MSG_CONTENT_SIZE

theorem buildCredentialsRequest_refused (type : MsgType) (buffer : Bytes) {c : Credentials}
    (h : ¬ c.Fits) : buildCredentialsRequest type buffer c = .error (-1) := by
  unfold buildCredentialsRequest
  by_cases hu : c.username.length ≤ MAX_USERNAME_SIZE
  · have hp : c.password.length > MAX_PASSWORD_SIZE := Nat.lt_of_not_le fun hp => h ⟨hu, hp⟩
    rw [if_neg (Nat.not_lt.mpr hu), if_pos hp]
  · rw [if_pos (Nat.lt_of_not_le hu)]

theorem buildWorldBroadcastRequest_refused (buffer : Bytes) {b : WorldBroadcast} (h : ¬ b.Fits) :
    buildWorldBroadcastRequest buffer b = .error (-1) := by
  unfold buildWorldBroadcastRequest
  by_cases hs : b.senderUsername.length ≤ MAX_USERNAME_SIZE
  · have hc : b.messageContent.length > MAX_MSG_CONTENT_SIZE :=
      Nat.lt_of_not_le fun hc => h ⟨hs, hc⟩
    rw [if_neg (Nat.not_lt.mpr hs), if_pos hc]
  · rw [if_pos (Nat.lt_of_not_le hs)]

theorem buildP2pBroadcastRequest_refused (buffer : Bytes) {b : P2pBroadcast} (h : ¬ b.Fits) :
    buildP2pBroadcastRequest buffer b = .error (-1) := by
  unfold buildP2pBroadcastRequest
  split_ifs with hs hr hne hc
  · rfl
  · rfl
  · rfl
  · rfl
  · exact absurd ⟨Nat.le_of_not_gt hs, Nat.le_of_not_gt hr, hne, Nat.le_of_not_gt hc⟩ h

/-- **What one side encodes, the other decodes.** Within its limits each builder of the client
writes one frame, exactly as long as it says, from which the server reads the original fields;
beyond them it returns -1, and so do both builders of a P2P broadcast to its own sender. What the
server reports of a user, the client reads back. The builders of the server succeed whatever the
lengths of the fields are. -/
theorem protocol_round_trip (buffer : Bytes) :
    (∀ c : Credentials, c.Fits →
      Sends .register buffer (buildRegisterRequest buffer c)
        (fun m => parseRegisterRequest m = .ok c) ∧
      Sends .login buffer (buildLoginRequest buffer c) (fun m => parseLoginRequest m = .ok c)) ∧
    (∀ c : Credentials, ¬ c.Fits →
      buildRegisterRequest buffer c = .error (-1) ∧ buildLoginRequest buffer c = .error (-1)) ∧
    (∀ b : WorldBroadcast, b.Fits →
      Sends .chat buffer (buildWorldBroadcastRequest buffer b)
        (fun m => parseWorldBroadcast m = .ok b)) ∧
    (∀ b : WorldBroadcast, ¬ b.Fits → buildWorldBroadcastRequest buffer b = .error (-1)) ∧
    (∀ b : P2pBroadcast, b.Fits →
      Sends .chat buffer (buildP2pBroadcastRequest buffer b)
        (fun m => parseP2pBroadcast m = .ok b)) ∧
    (∀ b : P2pBroadcast, ¬ b.Fits → buildP2pBroadcastRequest buffer b = .error (-1)) ∧
    (∀ b : P2pBroadcast, b.senderUsername = b.recipientUsername →
      buildP2pBroadcast b = .error (-1)) ∧
    (∀ user : User, user.username.length ≤ MAX_USERNAME_SIZE →
      Reports (buildRegisterResponse user) parseRegisterResponse user ∧
      Reports (buildLoginResponse user) parseLoginResponse user) ∧
    (∀ user : User, buildRegisterResponse user = .ok (.ofFields .register (userFields user)) ∧
      buildLoginResponse user = .ok (.ofFields .login (userFields user))) ∧
    (∀ b : WorldBroadcast, buildWorldBroadcast b = .ok (.ofFields .chat (worldFields b))) ∧
    ∀ b : P2pBroadcast, b.senderUsername ≠ b.recipientUsername →
      buildP2pBroadcast b = .ok (.ofFields .chat (p2pFields b)) := by
  refine ⟨fun c h => ⟨sends_credentials .register buffer h.1 h.2,
      sends_credentials .login buffer h.1 h.2⟩,
    fun c h => ⟨buildCredentialsRequest_refused .register buffer h,
      buildCredentialsRequest_refused .login buffer h⟩,
    fun b h => sends_world buffer h.1 h.2, fun b h => buildWorldBroadcastRequest_refused buffer h,
    fun b h => sends_p2p buffer h.1 h.2.1 h.2.2.1 h.2.2.2,
    fun b h => buildP2pBroadcastRequest_refused buffer h, fun b h => ?_,
    fun user h => ⟨reports_user .register (-1) h, reports_user .login _ h⟩,
    fun user => ⟨buildUserResponse_eq .register user, buildUserResponse_eq .login user⟩,
    buildWorldBroadcast_eq, fun b hne => buildP2pBroadcast_eq hne⟩
  rw [buildP2pBroadcast, if_pos h]

/-- The builders of the server have no limits on names: one byte too many is encoded, and
256 bytes are encoded as none. -/
theorem server_builders_unlimited :
    (∃ m, buildRegisterResponse ⟨1, List.replicate 33 120, []⟩ = .ok m) ∧
      (∃ m, buildWorldBroadcast ⟨List.replicate 33 120, [104, 105]⟩ = .ok m) ∧
      buildWorldBroadcast ⟨List.replicate 256 120, [104, 105]⟩ =
        buildWorldBroadcast ⟨[], [104, 105]⟩ := by
  refine ⟨⟨_, buildUserResponse_eq _ _⟩, ⟨_, buildWorldBroadcast_eq _⟩, ?_⟩
  decide +kernel

end ChatServer
