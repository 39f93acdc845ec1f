import ChatServer.Model.Protocol

/-!
# What the encoders write and the parsers read

Every message the server builds is one frame whose payload is a concatenation of
tag-length-value fields, and none of the builders can fail. Reading the fields of
a broadcast back gives the sender, the recipient and the content.
-/

namespace ChatServer

open Tlv (Field)

theorem register_ne_chat : MsgType.register.code ≠ MsgType.chat.code := by decide

theorem login_ne_chat : MsgType.login.code ≠ MsgType.chat.code := by decide

/-! ## Frames -/

/-- The bytes of a message on the wire. -/
def Message.wire (m : Message) : Bytes :=
  [m.version, m.type, m.rc] ++ Words.be32 m.payloadLength ++ m.payloadBytes

/-- A whole frame: version 1, and a length field that counts the payload. -/
def IsFrame (f : Bytes) : Prop :=
  ∃ type rc len payload, f = [1, type, rc] ++ Words.be32 len ++ payload ∧
    payload.length = len.toNat

/-- The length field is the number of payload bytes. -/
def Message.Sound (m : Message) : Prop :=
  m.version = 1 ∧ m.payloadBytes.length = m.payloadLength.toNat

theorem Message.Sound.isFrame {m : Message} (h : m.Sound) : IsFrame m.wire := by
  obtain ⟨hv, hl⟩ := h
  exact ⟨m.type, m.rc, m.payloadLength, m.payloadBytes, by rw [Message.wire, hv], hl⟩

theorem writeMessageToBuffer_eq (buffer : Bytes) (m : Message) :
    writeMessageToBuffer buffer m = buffer ++ m.wire := by
  have hw : Words.le32 (htonl m.payloadLength) = Words.be32 m.payloadLength := Words.le32_swap _
  simp only [writeMessageToBuffer, bufAppend, hw, Message.wire, Message.payloadBytes]
  cases hp : m.payload with
  | none => simp
  | some payload =>
    by_cases hz : 0 < m.payloadLength
    · simp [hz]
    · have h0 : m.payloadLength = 0 := by
        apply UInt32.toNat_inj.mp
        have := UInt32.lt_iff_toNat_lt.not.mp hz
        simp only [UInt32.toNat_zero] at this ⊢
        omega
      simp [h0]

theorem wire_ne_nil (m : Message) : m.wire ≠ [] := by
  unfold Message.wire
  simp

/-- Reading a frame off the front of a stream. -/
theorem parseMessage_append {version type rc : UInt8} {len : UInt32} {payload rest : Bytes} :
    parseMessage ([version, type, rc] ++ Words.be32 len ++ payload ++ rest) =
      ⟨len, version, type, rc, some (payload ++ rest)⟩ := by
  have h4 : (Words.be32 len ++ (payload ++ rest)).take 4 = Words.be32 len :=
    List.take_left' (Words.length_be32 len)
  have h7 : (Words.be32 len ++ (payload ++ rest)).drop 4 = payload ++ rest :=
    List.drop_left' (Words.length_be32 len)
  have hlen : htonl (Words.ofLe32 (Words.be32 len)) = len := by
    rw [htonl, Words.swap_ofLe32 (Words.length_be32 len), Words.ofBe32_be32]
  simp only [parseMessage, MSG_HEADER_SIZE, List.append_assoc, List.cons_append, List.nil_append,
    List.getD_cons_zero, List.getD_cons_succ, List.drop_succ_cons, List.drop_zero]
  rw [h4, h7, hlen]

theorem payloadBytes_append {version type rc : UInt8} {len : UInt32} {payload rest : Bytes}
    (h : payload.length = len.toNat) :
    Message.payloadBytes ⟨len, version, type, rc, some (payload ++ rest)⟩ = payload := by
  simp only [Message.payloadBytes, Option.getD_some]
  exact List.take_left' h

/-! ## Fields -/

/-- What the length byte leaves of a string: all of it below 256 bytes. -/
def short (s : Bytes) : Bytes := s.take (s.length % 256)

theorem length_short (s : Bytes) : (short s).length = s.length % 256 := by
  rw [short, List.length_take]
  have := Nat.mod_le s.length 256
  omega

theorem short_eq_self {s : Bytes} (h : s.length < 256) : short s = s := by
  rw [short, Nat.mod_eq_of_lt h, List.take_length]

/-- The field that carries a string. -/
def textField (tag : TlvTag) (s : Bytes) : Field :=
  ⟨tag.code, short s, by rw [length_short]; exact Nat.mod_lt _ (by decide)⟩

/-- The field that carries a number in network order. -/
def wordField (tag : TlvTag) (v : UInt32) : Field :=
  ⟨tag.code, Words.be32 v, by rw [Words.length_be32]; decide⟩

theorem writeTlv_text (buf : Bytes) (tag : TlvTag) (s : Bytes) :
    writeTlv buf tag (lengthByte s) s false = buf ++ (textField tag s).encode := by
  have hn : (lengthByte s).toNat = s.length % 256 := UInt8.toNat_ofNat'
  have hb : UInt8.ofNat (short s).length = lengthByte s := by
    apply Words.byte_ofNat
    rw [length_short, hn, Nat.mod_mod]
  simp only [writeTlv, Bool.false_eq_true, ↓reduceIte, textField, Field.encode, hb, hn,
    List.append_assoc, List.cons_append, List.nil_append]
  rfl

theorem writeTlv_empty (buf : Bytes) (tag : TlvTag) :
    writeTlv buf tag 0 [] false = buf ++ (textField tag []).encode := writeTlv_text buf tag []

theorem writeTlv_word (buf : Bytes) (tag : TlvTag) (v : UInt32) :
    writeTlv buf tag 4 (Words.le32 v) true = buf ++ (wordField tag v).encode := by
  have h : (Words.le32 v).take 4 = Words.le32 v := rfl
  have h2 : ¬ ((4 : UInt8) = 2) := by decide
  simp only [writeTlv, ↓reduceIte, if_neg h2, h, Words.ofLe32_le32, htonl, Words.le32_swap,
    wordField, Field.encode, Words.length_be32, List.append_assoc, List.cons_append,
    List.nil_append]
  rfl

/-! ## Messages made of fields -/

/-- The successful response of a type, with the given fields as its payload. -/
def Message.ofFields (type : MsgType) (fs : List Field) : Message :=
  ⟨UInt32.ofNat (Tlv.encode fs).length, 1, type.code, 0, some (Tlv.encode fs)⟩

theorem length_encode_le (fs : List Field) : (Tlv.encode fs).length ≤ 257 * fs.length := by
  induction fs with
  | nil => exact Nat.le_refl 0
  | cons f fs ih =>
    have hf := f.fits
    rw [Tlv.encode_cons, List.length_append, Field.length_encode, List.length_cons]
    omega

section OfFields

variable {type : MsgType} {fs : List Field} (h : fs.length ≤ 4)

include h

theorem toNat_length_encode :
    (UInt32.ofNat (Tlv.encode fs).length).toNat = (Tlv.encode fs).length := by
  have := length_encode_le fs
  rw [UInt32.toNat_ofNat']
  omega

/-- Four fields are well below the payload limit. -/
theorem not_payload_too_big : ¬ UInt32.ofNat (Tlv.encode fs).length > MSG_MAX_PAYLOAD_SIZE := by
  have := length_encode_le fs
  rw [gt_iff_lt, UInt32.lt_iff_toNat_lt, toNat_length_encode h]
  have hm : MSG_MAX_PAYLOAD_SIZE.toNat = 4096 := rfl
  omega

theorem payloadBytes_ofFields : (Message.ofFields type fs).payloadBytes = Tlv.encode fs := by
  unfold Message.payloadBytes Message.ofFields
  rw [toNat_length_encode h]
  exact List.take_length

theorem sound_ofFields : (Message.ofFields type fs).Sound := by
  refine ⟨rfl, ?_⟩
  rw [payloadBytes_ofFields h]
  exact (toNat_length_encode h).symm

end OfFields

theorem sound_header (type : UInt8) (rc : Int) : (buildServerResponse type rc none 0).Sound :=
  ⟨rfl, rfl⟩

theorem wire_header (type : UInt8) (rc : Int) :
    (buildServerResponse type rc none 0).wire =
      [1, type, (buildServerResponse type rc none 0).rc, 0, 0, 0, 0] := by
  have h : Words.be32 0 = [0, 0, 0, 0] := by decide
  simp [Message.wire, Message.payloadBytes, buildServerResponse, h]

theorem rc_header {type : UInt8} {code : ResponseCode} (h : code ≠ .ok) :
    (buildServerResponse type code.code none 0).rc ≠ 0 := by
  show UInt8.ofNat (code.code % 256).toNat ≠ 0
  cases code with
  | ok => exact absurd rfl h
  | _ => decide

/-! ## The builders never fail -/

def userFields (user : User) : List Field :=
  [wordField .userId user.userId, textField .username user.username]

theorem buildUserResponse_eq (type : MsgType) (user : User) :
    buildUserResponse type user = .ok (.ofFields type (userFields user)) := by
  have h : writeTlv (writeTlv [] .userId 4 (Words.le32 user.userId) true) .username
      (lengthByte user.username) user.username false = Tlv.encode (userFields user) := by
    rw [writeTlv_text, writeTlv_word]
    simp [userFields]
  have hs : (userFields user).length ≤ 4 := by simp [userFields]
  simp only [buildUserResponse, h, if_neg (not_payload_too_big hs)]
  rfl

def worldFields (b : WorldBroadcast) : List Field :=
  [textField .worldBroadcast [], textField .senderUsername b.senderUsername,
    textField .messageContent b.messageContent]

theorem writeTlv_world (b : WorldBroadcast) :
    writeTlv (writeTlv (writeTlv [] .worldBroadcast 0 [] false) .senderUsername
      (lengthByte b.senderUsername) b.senderUsername false) .messageContent
      (lengthByte b.messageContent) b.messageContent false = Tlv.encode (worldFields b) := by
  rw [writeTlv_text, writeTlv_text, writeTlv_empty]
  simp [worldFields]

theorem buildWorldBroadcast_eq (b : WorldBroadcast) :
    buildWorldBroadcast b = .ok (.ofFields .chat (worldFields b)) := by
  have hs : (worldFields b).length ≤ 4 := by simp [worldFields]
  simp only [buildWorldBroadcast, writeTlv_world, if_neg (not_payload_too_big hs)]
  rfl

def p2pFields (b : P2pBroadcast) : List Field :=
  [textField .p2pBroadcast [], textField .senderUsername b.senderUsername,
    textField .recipientUsername b.recipientUsername, textField .messageContent b.messageContent]

theorem writeTlv_p2p (b : P2pBroadcast) :
    writeTlv (writeTlv (writeTlv (writeTlv [] .p2pBroadcast 0 [] false) .senderUsername
      (lengthByte b.senderUsername) b.senderUsername false) .recipientUsername
      (lengthByte b.recipientUsername) b.recipientUsername false) .messageContent
      (lengthByte b.messageContent) b.messageContent false = Tlv.encode (p2pFields b) := by
  rw [writeTlv_text, writeTlv_text, writeTlv_text, writeTlv_empty]
  simp [p2pFields]

theorem buildP2pBroadcast_eq {b : P2pBroadcast} (hne : b.senderUsername ≠ b.recipientUsername) :
    buildP2pBroadcast b = .ok (.ofFields .chat (p2pFields b)) := by
  have hs : (p2pFields b).length ≤ 4 := by simp [p2pFields]
  simp only [buildP2pBroadcast, if_neg hne, writeTlv_p2p, if_neg (not_payload_too_big hs)]
  rfl

/-! ## What the parsers accept -/

theorem onCredentialTlv_error {st tag value rc} (h : onCredentialTlv st tag value = .error rc) :
    rc = ResponseCode.malformed.code := by
  unfold onCredentialTlv at h
  split_ifs at h <;> cases h <;> rfl

theorem onWorldTlv_error {st tag value rc} (h : onWorldTlv st tag value = .error rc) :
    rc = ResponseCode.malformed.code := by
  unfold onWorldTlv at h
  split_ifs at h
  cases h
  rfl

theorem onP2pTlv_error {st tag value rc} (h : onP2pTlv st tag value = .error rc) :
    rc = ResponseCode.malformed.code := by
  unfold onP2pTlv at h
  split_ifs at h <;> cases h <;> rfl

/-- The only error of the parsers. -/
theorem parseCredentials_error {m : Message} {rc : Int} (h : parseCredentials m = .error rc) :
    rc = ResponseCode.malformed.code := by
  unfold parseCredentials at h
  split at h
  · rename_i hs
    cases h
    exact Tlv.error_of_scan (Q := (· = ResponseCode.malformed.code)) rfl
      (fun _ _ _ _ he => onCredentialTlv_error he) hs
  · split at h <;> cases h
    rfl

theorem parseWorldBroadcast_error {m : Message} {rc : Int}
    (h : parseWorldBroadcast m = .error rc) : rc = ResponseCode.malformed.code := by
  unfold parseWorldBroadcast at h
  split at h
  · rename_i hs
    cases h
    exact Tlv.error_of_scan (Q := (· = ResponseCode.malformed.code)) rfl
      (fun _ _ _ _ he => onWorldTlv_error he) hs
  · split at h <;> cases h
    rfl

theorem parseP2pBroadcast_error {m : Message} {rc : Int} (h : parseP2pBroadcast m = .error rc) :
    rc = ResponseCode.malformed.code := by
  unfold parseP2pBroadcast at h
  split at h
  · rename_i hs
    cases h
    exact Tlv.error_of_scan (Q := (· = ResponseCode.malformed.code)) rfl
      (fun _ _ _ _ he => onP2pTlv_error he) hs
  · split at h <;> cases h
    rfl

/-- Accepted credentials respect the size limits. -/
theorem parseCredentials_le {m : Message} {c : Credentials} (h : parseCredentials m = .ok c) :
    c.username.length ≤ MAX_USERNAME_SIZE ∧ c.password.length ≤ MAX_PASSWORD_SIZE := by
  unfold parseCredentials at h
  split at h
  · cases h
  · rename_i st hs
    have hst : st.credentials.username.length ≤ MAX_USERNAME_SIZE ∧
        st.credentials.password.length ≤ MAX_PASSWORD_SIZE := by
      refine Tlv.scan_preserves (P := fun st : CredentialFields =>
        st.credentials.username.length ≤ MAX_USERNAME_SIZE ∧
          st.credentials.password.length ≤ MAX_PASSWORD_SIZE) ?_ (by decide) hs
      intro st f st' hp ho
      unfold onCredentialTlv at ho
      split_ifs at ho <;> cases ho <;> simp_all
    split at h <;> cases h
    exact hst

theorem parseWorldBroadcast_le {m : Message} {b : WorldBroadcast}
    (h : parseWorldBroadcast m = .ok b) : b.messageContent.length ≤ MAX_MSG_CONTENT_SIZE := by
  unfold parseWorldBroadcast at h
  split at h
  · cases h
  · rename_i st hs
    have hst : st.broadcast.messageContent.length ≤ MAX_MSG_CONTENT_SIZE := by
      refine Tlv.scan_preserves (P := fun st : WorldFields =>
        st.broadcast.messageContent.length ≤ MAX_MSG_CONTENT_SIZE) ?_ (by decide) hs
      intro st f st' hp ho
      have hf : f.value.length ≤ MAX_MSG_CONTENT_SIZE := Nat.le_of_lt_succ f.fits
      unfold onWorldTlv at ho
      split_ifs at ho <;> cases ho <;> assumption
    split at h <;> cases h
    exact hst

theorem parseP2pBroadcast_le {m : Message} {b : P2pBroadcast} (h : parseP2pBroadcast m = .ok b) :
    b.recipientUsername.length ≤ MAX_USERNAME_SIZE ∧
      b.messageContent.length ≤ MAX_MSG_CONTENT_SIZE := by
  unfold parseP2pBroadcast at h
  split at h
  · cases h
  · rename_i st hs
    have hst : st.broadcast.recipientUsername.length ≤ MAX_USERNAME_SIZE ∧
        st.broadcast.messageContent.length ≤ MAX_MSG_CONTENT_SIZE := by
      refine Tlv.scan_preserves (P := fun st : P2pFields =>
        st.broadcast.recipientUsername.length ≤ MAX_USERNAME_SIZE ∧
          st.broadcast.messageContent.length ≤ MAX_MSG_CONTENT_SIZE) ?_ (by decide) hs
      intro st f st' hp ho
      have hf : f.value.length ≤ MAX_MSG_CONTENT_SIZE := Nat.le_of_lt_succ f.fits
      unfold onP2pTlv at ho
      split_ifs at ho with _ _ hlen _ hname <;> cases ho
      · exact hp
      · exact hp
      · exact ⟨Nat.le_of_not_gt hname, hp.2⟩
      · exact ⟨hp.1, hf⟩
      · exact hp
    split at h <;> cases h
    exact hst

/-! ## Reading a notification back -/

theorem parseWorldBroadcast_worldFields {m : Message} {b : WorldBroadcast}
    (hm : m.payloadBytes = Tlv.encode (worldFields b))
    (hs : b.senderUsername.length ≤ MAX_USERNAME_SIZE)
    (hc : b.messageContent.length ≤ MAX_MSG_CONTENT_SIZE) : parseWorldBroadcast m = .ok b := by
  have hss : short b.senderUsername = b.senderUsername :=
    short_eq_self (by simp only [MAX_USERNAME_SIZE] at hs; omega)
  have hcs : short b.messageContent = b.messageContent :=
    short_eq_self (by simp only [MAX_MSG_CONTENT_SIZE] at hc; omega)
  have hs' : ¬ b.senderUsername.length > MAX_USERNAME_SIZE := Nat.not_lt.mpr hs
  rw [parseWorldBroadcast, hm, Tlv.scan_encode]
  simp [worldFields, textField, hss, hcs, onWorldTlv, TlvTag.code, hs', List.foldlM, bind,
    Except.bind]
  rfl

theorem parseP2pBroadcast_p2pFields {m : Message} {b : P2pBroadcast}
    (hm : m.payloadBytes = Tlv.encode (p2pFields b))
    (hs : b.senderUsername.length ≤ MAX_USERNAME_SIZE)
    (hr : b.recipientUsername.length ≤ MAX_USERNAME_SIZE)
    (hc : b.messageContent.length ≤ MAX_MSG_CONTENT_SIZE) : parseP2pBroadcast m = .ok b := by
  have hss : short b.senderUsername = b.senderUsername :=
    short_eq_self (by simp only [MAX_USERNAME_SIZE] at hs; omega)
  have hrs : short b.recipientUsername = b.recipientUsername :=
    short_eq_self (by simp only [MAX_USERNAME_SIZE] at hr; omega)
  have hcs : short b.messageContent = b.messageContent :=
    short_eq_self (by simp only [MAX_MSG_CONTENT_SIZE] at hc; omega)
  have hs' : ¬ b.senderUsername.length > MAX_USERNAME_SIZE := Nat.not_lt.mpr hs
  have hr' : ¬ b.recipientUsername.length > MAX_USERNAME_SIZE := Nat.not_lt.mpr hr
  rw [parseP2pBroadcast, hm, Tlv.scan_encode]
  simp [p2pFields, textField, hss, hrs, hcs, onP2pTlv, TlvTag.code, hs', hr', List.foldlM, bind,
    Except.bind]
  rfl

end ChatServer
