import ChatServer.Audit.Codec

/-!
# What the request parsers accept

Each parser reads a payload that is a concatenation of fields, refuses a field that is too long
for its tag, and gives back the last value of each tag it needs. The order of the fields and
the tags it does not know make no difference to it.
-/

namespace ChatServer

open Tlv (Field last)

/-- The payload is a sequence of whole fields, none too long, with each of these tags. -/
def Message.Carries (m : Message) (fits : UInt8 → Bytes → Prop) (tags : List TlvTag) : Prop :=
  ∃ fs, m.payloadBytes = Tlv.encode fs ∧ (∀ f ∈ fs, fits f.tag f.value) ∧
    ∀ tag ∈ tags, ∃ f ∈ fs, f.tag = tag.code

section Parsers

variable {m : Message} {fs : List Field} (hm : m.payloadBytes = Tlv.encode fs)

/-! ## Credentials -/

/-- The value is not too long for its tag. -/
def CredentialFits (tag : UInt8) (value : Bytes) : Prop :=
  (tag = TlvTag.username.code → value.length ≤ MAX_USERNAME_SIZE) ∧
    (tag = TlvTag.password.code → value.length ≤ MAX_PASSWORD_SIZE)

theorem onCredentialTlv_ok (st : CredentialFields) (tag : UInt8) (value : Bytes) :
    (∃ st', onCredentialTlv st tag value = .ok st') ↔ CredentialFits tag value := by
  unfold onCredentialTlv CredentialFits
  have hne : ¬ TlvTag.username.code = TlvTag.password.code := by decide
  split_ifs with h1 h2 h3 h4 <;> simp_all

theorem onCredentialTlv_fields (st : CredentialFields) (tag : UInt8) (value : Bytes)
    (st' : CredentialFields) (h : onCredentialTlv st tag value = .ok st') :
    (st'.credentials.username =
        if tag = TlvTag.username.code then value else st.credentials.username) ∧
      (st'.hasUsername = if tag = TlvTag.username.code then true else st.hasUsername) ∧
      (st'.credentials.password =
        if tag = TlvTag.password.code then value else st.credentials.password) ∧
      (st'.hasPassword = if tag = TlvTag.password.code then true else st.hasPassword) := by
  have hne : ¬ TlvTag.username.code = TlvTag.password.code := by decide
  unfold onCredentialTlv at h
  split_ifs at h with h1 h2 h3 h4 <;> cases h <;> simp_all

theorem fields_of_parseCredentials {c : Credentials} (h : parseCredentials m = .ok c) :
    ∃ fs, m.payloadBytes = Tlv.encode fs := by
  unfold parseCredentials at h
  split at h
  · cases h
  · rename_i hs
    exact Tlv.fields_of_scan hs

include hm in
theorem parseCredentials_iff (c : Credentials) :
    parseCredentials m = .ok c ↔
      (∀ f ∈ fs, CredentialFits f.tag f.value) ∧ last TlvTag.username.code fs = some c.username ∧
        last TlvTag.password.code fs = some c.password := by
  unfold parseCredentials
  rw [hm]
  cases h : Tlv.scan ResponseCode.malformed.code onCredentialTlv ⟨⟨[], []⟩, false, false⟩
    (Tlv.encode fs) with
  | error e =>
    refine ⟨fun he => (by cases he), fun hall => ?_⟩
    obtain ⟨st, hst⟩ := (Tlv.scan_ok_iff onCredentialTlv_ok _ fs).mpr hall.1
    rw [h] at hst
    cases hst
  | ok st =>
    have hfits := (Tlv.scan_ok_iff onCredentialTlv_ok _ fs).mp ⟨st, h⟩
    rw [and_iff_right hfits]
    have hu := Tlv.scan_last (fun s t v s' ho => (onCredentialTlv_fields s t v s' ho).1) h
    have hhu := Tlv.scan_last (fun s t v s' ho => (onCredentialTlv_fields s t v s' ho).2.1) h
    have hw := Tlv.scan_last (fun s t v s' ho => (onCredentialTlv_fields s t v s' ho).2.2.1) h
    have hhw := Tlv.scan_last (fun s t v s' ho => (onCredentialTlv_fields s t v s' ho).2.2.2) h
    obtain ⟨⟨username, password⟩, hasUsername, hasPassword⟩ := st
    obtain ⟨cUsername, cPassword⟩ := c
    simp only at hu hhu hw hhw
    subst hu hhu hw hhw
    cases last TlvTag.username.code fs <;> cases last TlvTag.password.code fs <;> simp

/-! ## World broadcasts -/

def WorldFits (tag : UInt8) (value : Bytes) : Prop :=
  tag = TlvTag.senderUsername.code → value.length ≤ MAX_USERNAME_SIZE

theorem onWorldTlv_ok (st : WorldFields) (tag : UInt8) (value : Bytes) :
    (∃ st', onWorldTlv st tag value = .ok st') ↔ WorldFits tag value := by
  unfold onWorldTlv WorldFits
  have hne : ¬ TlvTag.worldBroadcast.code = TlvTag.senderUsername.code := by decide
  split_ifs with h1 h2 h3 h4 <;> simp_all

theorem onWorldTlv_fields (st : WorldFields) (tag : UInt8) (value : Bytes) (st' : WorldFields)
    (h : onWorldTlv st tag value = .ok st') :
    (st'.hasBroadcastTag =
        if tag = TlvTag.worldBroadcast.code then true else st.hasBroadcastTag) ∧
      (st'.broadcast.senderUsername =
        if tag = TlvTag.senderUsername.code then value else st.broadcast.senderUsername) ∧
      (st'.hasSender = if tag = TlvTag.senderUsername.code then true else st.hasSender) ∧
      (st'.broadcast.messageContent =
        if tag = TlvTag.messageContent.code then value else st.broadcast.messageContent) ∧
      (st'.hasContent = if tag = TlvTag.messageContent.code then true else st.hasContent) := by
  have h1 : ¬ TlvTag.worldBroadcast.code = TlvTag.senderUsername.code := by decide
  have h2 : ¬ TlvTag.worldBroadcast.code = TlvTag.messageContent.code := by decide
  have h3 : ¬ TlvTag.senderUsername.code = TlvTag.messageContent.code := by decide
  unfold onWorldTlv at h
  split_ifs at h <;> cases h <;> simp_all

theorem fields_of_parseWorldBroadcast {b : WorldBroadcast} (h : parseWorldBroadcast m = .ok b) :
    ∃ fs, m.payloadBytes = Tlv.encode fs := by
  unfold parseWorldBroadcast at h
  split at h
  · cases h
  · rename_i hs
    exact Tlv.fields_of_scan hs

include hm in
theorem parseWorldBroadcast_iff (b : WorldBroadcast) :
    parseWorldBroadcast m = .ok b ↔
      (∀ f ∈ fs, WorldFits f.tag f.value) ∧
        (∃ v, last TlvTag.worldBroadcast.code fs = some v) ∧
        last TlvTag.senderUsername.code fs = some b.senderUsername ∧
        last TlvTag.messageContent.code fs = some b.messageContent := by
  unfold parseWorldBroadcast
  rw [hm]
  cases h : Tlv.scan ResponseCode.malformed.code onWorldTlv ⟨⟨[], []⟩, false, false, false⟩
    (Tlv.encode fs) with
  | error e =>
    refine ⟨fun he => (by cases he), fun hall => ?_⟩
    obtain ⟨st, hst⟩ := (Tlv.scan_ok_iff onWorldTlv_ok _ fs).mpr hall.1
    rw [h] at hst
    cases hst
  | ok st =>
    have hfits := (Tlv.scan_ok_iff onWorldTlv_ok _ fs).mp ⟨st, h⟩
    rw [and_iff_right hfits]
    have hb := Tlv.scan_last (fun s t v s' ho => (onWorldTlv_fields s t v s' ho).1) h
    have hs := Tlv.scan_last (fun s t v s' ho => (onWorldTlv_fields s t v s' ho).2.1) h
    have hhs := Tlv.scan_last (fun s t v s' ho => (onWorldTlv_fields s t v s' ho).2.2.1) h
    have hc := Tlv.scan_last (fun s t v s' ho => (onWorldTlv_fields s t v s' ho).2.2.2.1) h
    have hhc := Tlv.scan_last (fun s t v s' ho => (onWorldTlv_fields s t v s' ho).2.2.2.2) h
    obtain ⟨⟨sender, content⟩, hasBroadcastTag, hasSender, hasContent⟩ := st
    obtain ⟨bSender, bContent⟩ := b
    simp only at hb hs hhs hc hhc
    subst hb hs hhs hc hhc
    cases last TlvTag.worldBroadcast.code fs <;> cases last TlvTag.senderUsername.code fs <;>
      cases last TlvTag.messageContent.code fs <;> simp

/-! ## P2P broadcasts -/

def P2pFits (tag : UInt8) (value : Bytes) : Prop :=
  (tag = TlvTag.senderUsername.code → value.length ≤ MAX_USERNAME_SIZE) ∧
    (tag = TlvTag.recipientUsername.code → value.length ≤ MAX_USERNAME_SIZE)

theorem onP2pTlv_ok (st : P2pFields) (tag : UInt8) (value : Bytes) :
    (∃ st', onP2pTlv st tag value = .ok st') ↔ P2pFits tag value := by
  unfold onP2pTlv P2pFits
  have h1 : ¬ TlvTag.p2pBroadcast.code = TlvTag.senderUsername.code := by decide
  have h2 : ¬ TlvTag.p2pBroadcast.code = TlvTag.recipientUsername.code := by decide
  have h3 : ¬ TlvTag.senderUsername.code = TlvTag.recipientUsername.code := by decide
  split_ifs <;> simp_all

theorem onP2pTlv_fields (st : P2pFields) (tag : UInt8) (value : Bytes) (st' : P2pFields)
    (h : onP2pTlv st tag value = .ok st') :
    (st'.hasBroadcastTag =
        if tag = TlvTag.p2pBroadcast.code then true else st.hasBroadcastTag) ∧
      (st'.broadcast.senderUsername =
        if tag = TlvTag.senderUsername.code then value else st.broadcast.senderUsername) ∧
      (st'.hasSender = if tag = TlvTag.senderUsername.code then true else st.hasSender) ∧
      (st'.broadcast.recipientUsername =
        if tag = TlvTag.recipientUsername.code then value else st.broadcast.recipientUsername) ∧
      (st'.hasRecipient =
        if tag = TlvTag.recipientUsername.code then true else st.hasRecipient) ∧
      (st'.broadcast.messageContent =
        if tag = TlvTag.messageContent.code then value else st.broadcast.messageContent) ∧
      (st'.hasContent = if tag = TlvTag.messageContent.code then true else st.hasContent) := by
  have h1 : ¬ TlvTag.p2pBroadcast.code = TlvTag.senderUsername.code := by decide
  have h2 : ¬ TlvTag.p2pBroadcast.code = TlvTag.recipientUsername.code := by decide
  have h3 : ¬ TlvTag.p2pBroadcast.code = TlvTag.messageContent.code := by decide
  have h4 : ¬ TlvTag.senderUsername.code = TlvTag.recipientUsername.code := by decide
  have h5 : ¬ TlvTag.senderUsername.code = TlvTag.messageContent.code := by decide
  have h6 : ¬ TlvTag.recipientUsername.code = TlvTag.messageContent.code := by decide
  unfold onP2pTlv at h
  split_ifs at h <;> cases h <;> simp_all

theorem fields_of_parseP2pBroadcast {b : P2pBroadcast} (h : parseP2pBroadcast m = .ok b) :
    ∃ fs, m.payloadBytes = Tlv.encode fs := by
  unfold parseP2pBroadcast at h
  split at h
  · cases h
  · rename_i hs
    exact Tlv.fields_of_scan hs

include hm in
theorem parseP2pBroadcast_iff (b : P2pBroadcast) :
    parseP2pBroadcast m = .ok b ↔
      (∀ f ∈ fs, P2pFits f.tag f.value) ∧
        (∃ v, last TlvTag.p2pBroadcast.code fs = some v) ∧
        last TlvTag.senderUsername.code fs = some b.senderUsername ∧
        last TlvTag.recipientUsername.code fs = some b.recipientUsername ∧
        last TlvTag.messageContent.code fs = some b.messageContent := by
  unfold parseP2pBroadcast
  rw [hm]
  cases h : Tlv.scan ResponseCode.malformed.code onP2pTlv ⟨⟨[], [], []⟩, false, false, false, false⟩
    (Tlv.encode fs) with
  | error e =>
    refine ⟨fun he => (by cases he), fun hall => ?_⟩
    obtain ⟨st, hst⟩ := (Tlv.scan_ok_iff onP2pTlv_ok _ fs).mpr hall.1
    rw [h] at hst
    cases hst
  | ok st =>
    have hfits := (Tlv.scan_ok_iff onP2pTlv_ok _ fs).mp ⟨st, h⟩
    rw [and_iff_right hfits]
    have hb := Tlv.scan_last (fun s t v s' ho => (onP2pTlv_fields s t v s' ho).1) h
    have hs := Tlv.scan_last (fun s t v s' ho => (onP2pTlv_fields s t v s' ho).2.1) h
    have hhs := Tlv.scan_last (fun s t v s' ho => (onP2pTlv_fields s t v s' ho).2.2.1) h
    have hr := Tlv.scan_last (fun s t v s' ho => (onP2pTlv_fields s t v s' ho).2.2.2.1) h
    have hhr := Tlv.scan_last (fun s t v s' ho => (onP2pTlv_fields s t v s' ho).2.2.2.2.1) h
    have hc := Tlv.scan_last (fun s t v s' ho => (onP2pTlv_fields s t v s' ho).2.2.2.2.2.1) h
    have hhc := Tlv.scan_last (fun s t v s' ho => (onP2pTlv_fields s t v s' ho).2.2.2.2.2.2) h
    obtain ⟨⟨sender, recipient, content⟩, hasBroadcastTag, hasSender, hasRecipient, hasContent⟩ := st
    obtain ⟨bSender, bRecipient, bContent⟩ := b
    simp only at hb hs hhs hr hhr hc hhc
    subst hb hs hhs hr hhr hc hhc
    cases last TlvTag.p2pBroadcast.code fs <;> cases last TlvTag.senderUsername.code fs <;>
      cases last TlvTag.recipientUsername.code fs <;> cases last TlvTag.messageContent.code fs <;>
      simp

end Parsers

/-! ## The accepted payloads -/

section Accepted

variable (m : Message)

def credentialTags : List TlvTag := [.username, .password]

def worldTags : List TlvTag := [.worldBroadcast, .senderUsername, .messageContent]

def p2pTags : List TlvTag := [.p2pBroadcast, .senderUsername, .recipientUsername, .messageContent]

theorem parseCredentials_ok_iff :
    (∃ c, parseCredentials m = .ok c) ↔ m.Carries CredentialFits credentialTags := by
  constructor
  · rintro ⟨c, hc⟩
    obtain ⟨fs, hfs⟩ := fields_of_parseCredentials hc
    obtain ⟨hfits, hu, hp⟩ := (parseCredentials_iff hfs c).mp hc
    refine ⟨fs, hfs, hfits, ?_⟩
    simp only [credentialTags, List.forall_mem_cons, List.not_mem_nil, false_imp_iff,
      implies_true, and_true, ← Tlv.exists_last_iff]
    exact ⟨⟨_, hu⟩, ⟨_, hp⟩⟩
  · rintro ⟨fs, hfs, hfits, htags⟩
    simp only [credentialTags, List.forall_mem_cons, List.not_mem_nil, false_imp_iff,
      implies_true, and_true, ← Tlv.exists_last_iff] at htags
    obtain ⟨⟨username, hu⟩, ⟨password, hp⟩⟩ := htags
    exact ⟨⟨username, password⟩, (parseCredentials_iff hfs _).mpr ⟨hfits, hu, hp⟩⟩

theorem parseWorldBroadcast_ok_iff :
    (∃ b, parseWorldBroadcast m = .ok b) ↔ m.Carries WorldFits worldTags := by
  constructor
  · rintro ⟨b, hb⟩
    obtain ⟨fs, hfs⟩ := fields_of_parseWorldBroadcast hb
    obtain ⟨hfits, hw, hs, hc⟩ := (parseWorldBroadcast_iff hfs b).mp hb
    refine ⟨fs, hfs, hfits, ?_⟩
    simp only [worldTags, List.forall_mem_cons, List.not_mem_nil, false_imp_iff, implies_true,
      and_true, ← Tlv.exists_last_iff]
    exact ⟨hw, ⟨_, hs⟩, ⟨_, hc⟩⟩
  · rintro ⟨fs, hfs, hfits, htags⟩
    simp only [worldTags, List.forall_mem_cons, List.not_mem_nil, false_imp_iff, implies_true,
      and_true, ← Tlv.exists_last_iff] at htags
    obtain ⟨hw, ⟨sender, hs⟩, ⟨content, hc⟩⟩ := htags
    exact ⟨⟨sender, content⟩, (parseWorldBroadcast_iff hfs _).mpr ⟨hfits, hw, hs, hc⟩⟩

theorem parseP2pBroadcast_ok_iff :
    (∃ b, parseP2pBroadcast m = .ok b) ↔ m.Carries P2pFits p2pTags := by
  constructor
  · rintro ⟨b, hb⟩
    obtain ⟨fs, hfs⟩ := fields_of_parseP2pBroadcast hb
    obtain ⟨hfits, hp, hs, hr, hc⟩ := (parseP2pBroadcast_iff hfs b).mp hb
    refine ⟨fs, hfs, hfits, ?_⟩
    simp only [p2pTags, List.forall_mem_cons, List.not_mem_nil, false_imp_iff, implies_true,
      and_true, ← Tlv.exists_last_iff]
    exact ⟨hp, ⟨_, hs⟩, ⟨_, hr⟩, ⟨_, hc⟩⟩
  · rintro ⟨fs, hfs, hfits, htags⟩
    simp only [p2pTags, List.forall_mem_cons, List.not_mem_nil, false_imp_iff, implies_true,
      and_true, ← Tlv.exists_last_iff] at htags
    obtain ⟨hp, ⟨sender, hs⟩, ⟨recipient, hr⟩, ⟨content, hc⟩⟩ := htags
    exact ⟨⟨sender, recipient, content⟩, (parseP2pBroadcast_iff hfs _).mpr ⟨hfits, hp, hs, hr, hc⟩⟩

end Accepted

/-! ## Frames made of fields -/

/-- A request with these fields as its payload. -/
def requestFrame (version : UInt8) (type : MsgType) (rc : UInt8) (fs : List Field) : Bytes :=
  [version, type.code, rc] ++ Words.be32 (UInt32.ofNat (Tlv.encode fs).length) ++ Tlv.encode fs

section Frame

variable (version rc : UInt8) (type : MsgType) {fs : List Field}
  (h : (Tlv.encode fs).length ≤ MSG_MAX_PAYLOAD_SIZE.toNat)

theorem length_requestFrame (fs : List Field) :
    (requestFrame version type rc fs).length = MSG_HEADER_SIZE + (Tlv.encode fs).length := by
  rw [requestFrame, List.length_append, List.length_append, Words.length_be32]
  rfl

theorem parseMessage_requestFrame_append (fs : List Field) (rest : Bytes) :
    parseMessage (requestFrame version type rc fs ++ rest) =
      ⟨UInt32.ofNat (Tlv.encode fs).length, version, type.code, rc,
        some (Tlv.encode fs ++ rest)⟩ := parseMessage_append

theorem parseMessage_requestFrame (fs : List Field) :
    parseMessage (requestFrame version type rc fs) =
      ⟨UInt32.ofNat (Tlv.encode fs).length, version, type.code, rc, some (Tlv.encode fs)⟩ := by
  have happ := parseMessage_requestFrame_append version rc type fs []
  rwa [List.append_nil, List.append_nil] at happ

include h

theorem toNat_payload : (UInt32.ofNat (Tlv.encode fs).length).toNat = (Tlv.encode fs).length := by
  have h4096 : MSG_MAX_PAYLOAD_SIZE.toNat = 4096 := rfl
  rw [UInt32.toNat_ofNat', Nat.mod_eq_of_lt (by omega)]

theorem payload_not_too_big : ¬ UInt32.ofNat (Tlv.encode fs).length > MSG_MAX_PAYLOAD_SIZE := by
  rw [gt_iff_lt, UInt32.lt_iff_toNat_lt, toNat_payload h]
  exact Nat.not_lt.mpr h

theorem payloadBytes_requestFrame :
    (parseMessage (requestFrame version type rc fs)).payloadBytes = Tlv.encode fs := by
  rw [parseMessage_requestFrame, Message.payloadBytes, toNat_payload h]
  exact List.take_length

end Frame

end ChatServer
