import ChatServer.Audit.Grammar
import ChatServer.Lib.Walk

/-!
# The parsers of the server accept the grammar of fields

The parsers of the source move a pointer through the payload. Written so, over memory that holds
the payload and nothing else, each of them comes to its end inside that memory with the
result it has on the list of the payload's bytes. It accepts the concatenations of fields that
are within the limits and have all its tags, and refuses everything else as malformed.
-/

namespace ChatServer

open Tlv (Field last)

/-! ## The parsers over memory -/

section Memory

/-- A parser over the memory of its payload: the loop, and the check behind it. There is no result
if a byte is fetched from outside. -/
def parseAt {σ α : Type} (onField : σ → UInt8 → Bytes → Except Int σ) (start : σ)
    (check : σ → Except Int α) (memory : Bytes) : Option (Except Int α) :=
  (Tlv.walk ResponseCode.malformed.code onField start memory).map fun r =>
    (Tlv.outcome r).bind check

def parseCredentialsAt (memory : Bytes) : Option (Except Int Credentials) :=
  parseAt onCredentialTlv ⟨⟨[], []⟩, false, false⟩
    (fun st => if !st.hasUsername || !st.hasPassword then .error ResponseCode.malformed.code
      else .ok st.credentials) memory

def parseWorldBroadcastAt (memory : Bytes) : Option (Except Int WorldBroadcast) :=
  parseAt onWorldTlv ⟨⟨[], []⟩, false, false, false⟩
    (fun st => if !st.hasBroadcastTag || !st.hasSender || !st.hasContent then
        .error ResponseCode.malformed.code
      else .ok st.broadcast) memory

def parseP2pBroadcastAt (memory : Bytes) : Option (Except Int P2pBroadcast) :=
  parseAt onP2pTlv ⟨⟨[], [], []⟩, false, false, false, false⟩
    (fun st => if !st.hasBroadcastTag || !st.hasSender || !st.hasRecipient || !st.hasContent then
        .error ResponseCode.malformed.code
      else .ok st.broadcast) memory

/-- The walk does not leave the memory. -/
theorem parseAt_eq {σ α : Type} (onField : σ → UInt8 → Bytes → Except Int σ) (start : σ)
    (check : σ → Except Int α) (memory : Bytes) :
    parseAt onField start check memory =
      some ((Tlv.scan ResponseCode.malformed.code onField start memory).bind check) := by
  rw [parseAt, Tlv.walk_eq, Tlv.scan_eq]
  rfl

variable (m : Message)

theorem parseCredentialsAt_eq :
    parseCredentialsAt m.payloadBytes = some (parseCredentials m) := by
  rw [parseCredentialsAt, parseAt_eq, parseCredentials]
  cases Tlv.scan ResponseCode.malformed.code onCredentialTlv ⟨⟨[], []⟩, false, false⟩
    m.payloadBytes <;> rfl

theorem parseWorldBroadcastAt_eq :
    parseWorldBroadcastAt m.payloadBytes = some (parseWorldBroadcast m) := by
  rw [parseWorldBroadcastAt, parseAt_eq, parseWorldBroadcast]
  cases Tlv.scan ResponseCode.malformed.code onWorldTlv ⟨⟨[], []⟩, false, false, false⟩
    m.payloadBytes <;> rfl

theorem parseP2pBroadcastAt_eq :
    parseP2pBroadcastAt m.payloadBytes = some (parseP2pBroadcast m) := by
  rw [parseP2pBroadcastAt, parseAt_eq, parseP2pBroadcast]
  cases Tlv.scan ResponseCode.malformed.code onP2pTlv ⟨⟨[], [], []⟩, false, false, false, false⟩
    m.payloadBytes <;> rfl

end Memory

/-! ## The grammar -/

/-- The parser ends inside the payload with this result. It accepts exactly the payloads that
are whole fields within the limits, with each of the tags; what it gives back are the
last values of the tags, and all other payloads are malformed. -/
structure Recognizes {α : Type} (m : Message) (walk : Bytes → Option (Except Int α))
    (result : Except Int α) (fits : UInt8 → Bytes → Prop) (tags : List TlvTag)
    (values : α → List (TlvTag × Bytes)) : Prop where
  inside : walk m.payloadBytes = some result
  accepts : (∃ a, result = .ok a) ↔ m.Carries fits tags
  values : ∀ a fs, result = .ok a → m.payloadBytes = Tlv.encode fs →
    ∀ p ∈ values a, last p.1.code fs = some p.2
  refuses : ∀ rc, result = .error rc → rc = ResponseCode.malformed.code

section Parsers

variable (m : Message)

theorem recognizes_credentials :
    Recognizes m parseCredentialsAt (parseCredentials m) CredentialFits credentialTags
      fun c => [(.username, c.username), (.password, c.password)] where
  inside := parseCredentialsAt_eq m
  accepts := parseCredentials_ok_iff m
  values c fs hc hfs := by
    obtain ⟨_, hu, hp⟩ := (parseCredentials_iff hfs c).mp hc
    simp [hu, hp]
  refuses _ h := parseCredentials_error h

theorem recognizes_world :
    Recognizes m parseWorldBroadcastAt (parseWorldBroadcast m) WorldFits worldTags
      fun b => [(.senderUsername, b.senderUsername), (.messageContent, b.messageContent)] where
  inside := parseWorldBroadcastAt_eq m
  accepts := parseWorldBroadcast_ok_iff m
  values b fs hb hfs := by
    obtain ⟨_, _, hs, hc⟩ := (parseWorldBroadcast_iff hfs b).mp hb
    simp [hs, hc]
  refuses _ h := parseWorldBroadcast_error h

theorem recognizes_p2p :
    Recognizes m parseP2pBroadcastAt (parseP2pBroadcast m) P2pFits p2pTags
      fun b => [(.senderUsername, b.senderUsername), (.recipientUsername, b.recipientUsername),
        (.messageContent, b.messageContent)] where
  inside := parseP2pBroadcastAt_eq m
  accepts := parseP2pBroadcast_ok_iff m
  values b fs hb hfs := by
    obtain ⟨_, _, hs, hr, hc⟩ := (parseP2pBroadcast_iff hfs b).mp hb
    simp [hs, hr, hc]
  refuses _ h := parseP2pBroadcast_error h

/-- **The parsers accept the grammar.** Each of the four request parsers reads any payload
without leaving it and accepts it exactly if it is made of whole fields within the limits of
the parser, among them all that the parser requires. -/
theorem parsers_accept_grammar :
    Recognizes m parseCredentialsAt (parseRegisterRequest m) CredentialFits credentialTags
      (fun c => [(.username, c.username), (.password, c.password)]) ∧
    Recognizes m parseCredentialsAt (parseLoginRequest m) CredentialFits credentialTags
      (fun c => [(.username, c.username), (.password, c.password)]) ∧
    Recognizes m parseWorldBroadcastAt (parseWorldBroadcast m) WorldFits worldTags
      (fun b => [(.senderUsername, b.senderUsername), (.messageContent, b.messageContent)]) ∧
    Recognizes m parseP2pBroadcastAt (parseP2pBroadcast m) P2pFits p2pTags
      (fun b => [(.senderUsername, b.senderUsername), (.recipientUsername, b.recipientUsername),
        (.messageContent, b.messageContent)]) :=
  ⟨recognizes_credentials m, recognizes_credentials m, recognizes_world m, recognizes_p2p m⟩

end Parsers

end ChatServer
