import ChatServer.Audit.RoundTrip

/-!
# The two overloads of the broadcast builders

A client fills a raw buffer with a broadcast, header and payload; the server fills a `message_t`
that `write_message_to_buffer` appends to an outgoing buffer. Within the limits that only
the client checks, both put the same frame on the wire.
-/

namespace ChatServer

open Tlv (Field)

/-- Both overloads fail, or both succeed and the message, appended to any buffer, adds to it the
bytes that the other overload has left at the front of the raw buffer. -/
def SameBytes (request : Except Int (Bytes × UInt32)) (response : Except Int Message) : Prop :=
  (request = .error (-1) ∧ response = .error (-1)) ∨
    ∃ raw messageLen message, request = .ok (raw, messageLen) ∧ response = .ok message ∧
      messageLen.toNat ≤ raw.length ∧
      ∀ buffer, writeMessageToBuffer buffer message = buffer ++ raw.take messageLen.toNat

/-- The message of some fields is on the wire the frame with these fields. -/
theorem wire_ofFields (type : MsgType) {fs : List Field} (h : fs.length ≤ 4) :
    (Message.ofFields type fs).wire = requestFrame 1 type 0 fs := by
  rw [Message.wire, payloadBytes_ofFields h]
  rfl

theorem sameBytes_fields {requestBuffer : Bytes} {fs : List Field} (h : fs.length ≤ 4) :
    SameBytes (writeRequest .chat requestBuffer (Tlv.encode fs)) (.ok (.ofFields .chat fs)) := by
  obtain ⟨messageLen, hwrite, hlen⟩ := writeRequest_encode .chat requestBuffer h
  refine .inr ⟨_, messageLen, _, hwrite, rfl, ?_, fun buffer => ?_⟩
  · rw [hlen, List.length_append]
    exact Nat.le_add_right _ _
  · rw [writeMessageToBuffer_eq, wire_ofFields .chat h, hlen, List.take_left]

variable (requestBuffer : Bytes)

theorem sameBytes_world {b : WorldBroadcast} (h : b.Fits) :
    SameBytes (buildWorldBroadcastRequest requestBuffer b) (buildWorldBroadcast b) := by
  rw [buildWorldBroadcast_eq, buildWorldBroadcastRequest, if_neg (Nat.not_lt.mpr h.1),
    if_neg (Nat.not_lt.mpr h.2)]
  simp only [writeTlv_world]
  exact sameBytes_fields (by simp [worldFields])

/-- Equal names are refused by both overloads. -/
theorem sameBytes_p2p {b : P2pBroadcast} (hs : b.senderUsername.length ≤ MAX_USERNAME_SIZE)
    (hr : b.recipientUsername.length ≤ MAX_USERNAME_SIZE)
    (hc : b.messageContent.length ≤ MAX_MSG_CONTENT_SIZE) :
    SameBytes (buildP2pBroadcastRequest requestBuffer b) (buildP2pBroadcast b) := by
  rw [buildP2pBroadcastRequest, if_neg (Nat.not_lt.mpr hs), if_neg (Nat.not_lt.mpr hr)]
  by_cases hne : b.senderUsername = b.recipientUsername
  · exact .inl ⟨if_pos hne, if_pos hne⟩
  · rw [if_neg hne, if_neg (Nat.not_lt.mpr hc), buildP2pBroadcast_eq hne]
    simp only [writeTlv_p2p]
    exact sameBytes_fields (by simp [p2pFields])

/-- **The overloads agree** on every broadcast within the limits. -/
theorem overloads_agree :
    (∀ b : WorldBroadcast, b.senderUsername.length ≤ MAX_USERNAME_SIZE →
      b.messageContent.length ≤ MAX_MSG_CONTENT_SIZE →
      SameBytes (buildWorldBroadcastRequest requestBuffer b) (buildWorldBroadcast b)) ∧
    ∀ b : P2pBroadcast, b.senderUsername.length ≤ MAX_USERNAME_SIZE →
      b.recipientUsername.length ≤ MAX_USERNAME_SIZE →
      b.messageContent.length ≤ MAX_MSG_CONTENT_SIZE →
      SameBytes (buildP2pBroadcastRequest requestBuffer b) (buildP2pBroadcast b) :=
  ⟨fun _ hs hc => sameBytes_world requestBuffer ⟨hs, hc⟩,
    fun _ hs hr hc => sameBytes_p2p requestBuffer hs hr hc⟩

/-- "hi" from "a", to everyone and to "b". -/
theorem overloads_agree_hi :
    SameBytes (buildWorldBroadcastRequest [] ⟨[97], [104, 105]⟩)
        (buildWorldBroadcast ⟨[97], [104, 105]⟩) ∧
      SameBytes (buildP2pBroadcastRequest [] ⟨[97], [98], [104, 105]⟩)
        (buildP2pBroadcast ⟨[97], [98], [104, 105]⟩) :=
  ⟨(overloads_agree []).1 _ (by decide) (by decide),
    (overloads_agree []).2 _ (by decide) (by decide) (by decide)⟩

end ChatServer
