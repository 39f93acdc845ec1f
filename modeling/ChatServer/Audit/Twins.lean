import ChatServer.Audit.Addressing
import ChatServer.Audit.Alike
import ChatServer.Audit.FrameLocality

/-!
# P2P requests that differ in their contents

Two such requests have one header, so streams in which they take each other's place are cut at
the same bytes. Served in states that are alike, they are rejected for the same reason or
delivered to the same connection, and leave the states alike if that connection is `b`.
-/

namespace ChatServer

open EdgeTrigger (Errno Rv Interest Syscall)

/-! ## Two frames under one header -/

theorem header_take {b : Bytes} (h : MSG_HEADER_SIZE ≤ b.length) :
    (parseMessage b).type = (parseMessage (b.take MSG_HEADER_SIZE)).type ∧
      (parseMessage b).payloadLength = (parseMessage (b.take MSG_HEADER_SIZE)).payloadLength := by
  constructor
  · have h1 : 1 < MSG_HEADER_SIZE := by decide
    simp only [parseMessage, List.getD_eq_getElem?_getD, List.getElem?_take_of_lt h1]
  · have h7 : MSG_HEADER_SIZE ≤ (b.take MSG_HEADER_SIZE).length := by
      rw [List.length_take]
      omega
    rw [← payloadLength_append h7 (b.drop MSG_HEADER_SIZE), List.take_append_drop]

theorem header_congr {x y : Bytes} (hx : MSG_HEADER_SIZE ≤ x.length) (hlen : y.length = x.length)
    (hhead : y.take MSG_HEADER_SIZE = x.take MSG_HEADER_SIZE) :
    (parseMessage y).type = (parseMessage x).type ∧
      (parseMessage y).payloadLength = (parseMessage x).payloadLength := by
  have hy : MSG_HEADER_SIZE ≤ y.length := by omega
  obtain ⟨hx1, hx2⟩ := header_take hx
  obtain ⟨hy1, hy2⟩ := header_take hy
  rw [hx1, hx2, hy1, hy2, hhead]
  exact ⟨rfl, rfl⟩

/-- A buffer is cut by its length and its header. -/
theorem requestCut_congr {x y : Bytes} (hlen : y.length = x.length)
    (hhead : y.take MSG_HEADER_SIZE = x.take MSG_HEADER_SIZE) : requestCut y = requestCut x := by
  unfold requestCut
  rw [hlen]
  by_cases hshort : x.length < MSG_HEADER_SIZE + 1
  · rw [if_pos hshort, if_pos hshort]
  · have hx : MSG_HEADER_SIZE ≤ x.length := by omega
    rw [(header_congr hx hlen hhead).2]

/-- Nothing but the frame itself is cut off in front of what follows it. -/
theorem CompleteFrame.whole {f : Bytes} (h : CompleteFrame f) : requestFramer.Whole f := by
  intro d n hn
  obtain ⟨_, _, hcount, _⟩ := requestCut_eq_take.mp (show requestCut (f ++ d) = .take n from hn)
  rw [hcount, payloadLength_append h.header_le, h.1]

/-! ## P2P requests that differ in their contents -/

/-- Two P2P requests with one header, sender and recipient, whose contents are not empty and
have one length. -/
structure P2pTwins (f f' : Bytes) : Prop where
  length : f'.length = f.length
  header : f'.take MSG_HEADER_SIZE = f.take MSG_HEADER_SIZE
  chat : (parseMessage f).type = MsgType.chat.code
  tag : peekBroadcastType (parseMessage f) = TlvTag.p2pBroadcast.code
  tag' : peekBroadcastType (parseMessage f') = TlvTag.p2pBroadcast.code
  parses : ∃ (p : P2pBroadcast) (content : Bytes),
    parseP2pBroadcast (parseMessage f) = .ok p ∧ p.messageContent ≠ [] ∧
      parseP2pBroadcast (parseMessage f') = .ok { p with messageContent := content } ∧
      content ≠ [] ∧ content.length = p.messageContent.length

theorem P2pTwins.completeFrame {f f' : Bytes} (h : P2pTwins f f') (hf : CompleteFrame f) :
    CompleteFrame f' := by
  have hlen := (header_congr hf.header_le h.length h.header).2
  unfold CompleteFrame
  rw [h.length, hlen]
  exact hf

theorem length_wire_ofFields (type : MsgType) {fs : List Tlv.Field} (h : fs.length ≤ 4) :
    (Message.ofFields type fs).wire.length = MSG_HEADER_SIZE + (Tlv.encode fs).length := by
  have hwhole : (Message.ofFields type fs).Whole := ⟨(sound_ofFields h).2, not_payload_too_big h⟩
  rw [length_wire hwhole]
  exact congrArg (MSG_HEADER_SIZE + ·) (toNat_length_encode h)

/-- A notification is as long as its fields make it. -/
theorem length_wire_p2p (p : P2pBroadcast) {content : Bytes}
    (h : content.length = p.messageContent.length) :
    (Message.ofFields .chat (p2pFields { p with messageContent := content })).wire.length =
      (Message.ofFields .chat (p2pFields p)).wire.length := by
  have hfields : ∀ p : P2pBroadcast, (p2pFields p).length ≤ 4 := fun p => by simp [p2pFields]
  rw [length_wire_ofFields .chat (hfields _), length_wire_ofFields .chat (hfields _)]
  simp only [p2pFields, Tlv.encode_cons, List.length_append, Tlv.Field.length_encode, textField,
    length_short, h]

/-! ## Two such requests served -/

section Twins

variable {a b c : Nat} {s t : Server} {f f' : Bytes}

theorem dispatch_unauth {request : Message} {o : SqlOutcome}
    (hchat : request.type = MsgType.chat.code) (ha : hasFlag (s.slot c).flags .isAuth = false) :
    s.dispatch c request o = s.rejectChat ResponseCode.invalidCredentials.code := by
  rw [dispatch_chat hchat, Server.handleBroadcastMessage, Server.flags_eq, ha]
  rfl

/-- Two such requests are rejected for one reason, or delivered to one connection. -/
theorem Alike.dispatch_twins (h : Alike a b s t) (hfull : CompleteFrame f) (htwins : P2pTwins f f')
    (o : SqlOutcome) (hto : ∀ i ∈ s.view.recipients c (parseMessage f), i = b) :
    Alike a b (s.dispatch c (parseMessage f) o).1 (t.dispatch c (parseMessage f') o).1 ∧
      (t.dispatch c (parseMessage f') o).2.wire.length =
        (s.dispatch c (parseMessage f) o).2.wire.length := by
  have hchat' : (parseMessage f').type = MsgType.chat.code :=
    (header_congr hfull.header_le htwins.length htwins.header).1.trans htwins.chat
  have hauth : hasFlag (t.slot c).flags .isAuth = hasFlag (s.slot c).flags .isAuth :=
    h.hasFlag_eq c .isAuth
  have hname : (t.slot c).username = (s.slot c).username := (h.slot c).username
  obtain ⟨p, content, hp, hne, hp', hne', hlen⟩ := htwins.parses
  cases ha : hasFlag (s.slot c).flags .isAuth with
  | false =>
    rw [dispatch_unauth htwins.chat ha, dispatch_unauth hchat' (hauth.trans ha)]
    exact ⟨h, rfl⟩
  | true =>
    rw [dispatch_p2p htwins.chat ha htwins.tag, dispatch_p2p hchat' (hauth.trans ha) htwins.tag']
    by_cases hown : (s.slot c).username = p.recipientUsername
    · rw [handleP2pBroadcast_own hp hne hown, handleP2pBroadcast_own hp' hne' (hname.trans hown)]
      exact ⟨h, rfl⟩
    have hown' : (t.slot c).username ≠ p.recipientUsername := by
      rw [hname]
      exact hown
    have hfind : t.findRecipient c p.recipientUsername = s.findRecipient c p.recipientUsername :=
      (servesAlike_alike a b c).findRecipient h _
    cases hf : s.findRecipient c p.recipientUsername with
    | none =>
      rw [handleP2pBroadcast_missing hp hne hown hf,
        handleP2pBroadcast_missing hp' hne' hown' (hfind.trans hf)]
      exact ⟨h, rfl⟩
    | some i =>
      have hi : i = b := by
        apply hto
        rw [View.recipients, if_pos htwins.tag, hp]
        simp only
        rw [← findRecipient_eq, hf]
        exact List.mem_singleton_self i
      subst hi
      have hwire := length_wire_p2p { p with senderUsername := (s.slot c).username } hlen
      rw [handleP2pBroadcast_found hp hne hown hf,
        handleP2pBroadcast_found hp' hne' hown' (hfind.trans hf), hname]
      exact ⟨h.deliver i ⟨hwire, fun hthird => absurd (.inr rfl) hthird⟩, hwire⟩

theorem Alike.serveFrame_twins (h : Alike a b s t) (hfull : CompleteFrame f)
    (htwins : P2pTwins f f') (o : SqlOutcome)
    (hto : ∀ i ∈ s.view.recipients a (parseMessage f), i = b) :
    Alike a b (s.serveFrame a f o) (t.serveFrame a f' o) := by
  obtain ⟨hd, hlen⟩ := h.dispatch_twins hfull htwins o hto
  exact hd.respond a f f' ⟨hlen, fun hthird => absurd (.inl rfl) hthird⟩ _ _ o

end Twins

/-! ## Streams of paired frames -/

/-- Two buffers that hold equally much of paired streams are cut alike, and hold the two frames
of one pair if a frame can be cut. -/
theorem cut_pairs {pairs : List (Bytes × Bytes)} {tail x y : Bytes}
    (hpairs : ∀ p ∈ pairs, CompleteFrame p.1 ∧ (p.2 = p.1 ∨ P2pTwins p.1 p.2))
    (htail : ∀ n, requestCut tail ≠ .take n) (hlen : y.length = x.length)
    (hx : x <+: (pairs.map Prod.fst).flatten ++ tail)
    (hy : y <+: (pairs.map Prod.snd).flatten ++ tail) :
    requestCut y = requestCut x ∧ ∀ n, requestCut x = .take n →
      ∃ p, pairs.head? = some p ∧ x.take n = p.1 ∧ y.take n = p.2 := by
  cases pairs with
  | nil =>
    have heq : y = x := by
      rw [List.prefix_iff_eq_take.mp hx, List.prefix_iff_eq_take.mp hy, hlen]
      rfl
    subst heq
    refine ⟨rfl, fun n hn => ?_⟩
    obtain ⟨d, hd⟩ := hy
    have hcut := requestCut_take_append hn d
    rw [hd] at hcut
    exact absurd hcut (htail n)
  | cons p rest =>
    obtain ⟨hfull, hpair⟩ := hpairs p List.mem_cons_self
    have hother : p.2.length = p.1.length ∧
        p.2.take MSG_HEADER_SIZE = p.1.take MSG_HEADER_SIZE ∧ CompleteFrame p.2 := by
      rcases hpair with heq | htwins
      · rw [heq]
        exact ⟨rfl, rfl, hfull⟩
      · exact ⟨htwins.length, htwins.header, htwins.completeFrame hfull⟩
    obtain ⟨hlen', hhead, hfull'⟩ := hother
    rw [List.map_cons, List.flatten_cons, List.append_assoc] at hx hy
    have hheader : y.take MSG_HEADER_SIZE = x.take MSG_HEADER_SIZE := by
      rw [List.prefix_iff_eq_take.mp hx, List.prefix_iff_eq_take.mp hy, hlen, List.take_take,
        List.take_take, Nat.min_comm, ← List.take_take, ← List.take_take,
        List.take_append_of_le_length hfull.header_le,
        List.take_append_of_le_length hfull'.header_le, hhead]
    have hcut := requestCut_congr hlen hheader
    refine ⟨hcut, fun n hn => ⟨p, rfl, ?_, ?_⟩⟩
    · exact Framing.Framer.Whole.take_eq requestFramer hfull.whole hx hn
    · exact Framing.Framer.Whole.take_eq requestFramer hfull'.whole hy (hcut.trans hn)

end ChatServer
