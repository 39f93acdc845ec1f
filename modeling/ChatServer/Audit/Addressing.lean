import ChatServer.Audit.Usernames

/-!
# P2P addresses and account names

Registration and login take two spellings of a name that differ in case for one account. The
P2P broadcast compares the recipient with the names in the table byte for byte, so it reaches
an account only under the spelling it was registered with.
-/

namespace ChatServer

/-- An account with this name, up to case, has signed in on another connection than `c`. -/
def Server.Online (s : Server) (c i : Nat) (name : Bytes) : Prop :=
  i ≠ c ∧ hasFlag (s.slot i).flags .isAuth = true ∧ SameName name (s.slot i).username

/-- A P2P request on `c` to `name` treats names as registration does: the sender's own name is
refused, an account online elsewhere is sent the message, and any other name is not found. -/
structure P2pAddressed (s s' : Server) (c : Nat) (b : P2pBroadcast) (response : Message) :
    Prop where
  own : SameName b.recipientUsername (s.slot c).username →
    response.rc = ResponseCode.malformed.byte ∧ ∀ j, j ≠ c → s'.slot j = s.slot j
  online : ¬ SameName b.recipientUsername (s.slot c).username →
    (∃ i, s.Online c i b.recipientUsername) →
    response.rc = ResponseCode.ok.byte ∧
      DecodesTo parseP2pBroadcastNotification response.wire
        { b with senderUsername := (s.slot c).username } ∧
      ∃ i, s.Online c i b.recipientUsername ∧
        (s'.slot i).outgoing = (s.slot i).outgoing ++ response.wire
  offline : ¬ SameName b.recipientUsername (s.slot c).username →
    (¬ ∃ i, s.Online c i b.recipientUsername) →
    response.rc = ResponseCode.userNotFound.byte ∧ ∀ j, j ≠ c → s'.slot j = s.slot j

/-- `name` is spelled as the table spells it, where it is the sender's own name up to case, or
else the name of an account online elsewhere. -/
def Server.SpelledAsStored (s : Server) (c : Nat) (name : Bytes) : Prop :=
  (SameName name (s.slot c).username → name = (s.slot c).username) ∧
    (¬ SameName name (s.slot c).username → (∃ i, s.Online c i name) →
      ∃ i, i ≠ c ∧ hasFlag (s.slot i).flags .isAuth = true ∧ (s.slot i).username = name)

theorem dispatch_p2p {s : Server} {c : Nat} {request : Message} {o : SqlOutcome}
    (hchat : request.type = MsgType.chat.code) (ha : hasFlag (s.slot c).flags .isAuth = true)
    (hk : peekBroadcastType request = TlvTag.p2pBroadcast.code) :
    s.dispatch c request o = s.handleP2pBroadcast c request := by
  have hne : ¬ TlvTag.p2pBroadcast.code = TlvTag.worldBroadcast.code := by decide
  rw [dispatch_chat hchat]
  simp only [Server.handleBroadcastMessage, Server.flags_eq, ha, hk, hne, ↓reduceIte, Bool.not_true,
    Bool.false_eq_true]

section Handler

variable {s : Server} {c : Nat} {request : Message} {b : P2pBroadcast}
  (hp : parseP2pBroadcast request = .ok b) (hb : b.messageContent ≠ [])

include hp hb

theorem handleP2pBroadcast_own (h : (s.slot c).username = b.recipientUsername) :
    s.handleP2pBroadcast c request = s.rejectChat ResponseCode.malformed.code := by
  have hb' : ¬ b.messageContent.isEmpty = true := by simpa using hb
  simp only [Server.handleP2pBroadcast, hp, if_neg hb', Server.username_eq, h, ↓reduceIte]

theorem handleP2pBroadcast_missing (hne : (s.slot c).username ≠ b.recipientUsername)
    (h : s.findRecipient c b.recipientUsername = none) :
    s.handleP2pBroadcast c request = s.rejectChat ResponseCode.userNotFound.code := by
  have hb' : ¬ b.messageContent.isEmpty = true := by simpa using hb
  have hbuild : buildP2pBroadcastNotification
      { b with senderUsername := s.connManager.usernames c } = .ok (.ofFields .chat _) :=
    buildP2pBroadcast_eq hne
  have hne' : ¬ s.connManager.usernames c = b.recipientUsername := hne
  simp only [Server.handleP2pBroadcast, hp, if_neg hb', if_neg hne', hbuild, h]

theorem handleP2pBroadcast_found {i : Nat} (hne : (s.slot c).username ≠ b.recipientUsername)
    (h : s.findRecipient c b.recipientUsername = some i) :
    s.handleP2pBroadcast c request =
      (s.deliver i (Message.ofFields .chat
          (p2pFields { b with senderUsername := (s.slot c).username })).wire,
        .ofFields .chat (p2pFields { b with senderUsername := (s.slot c).username })) := by
  have hb' : ¬ b.messageContent.isEmpty = true := by simpa using hb
  have hbuild : buildP2pBroadcastNotification
      { b with senderUsername := s.connManager.usernames c } = .ok (.ofFields .chat _) :=
    buildP2pBroadcast_eq hne
  have hne' : ¬ s.connManager.usernames c = b.recipientUsername := hne
  simp only [Server.handleP2pBroadcast, hp, if_neg hb', if_neg hne', hbuild, h,
    writeMessageToBuffer_eq, List.nil_append]
  rfl

end Handler

/-- The search of the table, over all connections that have signed in. -/
theorem findRecipient_some {s : Server} {c i : Nat} {name : Bytes}
    (h : s.findRecipient c name = some i) :
    i ≠ c ∧ hasFlag (s.slot i).flags .isAuth = true ∧ (s.slot i).username = name := by
  have hfound := List.find?_some h
  simp only [Server.isValidRecipient, Bool.and_eq_true, bne_iff_ne, ne_eq, beq_iff_eq] at hfound
  exact ⟨hfound.1.2, hfound.1.1, hfound.2⟩

theorem findRecipient_none {s : Server} {c : Nat} {name : Bytes} (hs : Tidy s)
    (h : s.findRecipient c name = none) {i : Nat} (hi : i ≠ c)
    (ha : hasFlag (s.slot i).flags .isAuth = true) : (s.slot i).username ≠ name := by
  intro he
  have hno := List.find?_eq_none.mp h i (List.mem_range.mpr (hs.lt_size ha))
  apply hno
  simp only [Server.isValidRecipient, Bool.and_eq_true, bne_iff_ne, ne_eq, beq_iff_eq]
  exact ⟨⟨ha, hi⟩, he⟩

/-! ## The three outcomes -/

section Outcome

variable {s s' : Server} {c : Nat} {b : P2pBroadcast} {response : Message}

theorem p2pAddressed_own (h : (s.slot c).username = b.recipientUsername)
    (hrc : response.rc = ResponseCode.malformed.byte) (hslot : ∀ j, j ≠ c → s'.slot j = s.slot j) :
    P2pAddressed s s' c b response ↔ s.SpelledAsStored c b.recipientUsername := by
  have hsame : SameName b.recipientUsername (s.slot c).username := congrArg stringToLower h.symm
  refine ⟨fun _ => ⟨fun _ => h.symm, fun hne => absurd hsame hne⟩, fun _ => ?_⟩
  exact ⟨fun _ => ⟨hrc, hslot⟩, fun hne => absurd hsame hne, fun hne => absurd hsame hne⟩

theorem p2pAddressed_missing (hne : (s.slot c).username ≠ b.recipientUsername)
    (hnone : ∀ i, i ≠ c → hasFlag (s.slot i).flags .isAuth = true →
      (s.slot i).username ≠ b.recipientUsername)
    (hrc : response.rc = ResponseCode.userNotFound.byte)
    (hslot : ∀ j, j ≠ c → s'.slot j = s.slot j) :
    P2pAddressed s s' c b response ↔ s.SpelledAsStored c b.recipientUsername := by
  constructor
  · intro h
    refine ⟨fun hsame => ?_, fun hother hex => ?_⟩
    · exact absurd (hrc.symm.trans (h.own hsame).1) (by decide)
    · exact absurd (hrc.symm.trans (h.online hother hex).1) (by decide)
  · intro h
    refine ⟨fun hsame => absurd (h.1 hsame).symm hne, fun hother hex => ?_,
      fun _ _ => ⟨hrc, hslot⟩⟩
    obtain ⟨i, hi, ha, hname⟩ := h.2 hother hex
    exact absurd hname (hnone i hi ha)

theorem p2pAddressed_found {i : Nat} (hne : (s.slot c).username ≠ b.recipientUsername) (hi : i ≠ c)
    (ha : hasFlag (s.slot i).flags .isAuth = true) (hname : (s.slot i).username = b.recipientUsername)
    (hrc : response.rc = ResponseCode.ok.byte)
    (hdec : DecodesTo parseP2pBroadcastNotification response.wire
      { b with senderUsername := (s.slot c).username })
    (hout : (s'.slot i).outgoing = (s.slot i).outgoing ++ response.wire) :
    P2pAddressed s s' c b response ↔ s.SpelledAsStored c b.recipientUsername := by
  have honline : s.Online c i b.recipientUsername := ⟨hi, ha, congrArg stringToLower hname.symm⟩
  constructor
  · intro h
    refine ⟨fun hsame => ?_, fun _ _ => ⟨i, hi, ha, hname⟩⟩
    exact absurd (hrc.symm.trans (h.own hsame).1) (by decide)
  · intro h
    exact ⟨fun hsame => absurd (h.1 hsame).symm hne, fun _ _ => ⟨hrc, hdec, i, honline, hout⟩,
      fun _ hno => absurd ⟨i, honline⟩ hno⟩

end Outcome

/-- **A P2P request reaches the account that its recipient names exactly if the name is spelled
as it was registered.** On a connection that has signed in, a well-formed P2P request with
content is answered and delivered as the identity of accounts up to case demands if and only
if the recipient has the stored spelling. -/
theorem p2p_addressing {capacity listenfd : Nat} {db : Db} {s s' : Server} {c : Nat}
    {o : SqlOutcome} {b : P2pBroadcast} (hs : AtRequest (Server.boot capacity listenfd db) c s)
    (h : s.tryOneRequest c o = (s', true)) (ha : hasFlag (s.slot c).flags .isAuth = true)
    (hchat : (s.pending c).type = MsgType.chat.code)
    (hk : peekBroadcastType (s.pending c) = TlvTag.p2pBroadcast.code)
    (hp : parseP2pBroadcast (s.pending c) = .ok b) (hb : b.messageContent ≠ []) :
    P2pAddressed s s' c b (s.dispatch c (s.pending c) o).2 ↔
      s.SpelledAsStored c b.recipientUsername := by
  have hslot := (tryOneRequest_pending h).2
  rw [dispatch_p2p hchat ha hk] at hslot ⊢
  by_cases hown : (s.slot c).username = b.recipientUsername
  · rw [handleP2pBroadcast_own hp hb hown] at hslot ⊢
    exact p2pAddressed_own hown rfl hslot
  cases hf : s.findRecipient c b.recipientUsername with
  | none =>
    rw [handleP2pBroadcast_missing hp hb hown hf] at hslot ⊢
    exact p2pAddressed_missing hown
      (fun i hi hauth => findRecipient_none hs.steps.1.tidy hf hi hauth) rfl hslot
  | some i =>
    obtain ⟨hi, hauth, hname⟩ := findRecipient_some hf
    rw [handleP2pBroadcast_found hp hb hown hf] at hslot ⊢
    refine p2pAddressed_found hown hi hauth hname rfl
      (decodesTo_p2p hp (hs.steps.1.namesFit c ha)) ?_
    rw [hslot i hi, Server.slot_deliver, if_pos rfl]

/-- A P2P broadcast of "hi", under a name that is not the sender's own. -/
def p2pFrame (recipient : UInt8) : Bytes :=
  [1, 2, 0, 0, 0, 0, 12, 5, 0, 9, 1, 120, 10, 1, recipient, 11, 2, 104, 105]

/-- "a" on connection 5 reaches "b" on connection 6. -/
theorem p2p_addressing_stored :
    let s := (((Server.boot 8 3 .empty).iterate twoSignedIn).readAvailable 5
      [.bytes (p2pFrame 98)]).1
    P2pAddressed s (s.tryOneRequest 5 {}).1 5 ⟨[120], [98], [104, 105]⟩
      (s.dispatch 5 (s.pending 5) {}).2 := by
  intro s
  have hat : AtRequest (Server.boot 8 3 .empty) 5 s := atRequest_twoSignedIn _ _
  have hserved : (s.tryOneRequest 5 {}).2 = true := by decide +kernel
  have htry : s.tryOneRequest 5 {} = ((s.tryOneRequest 5 {}).1, true) := by
    rw [← hserved]
  refine (p2p_addressing hat htry (by decide +kernel) (by decide +kernel) (by decide +kernel)
    (by decide +kernel) (by decide)).mpr ⟨fun hsame => ?_, fun _ _ => ⟨6, ?_⟩⟩
  · exact absurd hsame (by decide +kernel)
  · decide +kernel

/-- "a" writes to "B", while "b" is signed in on connection 6. -/
theorem p2p_other_case_not_found :
    let s := (((Server.boot 8 3 .empty).iterate twoSignedIn).readAvailable 5
      [.bytes (p2pFrame 66)]).1
    AtRequest (Server.boot 8 3 .empty) 5 s ∧ s.Online 5 6 [66] ∧
      parseP2pBroadcast (s.pending 5) = .ok ⟨[120], [66], [104, 105]⟩ ∧
      (s.tryOneRequest 5 {}).2 = true ∧
      (s.dispatch 5 (s.pending 5) {}).2.rc = ResponseCode.userNotFound.byte ∧
      ¬ P2pAddressed s (s.tryOneRequest 5 {}).1 5 ⟨[120], [66], [104, 105]⟩
        (s.dispatch 5 (s.pending 5) {}).2 := by
  intro s
  have honline : s.Online 5 6 [66] :=
    ⟨by decide, by decide +kernel, by decide +kernel⟩
  have hrc : (s.dispatch 5 (s.pending 5) {}).2.rc = ResponseCode.userNotFound.byte := by
    decide +kernel
  refine ⟨atRequest_twoSignedIn _ _, honline, by decide +kernel, by decide +kernel, hrc, fun h => ?_⟩
  have hok := (h.online (by decide +kernel) ⟨6, honline⟩).1
  exact absurd (hrc.symm.trans hok) (by decide)

end ChatServer
