import ChatServer.Audit.ClientResponses
import ChatServer.Audit.OutputStream
import ChatServer.Audit.Transfers
import ChatServer.Spec.Chat

/-!
# What the server writes, the client understands

Every message the server queues is a refusal, a report of a user or a broadcast within its
limits. On such a message the parsers of the client always succeed: none of the payloads that
they mishandle ever comes from this server. The client's socket thread therefore follows the
replies one by one, wherever the stream is cut off.
-/

namespace ChatServer

/-- A reply is a post of the chat service, with the type and the code of a refused request. -/
abbrev Reply := Chat.Post Bytes Bytes (UInt8 × ResponseCode)

namespace Reply

/-- The user that a response reports. -/
def user (id : Nat) (name : Bytes) : User := ⟨UInt32.ofNat id, name, []⟩

def message : Reply → Message
  | .refused why => buildServerResponse why.1 why.2.code none 0
  | .registered id name => .ofFields .register (userFields (user id name))
  | .welcome id name => .ofFields .login (userFields (user id name))
  | .toAll sender text => .ofFields .chat (worldFields ⟨sender, text⟩)
  | .toOne sender recipient text => .ofFields .chat (p2pFields ⟨sender, recipient, text⟩)

/-- The bytes of a reply. -/
def wire (p : Reply) : Bytes := (message p).wire

/-- The limits that hold for everything the server sends. -/
def Fits : Reply → Prop
  | .refused why => why.2 ≠ .ok
  | .registered _ name => name.length ≤ MAX_USERNAME_SIZE
  | .welcome _ name => name.length ≤ MAX_USERNAME_SIZE
  | .toAll sender text =>
    sender.length ≤ MAX_USERNAME_SIZE ∧ text.length ≤ MAX_MSG_CONTENT_SIZE
  | .toOne sender recipient text =>
    sender.length ≤ MAX_USERNAME_SIZE ∧ recipient.length ≤ MAX_USERNAME_SIZE ∧
      text.length ≤ MAX_MSG_CONTENT_SIZE

theorem whole_ofFields (type : MsgType) {fs : List Tlv.Field} (h : fs.length ≤ 4) :
    (Message.ofFields type fs).Whole :=
  ⟨(sound_ofFields h).2, not_payload_too_big h⟩

theorem whole (p : Reply) : (message p).Whole := by
  cases p with
  | refused why => exact ⟨(sound_header why.1 why.2.code).2, (by decide : ¬ (0 : UInt32) > 4096)⟩
  | registered id name => exact whole_ofFields .register (by simp [userFields])
  | welcome id name => exact whole_ofFields .login (by simp [userFields])
  | toAll sender text => exact whole_ofFields .chat (by simp [worldFields])
  | toOne sender recipient text => exact whole_ofFields .chat (by simp [p2pFields])

end Reply

/-- A list of images is the image of a list. -/
theorem exists_map_of_forall {α β : Type*} {f : α → β} {P : α → Prop} {l : List β}
    (h : ∀ b ∈ l, ∃ a, P a ∧ f a = b) : ∃ as : List α, (∀ a ∈ as, P a) ∧ l = as.map f := by
  induction l with
  | nil => exact ⟨[], fun _ h => absurd h List.not_mem_nil, rfl⟩
  | cons b l ih =>
    obtain ⟨a, ha, rfl⟩ := h b List.mem_cons_self
    obtain ⟨as, has, rfl⟩ := ih fun b hb => h b (List.mem_cons_of_mem _ hb)
    exact ⟨a :: as, List.forall_mem_cons.mpr ⟨ha, has⟩, rfl⟩

/-! ## Every response is a reply -/

section Server

variable {s : Server} {c : Nat} {request : Message} {o : SqlOutcome} {r : Server × Message}

/-- The names that a broadcast shows are those of connections that are logged in. -/
theorem Handled.reply (h : Handled s c request o r) (hn : s.NamesFit) :
    ∃ p : Reply, p.Fits ∧ r.2 = p.message := by
  cases h with
  | rejected code hcode => exact ⟨.refused (request.type, code), hcode, rfl⟩
  | @registered credentials user db _ hp _ hins =>
    obtain ⟨hfail, _⟩ | ⟨_, hok⟩ :=
      insertUser_cases s.db ⟨0, credentials.username, credentials.password⟩ o
    · rw [hins] at hfail
      exact absurd hfail (show ¬ (0 : Int) = -1 by decide)
    · rw [hins] at hok
      cases hok
      exact ⟨.registered (s.db.seq + 1) credentials.username, (parseCredentials_le hp).1, rfl⟩
  | @loggedIn credentials user _ hp hu _ =>
    obtain ⟨hlen, row, _, hrow⟩ := getUserByUsername_found hu
    refine ⟨.welcome row.id user.username, hlen.trans (parseCredentials_le hp).1, ?_⟩
    rw [hrow]
    rfl
  | announced _ ha hm =>
    have hname := hn c ha
    cases hm with
    | @world b _ hp _ =>
      exact ⟨.toAll _ b.messageContent, ⟨hname, parseWorldBroadcast_le hp⟩, rfl⟩
    | @p2p b _ _ hp _ _ _ =>
      exact ⟨.toOne _ b.recipientUsername b.messageContent, ⟨hname, parseP2pBroadcast_le hp⟩, rfl⟩

/-- Every request so far was answered by a reply. -/
theorem Steps.replies {capacity listenfd : Nat} {db : Db}
    (h : Steps (Server.boot capacity listenfd db) s) :
    ∀ r ∈ servedIn s.log, ∃ p : Reply, p.Fits ∧ r.response = p.message := by
  have hall : Tidy s ∧ s.NamesFit ∧
      AtEach (fun _ r => ∃ p : Reply, p.Fits ∧ r.response = p.message) s.log := by
    refine h.preserves (P := fun s => Tidy s ∧ s.NamesFit ∧
      AtEach (fun _ r => ∃ p : Reply, p.Fits ∧ r.response = p.message) s.log) ?_
      ⟨tidy_boot _ _ _, Steps.namesFit (.refl (a := Server.boot capacity listenfd db)),
        atEach_nil _⟩
    rintro c s t hst ⟨hs, hn, hr⟩
    exact ⟨hs.step hst, hst.namesFit hs hn, hst.atEach hr fun n o dests _ _ =>
      (dispatch_handled s c _ o).reply hn⟩
  intro r hr
  obtain ⟨pre, post, hlog⟩ := List.append_of_mem (mem_servedIn.mp hr)
  exact hall.2.2 pre r post hlog

/-- What was queued for a connection is the bytes of replies, one after another. -/
theorem Steps.framesFor_replies {capacity listenfd : Nat} {db : Db}
    (h : Steps (Server.boot capacity listenfd db) s) (i : Nat) :
    ∃ ps : List Reply, (∀ p ∈ ps, p.Fits) ∧ framesFor i s.log = ps.map Reply.wire := by
  have hmem : ∀ f ∈ framesFor i s.log, ∃ p : Reply, p.Fits ∧ p.wire = f := by
    intro f hf
    obtain ⟨e, he, hfe⟩ := List.mem_flatMap.mp hf
    cases e with
    | sys call => cases hfe
    | served r =>
      obtain ⟨p, hp, hr⟩ := h.replies r (mem_servedIn.mpr he)
      refine ⟨p, hp, ?_⟩
      simp only [Entry.framesTo, Served.framesTo, hr] at hfe
      split_ifs at hfe
      · exact (List.mem_singleton.mp hfe).symm
      · exact (List.mem_singleton.mp hfe).symm
      · cases hfe
  exact exists_map_of_forall hmem

end Server

/-! ## What the client makes of a reply -/

/-- The connection object and the line shown, after a reply. -/
def Client.told (conn : Client) : Reply → Client × Notice
  | .refused why =>
    (conn, if why.1 = MsgType.register.code then
        .registrationFailed (getResponseMessage why.2.byte)
      else if why.1 = MsgType.login.code then .loginFailed (getResponseMessage why.2.byte)
      else if why.1 = MsgType.chat.code then .sendFailed (getResponseMessage why.2.byte)
      else .unknownType why.1)
  | .registered id name => (conn, .registered (printedId (UInt32.ofNat id)) (cString name))
  | .welcome id name =>
    (⟨⟨UInt32.ofNat id, name, conn.user.password⟩, conn.flags ||| .isAuth⟩,
      .loggedIn (printedId (UInt32.ofNat id)) (cString name))
  | .toAll sender text => (conn, printChatMessage sender [] text)
  | .toOne sender recipient text => (conn, printChatMessage sender recipient text)

section Client

variable {p : Reply} {m : Message} {conn : Client}

/-- A response that reports a user is parsed into it. -/
theorem parseUserResponse_reply {missing : Int} {type : MsgType} {id : Nat} {name : Bytes}
    (hname : name.length ≤ MAX_USERNAME_SIZE)
    (hm : m.payloadBytes = (Message.ofFields type (userFields (Reply.user id name))).payloadBytes) :
    parseUserResponse missing m .empty = some (0, Reply.user id name) := by
  rw [payloadBytes_ofFields (by simp [userFields])] at hm
  have hread : readUser .empty m.payloadBytes = .ok ⟨Reply.user id name, true, true⟩ :=
    hm ▸ readUser_userFields hname
  rw [parseUserResponse_read hread]
  rfl

theorem handleResponse_chat (ht : m.type = MsgType.chat.code) :
    conn.handleResponse m = some (conn, handleBroadcastResponse m) := by
  have hreg : ¬ MsgType.chat.code = MsgType.register.code := by decide
  have hlogin : ¬ MsgType.chat.code = MsgType.login.code := by decide
  rw [Client.handleResponse, ht, if_neg hreg, if_neg hlogin, if_pos rfl]

theorem peekBroadcastType_fields {f : Tlv.Field} {fs : List Tlv.Field}
    (h : m.payloadBytes = Tlv.encode (f :: fs)) : peekBroadcastType m = f.tag := by
  have hnil : m.payloadBytes ≠ [] := by
    rw [h]
    exact List.cons_ne_nil _ _
  rw [peekBroadcastType_eq hnil, h]
  rfl

/-- The client handles every reply, however the buffer behind its payload is filled. -/
theorem handleResponse_reply (h : p.Fits) (hm : m.content = p.message.content) :
    conn.handleResponse m = some (conn.told p) := by
  obtain ⟨_, htype, hrc, _, hpayload⟩ : m.version = p.message.version ∧ m.type = p.message.type ∧
      m.rc = p.message.rc ∧ m.payloadLength = p.message.payloadLength ∧
      m.payloadBytes = p.message.payloadBytes := by
    simpa only [Message.content, Prod.mk.injEq] using hm
  cases p with
  | refused why =>
    have hcode : why.2.byte ≠ 0 := @rc_header why.1 why.2 h
    have hbyte : m.rc = why.2.byte := hrc
    have hwhy : m.type = why.1 := htype
    simp only [Client.handleResponse, handleRegistrationResponse, Client.handleLoginResponse,
      handleBroadcastResponse, hbyte, hwhy, if_pos hcode, Option.map_some, Client.told]
    split_ifs <;> rfl
  | registered id name =>
    have hrc0 : ¬ m.rc ≠ 0 := not_not.mpr hrc
    have hreg : m.type = MsgType.register.code := htype
    have hparse := @parseUserResponse_reply _ (-1) _ _ _ h hpayload
    rw [Client.handleResponse, if_pos hreg, handleRegistrationResponse, if_neg hrc0,
      parseRegisterResponse, hparse]
    rfl
  | welcome id name =>
    have hrc0 : ¬ m.rc ≠ 0 := not_not.mpr hrc
    have hlogin : m.type = MsgType.login.code := htype
    have hreg : ¬ m.type = MsgType.register.code := by
      rw [hlogin]
      decide
    have hparse := @parseUserResponse_reply _ ResponseCode.malformed.code _ _ _ h hpayload
    rw [Client.handleResponse, if_neg hreg, if_pos hlogin, Client.handleLoginResponse,
      if_neg hrc0, parseLoginResponse, hparse]
    rfl
  | toAll sender text =>
    have hrc0 : ¬ m.rc ≠ 0 := not_not.mpr hrc
    have hfields : m.payloadBytes = Tlv.encode (worldFields ⟨sender, text⟩) :=
      hpayload.trans (payloadBytes_ofFields (by simp [worldFields]))
    have hpeek : peekBroadcastType m = TlvTag.worldBroadcast.code :=
      peekBroadcastType_fields hfields
    have hparse := parseWorldBroadcast_worldFields hfields h.1 h.2
    rw [parseWorldBroadcast_fill] at hparse
    split at hparse
    · have hfill := Except.ok.inj hparse
      rw [handleResponse_chat htype, handleBroadcastResponse, if_neg hrc0]
      simp only [hpeek, hfill]
      rfl
    · cases hparse
  | toOne sender recipient text =>
    have hrc0 : ¬ m.rc ≠ 0 := not_not.mpr hrc
    have hfields : m.payloadBytes = Tlv.encode (p2pFields ⟨sender, recipient, text⟩) :=
      hpayload.trans (payloadBytes_ofFields (by simp [p2pFields]))
    have hpeek : peekBroadcastType m = TlvTag.p2pBroadcast.code := peekBroadcastType_fields hfields
    have hparse := parseP2pBroadcast_p2pFields hfields h.1 h.2.1 h.2.2
    rw [parseP2pBroadcast_fill] at hparse
    split at hparse
    · have hfill := Except.ok.inj hparse
      rw [handleResponse_chat htype, handleBroadcastResponse, if_neg hrc0]
      simp only [hpeek, hfill]
      rfl
    · cases hparse

end Client

/-! ## The socket thread along the stream -/

/-- A message that was read whole from the front of a stream of messages is the first of them. -/
theorem readOneMessage_first {m : Message} (hm : m.Whole) {buffer stream tail : Bytes}
    {sched : List Transfer} (hstream : stream <+: m.wire ++ tail) {m' : Message}
    {sched' : List Transfer} {rest : Bytes}
    (h : readOneMessage buffer sched stream = .ok (m', sched', rest)) :
    m'.content = m.content ∧ stream = m.wire ++ rest := by
  have hread : ¬ (ReadFails sched stream ∨ PayloadInterrupted sched stream) := by
    intro hf
    rw [readOneMessage_fails hf] at h
    cases h
  obtain ⟨hfails, hsig⟩ := not_or.mp hread
  have hheader : MSG_HEADER_SIZE ≤ stream.length :=
    Nat.le_of_not_lt fun hlt => hfails (.headerEnds hlt)
  obtain ⟨cut, hcut⟩ := hstream
  -- The header is complete, so its length field is that of the message.
  have hlen : (parseMessage stream).payloadLength = m.payloadLength := by
    rw [← payloadLength_append hheader cut, hcut, parseMessage_wire]
  have hwhole : m.wire.length ≤ stream.length := by
    rw [length_wire hm, ← hlen]
    exact Nat.le_of_not_lt fun hlt => hfails (.payloadEnds hlt)
  obtain ⟨rest', rfl⟩ : m.wire <+: stream :=
    List.prefix_of_prefix_length_le (List.prefix_append _ tail) ⟨cut, hcut⟩ hwhole
  have hpayload : (parseMessage (m.wire ++ rest')).payloadBytes = m.payloadBytes := by
    rw [parseMessage_wire]
    exact payloadBytes_append hm.1
  rw [readOneMessage_ok hfails hsig] at h
  simp only [Except.ok.injEq, Prod.mk.injEq] at h
  obtain ⟨rfl, _, rfl⟩ := h
  refine ⟨?_, ?_⟩
  · rw [Message.content, payloadBytes_append (by rw [hpayload, hm.1, hlen]), hpayload,
      parseMessage_wire]
    rfl
  · rw [hlen, ← length_wire hm, List.drop_left]

/-- Calls of `handle_server_response` that return true, one after another; each may find any
buffer on the stack and any outcomes of its `read` calls. -/
inductive SocketThread : Client → Bytes → List Notice → Client → Bytes → Prop where
  | done {conn stream} : SocketThread conn stream [] conn stream
  | next {conn stream payloadBuffer sched conn' notice sched' stream' notices conn'' rest} :
      conn.handleServerResponse payloadBuffer sched stream = .handled conn' notice sched' stream' →
      SocketThread conn' stream' notices conn'' rest →
      SocketThread conn stream (notice :: notices) conn'' rest

/-- The connection object after a sequence of replies. -/
def Client.after (conn : Client) (ps : List Reply) : Client :=
  ps.foldl (fun conn p => (conn.told p).1) conn

/-- The lines shown for them. -/
def Client.notices : Client → List Reply → List Notice
  | _, [] => []
  | conn, p :: ps => (conn.told p).2 :: (conn.told p).1.notices ps

/-- A call on a stream of replies handles the first one, or stops. -/
theorem handleServerResponse_replies {ps : List Reply} (hps : ∀ p ∈ ps, p.Fits) {stream : Bytes}
    (hstream : stream <+: (ps.map Reply.wire).flatten) (conn : Client) (payloadBuffer : Bytes)
    (sched : List Transfer) :
    conn.handleServerResponse payloadBuffer sched stream = .stopped ∨
      ∃ p qs sched' rest, ps = p :: qs ∧ stream = p.wire ++ rest ∧
        conn.handleServerResponse payloadBuffer sched stream =
          .handled (conn.told p).1 (conn.told p).2 sched' rest := by
  unfold Client.handleServerResponse
  cases hread : readOneMessage payloadBuffer sched stream with
  | error rc => exact .inl rfl
  | ok r =>
    obtain ⟨m, sched', rest⟩ := r
    right
    cases ps with
    | nil =>
      have hempty : stream = [] := List.prefix_nil.mp hstream
      rw [hempty, readOneMessage_fails (.inl (.headerEnds (by decide)))] at hread
      cases hread
    | cons p qs =>
      obtain ⟨hcontent, hsplit⟩ := readOneMessage_first p.whole hstream hread
      refine ⟨p, qs, sched', rest, rfl, hsplit, ?_⟩
      simp only [handleResponse_reply (hps p List.mem_cons_self) hcontent]

/-- The thread has handled the first replies of the stream, and nothing of the next. -/
theorem SocketThread.replies {conn conn' : Client} {stream rest : Bytes} {notices : List Notice}
    (h : SocketThread conn stream notices conn' rest) {ps : List Reply} (hps : ∀ p ∈ ps, p.Fits)
    (hstream : stream <+: (ps.map Reply.wire).flatten) :
    ∃ done left, ps = done ++ left ∧ stream = (done.map Reply.wire).flatten ++ rest ∧
      rest <+: (left.map Reply.wire).flatten ∧ conn' = conn.after done ∧
      notices = conn.notices done := by
  induction h generalizing ps with
  | done => exact ⟨[], ps, rfl, rfl, hstream, rfl, rfl⟩
  | @next conn stream payloadBuffer sched conn' notice sched' stream' notices conn'' rest hcall _
      ih =>
    obtain hstop | ⟨p, qs, sched'', rest', rfl, rfl, hhandled⟩ :=
      handleServerResponse_replies hps hstream conn payloadBuffer sched
    · rw [hstop] at hcall
      cases hcall
    · rw [hhandled] at hcall
      cases hcall
      have htail : stream' <+: (qs.map Reply.wire).flatten :=
        (List.prefix_append_right_inj p.wire).mp hstream
      obtain ⟨done, left, rfl, rfl, hleft, rfl, rfl⟩ :=
        ih (fun q hq => hps q (List.mem_cons_of_mem _ hq)) htail
      exact ⟨p :: done, left, rfl, by simp, hleft, rfl, rfl⟩

/-- In every run, the bytes for a connection are replies that the client understands: reading any
part of them, in calls that turn out in any way, it acts on the first replies exactly as they
say, is left in front of the next one, and is never at a payload that it mishandles. -/
theorem client_follows_server {capacity listenfd : Nat} {db : Db} {s : Server}
    (h : Reaches (Server.boot capacity listenfd db) s) (i : Nat) :
    ∃ ps : List Reply, s.emitted i = (ps.map Reply.wire).flatten ∧
      ∀ conn stream, stream <+: s.emitted i → ∀ notices conn' rest,
        SocketThread conn stream notices conn' rest →
        ∃ done left, ps = done ++ left ∧ stream = (done.map Reply.wire).flatten ++ rest ∧
          conn' = conn.after done ∧ notices = conn.notices done ∧
          ∀ payloadBuffer sched,
            conn'.handleServerResponse payloadBuffer sched rest ≠ .undefined := by
  obtain ⟨ps, hps, hframes⟩ := h.steps.framesFor_replies i
  have hout : s.emitted i = (ps.map Reply.wire).flatten := by
    rw [(h.steps.whole i).1.1, hframes]
  refine ⟨ps, hout, fun conn stream hstream notices conn' rest hthread => ?_⟩
  rw [hout] at hstream
  obtain ⟨done, left, rfl, hsplit, hleft, hconn, hnotices⟩ := hthread.replies hps hstream
  refine ⟨done, left, rfl, hsplit, hconn, hnotices, fun payloadBuffer sched hundefined => ?_⟩
  obtain hstop | ⟨p, qs, sched', rest', _, _, hhandled⟩ := handleServerResponse_replies
    (fun p hp => hps p (List.mem_append_right _ hp)) hleft conn' payloadBuffer sched
  · rw [hstop] at hundefined
    cases hundefined
  · rw [hhandled] at hundefined
    cases hundefined

/-- Connection 5 was answered a registration and a login. -/
theorem client_follows_server_twoSignedIn :
    let s := (Server.boot 8 3 .empty).iterate twoSignedIn
    s.emitted 5 = (Reply.wire (.registered 1 [97])) ++ (Reply.wire (.welcome 1 [97])) ∧
    ∃ ps : List Reply, s.emitted 5 = (ps.map Reply.wire).flatten ∧
      ∀ conn notices conn' rest, SocketThread conn (s.emitted 5) notices conn' rest →
        ∃ done left, ps = done ++ left ∧ conn' = conn.after done := by
  intro s
  obtain ⟨ps, hout, hthread⟩ := client_follows_server reaches_twoSignedIn 5
  refine ⟨by decide +kernel, ps, hout, fun conn notices conn' rest h => ?_⟩
  obtain ⟨done, left, hps, _, hconn, _⟩ := hthread conn _ List.prefix_rfl notices conn' rest h
  exact ⟨done, left, hps, hconn⟩

end ChatServer
