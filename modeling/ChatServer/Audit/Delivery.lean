import ChatServer.Audit.Identity
import ChatServer.Audit.Transfers

/-!
# Delivery of broadcasts

A successful broadcast is queued once for its sender and once for each connection it
selects, and for no one else. What is queued decodes on the client's side to the name
the sender signed in under, the requested recipient and the content of the request.
-/

namespace ChatServer

open EdgeTrigger (Errno Rv Interest Syscall)

/-- A client that reads the frame off its socket, in reads of any length, and parses the
message gets `b`. -/
def DecodesTo {β : Type*} (parse : Message → Except Int β) (frame : Bytes) (b : β) : Prop :=
  ∀ (buffer rest : Bytes) (sched : List Transfer), (∀ e, .fail e ∉ sched) →
    ∃ m sched', readOneMessage buffer sched (frame ++ rest) = .ok (m, sched', rest) ∧
      parse m = .ok b

/-- What the server encodes is read back field by field. -/
theorem decodesTo_ofFields {β : Type*} {parse : Message → Except Int β} {type : MsgType}
    {fs : List Tlv.Field} {b : β} (h : fs.length ≤ 4)
    (hparse : ∀ m : Message, m.payloadBytes = Tlv.encode fs → parse m = .ok b) :
    DecodesTo parse (Message.ofFields type fs).wire b := by
  intro buffer rest sched hs
  have hlen := (toNat_length_encode h).symm
  obtain ⟨sched', hread⟩ := readOneMessage_frame type.code 0 hlen (not_payload_too_big h)
    buffer rest hs
  rw [Message.wire, payloadBytes_ofFields h]
  exact ⟨_, sched', hread, hparse _ (payloadBytes_append hlen)⟩

section Decode

variable {s : Server} {c : Nat} {request : Message}

theorem decodesTo_world {b : WorldBroadcast} (hp : parseWorldBroadcast request = .ok b)
    (hn : (s.slot c).username.length ≤ MAX_USERNAME_SIZE) :
    DecodesTo parseWorldBroadcastNotification
      (Message.ofFields .chat (worldFields { b with senderUsername := (s.slot c).username })).wire
      { b with senderUsername := (s.slot c).username } := by
  have hc := parseWorldBroadcast_le hp
  exact decodesTo_ofFields (by simp [worldFields]) fun _ hm =>
    parseWorldBroadcast_worldFields hm hn hc

theorem decodesTo_p2p {b : P2pBroadcast} (hp : parseP2pBroadcast request = .ok b)
    (hn : (s.slot c).username.length ≤ MAX_USERNAME_SIZE) :
    DecodesTo parseP2pBroadcastNotification
      (Message.ofFields .chat (p2pFields { b with senderUsername := (s.slot c).username })).wire
      { b with senderUsername := (s.slot c).username } := by
  obtain ⟨hr, hc⟩ := parseP2pBroadcast_le hp
  exact decodesTo_ofFields (by simp [p2pFields]) fun _ hm =>
    parseP2pBroadcast_p2pFields hm hn hr hc

end Decode

/-! ## Who is selected -/

/-- Below the first match of an ascending list there is no match. -/
theorem find?_ascending {l : List Nat} {p : Nat → Bool} {i k : Nat} (hl : l.Pairwise (· < ·))
    (h : l.find? p = some i) (hk : k ∈ l) (hlt : k < i) : p k = false := by
  obtain ⟨_, as, bs, rfl, has⟩ := List.find?_eq_some_iff_append.mp h
  rcases List.mem_append.mp hk with hmem | hmem
  · simpa using has k hmem
  · have hbs := (List.pairwise_cons.mp (List.pairwise_append.mp hl).2.1).1
    rcases List.mem_cons.mp hmem with rfl | hmem
    · omega
    · have := hbs k hmem
      omega

/-- A P2P broadcast goes to the first connection that has signed in under the name. -/
theorem recipients_p2p {v : View} {c i : Nat} {request : Message} {b : P2pBroadcast}
    (hk : peekBroadcastType request = TlvTag.p2pBroadcast.code)
    (hp : parseP2pBroadcast request = .ok b) (hi : v.recipients c request = [i]) :
    i ∈ v.others c ∧ v.usernames i = b.recipientUsername ∧
      ∀ k ∈ v.others c, k < i → v.usernames k ≠ b.recipientUsername := by
  have hfind : (v.others c).find? (fun i => v.usernames i == b.recipientUsername) = some i := by
    rw [View.recipients, if_pos hk, hp] at hi
    simp only at hi
    cases hf : (v.others c).find? (fun i => v.usernames i == b.recipientUsername) with
    | none => rw [hf] at hi; cases hi
    | some k =>
      rw [hf] at hi
      exact congrArg some (List.cons.inj hi).1
  have hsorted : (v.others c).Pairwise (· < ·) := List.pairwise_lt_range.filter _
  refine ⟨List.mem_of_find?_eq_some hfind, by simpa using List.find?_some hfind, ?_⟩
  intro k hk hlt
  simpa using find?_ascending hsorted hfind hk hlt

/-! ## One broadcast request -/

/-- The frame at the front of an incoming buffer. -/
def firstFrame (b : Bytes) : Bytes :=
  b.take (MSG_HEADER_SIZE + (parseMessage b).payloadLength.toNat)

/-- What has become of a chat request of `c` and of its response, from `s` to `s'`. -/
structure Delivered (s s' : Server) (c : Nat) (request response : Message) : Prop where
  world : response.rc = 0 → peekBroadcastType request = TlvTag.worldBroadcast.code →
    (∃ b, parseWorldBroadcast request = .ok b ∧
      DecodesTo parseWorldBroadcastNotification response.wire
        { b with senderUsername := (s.slot c).username }) ∧
    ∀ j, (s'.slot j).outgoing = (s.slot j).outgoing ++
      if hasFlag (s.slot j).flags .isAuth then response.wire else []
  p2p : response.rc = 0 → peekBroadcastType request = TlvTag.p2pBroadcast.code →
    ∃ b i, parseP2pBroadcast request = .ok b ∧
      DecodesTo parseP2pBroadcastNotification response.wire
        { b with senderUsername := (s.slot c).username } ∧
      hasFlag (s.slot i).flags .isAuth = true ∧ i ≠ c ∧
      (s.slot i).username = b.recipientUsername ∧
      (∀ k < i, k ≠ c → hasFlag (s.slot k).flags .isAuth = true →
        (s.slot k).username ≠ b.recipientUsername) ∧
      ∀ j, (s'.slot j).outgoing = (s.slot j).outgoing ++
        if j = c ∨ j = i then response.wire else []
  error : response.rc ≠ 0 → response.wire.length = MSG_HEADER_SIZE ∧
    ∀ j, (s'.slot j).outgoing = (s.slot j).outgoing ++ if j = c then response.wire else []
  writing : ∀ j, j ≠ c → (s'.slot j).outgoing ≠ (s.slot j).outgoing →
    hasFlag (s'.slot j).flags .wantRead = false ∧ hasFlag (s'.slot j).flags .wantWrite = true
  others : ∀ j, (j ≠ c → (s'.slot j).incoming = (s.slot j).incoming) ∧
    (s'.slot j).userId = (s.slot j).userId ∧ (s'.slot j).username = (s.slot j).username ∧
    hasFlag (s'.slot j).flags .isAuth = hasFlag (s.slot j).flags .isAuth ∧
    hasFlag (s'.slot j).flags .isActive = hasFlag (s.slot j).flags .isActive
  db : s'.db = s.db

/-- A rejected request: the header-only response goes to the sender. -/
theorem delivered_rejected {s s' : Server} {c : Nat} {request : Message} {code : ResponseCode}
    {rest : Bytes} (hcode : code ≠ .ok) (hdb : s'.db = s.db)
    (hslot : ∀ j, s'.slot j = if j = c then
        { s.slot j with
          outgoing := (s.slot j).outgoing ++
            (buildServerResponse request.type code.code none 0).wire
          incoming := rest }
      else s.slot j) :
    Delivered s s' c request (buildServerResponse request.type code.code none 0) where
  world h := absurd h (rc_header hcode)
  p2p h := absurd h (rc_header hcode)
  error := by
    refine fun _ => ⟨by rw [wire_header]; rfl, fun j => ?_⟩
    rw [hslot]
    split <;> simp
  writing j hj hout := by
    rw [hslot, if_neg hj] at hout
    exact absurd rfl hout
  others j := by
    rw [hslot]
    split
    · exact ⟨fun hj => absurd ‹_› hj, rfl, rfl, rfl, rfl⟩
    · exact ⟨fun _ => rfl, rfl, rfl, rfl, rfl⟩
  db := hdb

/-- An announced request: the response goes to the sender and to the recipients. -/
theorem delivered_announced {s s' : Server} {c : Nat} {request m : Message} (rest : Bytes)
    (htidy : Tidy s) (hnames : s.NamesFit) (ha : hasFlag (s.slot c).flags .isAuth = true)
    (hm : Announces s.view c request m) (hdb : s'.db = s.db)
    (hslot : ∀ j, s'.slot j = if j = c then
        { s.slot j with outgoing := (s.slot j).outgoing ++ m.wire, incoming := rest }
      else if j ∈ s.view.recipients c request then
        { s.slot j with
          outgoing := (s.slot j).outgoing ++ m.wire
          flags := ConnState.writing.nextFlags (s.slot j).flags }
      else s.slot j) :
    Delivered s s' c request m := by
  have hout : ∀ j, (s'.slot j).outgoing = (s.slot j).outgoing ++
      if j = c ∨ j ∈ s.view.recipients c request then m.wire else [] := by
    intro j
    rw [hslot]
    by_cases hj : j = c
    · simp [hj]
    · by_cases hr : j ∈ s.view.recipients c request <;> simp [hj, hr]
  have hother : ∀ j, j ∈ s.view.others c ↔ hasFlag (s.slot j).flags .isAuth = true ∧ j ≠ c := by
    intro j
    rw [View.mem_others]
    exact ⟨fun h => h.2, fun h => ⟨htidy.lt_size h.1, h⟩⟩
  constructor
  case world =>
    intro _ hk
    cases hm with
    | p2p hk' => rw [hk] at hk'; exact absurd hk' (by decide)
    | @world b _ hp _ =>
      refine ⟨⟨b, hp, decodesTo_world hp (hnames c ha)⟩, fun j => ?_⟩
      have hne : ¬ peekBroadcastType request = TlvTag.p2pBroadcast.code := by
        rw [hk]
        decide
      have hsel : (j = c ∨ j ∈ s.view.recipients c request) ↔
          hasFlag (s.slot j).flags .isAuth = true := by
        rw [View.recipients, if_neg hne, hother]
        by_cases hj : j = c
        · simp [hj, ha]
        · simp [hj]
      rw [hout]
      simp only [hsel]
  case p2p =>
    intro _ hk
    cases hm with
    | world hk' => rw [hk] at hk'; exact absurd hk' (by decide)
    | @p2p b i _ hp _ _ hi =>
      obtain ⟨hmem, hname, hfirst⟩ := recipients_p2p hk hp hi
      obtain ⟨hauth, hne⟩ := (hother i).mp hmem
      refine ⟨b, i, hp, decodesTo_p2p hp (hnames c ha), hauth, hne, hname, ?_, fun j => ?_⟩
      · intro k hlt hkc hka
        exact hfirst k ((hother k).mpr ⟨hka, hkc⟩) hlt
      · rw [hout, hi]
        simp only [List.mem_singleton]
  case error => exact fun h => absurd hm.type_rc.2 h
  case writing =>
    intro j hj hne
    rw [hout] at hne
    rw [hslot, if_neg hj]
    by_cases hr : j ∈ s.view.recipients c request
    · rw [if_pos hr]
      exact ⟨wantRead_writing _, wantWrite_writing _⟩
    · simp [hj, hr] at hne
  case others =>
    intro j
    rw [hslot]
    split_ifs with hj hr
    · exact ⟨fun h => absurd hj h, rfl, rfl, rfl, rfl⟩
    · exact ⟨fun _ => rfl, rfl, rfl, isAuth_nextFlags _ _, isActive_nextFlags _ _⟩
    · exact ⟨fun _ => rfl, rfl, rfl, rfl, rfl⟩
  case db => exact hdb

/-- **Delivery of broadcasts.** At every call of `try_one_request` that serves a chat
frame: a world broadcast answered `RESP_OK` is appended once to each connection that
has signed in, a P2P broadcast to the sender and to the lowest-numbered other connection
signed in under the recipient's name, and an error to the sender only. The
frame decodes to the sender's own name, the recipient and the content of the request.
Every other connection that received it is writing; nothing else about any
connection has changed. -/
theorem broadcast_delivery {capacity listenfd : Nat} {db : Db} {s s' : Server} {c : Nat}
    {o : SqlOutcome} (hs : AtRequest (Server.boot capacity listenfd db) c s)
    (h : s.tryOneRequest c o = (s', true))
    (hchat : (parseMessage (firstFrame (s.slot c).incoming)).type = MsgType.chat.code) :
    Delivered s s' c (parseMessage (firstFrame (s.slot c).incoming))
      (s.dispatch c (parseMessage (firstFrame (s.slot c).incoming)) o).2 := by
  obtain ⟨n, hcut, rfl⟩ := s.tryOneRequest_true c o h
  have hframe : (s.slot c).incoming.take n = firstFrame (s.slot c).incoming := by
    rw [(requestCut_eq_take.mp hcut).2.2.1]
    rfl
  have hd := dispatch_handled s c (parseMessage (firstFrame (s.slot c).incoming)) o
  have hslot := fun j => slot_serve s c j (firstFrame (s.slot c).incoming) o
    ((s.slot c).incoming.drop n)
  have hdb := db_serve s c (firstFrame (s.slot c).incoming) o ((s.slot c).incoming.drop n)
  rw [hframe]
  generalize (s.serveFrame c (firstFrame (s.slot c).incoming) o).setIncoming c
    ((s.slot c).incoming.drop n) = t at hslot hdb ⊢
  generalize s.dispatch c (parseMessage (firstFrame (s.slot c).incoming)) o = r at hd hslot hdb ⊢
  cases hd with
  | rejected code hcode => exact delivered_rejected hcode hdb hslot
  | registered ht => rw [hchat] at ht; exact absurd ht (by decide)
  | loggedIn ht => rw [hchat] at ht; exact absurd ht (by decide)
  | @announced m _ ha hm =>
    have hreach := hs.steps.1
    refine delivered_announced ((s.slot c).incoming.drop n) hreach.tidy hreach.namesFit ha hm
      (hdb.trans (s.deliverAll_frame _ _).1) fun j => ?_
    rw [hslot]
    simp only [Server.slot_deliverAll _ _ _ (View.nodup_recipients _ _ _)]
    split
    · rename_i hj
      rw [hj, if_neg (not_mem_recipients _ _ _)]
    · rfl

/-! A run with two accounts, signed in on connections 5 and 6. -/

/-- A REGISTER and a LOGIN request with the username and the password `x`. -/
def credentialFrames (x : UInt8) : List UInt8 :=
  [1, 0, 0, 0, 0, 0, 6, 0, 1, x, 1, 1, x] ++ [1, 1, 0, 0, 0, 0, 6, 0, 1, x, 1, 1, x]

def twoSignedIn : Wait := .ready
  [⟨3, false, { accepts := [.conn 5 true true, .conn 6 true true] }⟩,
    ⟨5, false, { reads := [.bytes (credentialFrames 97)] }⟩,
    ⟨6, false, { reads := [.bytes (credentialFrames 98)] }⟩]

theorem reaches_twoSignedIn :
    Reaches (Server.boot 8 3 .empty) ((Server.boot 8 3 .empty).iterate twoSignedIn) := by
  refine .single ⟨twoSignedIn, ?_, rfl⟩
  simp [twoSignedIn, Wait.Legal, Event.Legal, Server.boot, STDIN_FILENO]

/-- Connection 5 has received these bytes, and its requests are about to be served. -/
theorem atRequest_twoSignedIn (b : UInt8) (bs : Bytes) :
    AtRequest (Server.boot 8 3 .empty) 5
      (((Server.boot 8 3 .empty).iterate twoSignedIn).readAvailable 5 [.bytes (b :: bs)]).1 :=
  .first reaches_twoSignedIn (by decide +kernel) (by decide +kernel) (by decide) (by decide +kernel)
    (Prod.ext rfl rfl)

/-- Connection 5 says "hi" to the world, under a name that is not its own. -/
def hiFrame : Bytes := [1, 2, 0, 0, 0, 0, 9, 4, 0, 9, 1, 98, 11, 2, 104, 105]

/-- Connection 6 receives the frame that connection 5 receives, with the name that 5 has
signed in under. -/
theorem broadcast_delivery_world :
    let s := (((Server.boot 8 3 .empty).iterate twoSignedIn).readAvailable 5 [.bytes hiFrame]).1
    ((s.tryOneRequest 5 {}).1.slot 6).outgoing = ((s.tryOneRequest 5 {}).1.slot 5).outgoing ∧
      DecodesTo parseWorldBroadcastNotification ((s.tryOneRequest 5 {}).1.slot 6).outgoing
        ⟨[97], [104, 105]⟩ := by
  intro s
  have hat : AtRequest (Server.boot 8 3 .empty) 5 s := atRequest_twoSignedIn _ _
  have hserved : (s.tryOneRequest 5 {}).2 = true := by decide +kernel
  have htry : s.tryOneRequest 5 {} = ((s.tryOneRequest 5 {}).1, true) := by
    rw [← hserved]
  have hd := broadcast_delivery hat htry (by decide +kernel)
  obtain ⟨⟨b, hp, hdec⟩, hout⟩ := hd.world (by decide +kernel) (by decide +kernel)
  have hb : parseWorldBroadcast (parseMessage (firstFrame (s.slot 5).incoming)) =
      .ok ⟨[98], [104, 105]⟩ := by decide +kernel
  have hname : (s.slot 5).username = [97] := by decide +kernel
  have h5 : (s.slot 5).outgoing = [] ∧ hasFlag (s.slot 5).flags .isAuth = true := by
    decide +kernel
  have h6 : (s.slot 6).outgoing = [] ∧ hasFlag (s.slot 6).flags .isAuth = true := by
    decide +kernel
  obtain rfl := Except.ok.inj (hb.symm.trans hp)
  rw [hname] at hdec
  rw [hout 5, hout 6, h5.1, h5.2, h6.1, h6.2]
  exact ⟨rfl, hdec⟩

end ChatServer
