import ChatServer.Audit.Requests
import ChatServer.Lib.Framing

/-!
# The incoming buffer as a stream of requests

The three ways `try_one_request` stops are the verdicts of a framer, so what it
serves depends on the byte stream only. A served request sees nothing of the
buffer beyond its own frame.
-/

namespace ChatServer

open EdgeTrigger (Errno Rv Interest Syscall)
open Framing (Cut Framer)

/-! ## The framer -/

/-- What `try_one_request` makes of an incoming buffer. -/
def requestCut (b : Bytes) : Cut :=
  if b.length < MSG_HEADER_SIZE + 1 then .more
  else if (parseMessage b).payloadLength > MSG_MAX_PAYLOAD_SIZE then .stop
  else if MSG_HEADER_SIZE + (parseMessage b).payloadLength.toNat > b.length then .more
  else .take (MSG_HEADER_SIZE + (parseMessage b).payloadLength.toNat)

/-- The header does not change when more bytes arrive. -/
theorem payloadLength_append {b : Bytes} (h : MSG_HEADER_SIZE ≤ b.length) (d : Bytes) :
    (parseMessage (b ++ d)).payloadLength = (parseMessage b).payloadLength := by
  have h3 : 3 ≤ b.length := Nat.le_trans (by decide) h
  have h4 : 4 ≤ (b.drop 3).length := by
    simp only [MSG_HEADER_SIZE] at h
    rw [List.length_drop]
    omega
  simp only [parseMessage, List.drop_append_of_le_length h3, List.take_append_of_le_length h4]

/-- A frame is cut as soon as it is complete and its size is within the limit. -/
theorem requestCut_eq_take {b : Bytes} {n : Nat} :
    requestCut b = .take n ↔
      MSG_HEADER_SIZE + 1 ≤ b.length ∧ ¬ (parseMessage b).payloadLength > MSG_MAX_PAYLOAD_SIZE ∧
        n = MSG_HEADER_SIZE + (parseMessage b).payloadLength.toNat ∧ n ≤ b.length := by
  unfold requestCut
  constructor
  · intro h
    split_ifs at h with h1 h2 h3
    cases h
    exact ⟨by omega, h2, rfl, by omega⟩
  · rintro ⟨h1, h2, rfl, h3⟩
    rw [if_neg (by omega), if_neg h2, if_neg (by omega)]

theorem requestCut_eq_stop {b : Bytes} :
    requestCut b = .stop ↔
      MSG_HEADER_SIZE + 1 ≤ b.length ∧ (parseMessage b).payloadLength > MSG_MAX_PAYLOAD_SIZE := by
  unfold requestCut
  constructor
  · intro h
    split_ifs at h with h1 h2 h3
    exact ⟨by omega, h2⟩
  · rintro ⟨h1, h2⟩
    rw [if_neg (by omega), if_pos h2]

theorem requestCut_take_pos {b : Bytes} {n : Nat} (h : requestCut b = .take n) : 0 < n := by
  obtain ⟨_, _, rfl, _⟩ := requestCut_eq_take.mp h
  simp only [MSG_HEADER_SIZE]
  omega

theorem requestCut_take_le {b : Bytes} {n : Nat} (h : requestCut b = .take n) : n ≤ b.length :=
  (requestCut_eq_take.mp h).2.2.2

/-- Bytes behind a complete frame do not change where it ends, -/
theorem requestCut_take_append {b : Bytes} {n : Nat} (h : requestCut b = .take n) (d : Bytes) :
    requestCut (b ++ d) = .take n := by
  obtain ⟨h1, h2, h3, h4⟩ := requestCut_eq_take.mp h
  have hlen := payloadLength_append (Nat.le_of_succ_le h1) d
  rw [requestCut_eq_take, hlen, List.length_append]
  exact ⟨by omega, h2, h3, by omega⟩

/-- and none make an oversized header legal. -/
theorem requestCut_stop_append {b : Bytes} (h : requestCut b = .stop) (d : Bytes) :
    requestCut (b ++ d) = .stop := by
  obtain ⟨h1, h2⟩ := requestCut_eq_stop.mp h
  rw [requestCut_eq_stop, payloadLength_append (Nat.le_of_succ_le h1) d, List.length_append]
  exact ⟨by omega, h2⟩

def requestFramer : Framer UInt8 where
  cut := requestCut
  take_pos := requestCut_take_pos
  take_le := requestCut_take_le
  take_append := requestCut_take_append
  stop_append := requestCut_stop_append

/-! ## Only the frame is read -/

/-- With a non-empty payload the peeked tag is the payload's first byte. -/
theorem peekBroadcastType_eq {m : Message} (h : m.payloadBytes ≠ []) :
    peekBroadcastType m = m.payloadBytes.headD 0 := by
  unfold Message.payloadBytes at h ⊢
  unfold peekBroadcastType
  cases hp : m.payload.getD [] with
  | nil => rw [hp] at h; simp at h
  | cons a as =>
    rw [hp] at h
    cases hn : m.payloadLength.toNat with
    | zero => rw [hn] at h; simp at h
    | succ n => rfl

section Congr

variable {m m' : Message} (ht : m.type = m'.type) (hp : m.payloadBytes = m'.payloadBytes)
  (s : Server) (c : Nat) (o : SqlOutcome)

include hp

theorem registerUser_congr : s.registerUser m o = s.registerUser m' o := by
  simp only [Server.registerUser, parseRegisterRequest, parseCredentials, hp]

theorem loginUser_congr : s.loginUser c m o = s.loginUser c m' o := by
  simp only [Server.loginUser, parseLoginRequest, parseCredentials, hp]

theorem handleWorldBroadcast_congr :
    s.handleWorldBroadcast c m = s.handleWorldBroadcast c m' := by
  simp only [Server.handleWorldBroadcast, parseWorldBroadcast, hp]

theorem handleP2pBroadcast_congr : s.handleP2pBroadcast c m = s.handleP2pBroadcast c m' := by
  simp only [Server.handleP2pBroadcast, parseP2pBroadcast, hp]

omit hp in
/-- Whatever lies behind an empty payload, it is rejected as malformed. -/
theorem handleBroadcastMessage_empty (h : m.payloadBytes = [])
    (ha : hasFlag (s.connManager.flags c) .isAuth = true) :
    s.handleBroadcastMessage c m = s.rejectChat ResponseCode.malformed.code := by
  have hw : s.handleWorldBroadcast c m = s.rejectChat ResponseCode.malformed.code := by
    simp [Server.handleWorldBroadcast, parseWorldBroadcast, h, Tlv.scan, Tlv.scanFrom]
  have hr : s.handleP2pBroadcast c m = s.rejectChat ResponseCode.malformed.code := by
    simp [Server.handleP2pBroadcast, parseP2pBroadcast, h, Tlv.scan, Tlv.scanFrom]
  unfold Server.handleBroadcastMessage
  rw [ha, hw, hr]
  split_ifs <;> first | rfl | contradiction

theorem handleBroadcastMessage_congr :
    s.handleBroadcastMessage c m = s.handleBroadcastMessage c m' := by
  by_cases ha : hasFlag (s.connManager.flags c) .isAuth = true
  · by_cases h0 : m.payloadBytes = []
    · rw [handleBroadcastMessage_empty s c h0 ha, handleBroadcastMessage_empty s c (hp ▸ h0) ha]
    · have hk : peekBroadcastType m = peekBroadcastType m' := by
        rw [peekBroadcastType_eq h0, peekBroadcastType_eq (hp ▸ h0), hp]
      simp only [Server.handleBroadcastMessage, hk, handleWorldBroadcast_congr hp,
        handleP2pBroadcast_congr hp]
  · simp only [Server.handleBroadcastMessage, ha, Bool.not_false, ↓reduceIte]

include ht

theorem dispatch_congr : s.dispatch c m o = s.dispatch c m' o := by
  simp only [Server.dispatch, ht, registerUser_congr hp, loginUser_congr hp,
    handleBroadcastMessage_congr hp]

end Congr

theorem type_take {b : Bytes} {n : Nat} (h : requestCut b = .take n) :
    (parseMessage (b.take n)).type = (parseMessage b).type := by
  obtain ⟨_, _, hn, _⟩ := requestCut_eq_take.mp h
  have hn1 : 1 < n := by
    rw [hn]
    simp only [MSG_HEADER_SIZE]
    omega
  simp only [parseMessage, List.getD_eq_getElem?_getD, List.getElem?_take_of_lt hn1]

/-- A request is served from its frame alone. -/
theorem dispatch_take {b : Bytes} {n : Nat} (h : requestCut b = .take n) (s : Server) (c : Nat)
    (o : SqlOutcome) :
    s.dispatch c (parseMessage b) o = s.dispatch c (parseMessage (b.take n)) o := by
  obtain ⟨h1, _, hn, hle⟩ := requestCut_eq_take.mp h
  have h7 : MSG_HEADER_SIZE ≤ (b.take n).length := by
    rw [List.length_take]
    omega
  have hlen : (parseMessage b).payloadLength = (parseMessage (b.take n)).payloadLength := by
    rw [← payloadLength_append h7 (b.drop n), List.take_append_drop]
  apply dispatch_congr (type_take h).symm
  · unfold Message.payloadBytes
    rw [← hlen]
    simp only [parseMessage, Option.getD_some, List.drop_take] at hn ⊢
    rw [hn, Nat.add_sub_cancel_left, List.take_take, Nat.min_self]

/-! ## What serving leaves alone -/

section Handled

variable {s : Server} {c : Nat} {request : Message} {o : SqlOutcome} {r : Server × Message}

theorem slot_signIn (s : Server) (c : Nat) (user : User) (j : Nat) :
    (s.signIn c user).slot j =
      if j = c then
        { s.slot j with
          flags := (s.slot j).flags ||| .isAuth
          userId := user.userId
          username := user.username }
      else s.slot j := by
  simp only [Server.signIn, Server.slot_setFlags, Server.slot_setUsername, Server.slot_setUserId,
    Server.flags_eq]
  split
  · rename_i hj
    subst hj
    rfl
  · rfl

theorem not_mem_recipients (v : View) (c : Nat) (request : Message) :
    c ∉ v.recipients c request := fun h =>
  (View.mem_others.mp (v.recipients_subset c request h)).2.2 rfl

theorem Handled.sound (h : Handled s c request o r) : r.2.Sound := by
  cases h with
  | rejected => exact sound_header _ _
  | registered => exact sound_ofFields (by simp [userFields])
  | loggedIn => exact sound_ofFields (by simp [userFields])
  | announced _ _ hm => exact hm.sound

theorem Handled.incoming (h : Handled s c request o r) (j : Nat) :
    (r.1.slot j).incoming = (s.slot j).incoming := by
  cases h with
  | rejected => rfl
  | registered => rfl
  | loggedIn => rw [slot_signIn]; split <;> rfl
  | announced => rw [Server.slot_deliverAll _ _ _ (View.nodup_recipients _ _ _)]; split <;> rfl

/-- Only the sign-in flag of the connection served can change. -/
theorem Handled.flags_self (h : Handled s c request o r) {g : ConnFlags}
    (hg : ConnFlags.isAuth.bits &&& g.bits = 0) :
    hasFlag (r.1.slot c).flags g = hasFlag (s.slot c).flags g := by
  cases h with
  | rejected => rfl
  | registered => rfl
  | loggedIn =>
    rw [slot_signIn, if_pos rfl]
    show hasFlag ((s.slot c).flags ||| .isAuth) g = _
    rw [hasFlag_or, hasFlag_disjoint _ hg, Bool.or_false]
  | announced =>
    rw [Server.slot_deliverAll _ _ _ (View.nodup_recipients _ _ _),
      if_neg (not_mem_recipients _ _ _)]

theorem Handled.outgoing_self (h : Handled s c request o r) :
    (r.1.slot c).outgoing = (s.slot c).outgoing := by
  cases h with
  | rejected => rfl
  | registered => rfl
  | loggedIn => rw [slot_signIn, if_pos rfl]
  | announced =>
    rw [Server.slot_deliverAll _ _ _ (View.nodup_recipients _ _ _),
      if_neg (not_mem_recipients _ _ _)]

/-- The recipients, each once, are registered for writing and get the response; every
other connection but the one served is left alone. -/
theorem Handled.deliveries (h : Handled s c request o r) :
    ∃ dests : List Nat, dests.Nodup ∧ dests ⊆ s.view.others c ∧
      r.1.log = s.log ++ dests.map (fun i => .sys (.modify i .output)) ∧
      ∀ j, j ≠ c → r.1.slot j =
        if j ∈ dests then
          { s.slot j with
            outgoing := (s.slot j).outgoing ++ r.2.wire
            flags := ConnState.writing.nextFlags (s.slot j).flags }
        else s.slot j := by
  have hnone : (∀ j, j ≠ c → r.1.slot j = s.slot j) → r.1.log = s.log →
      ∃ dests : List Nat, dests.Nodup ∧ dests ⊆ s.view.others c ∧
        r.1.log = s.log ++ dests.map (fun i => .sys (.modify i .output)) ∧
        ∀ j, j ≠ c → r.1.slot j =
          if j ∈ dests then
            { s.slot j with
              outgoing := (s.slot j).outgoing ++ r.2.wire
              flags := ConnState.writing.nextFlags (s.slot j).flags }
          else s.slot j := by
    intro hslot hlog
    refine ⟨[], List.nodup_nil, List.nil_subset _, hlog.trans (List.append_nil _).symm, ?_⟩
    intro j hj
    rw [if_neg List.not_mem_nil, hslot j hj]
  cases h with
  | rejected => exact hnone (fun _ _ => rfl) rfl
  | registered => exact hnone (fun _ _ => rfl) rfl
  | loggedIn => exact hnone (fun j hj => by rw [slot_signIn, if_neg hj]) rfl
  | announced =>
    have hnd := View.nodup_recipients s.view c request
    exact ⟨_, hnd, s.view.recipients_subset c request, s.log_deliverAll _ _,
      fun j _ => s.slot_deliverAll j _ hnd⟩

/-- Another connection is left alone, or is a recipient and turned to writing. -/
theorem Handled.slot_other (h : Handled s c request o r) {j : Nat} (hj : j ≠ c) :
    r.1.slot j = s.slot j ∨ j ∈ s.view.others c ∧ r.1.slot j =
      { s.slot j with
        outgoing := (s.slot j).outgoing ++ r.2.wire
        flags := ConnState.writing.nextFlags (s.slot j).flags } := by
  obtain ⟨dests, _, hsub, _, hslot⟩ := h.deliveries
  rw [hslot j hj]
  split
  · exact .inr ⟨hsub ‹_›, rfl⟩
  · exact .inl rfl

theorem Handled.frame (h : Handled s c request o r) :
    r.1.getSize = s.getSize ∧ r.1.status = s.status ∧ r.1.listenfd = s.listenfd := by
  cases h with
  | rejected => exact ⟨rfl, rfl, rfl⟩
  | registered => exact ⟨rfl, rfl, rfl⟩
  | loggedIn => exact ⟨rfl, rfl, rfl⟩
  | announced => exact (s.deliverAll_frame _ _).2

/-- The only system calls register the recipients for writing. -/
theorem Handled.log (h : Handled s c request o r) :
    ∃ dests, dests ⊆ s.view.others c ∧
      r.1.log = s.log ++ dests.map fun i => .sys (.modify i .output) := by
  obtain ⟨dests, _, hsub, hlog, _⟩ := h.deliveries
  exact ⟨dests, hsub, hlog⟩

end Handled

/-! ## The request loop -/

namespace Server

/-- One request, cut from the stream, is served. -/
def serveFrame (s : Server) (c : Nat) (frame : Bytes) (o : SqlOutcome) : Server :=
  let handled := s.dispatch c (parseMessage frame) o
  handled.1.respond c frame handled.2 s.view o

section Serve

variable (s : Server) (c : Nat) (o : SqlOutcome)

theorem slot_respond (frame : Bytes) (m : Message) (v : View) (j : Nat) :
    (s.respond c frame m v o).slot j =
      if j = c then { s.slot j with outgoing := (s.slot j).outgoing ++ m.wire } else s.slot j := by
  rw [respond, slot_record, slot_setOutgoing, writeMessageToBuffer_eq]
  split
  · rename_i hj
    subst hj
    rfl
  · rfl

/-- Within the limit the size of a frame does not wrap around. -/
theorem toNat_frameSize {len : UInt32} (h : ¬ len > MSG_MAX_PAYLOAD_SIZE) :
    (UInt32.ofNat MSG_HEADER_SIZE + len).toNat = MSG_HEADER_SIZE + len.toNat := by
  have hmax := UInt32.le_iff_toNat_le.mp (UInt32.not_lt.mp h)
  have h4096 : MSG_MAX_PAYLOAD_SIZE.toNat = 4096 := rfl
  have h7 : (UInt32.ofNat MSG_HEADER_SIZE).toNat = 7 := rfl
  rw [UInt32.toNat_add, h7]
  simp only [MSG_HEADER_SIZE]
  omega

/-- A complete frame of legal size is served and taken off the buffer. -/
theorem tryOneRequest_take {n : Nat} (h : requestCut (s.slot c).incoming = .take n) :
    s.tryOneRequest c o =
      ((s.serveFrame c ((s.slot c).incoming.take n) o).setIncoming c ((s.slot c).incoming.drop n),
        true) := by
  obtain ⟨h1, h2, hn, hle⟩ := requestCut_eq_take.mp h
  have hsize : (UInt32.ofNat MSG_HEADER_SIZE +
      (parseMessage (s.slot c).incoming).payloadLength).toNat = n := by
    rw [toNat_frameSize h2, hn]
  have hinc : ((s.dispatch c (parseMessage ((s.slot c).incoming.take n)) o).1.slot c).incoming =
      (s.slot c).incoming := (dispatch_handled s c _ o).incoming c
  unfold tryOneRequest
  simp only [incoming_eq, if_neg (Nat.not_lt.mpr h1), if_neg h2, hsize, gt_iff_lt,
    if_neg (Nat.not_lt.mpr hle), bufConsume, dispatch_take h, hinc]
  rfl

theorem tryOneRequest_more (h : requestCut (s.slot c).incoming = .more) :
    s.tryOneRequest c o = (s, false) := by
  unfold requestCut at h
  show (if (s.slot c).incoming.length < MSG_HEADER_SIZE + 1 then _
    else if (parseMessage (s.slot c).incoming).payloadLength > MSG_MAX_PAYLOAD_SIZE then _
    else if (UInt32.ofNat MSG_HEADER_SIZE +
      (parseMessage (s.slot c).incoming).payloadLength).toNat > (s.slot c).incoming.length then _
    else _) = _
  split_ifs at h with h1 h2 h3
  · rw [if_pos h1]
  · rw [if_neg h1, if_neg h2, toNat_frameSize h2, if_pos h3]

theorem tryOneRequest_stop (h : requestCut (s.slot c).incoming = .stop) :
    s.tryOneRequest c o = (s.setConnectionState c .closing, false) := by
  obtain ⟨h1, h2⟩ := requestCut_eq_stop.mp h
  show (if (s.slot c).incoming.length < MSG_HEADER_SIZE + 1 then _
    else if (parseMessage (s.slot c).incoming).payloadLength > MSG_MAX_PAYLOAD_SIZE then _
    else _) = _
  rw [if_neg (Nat.not_lt.mpr h1), if_pos h2]

/-- Every call of `try_one_request` that serves takes one frame. -/
theorem tryOneRequest_true {s' : Server} (h : s.tryOneRequest c o = (s', true)) :
    ∃ n, requestCut (s.slot c).incoming = .take n ∧
      s' = (s.serveFrame c ((s.slot c).incoming.take n) o).setIncoming c
        ((s.slot c).incoming.drop n) := by
  cases hc : requestCut (s.slot c).incoming with
  | more => rw [tryOneRequest_more s c o hc] at h; cases h
  | stop => rw [tryOneRequest_stop s c o hc] at h; cases h
  | take n =>
    rw [tryOneRequest_take s c o hc] at h
    exact ⟨n, rfl, (Prod.ext_iff.mp h).1.symm⟩

end Serve

end Server

end ChatServer
