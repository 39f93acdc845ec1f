import ChatServer.Audit.Codec
import ChatServer.Model.EventLoop

/-!
# What serving one request does

`dispatch_handled` inverts the three handlers at once: a request is rejected and
changes nothing, or it registers a user, signs its connection in, or announces a
broadcast to the recipients it selects. No other outcome exists; in particular
none of the failures that come after a write can happen.
-/

namespace ChatServer

open EdgeTrigger (Errno Rv Interest Syscall)

/-! ## Flags after a change of state -/

section NextFlags

variable (f : ConnFlags)

theorem hasFlag_disjoint {g : ConnFlags} (h : f.bits &&& g.bits = 0) : hasFlag f g = false := by
  rw [hasFlag, h]
  rfl

/-- A change of state touches none of the other flags. -/
theorem hasFlag_nextFlags (next : ConnState) {g : ConnFlags}
    (hr : ConnFlags.wantRead.bits &&& g.bits = 0) (hw : ConnFlags.wantWrite.bits &&& g.bits = 0)
    (hc : ConnFlags.wantClose.bits &&& g.bits = 0) :
    hasFlag (next.nextFlags f) g = hasFlag f g := by
  cases next with
  | reading =>
    rw [ConnState.nextFlags, hasFlag_clear _ hw, hasFlag_or, hasFlag_disjoint _ hr, Bool.or_false]
  | writing =>
    rw [ConnState.nextFlags, hasFlag_or, hasFlag_clear _ hr, hasFlag_disjoint _ hw, Bool.or_false]
  | closing => rw [ConnState.nextFlags, hasFlag_or, hasFlag_disjoint _ hc, Bool.or_false]

@[simp] theorem isAuth_nextFlags (next : ConnState) :
    hasFlag (next.nextFlags f) .isAuth = hasFlag f .isAuth :=
  hasFlag_nextFlags f next (by decide) (by decide) (by decide)

@[simp] theorem isActive_nextFlags (next : ConnState) :
    hasFlag (next.nextFlags f) .isActive = hasFlag f .isActive :=
  hasFlag_nextFlags f next (by decide) (by decide) (by decide)

@[simp] theorem wantRead_reading : hasFlag (ConnState.reading.nextFlags f) .wantRead = true := by
  rw [ConnState.nextFlags, hasFlag_clear _ (by decide), hasFlag_or]
  exact Bool.or_true _

@[simp] theorem wantWrite_reading : hasFlag (ConnState.reading.nextFlags f) .wantWrite = false :=
  hasFlag_clear_self _ _

@[simp] theorem wantClose_reading :
    hasFlag (ConnState.reading.nextFlags f) .wantClose = hasFlag f .wantClose := by
  rw [ConnState.nextFlags, hasFlag_clear _ (by decide), hasFlag_or]
  exact Bool.or_false _

@[simp] theorem wantRead_writing : hasFlag (ConnState.writing.nextFlags f) .wantRead = false := by
  rw [ConnState.nextFlags, hasFlag_or, hasFlag_clear_self]
  rfl

@[simp] theorem wantWrite_writing : hasFlag (ConnState.writing.nextFlags f) .wantWrite = true := by
  rw [ConnState.nextFlags, hasFlag_or]
  exact Bool.or_true _

@[simp] theorem wantClose_writing :
    hasFlag (ConnState.writing.nextFlags f) .wantClose = hasFlag f .wantClose := by
  rw [ConnState.nextFlags, hasFlag_or, hasFlag_clear _ (by decide)]
  exact Bool.or_false _

@[simp] theorem wantClose_closing : hasFlag (ConnState.closing.nextFlags f) .wantClose = true := by
  rw [ConnState.nextFlags, hasFlag_or]
  exact Bool.or_true _

@[simp] theorem wantRead_closing :
    hasFlag (ConnState.closing.nextFlags f) .wantRead = hasFlag f .wantRead := by
  rw [ConnState.nextFlags, hasFlag_or]
  exact Bool.or_false _

@[simp] theorem wantWrite_closing :
    hasFlag (ConnState.closing.nextFlags f) .wantWrite = hasFlag f .wantWrite := by
  rw [ConnState.nextFlags, hasFlag_or]
  exact Bool.or_false _

end NextFlags

namespace Server

/-! ## Changes of state and deliveries -/

section Deliveries

variable (s : Server) (c i j : Nat) (b : Bytes)

theorem slot_setConnectionState (next : ConnState) :
    (s.setConnectionState c next).slot j =
      if j = c then { s.slot j with flags := next.nextFlags (s.slot j).flags } else s.slot j := by
  have h : (s.setConnectionState c next).slot j =
      (s.setFlags c (next.nextFlags (s.slot c).flags)).slot j := by
    cases next <;> rfl
  rw [h, slot_setFlags]
  split
  · rename_i hj
    subst hj
    rfl
  · rfl

theorem slot_setConnectionState_self (next : ConnState) :
    (s.setConnectionState c next).slot c =
      { s.slot c with flags := next.nextFlags (s.slot c).flags } := by
  rw [slot_setConnectionState, if_pos rfl]

theorem wantClose_setClosing :
    hasFlag ((s.setConnectionState c .closing).slot c).flags .wantClose = true := by
  rw [slot_setConnectionState_self]
  exact wantClose_closing _

/-- A connection that is to be closed stays so in every state. -/
theorem wantClose_setConnectionState (next : ConnState)
    (h : hasFlag (s.slot c).flags .wantClose = true) :
    hasFlag ((s.setConnectionState c next).slot c).flags .wantClose = true := by
  rw [slot_setConnectionState_self]
  cases next with
  | reading => exact (wantClose_reading _).trans h
  | writing => exact (wantClose_writing _).trans h
  | closing => exact wantClose_closing _

/-- Nothing but the flags of a slot changes with its state. -/
theorem setConnectionState_keeps (next : ConnState) :
    ((s.setConnectionState c next).slot j).incoming = (s.slot j).incoming ∧
      ((s.setConnectionState c next).slot j).outgoing = (s.slot j).outgoing ∧
      ((s.setConnectionState c next).slot j).userId = (s.slot j).userId ∧
      ((s.setConnectionState c next).slot j).username = (s.slot j).username ∧
      hasFlag ((s.setConnectionState c next).slot j).flags .isAuth =
        hasFlag (s.slot j).flags .isAuth := by
  rw [slot_setConnectionState]
  split
  · exact ⟨rfl, rfl, rfl, rfl, isAuth_nextFlags _ _⟩
  · exact ⟨rfl, rfl, rfl, rfl, rfl⟩

theorem slot_deliver :
    (s.deliver i b).slot j =
      if j = i then
        { s.slot j with
          outgoing := (s.slot j).outgoing ++ b
          flags := ConnState.writing.nextFlags (s.slot j).flags }
      else s.slot j := by
  rw [deliver, slot_setConnectionState, slot_queueBytes]
  split <;> rfl

/-- The bytes go to each of the listed connections in turn. -/
def deliverAll (dests : List Nat) : Server := dests.foldl (fun s i => s.deliver i b) s

@[simp] theorem deliverAll_nil : s.deliverAll b [] = s := rfl

theorem deliverAll_cons (dests : List Nat) :
    s.deliverAll b (i :: dests) = (s.deliver i b).deliverAll b dests := rfl

theorem slot_deliverAll {dests : List Nat} (hnd : dests.Nodup) :
    (s.deliverAll b dests).slot j =
      if j ∈ dests then
        { s.slot j with
          outgoing := (s.slot j).outgoing ++ b
          flags := ConnState.writing.nextFlags (s.slot j).flags }
      else s.slot j := by
  induction dests generalizing s with
  | nil => rfl
  | cons i dests ih =>
    obtain ⟨hi, hnd⟩ := List.nodup_cons.mp hnd
    rw [deliverAll_cons, ih _ hnd, slot_deliver]
    by_cases hj : j = i
    · subst hj
      simp [hi]
    · simp [hj]

theorem log_deliverAll (dests : List Nat) :
    (s.deliverAll b dests).log = s.log ++ dests.map fun i => .sys (.modify i .output) := by
  induction dests generalizing s with
  | nil => simp
  | cons i dests ih =>
    rw [deliverAll_cons, ih, List.map_cons]
    simp [deliver, setConnectionState, queueBytes, setOutgoing, setFlags, sys, record]

/-- Deliveries change neither the table of users nor the size of the table. -/
theorem deliverAll_frame (dests : List Nat) :
    (s.deliverAll b dests).db = s.db ∧ (s.deliverAll b dests).getSize = s.getSize ∧
      (s.deliverAll b dests).status = s.status ∧ (s.deliverAll b dests).listenfd = s.listenfd := by
  induction dests generalizing s with
  | nil => exact ⟨rfl, rfl, rfl, rfl⟩
  | cons i dests ih => exact ih (s.deliver i b)

theorem isValidRecipient_deliver :
    (s.deliver i b).isValidRecipient c j = s.isValidRecipient c j := by
  simp only [isValidRecipient, flags_eq, slot_deliver]
  split <;> simp

/-- A delivery makes no one a recipient, so the loop serves those selected at its start. -/
theorem fanOut_eq :
    s.fanOut c b = s.deliverAll b ((List.range s.getSize).filter (s.isValidRecipient c)) := by
  unfold fanOut
  generalize List.range s.getSize = l
  induction l generalizing s with
  | nil => rfl
  | cons i l ih =>
    rw [List.foldl_cons, ih]
    have hvalid : (if s.isValidRecipient c i then s.deliver i b else s).isValidRecipient c =
        s.isValidRecipient c := by
      funext j
      split
      · exact s.isValidRecipient_deliver c i j b
      · rfl
    rw [hvalid, List.filter_cons]
    split <;> rfl

end Deliveries

end Server

/-! ## The recipients of a broadcast -/

/-- The authenticated connections other than `c`. -/
def View.others (v : View) (c : Nat) : List Nat :=
  (List.range v.size).filter fun i => hasFlag (v.flags i) .isAuth && i != c

/-- The connections, besides the sender, that a broadcast is for: all the others, or
the first of them that has signed in under the recipient's name. -/
def View.recipients (v : View) (c : Nat) (request : Message) : List Nat :=
  if peekBroadcastType request = TlvTag.p2pBroadcast.code then
    match parseP2pBroadcast request with
    | .ok b => ((v.others c).find? fun i => v.usernames i == b.recipientUsername).toList
    | .error _ => []
  else v.others c

theorem View.mem_others {v : View} {c i : Nat} :
    i ∈ v.others c ↔ i < v.size ∧ hasFlag (v.flags i) .isAuth = true ∧ i ≠ c := by
  simp [View.others]

theorem View.nodup_recipients (v : View) (c : Nat) (request : Message) :
    (v.recipients c request).Nodup := by
  have hothers : (v.others c).Nodup := List.nodup_range.filter _
  unfold View.recipients
  split
  · split
    · cases List.find? _ _ <;> simp
    · exact List.nodup_nil
  · exact hothers

theorem View.recipients_subset (v : View) (c : Nat) (request : Message) :
    v.recipients c request ⊆ v.others c := by
  unfold View.recipients
  split
  · split
    · intro i hi
      exact List.mem_of_find?_eq_some (Option.mem_toList.mp hi)
    · exact List.nil_subset _
  · exact fun _ hi => hi

/-- The message that a successful broadcast of `c` announces: the fields of the
request, with the sender's name replaced by the one `c` signed in under. -/
inductive Announces (v : View) (c : Nat) (request : Message) : Message → Prop where
  | world {b} : peekBroadcastType request = TlvTag.worldBroadcast.code →
      parseWorldBroadcast request = .ok b → b.messageContent ≠ [] →
      Announces v c request (.ofFields .chat (worldFields { b with senderUsername := v.usernames c }))
  | p2p {b i} : peekBroadcastType request = TlvTag.p2pBroadcast.code →
      parseP2pBroadcast request = .ok b → b.messageContent ≠ [] →
      v.usernames c ≠ b.recipientUsername → v.recipients c request = [i] →
      Announces v c request (.ofFields .chat (p2pFields { b with senderUsername := v.usernames c }))

theorem Announces.sound {v : View} {c : Nat} {request m : Message} (h : Announces v c request m) :
    m.Sound := by
  cases h with
  | world => exact sound_ofFields (by simp [worldFields])
  | p2p => exact sound_ofFields (by simp [p2pFields])

theorem Announces.type_rc {v : View} {c : Nat} {request m : Message} (h : Announces v c request m) :
    m.type = MsgType.chat.code ∧ m.rc = 0 := by
  cases h <;> exact ⟨rfl, rfl⟩

/-! ## The three handlers inverted -/

/-- The writes of a successful login. -/
def Server.signIn (s : Server) (c : Nat) (user : User) : Server :=
  let s := s.setUserId c user.userId
  let s := s.setUsername c user.username
  s.setFlags c (s.connManager.flags c ||| .isAuth)

/-- What serving a request can do to the server, and the response. -/
inductive Handled (s : Server) (c : Nat) (request : Message) (o : SqlOutcome) :
    Server × Message → Prop where
  | rejected (code : ResponseCode) : code ≠ .ok →
      Handled s c request o (s, buildServerResponse request.type code.code none 0)
  | registered {credentials user db} : request.type = MsgType.register.code →
      parseRegisterRequest request = .ok credentials →
      (getUserByUsername s.db (stringToLower credentials.username) .empty o).1 = 0 →
      insertUser s.db ⟨0, credentials.username, credentials.password⟩ o = (0, user, db) →
      Handled s c request o (s.setDb db, .ofFields .register (userFields user))
  | loggedIn {credentials user} : request.type = MsgType.login.code →
      parseLoginRequest request = .ok credentials →
      getUserByUsername s.db (stringToLower credentials.username) .empty o = (1, user) →
      user.password = credentials.password →
      Handled s c request o (s.signIn c user, .ofFields .login (userFields user))
  | announced {m} : request.type = MsgType.chat.code →
      hasFlag (s.slot c).flags .isAuth = true → Announces s.view c request m →
      Handled s c request o (s.deliverAll m.wire (s.view.recipients c request), m)

section Inversion

variable {s : Server} {c : Nat} {request : Message} {o : SqlOutcome}

theorem Handled.reject {type : UInt8} (ht : request.type = type) (code : ResponseCode)
    (hc : code ≠ .ok) :
    Handled s c request o (s, buildServerResponse type code.code none 0) := by
  subst ht
  exact .rejected code hc

theorem registerUser_handled (ht : request.type = MsgType.register.code) :
    Handled s c request o (s.registerUser request o) := by
  unfold Server.registerUser
  cases hp : parseRegisterRequest request with
  | error rc =>
    obtain rfl := parseCredentials_error hp
    exact .reject ht .malformed (by decide)
  | ok credentials =>
    simp only
    rcases getUserByUsername_cases s.db (stringToLower credentials.username) .empty o with
      hf | hf | ⟨r, _, hf⟩
    · have h1 : ¬ ((-1 : Int) = 1) := by decide
      rw [hf, if_neg h1, if_pos rfl]
      exact .reject ht .internal (by decide)
    · have h1 : ¬ ((0 : Int) = 1) := by decide
      have h2 : ¬ ((0 : Int) = -1) := by decide
      rw [hf, if_neg h1, if_neg h2]
      rcases insertUser_cases s.db ⟨0, credentials.username, credentials.password⟩ o with
        ⟨hi, hdb⟩ | ⟨_, hi⟩
      · have h3 : (-1 : Int) ≠ 0 := by decide
        rw [hi, if_pos h3, hdb]
        exact .reject ht .internal (by decide)
      · rw [hi, if_neg (not_not.mpr rfl), buildRegisterResponse, buildUserResponse_eq]
        exact .registered ht hp (by rw [hf]) hi
    · rw [hf, if_pos rfl]
      exact .reject ht .userExists (by decide)

theorem loginUser_handled (ht : request.type = MsgType.login.code) :
    Handled s c request o (s.loginUser c request o) := by
  unfold Server.loginUser
  cases hp : parseLoginRequest request with
  | error rc =>
    obtain rfl := parseCredentials_error hp
    exact .reject ht .malformed (by decide)
  | ok credentials =>
    simp only
    by_cases h1 : (getUserByUsername s.db (stringToLower credentials.username) .empty o).1 = 1
    · rw [if_neg (not_not.mpr h1)]
      split
      · exact .reject ht .invalidCredentials (by decide)
      · rename_i hpw
        rw [buildLoginResponse, buildUserResponse_eq]
        exact .loggedIn ht hp (Prod.ext h1 rfl) (not_not.mp hpw)
    · rw [if_pos h1]
      split
      · exact .reject ht .userNotFound (by decide)
      · exact .reject ht .internal (by decide)

theorem handleWorldBroadcast_handled (ht : request.type = MsgType.chat.code)
    (ha : hasFlag (s.slot c).flags .isAuth = true)
    (hk : peekBroadcastType request = TlvTag.worldBroadcast.code) :
    Handled s c request o (s.handleWorldBroadcast c request) := by
  unfold Server.handleWorldBroadcast
  cases hp : parseWorldBroadcast request with
  | error rc =>
    obtain rfl := parseWorldBroadcast_error hp
    exact .reject ht .malformed (by decide)
  | ok b =>
    simp only
    split
    · exact .reject ht .malformed (by decide)
    · rename_i hc
      have hne : b.messageContent ≠ [] := by simpa using hc
      have hk2 : ¬ (peekBroadcastType request = TlvTag.p2pBroadcast.code) := by
        rw [hk]
        decide
      have hrec : s.view.recipients c request =
          (List.range s.getSize).filter (s.isValidRecipient c) := by
        rw [View.recipients, if_neg hk2]
        rfl
      rw [buildWorldBroadcastNotification, buildWorldBroadcast_eq]
      simp only [writeMessageToBuffer_eq, List.nil_append, Server.fanOut_eq, ← hrec]
      exact .announced ht ha (.world hk hp hne)

theorem findRecipient_eq (name : Bytes) :
    s.findRecipient c name = (s.view.others c).find? fun i => s.view.usernames i == name := by
  rw [View.others, List.find?_filter]
  unfold Server.findRecipient
  congr 1
  funext i
  rw [Bool.eq_iff_iff]
  simp [Server.isValidRecipient, Server.view]

theorem handleP2pBroadcast_handled (ht : request.type = MsgType.chat.code)
    (ha : hasFlag (s.slot c).flags .isAuth = true)
    (hk : peekBroadcastType request = TlvTag.p2pBroadcast.code) :
    Handled s c request o (s.handleP2pBroadcast c request) := by
  unfold Server.handleP2pBroadcast
  cases hp : parseP2pBroadcast request with
  | error rc =>
    obtain rfl := parseP2pBroadcast_error hp
    exact .reject ht .malformed (by decide)
  | ok b =>
    simp only
    split
    · exact .reject ht .malformed (by decide)
    rename_i hc
    have hcontent : b.messageContent ≠ [] := by simpa using hc
    split
    · exact .reject ht .malformed (by decide)
    rename_i hne
    rw [buildP2pBroadcastNotification, buildP2pBroadcast_eq hne]
    simp only
    cases hf : s.findRecipient c b.recipientUsername with
    | none => exact .reject ht .userNotFound (by decide)
    | some i =>
      have hrec : s.view.recipients c request = [i] := by
        rw [View.recipients, if_pos hk, hp]
        simp only
        rw [← findRecipient_eq, hf]
        rfl
      have hm := Handled.announced (o := o) ht ha (Announces.p2p hk hp hcontent hne hrec)
      rw [hrec] at hm
      simp only [writeMessageToBuffer_eq, List.nil_append]
      exact hm

theorem handleBroadcastMessage_handled (ht : request.type = MsgType.chat.code) :
    Handled s c request o (s.handleBroadcastMessage c request) := by
  unfold Server.handleBroadcastMessage
  split
  · exact .reject ht .invalidCredentials (by decide)
  rename_i ha
  have ha' : hasFlag (s.slot c).flags .isAuth = true := by simpa using ha
  split
  · exact handleWorldBroadcast_handled ht ha' ‹_›
  · split
    · exact handleP2pBroadcast_handled ht ha' ‹_›
    · exact .reject ht .malformed (by decide)

/-- Every request is rejected, or registers, signs in or announces. -/
theorem dispatch_handled (s : Server) (c : Nat) (request : Message) (o : SqlOutcome) :
    Handled s c request o (s.dispatch c request o) := by
  unfold Server.dispatch
  split
  · exact registerUser_handled ‹_›
  · split
    · exact loginUser_handled ‹_›
    · split
      · exact handleBroadcastMessage_handled ‹_›
      · exact .rejected .unknownCommand (by decide)

/-! ## The handler that a type selects -/

theorem dispatch_register (ht : request.type = MsgType.register.code) :
    s.dispatch c request o = s.registerUser request o := if_pos ht

theorem dispatch_login (ht : request.type = MsgType.login.code) :
    s.dispatch c request o = s.loginUser c request o := by
  have hne : ¬ request.type = MsgType.register.code := by
    rw [ht]
    decide
  rw [Server.dispatch, if_neg hne, if_pos ht]

theorem dispatch_chat (ht : request.type = MsgType.chat.code) :
    s.dispatch c request o = s.handleBroadcastMessage c request := by
  have h1 : ¬ request.type = MsgType.register.code := by
    rw [ht]
    decide
  have h2 : ¬ request.type = MsgType.login.code := by
    rw [ht]
    decide
  rw [Server.dispatch, if_neg h1, if_neg h2, if_pos ht]

end Inversion

end ChatServer
