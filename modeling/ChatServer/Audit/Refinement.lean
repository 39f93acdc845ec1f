import ChatServer.Audit.Identity
import ChatServer.Audit.Replies
import ChatServer.Audit.Usernames

/-!
# The server is a chat service

A run of the server is a run of the abstract service: the connects, the removals and the served
requests of its history are the events, in their order. The user table holds the accounts, the
flags and the identity of a slot are its session, and the frames queued for a connection are
the posts in its mailbox. Partial reads, queued output and notifications are no events.
-/

namespace ChatServer

open EdgeTrigger (Errno Rv Interest Syscall)

/-- Text is stored up to its first NUL, and names are compared in lower case. -/
def serverRules : Chat.Rules Bytes Bytes := ⟨cString, cString, stringToLower⟩

abbrev Service := Chat.State Nat Bytes Bytes Bytes (UInt8 × ResponseCode)

abbrev ServiceEvent := Chat.Event Nat Bytes Bytes Bytes (UInt8 × ResponseCode)

/-! ## The events of a history -/

/-- The code that the `rc` byte of a refusal stands for. -/
def ResponseCode.ofByte (rc : UInt8) : ResponseCode :=
  if rc = ResponseCode.malformed.byte then .malformed
  else if rc = ResponseCode.userExists.byte then .userExists
  else if rc = ResponseCode.userNotFound.byte then .userNotFound
  else if rc = ResponseCode.invalidCredentials.byte then .invalidCredentials
  else if rc = ResponseCode.internal.byte then .internal
  else if rc = ResponseCode.unknownCommand.byte then .unknownCommand
  else .ok

theorem ResponseCode.ofByte_byte (code : ResponseCode) : ofByte code.byte = code := by
  cases code <;> decide

/-- What a served request is to the service: refused, or granted with what was parsed from it. -/
def Served.event (r : Served) : Option ServiceEvent :=
  let request := parseMessage r.frame
  if r.response.rc ≠ 0 then some (.refuse r.conn (request.type, .ofByte r.response.rc))
  else if request.type = MsgType.register.code then
    (parseRegisterRequest request).toOption.map fun c => .register r.conn c.username c.password
  else if request.type = MsgType.login.code then
    (parseLoginRequest request).toOption.map fun c => .login r.conn c.username c.password
  else if peekBroadcastType request = TlvTag.p2pBroadcast.code then
    (parseP2pBroadcast request).toOption.map fun b =>
      .toOne r.conn b.recipientUsername b.messageContent
  else (parseWorldBroadcast request).toOption.map fun b => .toAll r.conn b.messageContent

def Entry.event : Entry → Option ServiceEvent
  | .sys (.add fd _) => some (.connect fd)
  | .sys (.delete fd) => some (.leave fd)
  | .sys _ => none
  | .served r => r.event

def Server.events (s : Server) : List ServiceEvent := s.log.filterMap Entry.event

/-! ## The correspondence of states -/

def Row.account (row : Row) : Chat.Account Bytes Bytes := ⟨row.username, row.password⟩

def Db.accounts (db : Db) : List (Chat.Account Bytes Bytes) := db.rows.map Row.account

/-- What the slot and the table say about the session on a connection. -/
def Slot.Shows (slot : Slot) (db : Db) : Chat.Session → Prop
  | .absent => hasFlag slot.flags .isActive = false
  | .guest => hasFlag slot.flags .isActive = true ∧ hasFlag slot.flags .isAuth = false
  | .member k => hasFlag slot.flags .isActive = true ∧ hasFlag slot.flags .isAuth = true ∧
      ∃ row, db.rows[k]? = some row ∧ slot.userId = UInt32.ofNat row.id ∧
        slot.username = row.username

/-- The server is in this state of the service. -/
structure Represents (s : Server) (a : Service) : Prop where
  accounts : a.accounts = s.db.accounts
  session : ∀ i, (s.slot i).Shows s.db (a.session i)
  mailbox : ∀ i, framesFor i s.log = (a.mailbox i).map Reply.wire
  fits : ∀ i, ∀ p ∈ a.mailbox i, Reply.Fits p

/-- Rows are numbered from one, in the order of their insertion. -/
structure Db.Numbered (db : Db) : Prop where
  seq : db.seq = db.rows.length
  id : ∀ k row, db.rows[k]? = some row → row.id = k + 1

theorem InsertedOnly.numbered {db : Db} (h : InsertedOnly db) : db.Numbered := by
  induction h with
  | empty => exact ⟨rfl, fun k row hk => by cases hk⟩
  | @insert db user o _ ih =>
    obtain ⟨_, hdb⟩ | ⟨_, hdb⟩ := insertUser_cases db user o
    · rwa [hdb]
    · rw [hdb]
      refine ⟨by simp [ih.seq], fun k row hk => ?_⟩
      simp only [List.getElem?_append] at hk
      split at hk
      · exact ih.id k row hk
      · rename_i hlt
        have hzero : k - db.rows.length = 0 := by
          by_contra hne
          rw [List.getElem?_eq_none (by simp; omega)] at hk
          cases hk
        rw [hzero] at hk
        cases hk
        show db.seq + 1 = k + 1
        rw [ih.seq]
        omega

section Shows

variable {slot slot' : Slot} {db db' : Db} {who : Chat.Session}

/-- Only two flags, the identity and the rows matter. -/
theorem Slot.Shows.congr (h : slot.Shows db who)
    (hactive : hasFlag slot'.flags .isActive = hasFlag slot.flags .isActive)
    (hauth : hasFlag slot'.flags .isAuth = hasFlag slot.flags .isAuth)
    (hid : hasFlag slot.flags .isActive = true →
      slot'.userId = slot.userId ∧ slot'.username = slot.username)
    (hrows : db.rows <+: db'.rows) : slot'.Shows db' who := by
  cases who with
  | absent => exact hactive.trans h
  | guest => exact ⟨hactive.trans h.1, hauth.trans h.2⟩
  | member k =>
    obtain ⟨ha, hm, row, hk, hrow⟩ := h
    obtain ⟨h1, h2⟩ := hid ha
    rw [← h1, ← h2] at hrow
    obtain ⟨rows, hrows⟩ := hrows
    refine ⟨hactive.trans ha, hauth.trans hm, row, ?_, hrow⟩
    rw [← hrows, List.getElem?_append_left (List.getElem?_eq_some_iff.mp hk).1]
    exact hk

theorem Slot.Shows.active (h : slot.Shows db who) :
    hasFlag slot.flags .isActive = true ↔ who ≠ .absent := by
  cases who with
  | absent => simp only [Slot.Shows] at h; simp [h]
  | guest => simp [h.1]
  | member k => simp [h.1]

/-- A member is on the connection exactly if the slot is logged in, in a tidy table. -/
theorem Slot.Shows.auth (h : slot.Shows db who)
    (hidle : hasFlag slot.flags .isActive = false → slot.flags = .none) :
    hasFlag slot.flags .isAuth = true ↔ ∃ k, who = .member k := by
  cases who with
  | absent =>
    rw [hidle h, hasFlag_none]
    simp
  | guest => simp [h.2]
  | member k => simp [h.2.1]

end Shows

/-! ## Steps that are no events -/

section Quiet

variable {s t : Server} {a : Service}

theorem events_append (es : List Entry) (hlog : t.log = s.log ++ es) :
    t.events = s.events ++ es.filterMap Entry.event := by
  rw [Server.events, Server.events, hlog, List.filterMap_append]

/-- The sessions are those of before. -/
def SameSessions (s t : Server) : Prop :=
  ∀ i, hasFlag (t.slot i).flags .isActive = hasFlag (s.slot i).flags .isActive ∧
    hasFlag (t.slot i).flags .isAuth = hasFlag (s.slot i).flags .isAuth ∧
    (t.slot i).userId = (s.slot i).userId ∧ (t.slot i).username = (s.slot i).username

theorem Represents.quiet (h : Represents s a) (es : List Entry) (hdb : t.db = s.db)
    (hlog : t.log = s.log ++ es) (hes : es.filterMap Entry.event = [])
    (hframes : ∀ i, framesFor i es = []) (hslot : SameSessions s t) :
    Represents t a ∧ t.events = s.events := by
  refine ⟨⟨hdb ▸ h.accounts, fun i => ?_, fun i => ?_, h.fits⟩, ?_⟩
  · obtain ⟨hactive, hauth, hid⟩ := hslot i
    exact (h.session i).congr hactive hauth (fun _ => hid) (hdb ▸ List.prefix_rfl)
  · rw [hlog, framesFor_append, hframes, List.append_nil]
    exact h.mailbox i
  · rw [events_append es hlog, hes, List.append_nil]

/-- A call that neither registers nor removes a descriptor. -/
theorem Represents.call (h : Represents s a) {k : Syscall UInt8}
    (hk : Entry.event (.sys k) = none) : Represents (s.sys k) a ∧ (s.sys k).events = s.events :=
  h.quiet [.sys k] rfl rfl (by simp [hk]) (fun _ => rfl) fun _ => ⟨rfl, rfl, rfl, rfl⟩

theorem sameSessions_setConnectionState (s : Server) (c : Nat) (next : ConnState) :
    SameSessions s (s.setConnectionState c next) := by
  intro i
  obtain ⟨_, _, hid, hname, hauth⟩ := s.setConnectionState_keeps c i next
  refine ⟨?_, hauth, hid, hname⟩
  rw [Server.slot_setConnectionState]
  split
  · exact isActive_nextFlags _ next
  · rfl

theorem Represents.setConnectionState (h : Represents s a) (c : Nat) (next : ConnState) :
    Represents (s.setConnectionState c next) a ∧
      (s.setConnectionState c next).events = s.events := by
  have hsame := sameSessions_setConnectionState s c next
  cases next with
  | reading =>
    exact h.quiet [.sys (.modify c .input)] rfl rfl rfl (fun _ => rfl) hsame
  | writing =>
    exact h.quiet [.sys (.modify c .output)] rfl rfl rfl (fun _ => rfl) hsame
  | closing => exact h.quiet [] rfl (List.append_nil _).symm rfl (fun _ => rfl) hsame

end Quiet

/-! ## Served requests -/

section Serve

variable {s : Server} {c : Nat} {frame : Bytes} {o : SqlOutcome} {a base : Service}

/-- The entry of a served request. -/
def Server.entryOf (s : Server) (c : Nat) (frame : Bytes) (o : SqlOutcome) : Served :=
  ⟨c, frame, (s.dispatch c (parseMessage frame) o).2, s.view, o⟩

theorem events_serve (rest : Bytes) :
    ((s.serveFrame c frame o).setIncoming c rest).events =
      s.events ++ (s.entryOf c frame o).event.toList := by
  obtain ⟨dests, hlog⟩ := log_serve s c frame rest o
  have hmodify : (dests.map fun d => Entry.sys (.modify d .output)).filterMap Entry.event = [] :=
    List.filterMap_eq_nil_iff.mpr fun e he => by
      obtain ⟨d, _, rfl⟩ := List.mem_map.mp he
      rfl
  rw [Server.events, Server.events, hlog, List.filterMap_append, List.filterMap_append, hmodify,
    List.append_nil]
  rfl

theorem framesFor_serve (rest : Bytes) (i : Nat) :
    framesFor i ((s.serveFrame c frame o).setIncoming c rest).log =
      framesFor i s.log ++ (s.entryOf c frame o).framesTo i := by
  obtain ⟨dests, hlog⟩ := log_serve s c frame rest o
  rw [hlog, framesFor_append, framesFor_append, framesFor_singleton,
    show framesFor i (dests.map fun d => .sys (.modify d .output)) = [] from
      flatMap_modify (fun _ => rfl) dests, List.append_nil]
  rfl

/-- The tables and the sessions are those that the handler leaves, and the posts go where the
frames are queued. -/
theorem Represents.serve (h : Represents s a) (rest : Bytes) {r : Server × Message}
    (hr : s.dispatch c (parseMessage frame) o = r) (hacc : base.accounts = r.1.db.accounts)
    (hses : ∀ i, (r.1.slot i).Shows r.1.db (base.session i)) (hmail : base.mailbox = a.mailbox)
    {dests : Set Nat} {p : Reply} (hp : p.Fits)
    (hin : ∀ i ∈ dests, (s.entryOf c frame o).framesTo i = [p.wire])
    (hout : ∀ i, i ∉ dests → (s.entryOf c frame o).framesTo i = []) :
    Represents ((s.serveFrame c frame o).setIncoming c rest) (base.deliver dests p) := by
  subst hr
  refine ⟨?_, fun i => ?_, fun i => ?_, fun i q hq => ?_⟩
  · rw [db_serve]
    exact hacc
  · rw [db_serve, slot_serve]
    refine (hses i).congr ?_ ?_ (fun _ => ?_) List.prefix_rfl
    · dsimp only
      split <;> rfl
    · dsimp only
      split <;> rfl
    · dsimp only
      split <;> exact ⟨rfl, rfl⟩
  · rw [framesFor_serve, h.mailbox i]
    simp only [Chat.State.deliver, hmail, List.map_append]
    congr 1
    by_cases hi : i ∈ dests
    · rw [if_pos hi, hin i hi]
      rfl
    · rw [if_neg hi, hout i hi]
      rfl
  · simp only [Chat.State.deliver, hmail, List.mem_append] at hq
    obtain hq | hq := hq
    · exact h.fits i q hq
    · split at hq
      · rw [List.mem_singleton.mp hq]
        exact hp
      · cases hq

/-- A response that is not a broadcast goes back to the sender only. -/
theorem framesTo_response (h : ¬ ((s.entryOf c frame o).response.type = MsgType.chat.code ∧
    (s.entryOf c frame o).response.rc = 0)) {p : Reply}
    (hp : (s.entryOf c frame o).response = p.message) :
    (∀ i ∈ ({c} : Set Nat), (s.entryOf c frame o).framesTo i = [p.wire]) ∧
      ∀ i, i ∉ ({c} : Set Nat) → (s.entryOf c frame o).framesTo i = [] := by
  refine ⟨fun i hi => ?_, fun i hi => ?_⟩
  · rw [Served.framesTo, if_pos (show (s.entryOf c frame o).conn = i from hi.symm), hp]
    rfl
  · rw [Served.framesTo, if_neg (show ¬ (s.entryOf c frame o).conn = i from fun he => hi he.symm),
      if_neg fun hc => h ⟨hc.1, hc.2.1⟩]

/-- A granted request is what its type, its first tag and its parser say. -/
theorem event_granted (hrc : (s.entryOf c frame o).response.rc = 0) :
    (s.entryOf c frame o).event =
      let request := parseMessage frame
      if request.type = MsgType.register.code then
        (parseRegisterRequest request).toOption.map fun q => .register c q.username q.password
      else if request.type = MsgType.login.code then
        (parseLoginRequest request).toOption.map fun q => .login c q.username q.password
      else if peekBroadcastType request = TlvTag.p2pBroadcast.code then
        (parseP2pBroadcast request).toOption.map fun b =>
          .toOne c b.recipientUsername b.messageContent
      else (parseWorldBroadcast request).toOption.map fun b => .toAll c b.messageContent := by
  rw [Served.event, if_neg (not_not.mpr hrc)]
  rfl

/-- What granting or refusing a request comes to in the service. -/
def Simulates (s : Server) (c : Nat) (frame : Bytes) (o : SqlOutcome) (careful : Prop)
    (a : Service) (t : Server) : Prop :=
  ∃ e a', (s.entryOf c frame o).event = some e ∧ Chat.Step serverRules careful a e a' ∧
    Represents t a'

variable (h : Represents s a) {careful : Prop} (rest : Bytes)

include h

theorem simulates_rejected (hactive : a.session c ≠ .absent) {code : ResponseCode}
    (hcode : code ≠ .ok)
    (hr : s.dispatch c (parseMessage frame) o =
      (s, buildServerResponse (parseMessage frame).type code.code none 0)) :
    Simulates s c frame o careful a ((s.serveFrame c frame o).setIncoming c rest) := by
  have hresponse : (s.entryOf c frame o).response =
      Reply.message (.refused ((parseMessage frame).type, code)) := by
    rw [Server.entryOf, hr]
    rfl
  have hrc : (s.entryOf c frame o).response.rc = code.byte := by
    rw [hresponse]
    rfl
  have hne : (s.entryOf c frame o).response.rc ≠ 0 := by
    rw [hresponse]
    exact rc_header hcode
  obtain ⟨hin, hout⟩ := framesTo_response (fun hc => hne hc.2) hresponse
  refine ⟨.refuse c ((parseMessage frame).type, code), _, ?_, .refuse c _ hactive,
    h.serve rest hr h.accounts h.session rfl hcode hin hout⟩
  rw [Served.event, if_pos hne, hrc, ResponseCode.ofByte_byte]
  rfl

theorem simulates_registered (hdb : s.db.Numbered) (hactive : a.session c ≠ .absent)
    {credentials : Credentials} {user : User} {db : Db}
    (ht : (parseMessage frame).type = MsgType.register.code)
    (hp : parseRegisterRequest (parseMessage frame) = .ok credentials)
    (hfree : careful → ¬ s.db.Taken credentials.username)
    (hins : insertUser s.db ⟨0, credentials.username, credentials.password⟩ o = (0, user, db))
    (hr : s.dispatch c (parseMessage frame) o =
      (s.setDb db, .ofFields .register (userFields user))) :
    Simulates s c frame o careful a ((s.serveFrame c frame o).setIncoming c rest) := by
  obtain ⟨hfail, _⟩ | ⟨hfresh, hok⟩ :=
    insertUser_cases s.db ⟨0, credentials.username, credentials.password⟩ o
  · rw [hins] at hfail
    exact absurd hfail (show ¬ (0 : Int) = -1 by decide)
  rw [hins] at hok
  cases hok
  have hlength : a.accounts.length = s.db.seq := by
    rw [h.accounts, Db.accounts, List.length_map, hdb.seq]
  have hresponse : (s.entryOf c frame o).response =
      Reply.message (.registered (a.accounts.length + 1) credentials.username) := by
    rw [Server.entryOf, hr, hlength]
    rfl
  have hrc : (s.entryOf c frame o).response.rc = 0 := by
    rw [hresponse]
    rfl
  have hchat : ¬ (s.entryOf c frame o).response.type = MsgType.chat.code := by
    rw [hresponse]
    exact register_ne_chat
  obtain ⟨hin, hout⟩ := framesTo_response (fun hc => hchat hc.1) hresponse
  refine ⟨.register c credentials.username credentials.password, _, ?_,
    .register c _ _ hactive (fun b hb => ?_) (fun hc b hb => ?_), ?_⟩
  · simp only [event_granted hrc, if_pos ht, hp]
    rfl
  · rw [h.accounts] at hb
    obtain ⟨row, hrow, rfl⟩ := List.mem_map.mp hb
    exact hfresh row hrow
  · rw [h.accounts] at hb
    obtain ⟨row, hrow, rfl⟩ := List.mem_map.mp hb
    exact fun hm => hfree hc ⟨row, hrow, hm⟩
  · have hacc :
        (a.addAccount ⟨cString credentials.username, cString credentials.password⟩).accounts =
        Db.accounts ⟨s.db.rows ++ [⟨s.db.seq + 1, cString credentials.username,
          cString credentials.password⟩], s.db.seq + 1⟩ := by
      show a.accounts ++ _ = _
      rw [h.accounts, Db.accounts, Db.accounts, List.map_append]
      rfl
    refine h.serve rest hr hacc (fun i => ?_) rfl (parseCredentials_le hp).1 hin hout
    exact (h.session i).congr rfl rfl (fun _ => ⟨rfl, rfl⟩) (List.prefix_append _ _)

/-- The slot that is signed in becomes a member, and the others stay as they were. -/
theorem shows_signIn (hactive : a.session c ≠ .absent) {k : Nat} {row : Row}
    (hrow : s.db.rows[k]? = some row) (i : Nat) :
    ((s.signIn c ⟨UInt32.ofNat row.id, row.username, row.password⟩).slot i).Shows s.db
      ((a.setSession c (.member k)).session i) := by
  rw [slot_signIn]
  by_cases hi : i = c
  · subst hi
    have hsession : (a.setSession i (.member k)).session i = .member k :=
      Function.update_self ..
    rw [if_pos rfl, hsession]
    refine ⟨?_, ?_, _, hrow, rfl, rfl⟩
    · rw [hasFlag_or, ((h.session i).active).mpr hactive]
      rfl
    · rw [hasFlag_or]
      exact Bool.or_true _
  · have hsession : (a.setSession c (.member k)).session i = a.session i :=
      Function.update_of_ne hi ..
    rw [if_neg hi, hsession]
    exact h.session i

theorem simulates_loggedIn (hdb : InsertedOnly s.db) (hactive : a.session c ≠ .absent)
    {credentials : Credentials} {user : User}
    (ht : (parseMessage frame).type = MsgType.login.code)
    (hp : parseLoginRequest (parseMessage frame) = .ok credentials)
    (hu : getUserByUsername s.db (stringToLower credentials.username) .empty o = (1, user))
    (hpw : user.password = credentials.password)
    (hr : s.dispatch c (parseMessage frame) o =
      (s.signIn c user, .ofFields .login (userFields user))) :
    Simulates s c frame o careful a ((s.serveFrame c frame o).setIncoming c rest) := by
  obtain ⟨hlen, row, hfind, rfl⟩ := getUserByUsername_found hu
  obtain ⟨hmatch, k, hk, rfl, hfirst⟩ := List.find?_eq_some_iff_getElem.mp hfind
  -- The row is the account in the same place, whose name has no NUL.
  have hrow : s.db.rows[k]? = some s.db.rows[k] := List.getElem?_eq_getElem hk
  obtain ⟨hname, hkey⟩ := hdb.no_nul (List.getElem_mem hk)
  rw [cString_eq_self hname, cString_eq_self hkey] at hr
  rw [cString_eq_self hname] at hlen
  rw [cString_eq_self hkey] at hpw
  have haccount : ∀ (j : Nat) (row : Row), s.db.rows[j]? = some row →
      a.accounts[j]? = some row.account := by
    intro j row hj
    rw [h.accounts, Db.accounts, List.getElem?_map, hj]
    rfl
  have hmatches : ∀ row : Row, Chat.State.Matches serverRules credentials.username row.account ↔
      sqlLower row.username = cString (stringToLower credentials.username) := by
    intro row
    rw [cString_stringToLower]
    rfl
  have hresponse : (s.entryOf c frame o).response =
      Reply.message (.welcome (k + 1) s.db.rows[k].account.name) := by
    rw [Server.entryOf, hr, hdb.numbered.id k _ hrow]
    rfl
  have hrc : (s.entryOf c frame o).response.rc = 0 := by
    rw [hresponse]
    rfl
  have hchat : ¬ (s.entryOf c frame o).response.type = MsgType.chat.code := by
    rw [hresponse]
    exact login_ne_chat
  obtain ⟨hin, hout⟩ := framesTo_response (fun hc => hchat hc.1) hresponse
  refine ⟨.login c credentials.username credentials.password, _, ?_,
    .login c _ _ k _ hactive (haccount k _ hrow) ((hmatches _).mpr (by simpa using hmatch)) hpw ?_,
    ?_⟩
  · have hreg : ¬ (parseMessage frame).type = MsgType.register.code := by
      rw [ht]
      decide
    simp only [event_granted hrc, if_neg hreg, if_pos ht, hp]
    rfl
  · intro j hj b hb hm
    have hlt : j < s.db.rows.length := hj.trans hk
    rw [haccount j _ (List.getElem?_eq_getElem hlt)] at hb
    cases hb
    have hno := hfirst j hj
    simp only [Bool.not_eq_true', decide_eq_false_iff_not] at hno
    exact hno ((hmatches _).mp hm)
  · have hacc : (a.setSession c (.member k)).accounts = s.db.accounts := h.accounts
    refine h.serve rest hr hacc (fun i => ?_) rfl (hlen.trans (parseCredentials_le hp).1) hin hout
    exact shows_signIn h hactive hrow i

omit h in
theorem sameSessions_deliverAll (s : Server) (b : Bytes) {dests : List Nat} (hnd : dests.Nodup) :
    SameSessions s (s.deliverAll b dests) := by
  intro i
  rw [Server.slot_deliverAll _ _ _ hnd]
  split
  · exact ⟨isActive_nextFlags _ _, isAuth_nextFlags _ _, rfl, rfl⟩
  · exact ⟨rfl, rfl, rfl, rfl⟩

/-- The connections that are logged in are those of the members. -/
theorem mem_members_iff (hs : Tidy s) (i : Nat) :
    i ∈ a.members ↔ hasFlag (s.slot i).flags .isAuth = true :=
  ((h.session i).auth (hs.idle i)).symm

theorem isNamed_of_auth (hs : Tidy s) {i : Nat} (hi : hasFlag (s.slot i).flags .isAuth = true) :
    a.IsNamed i (s.slot i).username := by
  obtain ⟨k, hk⟩ := (mem_members_iff h hs i).mpr hi
  have hshows := h.session i
  rw [hk] at hshows
  obtain ⟨_, _, row, hrow, _, hname⟩ := hshows
  refine ⟨k, row.account, hk, ?_, hname.symm⟩
  rw [h.accounts, Db.accounts, List.getElem?_map, hrow]
  rfl

omit h in
/-- A broadcast that is granted is queued for its sender and for its recipients. -/
theorem framesTo_announced {m : Message} (hm : Announces s.view c (parseMessage frame) m)
    (hresponse : (s.entryOf c frame o).response = m) (i : Nat) :
    (s.entryOf c frame o).framesTo i =
      if c = i ∨ i ∈ s.view.recipients c (parseMessage frame) then [m.wire] else [] := by
  have hconn : (s.entryOf c frame o).conn = c := rfl
  have hview : (s.entryOf c frame o).view = s.view := rfl
  have hframe : (s.entryOf c frame o).frame = frame := rfl
  simp only [Served.framesTo, hresponse, hconn, hview, hframe, hm.type_rc.1, hm.type_rc.2,
    true_and]
  by_cases hi : c = i
  · rw [if_pos hi, if_pos (.inl hi)]
  · rw [if_neg hi]
    by_cases hrec : i ∈ s.view.recipients c (parseMessage frame)
    · rw [if_pos hrec, if_pos (.inr hrec)]
    · rw [if_neg hrec, if_neg (not_or.mpr ⟨hi, hrec⟩)]

/-- A world broadcast of a member goes to the members. -/
theorem world_reaches_members (hs : Tidy s) (ha : hasFlag (s.slot c).flags .isAuth = true)
    (hk : ¬ peekBroadcastType (parseMessage frame) = TlvTag.p2pBroadcast.code) (i : Nat) :
    (c = i ∨ i ∈ s.view.recipients c (parseMessage frame)) ↔ i ∈ a.members := by
  rw [mem_members_iff h hs, View.recipients, if_neg hk, View.mem_others]
  constructor
  · rintro (rfl | ⟨_, hi, _⟩)
    · exact ha
    · exact hi
  · intro hi
    by_cases hci : c = i
    · exact .inl hci
    · exact .inr ⟨hs.lt_size hi, hi, Ne.symm hci⟩

/-- A broadcast goes to the sender and to the recipients selected. -/
theorem simulates_announced (hs : Tidy s) (hn : s.NamesFit)
    (ht : (parseMessage frame).type = MsgType.chat.code)
    (ha : hasFlag (s.slot c).flags .isAuth = true) {m : Message}
    (hm : Announces s.view c (parseMessage frame) m)
    (hr : s.dispatch c (parseMessage frame) o =
      (s.deliverAll m.wire (s.view.recipients c (parseMessage frame)), m)) :
    Simulates s c frame o careful a ((s.serveFrame c frame o).setIncoming c rest) := by
  have hresponse : (s.entryOf c frame o).response = m := by
    rw [Server.entryOf, hr]
  have hrc : (s.entryOf c frame o).response.rc = 0 := by
    rw [hresponse]
    exact hm.type_rc.2
  have hreg : ¬ (parseMessage frame).type = MsgType.register.code := by
    rw [ht]
    decide
  have hlogin : ¬ (parseMessage frame).type = MsgType.login.code := by
    rw [ht]
    decide
  have hsender := isNamed_of_auth h hs ha
  have hacc : a.accounts =
      (s.deliverAll m.wire (s.view.recipients c (parseMessage frame))).db.accounts := by
    rw [(Server.deliverAll_frame _ _ _).1]
    exact h.accounts
  have hses : ∀ i, ((s.deliverAll m.wire (s.view.recipients c (parseMessage frame))).slot i).Shows
      (s.deliverAll m.wire (s.view.recipients c (parseMessage frame))).db (a.session i) := by
    intro i
    rw [(Server.deliverAll_frame _ _ _).1]
    obtain ⟨hactive, hauth, hid⟩ :=
      sameSessions_deliverAll s m.wire (View.nodup_recipients s.view c (parseMessage frame)) i
    exact (h.session i).congr hactive hauth (fun _ => hid) List.prefix_rfl
  have hframes := framesTo_announced hm hresponse
  cases hm with
  | @world b hk hp _ =>
    have hk2 : ¬ peekBroadcastType (parseMessage frame) = TlvTag.p2pBroadcast.code := by
      rw [hk]
      decide
    have hrec := world_reaches_members h hs ha hk2
    refine ⟨.toAll c b.messageContent, _, ?_, .toAll c _ _ hsender,
      h.serve rest hr hacc hses rfl ⟨hn c ha, parseWorldBroadcast_le hp⟩ (fun i hi => ?_)
        fun i hi => ?_⟩
    · simp only [event_granted hrc, if_neg hreg, if_neg hlogin, if_neg hk2, hp]
      rfl
    · rw [hframes, if_pos ((hrec i).mpr hi)]
      rfl
    · rw [hframes, if_neg fun hc => hi ((hrec i).mp hc)]
  | @p2p b d hk hp _ hne hd =>
    obtain ⟨hother, hname, _⟩ := recipients_p2p hk hp hd
    obtain ⟨_, hauth, hcd⟩ := View.mem_others.mp hother
    have hrecipient := isNamed_of_auth h hs hauth
    rw [show (s.slot d).username = b.recipientUsername from hname] at hrecipient
    have hrec : ∀ i, (c = i ∨ i ∈ s.view.recipients c (parseMessage frame)) ↔
        i ∈ ({c, d} : Set Nat) := by
      intro i
      rw [hd, List.mem_singleton, eq_comm (a := c)]
      rfl
    refine ⟨.toOne c b.recipientUsername b.messageContent, _, ?_,
      .toOne c d _ _ _ hsender hrecipient (Ne.symm hcd) hne,
      h.serve rest hr hacc hses rfl ⟨hn c ha, parseP2pBroadcast_le hp⟩ (fun i hi => ?_)
        fun i hi => ?_⟩
    · simp only [event_granted hrc, if_neg hreg, if_neg hlogin, if_pos hk, hp]
      rfl
    · rw [hframes, if_pos ((hrec i).mpr hi)]
      rfl
    · rw [hframes, if_neg fun hc => hi ((hrec i).mp hc)]

end Serve

/-! ## Steps and runs -/

section Runs

variable {s t : Server} {c : Nat} {a : Service} {careful : Prop}

theorem isAuth_initial : hasFlag (.isActive ||| .wantRead) .isAuth = false := by decide

theorem Represents.connect (h : Represents s a) (hs : Tidy s) :
    Represents ((s.sys (.add c .input)).activate c) (a.setSession c .guest) := by
  have hdb : ((s.sys (.add c .input)).activate c).db = s.db := db_connect (s.sys (.add c .input)) c
  refine ⟨hdb ▸ h.accounts, fun i => ?_, fun i => ?_, h.fits⟩
  · rw [hdb, slot_connect]
    by_cases hi : i = c
    · subst hi
      have hsession : (a.setSession i .guest).session i = .guest := Function.update_self ..
      rw [if_pos rfl, hsession]
      exact ⟨isActive_initial, isAuth_initial⟩
    · have hsession : (a.setSession c .guest).session i = a.session i :=
        Function.update_of_ne hi ..
      rw [if_neg hi, hsession]
      obtain ⟨hflags, _⟩ := hs.slot_grow c i
      refine (h.session i).congr (by rw [hflags]) (by rw [hflags]) (fun hactive => ?_)
        List.prefix_rfl
      -- A slot in use is in front of the end of the table, which is not touched.
      have hlt := hs.lt_size hactive
      have hsame : (s.grow c).slot i = s.slot i := by
        rw [slot_grow, if_neg]
        rintro ⟨_, h⟩
        omega
      rw [hsame]
      exact ⟨rfl, rfl⟩
  · rw [log_connect, framesFor_append]
    show framesFor i s.log ++ [] = _
    rw [List.append_nil]
    exact h.mailbox i

theorem Represents.remove (h : Represents s a) :
    Represents (s.removeConnection c) (a.setSession c .absent) := by
  refine ⟨h.accounts, fun i => ?_, fun i => ?_, h.fits⟩
  · rw [slot_removeConnection]
    by_cases hi : i = c
    · subst hi
      have hsession : (a.setSession i .absent).session i = .absent := Function.update_self ..
      rw [if_pos rfl, hsession]
      exact hasFlag_none _
    · have hsession : (a.setSession c .absent).session i = a.session i :=
        Function.update_of_ne hi ..
      rw [if_neg hi, hsession]
      exact h.session i
  · have hlog : (s.removeConnection c).log = s.log ++ [.sys (.delete c)] := rfl
    rw [hlog, framesFor_append]
    show framesFor i s.log ++ [] = _
    rw [List.append_nil]
    exact h.mailbox i

theorem Represents.serves (h : Represents s a) (hs : Tidy s) (hn : s.NamesFit)
    (hdb : InsertedOnly s.db)
    (hr : hasFlag (s.slot c).flags .wantRead = true) {frame : Bytes} {o : SqlOutcome}
    (ho : careful → o.StepReported) (rest : Bytes) :
    Simulates s c frame o careful a ((s.serveFrame c frame o).setIncoming c rest) := by
  have hactive := ((h.session c).active).mp (hs.active hr)
  have hd := dispatch_handled s c (parseMessage frame) o
  generalize hres : s.dispatch c (parseMessage frame) o = r at hd
  cases hd with
  | rejected code hcode => exact simulates_rejected h rest hactive hcode hres
  | registered ht hp hfound hins =>
    exact simulates_registered h rest hdb.numbered hactive ht hp
      (fun hc => not_taken_of_rc (ho hc) hfound) hins hres
  | loggedIn ht hp hu hpw => exact simulates_loggedIn h rest hdb hactive ht hp hu hpw hres
  | announced ht ha hm => exact simulates_announced h rest hs hn ht ha hm hres

/-- A step is no event of the service, or one step of it. -/
theorem Step.simulates (hst : Step c s t) (hs : Tidy s) (hn : s.NamesFit)
    (hdb : InsertedOnly s.db)
    (h : Represents s a) (hcareful : careful → ∀ r, .served r ∈ t.log → r.sql.StepReported) :
    (Represents t a ∧ t.events = s.events) ∨ ∃ e a', t.events = s.events ++ [e] ∧
      Chat.Step serverRules careful a e a' ∧ Represents t a' := by
  cases hst with
  | @call k hk => exact .inl (h.call (by cases hk <;> rfl))
  | halt => exact .inl ⟨⟨h.accounts, h.session, h.mailbox, h.fits⟩, rfl⟩
  | connect =>
    refine .inr ⟨.connect c, _, ?_, .connect c, h.connect hs⟩
    exact events_append _ (log_connect s c)
  | receive b bs =>
    left
    refine h.quiet [.sys (.read c (.bytes (b :: bs)))] rfl rfl rfl (fun _ => rfl) fun i => ?_
    rw [slot_receive]
    split <;> exact ⟨rfl, rfl, rfl, rfl⟩
  | @serve n o hr _ =>
    right
    obtain ⟨dests, hlog⟩ := log_serve s c ((s.slot c).incoming.take n)
      ((s.slot c).incoming.drop n) o
    have ho : careful → o.StepReported := fun hc => hcareful hc _ (by
      rw [hlog]
      exact List.mem_append_right _ (List.mem_singleton_self _))
    obtain ⟨e, a', he, hstep, hrep⟩ := h.serves hs hn hdb hr ho ((s.slot c).incoming.drop n)
    refine ⟨e, a', ?_, hstep, hrep⟩
    rw [events_serve, he]
    rfl
  | closing => exact .inl (h.setConnectionState c .closing)
  | writing => exact .inl (h.setConnectionState c .writing)
  | write n =>
    left
    refine h.quiet [.sys (.write c (.bytes ((s.slot c).outgoing.take n)))] rfl rfl rfl
      (fun _ => rfl) fun i => ?_
    rw [slot_written]
    split <;> exact ⟨rfl, rfl, rfl, rfl⟩
  | reading => exact .inl (h.setConnectionState c .reading)
  | remove =>
    refine .inr ⟨.leave c, _, ?_, .leave c, h.remove⟩
    exact events_append [.sys (.delete c)] rfl

theorem represents_boot (capacity listenfd : Nat) (db : Db) :
    Represents (Server.boot capacity listenfd db) (Chat.start db.accounts) where
  accounts := rfl
  session _ := hasFlag_none .isActive
  mailbox _ := rfl
  fits _ _ h := by cases h

theorem Steps.represents {capacity listenfd : Nat} {db : Db} (hdb : InsertedOnly db)
    (h : Steps (Server.boot capacity listenfd db) s)
    (hcareful : careful → ∀ r, .served r ∈ s.log → r.sql.StepReported) :
    ∃ a, Chat.Run serverRules careful (Chat.start db.accounts) s.events a ∧ Represents s a := by
  induction h with
  | refl => exact ⟨_, .nil, represents_boot capacity listenfd db⟩
  | @tail s t hsteps hst ih =>
    obtain ⟨c, hst⟩ := hst
    have hgrow := hst.log_grows
    obtain ⟨a, hrun, hrep⟩ := ih fun hc r hr => hcareful hc r (hgrow.subset hr)
    obtain ⟨hrep', hevents⟩ | ⟨e, a', hevents, hstep, hrep'⟩ :=
      hst.simulates (Steps.tidy hsteps) (Steps.namesFit hsteps) (Steps.signedIn hdb hsteps).1 hrep
        hcareful
    · exact ⟨a, hevents ▸ hrun, hrep'⟩
    · exact ⟨a', hevents ▸ hrun.snoc hstep, hrep'⟩

end Runs

/-- Every run of the server, with any events and any outcomes of its system calls and SQLite
calls, is a run of the chat service, whose events are those of the history. The service is
careful if no look-up failed at its step. -/
theorem server_refines_chat {capacity listenfd : Nat} {db : Db} {s : Server}
    (hdb : InsertedOnly db) (h : Reaches (Server.boot capacity listenfd db) s) :
    ∃ a, Chat.Run serverRules (∀ r, .served r ∈ s.log → r.sql.StepReported)
      (Chat.start db.accounts) s.events a ∧ Represents s a :=
  h.steps.represents hdb id

theorem server_refines_chat_twoSignedIn :
    let s := (Server.boot 8 3 .empty).iterate twoSignedIn
    s.events = [.connect 5, .connect 6, .register 5 [97] [97], .login 5 [97] [97],
        .register 6 [98] [98], .login 6 [98] [98]] ∧
      ∃ a, Chat.Run serverRules (∀ r, .served r ∈ s.log → r.sql.StepReported)
        (Chat.start []) s.events a ∧ Represents s a := by
  intro s
  exact ⟨by rfl, server_refines_chat .empty reaches_twoSignedIn⟩

/-! ## What the service keeps, of the server -/

theorem InsertedOnly.distinct {db : Db} (h : InsertedOnly db) {careful : Prop}
    (hno : ¬ careful) : Chat.Distinct serverRules careful db.accounts := by
  refine ⟨?_, fun hc => absurd hc hno⟩
  induction h with
  | empty => exact List.nodup_nil
  | @insert db user o _ ih =>
    obtain ⟨_, hdb⟩ | ⟨hfresh, hdb⟩ := insertUser_cases db user o
    · rwa [hdb]
    · rw [hdb]
      have hadd : Db.accounts ⟨db.rows ++ [⟨db.seq + 1, cString user.username,
          cString user.password⟩], db.seq + 1⟩ =
          db.accounts ++ [⟨cString user.username, cString user.password⟩] :=
        List.map_append
      show ((Db.accounts ⟨db.rows ++ [_], _⟩).map Chat.Account.name).Nodup
      rw [hadd]
      refine Chat.nodup_map_append ih fun b hb => ?_
      obtain ⟨row, hrow, rfl⟩ := List.mem_map.mp hb
      exact hfresh row hrow

/-- The identity shown on a connection is that of a row of the table as it stands, whatever was
registered since; and all that was ever queued for any connection refers to rows of the table:
the ids and names of its responses, the senders and recipients of its broadcasts. Rows are
numbered from one and never lost, and no two have one username. -/
theorem identities_refer_to_rows {capacity listenfd : Nat} {db : Db} {s : Server}
    (hdb : InsertedOnly db) (h : Reaches (Server.boot capacity listenfd db) s) :
    (∀ i, hasFlag (s.slot i).flags .isAuth = true → ∃ k row, s.db.rows[k]? = some row ∧
      row.id = k + 1 ∧ (s.slot i).userId = UInt32.ofNat (k + 1) ∧
      (s.slot i).username = row.username) ∧
    (∀ i, ∃ ps : List Reply, s.emitted i = (ps.map Reply.wire).flatten ∧
      ∀ p ∈ ps, Chat.Backed serverRules s.db.accounts p) ∧
    db.accounts <+: s.db.accounts ∧ (s.db.accounts.map Chat.Account.name).Nodup := by
  obtain ⟨a, hrun, hrep⟩ :=
    (h.steps.represents hdb False.elim : ∃ a, Chat.Run serverRules False _ _ a ∧ _)
  have hsound := hrun.sound
  have hnumbered := (Steps.signedIn hdb h.steps).1.numbered
  have htidy := h.steps.tidy
  refine ⟨fun i hi => ?_, fun i => ⟨a.mailbox i, ?_, ?_⟩, ?_, ?_⟩
  · obtain ⟨k, hk⟩ := (mem_members_iff hrep htidy i).mpr hi
    have hshows := hrep.session i
    rw [hk] at hshows
    obtain ⟨_, _, row, hrow, hid, hname⟩ := hshows
    refine ⟨k, row, hrow, hnumbered.id k row hrow, ?_, hname⟩
    rw [hid, hnumbered.id k row hrow]
  · rw [(h.steps.whole i).1.1, hrep.mailbox]
  · rw [← hrep.accounts]
    exact hsound.backed i
  · rw [← hrep.accounts]
    exact hrun.accounts_grow
  · rw [← hrep.accounts]
    exact (hrun.distinct (hdb.distinct not_false)).names

theorem identities_refer_to_rows_twoSignedIn :
    let s := (Server.boot 8 3 .empty).iterate twoSignedIn
    hasFlag (s.slot 6).flags .isAuth = true ∧
      ∃ k row, s.db.rows[k]? = some row ∧ row.id = k + 1 ∧
        (s.slot 6).userId = UInt32.ofNat (k + 1) ∧ (s.slot 6).username = row.username := by
  intro s
  have hauth : hasFlag (s.slot 6).flags .isAuth = true := by decide +kernel
  exact ⟨hauth, (identities_refer_to_rows .empty reaches_twoSignedIn).1 6 hauth⟩

end ChatServer
