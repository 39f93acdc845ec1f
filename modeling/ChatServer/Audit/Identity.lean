import ChatServer.Audit.History

/-!
# Who a connection has signed in as

The history names, for each slot, the latest successful login since the slot was last
given to a connection. The three arrays that hold a connection's identity agree with it
while the sign-in flag is set, although stale names stay behind in freed slots.
-/

namespace ChatServer

open EdgeTrigger (Errno Rv Interest Syscall)

/-- The request was a login and was answered `RESP_OK`. -/
def Served.isLogin (r : Served) : Bool :=
  r.response.type == MsgType.login.code && r.response.rc == 0

def Entry.login (i : Nat) (last : Option Served) : Entry → Option Served
  | .sys (.add d _) => if d = i then none else last
  | .sys _ => last
  | .served r => if r.conn = i ∧ r.isLogin = true then some r else last

/-- The latest successful login on slot `i` since a connection was last added there. -/
def lastLogin (i : Nat) (log : List Entry) : Option Served := log.foldl (Entry.login i) none

/-- The login was granted by this row of the table: the one found for the username of
the request, with the password of the request. -/
def Served.GrantedBy (r : Served) (row : Row) : Prop :=
  ∃ credentials, parseLoginRequest (parseMessage r.frame) = .ok credentials ∧
    r.view.db.rows.find? (fun row => sqlLower row.username =
      cString (stringToLower credentials.username)) = some row ∧
    row.password = credentials.password

section LastLogin

variable (i : Nat) (log : List Entry)

theorem lastLogin_append (es : List Entry) :
    lastLogin i (log ++ es) = es.foldl (Entry.login i) (lastLogin i log) := List.foldl_append

theorem lastLogin_modify (dests : List Nat) :
    lastLogin i (log ++ dests.map fun d => .sys (.modify d .output)) = lastLogin i log := by
  rw [lastLogin_append]
  induction dests with
  | nil => rfl
  | cons d dests ih => exact ih

theorem lastLogin_serve (s : Server) (c : Nat) (frame rest : Bytes) (o : SqlOutcome) :
    lastLogin i ((s.serveFrame c frame o).setIncoming c rest).log =
      Entry.login i (lastLogin i s.log)
        (.served ⟨c, frame, (s.dispatch c (parseMessage frame) o).2, s.view, o⟩) := by
  obtain ⟨dests, hlog⟩ := log_serve s c frame rest o
  rw [hlog, lastLogin_append, lastLogin_modify]
  rfl

end LastLogin

/-- Only a login is answered as one. -/
theorem Handled.isLogin {s : Server} {c : Nat} {frame : Bytes} {o : SqlOutcome}
    {r : Server × Message} (h : Handled s c (parseMessage frame) o r) :
    (Served.isLogin ⟨c, frame, r.2, s.view, o⟩ = false ∧
      (r.1.slot c).username = (s.slot c).username ∧ (r.1.slot c).userId = (s.slot c).userId ∧
      (r.1.slot c).flags = (s.slot c).flags) ∨
    Served.isLogin ⟨c, frame, r.2, s.view, o⟩ = true ∧
      ∃ credentials user, parseLoginRequest (parseMessage frame) = .ok credentials ∧
        getUserByUsername s.db (stringToLower credentials.username) .empty o = (1, user) ∧
        user.password = credentials.password ∧
        (r.1.slot c).username = user.username ∧ (r.1.slot c).userId = user.userId := by
  cases h with
  | rejected code hc =>
    refine .inl ⟨?_, rfl, rfl, rfl⟩
    rw [Served.isLogin, Bool.and_eq_false_iff]
    exact .inr (by simpa using rc_header hc)
  | registered => exact .inl ⟨rfl, rfl, rfl, rfl⟩
  | @loggedIn credentials user _ hp hu hpw =>
    refine .inr ⟨rfl, credentials, user, hp, hu, hpw, ?_⟩
    rw [slot_signIn, if_pos rfl]
    exact ⟨rfl, rfl⟩
  | announced _ _ hm =>
    left
    rw [Server.slot_deliverAll _ _ _ (View.nodup_recipients _ _ _),
      if_neg (not_mem_recipients _ _ _)]
    refine ⟨?_, rfl, rfl, rfl⟩
    rw [Served.isLogin, hm.type_rc.1]
    rfl

/-- What signs a slot in: a successful login on it, with the user that was found. -/
def SignsIn (s t : Server) (i : Nat) : Prop :=
  ∃ frame o response credentials user,
    lastLogin i t.log = some ⟨i, frame, response, s.view, o⟩ ∧
    parseLoginRequest (parseMessage frame) = .ok credentials ∧
    getUserByUsername s.db (stringToLower credentials.username) .empty o = (1, user) ∧
    user.password = credentials.password ∧
    (t.slot i).username = user.username ∧ (t.slot i).userId = user.userId

/-- The slot was signed in before, under the same account. -/
def StaysSignedIn (s t : Server) (i : Nat) : Prop :=
  hasFlag (s.slot i).flags .isAuth = true ∧ lastLogin i t.log = lastLogin i s.log ∧
    (t.slot i).username = (s.slot i).username ∧ (t.slot i).userId = (s.slot i).userId

section Identity

variable {s : Server} {c i : Nat}

theorem serve_identity {frame rest : Bytes} {o : SqlOutcome}
    (ha : hasFlag (((s.serveFrame c frame o).setIncoming c rest).slot i).flags .isAuth = true) :
    StaysSignedIn s ((s.serveFrame c frame o).setIncoming c rest) i ∨
      SignsIn s ((s.serveFrame c frame o).setIncoming c rest) i := by
  have hd := dispatch_handled s c (parseMessage frame) o
  unfold StaysSignedIn SignsIn
  rw [lastLogin_serve]
  by_cases hi : i = c
  · subst hi
    rw [slot_serve, if_pos rfl] at ha ⊢
    rcases hd.isLogin with ⟨hno, h1, h2, h3⟩ | ⟨hyes, credentials, user, hp, hu, hpw, h1, h2⟩
    · refine .inl ⟨h3 ▸ ha, ?_, h1, h2⟩
      rw [Entry.login, hno]
      exact if_neg fun h => absurd h.2 (by decide)
    · refine .inr ⟨frame, o, (s.dispatch i (parseMessage frame) o).2, credentials, user, ?_,
        hp, hu, hpw, h1, h2⟩
      rw [Entry.login, hyes]
      exact if_pos ⟨rfl, rfl⟩
  · rw [slot_serve, if_neg hi] at ha ⊢
    have hlast : Entry.login i (lastLogin i s.log)
        (.served ⟨c, frame, (s.dispatch c (parseMessage frame) o).2, s.view, o⟩) =
        lastLogin i s.log := if_neg fun h => hi h.1.symm
    rcases hd.slot_other hi with h | ⟨_, h⟩
    · rw [h] at ha ⊢
      exact .inl ⟨ha, hlast, rfl, rfl⟩
    · rw [h] at ha ⊢
      exact .inl ⟨(isAuth_nextFlags _ _).symm.trans ha, hlast, rfl, rfl⟩

theorem connect_identity (hs : Tidy s)
    (ha : hasFlag (((s.sys (.add c .input)).activate c).slot i).flags .isAuth = true) :
    StaysSignedIn s ((s.sys (.add c .input)).activate c) i := by
  unfold StaysSignedIn
  rw [slot_connect] at ha ⊢
  split at ha
  · have hno : hasFlag (.isActive ||| .wantRead) .isAuth = false := by decide
    exact absurd (hno.symm.trans ha) (by decide)
  · rename_i hi
    rw [if_neg hi]
    have hold := (hs.slot_grow c i).1
    rw [hold] at ha
    have hlt := hs.lt_size ha
    have hsame : (s.grow c).slot i = s.slot i := by
      rw [slot_grow, if_neg]
      rintro ⟨_, h⟩
      omega
    refine ⟨ha, ?_, by rw [hsame], by rw [hsame]⟩
    rw [log_connect, lastLogin_append]
    exact if_neg (Ne.symm hi)

theorem setConnectionState_identity {next : ConnState}
    (ha : hasFlag ((s.setConnectionState c next).slot i).flags .isAuth = true) :
    StaysSignedIn s (s.setConnectionState c next) i := by
  obtain ⟨_, _, hid, hname, hauth⟩ := s.setConnectionState_keeps c i next
  refine ⟨hauth.symm.trans ha, ?_, hname, hid⟩
  cases next with
  | reading => exact lastLogin_append i s.log _
  | writing => exact lastLogin_append i s.log _
  | closing => rfl

/-- A slot that is signed in after a step was so before, under the same account, or the
step was a successful login on it. -/
theorem Step.identity {t : Server} (hst : Step c s t) (hs : Tidy s)
    (ha : hasFlag (t.slot i).flags .isAuth = true) : StaysSignedIn s t i ∨ SignsIn s t i := by
  cases hst with
  | @call k hk =>
    refine .inl ⟨ha, ?_, rfl, rfl⟩
    cases hk <;> exact lastLogin_append i s.log _
  | halt => exact .inl ⟨ha, rfl, rfl, rfl⟩
  | connect => exact .inl (connect_identity hs ha)
  | receive b bs =>
    unfold StaysSignedIn
    rw [slot_receive] at ha ⊢
    refine .inl ⟨?_, lastLogin_append i s.log _, ?_, ?_⟩
    · split at ha <;> exact ha
    · split <;> rfl
    · split <;> rfl
  | serve o => exact serve_identity ha
  | closing => exact .inl (setConnectionState_identity ha)
  | writing => exact .inl (setConnectionState_identity ha)
  | write n =>
    unfold StaysSignedIn
    rw [slot_written] at ha ⊢
    refine .inl ⟨?_, lastLogin_append i s.log _, ?_, ?_⟩
    · split at ha <;> exact ha
    · split <;> rfl
    · split <;> rfl
  | reading => exact .inl (setConnectionState_identity ha)
  | remove =>
    unfold StaysSignedIn
    rw [slot_removeConnection] at ha ⊢
    split at ha
    · rw [hasFlag_none] at ha
      exact absurd ha (by decide)
    · rename_i hi
      rw [if_neg hi]
      exact .inl ⟨ha, lastLogin_append i s.log _, rfl, rfl⟩

end Identity

/-! ## The user table -/

/-- A table that holds only rows inserted by `insert_user`. -/
inductive InsertedOnly : Db → Prop where
  | empty : InsertedOnly .empty
  | insert {db} (user o) : InsertedOnly db → InsertedOnly (insertUser db user o).2.2

/-- Such rows were bound as C strings and hold no NUL. -/
theorem InsertedOnly.no_nul {db : Db} (h : InsertedOnly db) {row : Row} (hrow : row ∈ db.rows) :
    0 ∉ row.username ∧ 0 ∉ row.password := by
  induction h with
  | empty => exact absurd hrow List.not_mem_nil
  | @insert db user o _ ih =>
    rcases insertUser_cases db user o with ⟨_, hdb⟩ | ⟨_, hdb⟩
    · rw [hdb] at hrow
      exact ih hrow
    · rw [hdb] at hrow
      rcases List.mem_append.mp hrow with h | h
      · exact ih h
      · obtain rfl := List.mem_singleton.mp h
        exact ⟨zero_not_mem_cString _, zero_not_mem_cString _⟩

/-- Only a registration changes the table, by an insertion. -/
theorem Handled.db {s : Server} {c : Nat} {request : Message} {o : SqlOutcome}
    {r : Server × Message} (h : Handled s c request o r) :
    r.1.db = s.db ∨ ∃ user, r.1.db = (insertUser s.db user o).2.2 := by
  cases h with
  | rejected => exact .inl rfl
  | @registered credentials user db _ _ _ hins =>
    refine .inr ⟨⟨0, credentials.username, credentials.password⟩, ?_⟩
    rw [hins]
    rfl
  | loggedIn => exact .inl rfl
  | announced => exact .inl (s.deliverAll_frame _ _).1

/-- The table only changes by insertions. -/
theorem Step.db {s t : Server} {c : Nat} (hst : Step c s t) :
    t.db = s.db ∨ ∃ user o, t.db = (insertUser s.db user o).2.2 := by
  rcases hst.log with ⟨_, _, h⟩ | ⟨n, o, _, _, rfl⟩
  · exact .inl h
  · have hd := dispatch_handled s c (parseMessage ((s.slot c).incoming.take n)) o
    rw [db_serve]
    rcases hd.db with h | ⟨user, h⟩
    · exact .inl h
    · exact .inr ⟨user, o, h⟩

theorem Step.insertedOnly {s t : Server} {c : Nat} (hst : Step c s t) (hs : InsertedOnly s.db) :
    InsertedOnly t.db := by
  rcases hst.db with h | ⟨user, o, h⟩
  · rw [h]
    exact hs
  · rw [h]
    exact .insert user o hs

/-! ## What the sign-in flag stands for -/

/-- A user found under a name is a row of the table, and its name is no longer. -/
theorem getUserByUsername_found {db : Db} {name : Bytes} {user : User} {o : SqlOutcome}
    (h : getUserByUsername db (stringToLower name) .empty o = (1, user)) :
    user.username.length ≤ name.length ∧
      ∃ row, db.rows.find? (fun row => sqlLower row.username = cString (stringToLower name)) =
        some row ∧ user = ⟨UInt32.ofNat row.id, cString row.username, cString row.password⟩ := by
  rcases getUserByUsername_cases db (stringToLower name) .empty o with hf | hf | ⟨row, hrow, hf⟩
  · rw [h] at hf
    simp at hf
  · rw [h] at hf
    simp at hf
  · rw [h] at hf
    obtain rfl := (Prod.ext_iff.mp hf).2
    refine ⟨?_, row, hrow, rfl⟩
    have heq : sqlLower row.username = cString (stringToLower name) := by
      simpa using List.find?_some hrow
    have hlen : row.username.length = (cString (stringToLower name)).length := by
      rw [← heq, sqlLower_eq, length_stringToLower]
    have h1 := length_cString_le row.username
    have h2 := length_cString_le (stringToLower name)
    rw [length_stringToLower] at h2
    show (cString row.username).length ≤ name.length
    omega

/-- The name of a connection that has signed in fits its field. -/
def Server.NamesFit (s : Server) : Prop :=
  ∀ i, hasFlag (s.slot i).flags .isAuth = true → (s.slot i).username.length ≤ MAX_USERNAME_SIZE

theorem Step.namesFit {s t : Server} {c : Nat} (hst : Step c s t) (hs : Tidy s) (hn : s.NamesFit) :
    t.NamesFit := by
  intro i ha
  rcases hst.identity hs ha with ⟨h1, _, h2, _⟩ |
    ⟨_, _, _, credentials, user, _, hp, hu, _, h2, _⟩
  · rw [h2]
    exact hn i h1
  · rw [h2]
    exact Nat.le_trans (getUserByUsername_found hu).1 (parseCredentials_le hp).1

/-- The slot holds the account of its latest login. -/
def Server.SignedIn (s : Server) (i : Nat) : Prop :=
  ∃ r row, lastLogin i s.log = some r ∧ r.GrantedBy row ∧
    (s.slot i).userId = UInt32.ofNat row.id ∧ (s.slot i).username = row.username

theorem Step.signedIn {s t : Server} {c : Nat} (hst : Step c s t) (hs : Tidy s)
    (hdb : InsertedOnly s.db)
    (hin : ∀ i, hasFlag (s.slot i).flags .isAuth = true → s.SignedIn i) (i : Nat)
    (ha : hasFlag (t.slot i).flags .isAuth = true) : t.SignedIn i := by
  rcases hst.identity hs ha with ⟨h1, hlog, h2, h3⟩ |
    ⟨frame, _, response, credentials, user, hlog, hp, hu, hpw, h2, h3⟩
  · unfold Server.SignedIn
    rw [hlog, h2, h3]
    exact hin i h1
  · obtain ⟨_, row, hrow, rfl⟩ := getUserByUsername_found hu
    have hnul := hdb.no_nul (List.mem_of_find?_eq_some hrow)
    refine ⟨_, row, hlog, ⟨credentials, hp, hrow, ?_⟩, h3, ?_⟩
    · rw [← hpw]
      exact (cString_eq_self hnul.2).symm
    · rw [h2]
      exact cString_eq_self hnul.1

section Runs

variable {capacity listenfd : Nat} {db : Db} {s : Server}

theorem Steps.namesFit (h : Steps (Server.boot capacity listenfd db) s) : s.NamesFit := by
  have hinv : Tidy s ∧ s.NamesFit := by
    refine h.preserves (P := fun s => Tidy s ∧ s.NamesFit) ?_
      ⟨tidy_boot _ _ _, fun i hi => absurd ((hasFlag_none _).symm.trans hi) (by decide)⟩
    rintro c s t hst ⟨hs, hn⟩
    exact ⟨hs.step hst, hst.namesFit hs hn⟩
  exact hinv.2

theorem Steps.signedIn (hdb : InsertedOnly db) (h : Steps (Server.boot capacity listenfd db) s) :
    InsertedOnly s.db ∧ ∀ i, hasFlag (s.slot i).flags .isAuth = true → s.SignedIn i := by
  have hinv : Tidy s ∧ InsertedOnly s.db ∧
      ∀ i, hasFlag (s.slot i).flags .isAuth = true → s.SignedIn i := by
    refine h.preserves (P := fun s => Tidy s ∧ InsertedOnly s.db ∧
      ∀ i, hasFlag (s.slot i).flags .isAuth = true → s.SignedIn i) ?_
      ⟨tidy_boot _ _ _, hdb, fun i hi => absurd ((hasFlag_none _).symm.trans hi) (by decide)⟩
    rintro c s t hst ⟨hs, hi, hn⟩
    exact ⟨hs.step hst, hst.insertedOnly hi, hst.signedIn hs hi hn⟩
  exact hinv.2

end Runs

end ChatServer
