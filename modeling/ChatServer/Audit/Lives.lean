import ChatServer.Audit.Pending
import ChatServer.Audit.Startup
import ChatServer.Audit.Usernames

/-!
# One server after another

The tables are files, and outlive the servers that work on them. A server is started in a directory
with any arguments, gets as far as its calls let it, serves whatever comes, and ends at any moment,
by itself, by a kill or through its signal handler; then the next is started there. What was
registered holds for all of them, unless a handler removes the test table. A server that dies in a
registration, behind the insertion and in front of the answer, leaves a row that nobody was told of.
-/

namespace ChatServer

/-! ## The directory -/

/-- A request that a server took from a client and to the table: it was answered, or was cut off by
the death of the server before its answer was queued. -/
inductive Turn where
  | answered (r : Served)
  | cut (r : Served)

/-- Of a request that was cut off, the response is the one that was to be queued. -/
def Turn.request : Turn → Served
  | .answered r => r
  | .cut r => r

/-- The two tables, if there are such; beside each, the requests taken to it since it was made. -/
structure Directory where
  table : DbFile → Option Db
  history : DbFile → List Turn

namespace Directory

/-- No table was made yet. -/
def empty : Directory := ⟨fun _ => none, fun _ => []⟩

def set (d : Directory) (path : DbFile) (db : Option Db) (history : List Turn) : Directory :=
  ⟨Function.update d.table path db, Function.update d.history path history⟩

section Set

variable (d : Directory) (path p : DbFile) (db : Option Db) (history : List Turn)

@[simp] theorem table_set : (d.set path db history).table p = if p = path then db else d.table p :=
  Function.update_apply ..

@[simp] theorem history_set :
    (d.set path db history).history p = if p = path then history else d.history p :=
  Function.update_apply ..

end Set

/-- `CREATE TABLE IF NOT EXISTS` keeps a table that there is. -/
def after (d : Directory) : Call → Directory
  | .createTable path => d.set path (some ((d.table path).getD .empty)) (d.history path)
  | .removeTestDb => d.set .test none []
  | _ => d

/-- A server has worked on the table. -/
def serve (d : Directory) (path : DbFile) (s : Server) : Directory :=
  d.set path (some s.db) (d.history path ++ (servedIn s.log).map .answered)

/-- Then it took this request to the table, and answered it no more. -/
def cutOff (d : Directory) (path : DbFile) (s : Server) (connfd : Nat) (frame : Bytes)
    (o : SqlOutcome) : Directory :=
  let handled := s.dispatch connfd (parseMessage frame) o
  d.set path (some handled.1.db)
    (d.history path ++ [.cut ⟨connfd, frame, handled.2, s.view, o⟩])

end Directory

/-- A server that is started in `d` gets to its loop, with the table of this path. -/
inductive Boots (d : Directory) : Directory → DbFile → Db → Nat → Prop where
  | main {a port isTest logging sc listenfd db d'} :
      (serverMain [a, port, isTest, logging] sc).result = .ok listenfd →
      d' = (serverMain [a, port, isTest, logging] sc).calls.foldl Directory.after d →
      d'.table (.ofTest (atoi isTest)) = some db → Boots d d' (.ofTest (atoi isTest)) db listenfd

/-- A moment in the life of a server that is started in `d`, in front of its loop, between two
events or between two requests, or in a request, between its dealing with the table and the
queueing of the response: what is in the directory then, and the global `listenfd`. -/
inductive Moment (d : Directory) : Directory → Option Nat → Prop where
  | starting (argv sc) {calls} : calls <+: (serverMain argv sc).calls →
      Moment d (calls.foldl Directory.after d) (calls.foldl Process.after .start).listenfd
  | serving {d' path db listenfd s} : Boots d d' path db listenfd →
      (Reaches (Server.boot INITIAL_CAPACITY listenfd db) s ∨
        ∃ c, AtRequest (Server.boot INITIAL_CAPACITY listenfd db) c s) →
      Moment d (d'.serve path s) (some listenfd)
  | inRequest {d' path db listenfd s c n} (o) : Boots d d' path db listenfd →
      AtRequest (Server.boot INITIAL_CAPACITY listenfd db) c s →
      requestCut (s.slot c).incoming = .take n →
      Moment d ((d'.serve path s).cutOff path s c ((s.slot c).incoming.take n) o) (some listenfd)

/-- What the life of a server makes of the directory, if it is alone there. -/
inductive Life (d : Directory) : Directory → Prop where
  | ended {d' listenfd} : Moment d d' listenfd → Life d d'
  | interrupted {d' listenfd} (closed removed) : Moment d d' listenfd →
      Life d ((sigintHandler listenfd closed removed).foldl Directory.after d')

abbrev Lives : Directory → Directory → Prop := Relation.ReflTransGen Life

/-! ## The table behind a history -/

/-- The request was served on this table, and left that one. -/
def Served.Turns (r : Served) (db db' : Db) : Prop :=
  ∃ s : Server, s.db = db ∧
    r = ⟨r.conn, r.frame, (s.dispatch r.conn (parseMessage r.frame) r.sql).2, s.view, r.sql⟩ ∧
    (s.dispatch r.conn (parseMessage r.frame) r.sql).1.db = db'

/-- The requests were taken to the table one after another, which was this and is now that. -/
inductive Grown : Db → List Turn → Db → Prop where
  | nil {db} : Grown db [] db
  | cons {db db' db'' t hist} : t.request.Turns db db' → Grown db' hist db'' →
      Grown db (t :: hist) db''

section Grown

variable {db db' db'' : Db} {hist hist' : List Turn}

theorem Grown.append (h : Grown db hist db') (h' : Grown db' hist' db'') :
    Grown db (hist ++ hist') db'' := by
  induction h with
  | nil => exact h'
  | cons hr _ ih => exact .cons hr (ih h')

theorem grown_append_iff :
    Grown db (hist ++ hist') db'' ↔ ∃ db', Grown db hist db' ∧ Grown db' hist' db'' := by
  constructor
  · intro h
    induction hist generalizing db with
    | nil => exact ⟨db, .nil, h⟩
    | cons t hist ih =>
      cases h with
      | cons hr h =>
        obtain ⟨db', h1, h2⟩ := ih h
        exact ⟨db', .cons hr h1, h2⟩
  · rintro ⟨db', h, h'⟩
    exact h.append h'

/-- The history of a server is that of its table. -/
theorem Steps.grown {capacity listenfd : Nat} {s : Server}
    (h : Steps (Server.boot capacity listenfd db) s) :
    Grown db ((servedIn s.log).map .answered) s.db := by
  induction h with
  | refl => exact .nil
  | @tail s t _ hst ih =>
    obtain ⟨c, hst⟩ := hst
    obtain ⟨ks, hlog, hdb⟩ | ⟨n, o, _, _, rfl⟩ := hst.log
    · rw [hlog, hdb, servedIn_append, servedIn_calls, List.append_nil]
      exact ih
    · obtain ⟨dests, hlog⟩ := log_serve s c ((s.slot c).incoming.take n)
        ((s.slot c).incoming.drop n) o
      rw [hlog, servedIn_append, servedIn_append, map_modify, servedIn_calls, List.append_nil,
        db_serve, List.map_append]
      exact ih.append (.cons ⟨s, rfl, rfl, rfl⟩ .nil)

end Grown

/-! ## The rows -/

/-- The credentials, if the response to this is that of a registration, with `RESP_OK`. -/
def Served.granted (r : Served) : Option Credentials :=
  if (parseMessage r.frame).type = MsgType.register.code ∧ r.response.rc = 0 then
    (parseCredentials (parseMessage r.frame)).toOption
  else none

/-- The credentials, if a row was inserted with them. -/
def Turn.granted (t : Turn) : Option Credentials := t.request.granted

/-- The row that is inserted at place `k`. -/
def Credentials.row (k : Nat) (c : Credentials) : Row :=
  ⟨k + 1, cString c.username, cString c.password⟩

/-- The rows are the registrations granted, in their order, numbered from one. -/
structure Db.Records (db : Db) (hist : List Turn) : Prop where
  rows : db.rows = (hist.filterMap Turn.granted).mapIdx Credentials.row
  seq : db.seq = (hist.filterMap Turn.granted).length

section Records

variable {db db' : Db} {hist : List Turn} {t : Turn} {r : Served} {credentials : Credentials}

theorem granted_eq_some_iff : r.granted = some credentials ↔ r.Registers credentials := by
  unfold Served.granted Served.Registers Served.Asks
  cases hparse : parseCredentials (parseMessage r.frame) <;> simp [Except.toOption, and_right_comm]

/-- A request that is granted as a registration inserts its row; no other request changes the
table. -/
theorem Served.Turns.cases (h : r.Turns db db') :
    (r.granted = none ∧ db' = db) ∨ ∃ credentials, r.granted = some credentials ∧
      (getUserByUsername db (stringToLower credentials.username) .empty r.sql).1 = 0 ∧
      r.response = .ofFields .register (userFields
        ⟨UInt32.ofNat (db.seq + 1), credentials.username, credentials.password⟩) ∧
      db' = ⟨db.rows ++ [credentials.row db.seq], db.seq + 1⟩ := by
  obtain ⟨c, frame, response, view, o⟩ := r
  obtain ⟨s, rfl, hr, rfl⟩ := h
  simp only [Served.mk.injEq, true_and] at hr
  obtain ⟨hresponse, rfl, _⟩ := hr
  have hd := dispatch_handled s c (parseMessage frame) o
  generalize s.dispatch c (parseMessage frame) o = out at hd hresponse
  subst hresponse
  cases hd with
  | rejected code hcode => exact .inl ⟨if_neg fun h => rc_header hcode h.2, rfl⟩
  | @registered credentials user db ht hp hfree hins =>
    obtain ⟨hfail, _⟩ | ⟨_, hnew⟩ :=
      insertUser_cases s.db ⟨0, credentials.username, credentials.password⟩ o
    · rw [hins] at hfail
      exact absurd (show (0 : Int) = -1 from hfail) (by decide)
    · obtain ⟨_, rfl, rfl⟩ := hins.symm.trans hnew
      exact .inr ⟨credentials, granted_eq_some_iff.mpr ⟨⟨ht, hp⟩, rfl⟩, hfree, rfl, rfl⟩
  | loggedIn ht =>
    have hne : MsgType.login.code ≠ MsgType.register.code := by decide
    exact .inl ⟨if_neg fun h => hne (ht.symm.trans h.1), rfl⟩
  | announced ht =>
    refine .inl ⟨if_neg fun h => register_ne_chat (h.1.symm.trans ht), ?_⟩
    exact (s.deliverAll_frame _ _).1

theorem records_empty : Db.Records .empty [] := ⟨rfl, rfl⟩

/-- One more request keeps the rows what they are, answered or cut off. -/
theorem Db.Records.turn (h : db.Records hist) (ht : t.request.Turns db db') :
    db'.Records (hist ++ [t]) := by
  obtain ⟨hnone, rfl⟩ | ⟨credentials, hsome, _, _, rfl⟩ := ht.cases
  · have hsame : (hist ++ [t]).filterMap Turn.granted = hist.filterMap Turn.granted := by
      rw [List.filterMap_append, List.filterMap_cons_none (show t.granted = none from hnone)]
      exact List.append_nil _
    exact ⟨hsame ▸ h.rows, hsame ▸ h.seq⟩
  · have hmore : (hist ++ [t]).filterMap Turn.granted =
        hist.filterMap Turn.granted ++ [credentials] := by
      rw [List.filterMap_append,
        List.filterMap_cons_some (show t.granted = some credentials from hsome)]
      rfl
    constructor
    · rw [hmore, List.mapIdx_concat, ← h.rows, ← h.seq]
    · rw [hmore, List.length_append, ← h.seq]
      rfl

/-- The table of a history, whatever came before. -/
theorem Grown.records {before : List Turn} (h : Grown db hist db') (hs : db.Records before) :
    db'.Records (before ++ hist) := by
  induction h generalizing before with
  | nil => rwa [List.append_nil]
  | @cons db db' db'' t hist ht _ ih =>
    rw [List.append_cons]
    exact ih (hs.turn ht)

/-- Rows are only added. -/
theorem Served.Turns.rows (hr : r.Turns db db') : db.rows <+: db'.rows := by
  obtain ⟨_, rfl⟩ | ⟨credentials, _, _, _, rfl⟩ := hr.cases
  · exact List.prefix_rfl
  · exact List.prefix_append _ _

/-- The account that these credentials registered is what is found under its name. -/
def Db.Holds (db : Db) (k : Nat) (credentials : Credentials) : Prop :=
  db.lookup credentials.username = some (credentials.row k)

theorem Db.Holds.mono {k : Nat} (h : db.Holds k credentials) (hrows : db.rows <+: db'.rows) :
    db'.Holds k credentials := by
  obtain ⟨rows, hrows⟩ := hrows
  unfold Db.Holds Db.lookup at h ⊢
  rw [← hrows, List.find?_append, h]
  rfl

theorem Grown.holds {k : Nat} (h : Grown db hist db') (hs : db.Holds k credentials) :
    db'.Holds k credentials := by
  induction h with
  | nil => exact hs
  | cons hr _ ih => exact ih (hs.mono hr.rows)

/-- A registration that was granted after a look-up that did not fail: its name was free. -/
theorem Served.Turns.holds (hr : r.Turns db db') (hlookup : ¬ r.sql.LookupFails)
    (hreg : r.Registers credentials) :
    db'.Holds db.seq credentials ∧ r.response = .ofFields .register (userFields
      ⟨UInt32.ofNat (db.seq + 1), credentials.username, credentials.password⟩) := by
  obtain ⟨hnone, _⟩ | ⟨credentials', hsome, hfree, hresponse, rfl⟩ := hr.cases
  · rw [granted_eq_some_iff.mpr hreg] at hnone
    cases hnone
  · obtain rfl := Option.some.inj ((granted_eq_some_iff.mpr hreg).symm.trans hsome)
    refine ⟨?_, hresponse⟩
    have hstep : r.sql.StepReported := fun _ => by
      by_contra hne
      exact hlookup (.inr hne)
    have hnone := lookup_eq_none.mpr (not_taken_of_rc hstep hfree)
    unfold Db.Holds Db.lookup at hnone ⊢
    rw [List.find?_append, hnone, Option.none_or]
    have hown : sqlLower (credentials.row db.seq).username =
        cString (stringToLower credentials.username) := by
      rw [cString_stringToLower]
      rfl
    simp [hown]

/-- Every spelling of the name finds the account, if the look-up does not fail. -/
theorem Db.Holds.found {k : Nat} {o : SqlOutcome} {username : Bytes} (h : db.Holds k credentials)
    (hlookup : ¬ o.LookupFails)
    (hsame : SameName (cString username) (cString credentials.username)) :
    getUserByUsername db (stringToLower username) .empty o =
      (1, ⟨UInt32.ofNat (k + 1), cString credentials.username, cString credentials.password⟩) := by
  have hname : cString (stringToLower username) = cString (stringToLower credentials.username) := by
    rw [cString_stringToLower, cString_stringToLower]
    exact hsame
  simp only [SqlOutcome.LookupFails, not_or, not_not] at hlookup
  unfold Db.Holds Db.lookup at h
  rw [← hname] at h
  have hleaves : ∀ text, cString (cString text) = cString text := fun text =>
    cString_eq_self (zero_not_mem_cString text)
  simp [getUserByUsername, Db.select, sqlite3Prepare, hlookup.1, hlookup.2, h, Credentials.row,
    hleaves]

/-- A second registration of the name is refused. -/
theorem Served.Turns.refused {k : Nat} {credentials' : Credentials} (hr : r.Turns db db')
    (h : db.Holds k credentials) (hlookup : ¬ r.sql.LookupFails)
    (hsame : SameName (cString credentials'.username) (cString credentials.username))
    (hasks : r.Asks .register credentials') :
    r.response = buildServerResponse MsgType.register.code ResponseCode.userExists.code none 0 := by
  obtain ⟨s, rfl, hr, _⟩ := hr
  obtain ⟨ht, hp⟩ := hasks
  have hone := congrArg Prod.fst (h.found hlookup hsame)
  rw [hr]
  show (s.dispatch _ _ _).2 = _
  rw [dispatch_register ht, registerUser_taken hp hone]

/-- A login to the account is decided by the password that was stored. -/
theorem Served.Turns.admitted {k : Nat} {credentials' : Credentials} (hr : r.Turns db db')
    (h : db.Holds k credentials) (hlookup : ¬ r.sql.LookupFails)
    (hsame : SameName (cString credentials'.username) (cString credentials.username))
    (hasks : r.Asks .login credentials') :
    r.response =
      if credentials'.password = cString credentials.password then
        .ofFields .login (userFields ⟨UInt32.ofNat (k + 1), cString credentials.username,
          cString credentials.password⟩)
      else
        buildServerResponse MsgType.login.code ResponseCode.invalidCredentials.code none 0 := by
  obtain ⟨s, rfl, hr, _⟩ := hr
  obtain ⟨ht, hp⟩ := hasks
  have hfound := h.found hlookup hsame
  have hlogin : parseLoginRequest (parseMessage r.frame) = .ok credentials' := hp
  rw [hr]
  show (s.dispatch _ _ _).2 = _
  rw [dispatch_login ht]
  unfold Server.loginUser
  simp only [hlogin, hfound]
  rw [if_neg (not_not.mpr rfl)]
  by_cases hpw : credentials'.password = cString credentials.password
  · rw [if_neg (not_not.mpr hpw.symm), if_pos hpw, buildLoginResponse, buildUserResponse_eq]
  · rw [if_pos (fun h => hpw h.symm), if_neg hpw]

end Records

/-! ## The directory from life to life -/

/-- Beside a table stands its history, and beside no table an empty one. -/
def Directory.Sound (d : Directory) : Prop :=
  ∀ path, match d.table path with
    | none => d.history path = []
    | some db => Grown .empty (d.history path) db

/-- Calls leave a history as it is, or drop that of the test table. -/
def Leaves (path : DbFile) (before after : List Turn) : Prop :=
  after = before ∨ path = .test ∧ after = []

/-- One life adds to a history requests that were answered, and perhaps one at the end that was cut
off. -/
def Adds (path : DbFile) (before after : List Turn) : Prop :=
  ∃ old, ∃ served : List Served, ∃ last : Option Served, Leaves path before old ∧
    after = old ++ served.map .answered ++ last.toList.map .cut

/-- What is handed on to the next moment: both histories stay true, and the application's table is
not lost. -/
structure Directory.Continues (d d' : Directory) : Prop where
  sound : d.Sound → d'.Sound
  table : d.table .app ≠ none → d'.table .app ≠ none

section Directories

variable {d d' : Directory} {path : DbFile} {db : Db} {history before after later : List Turn}

theorem Leaves.trans (h : Leaves path before after) (h' : Leaves path after later) :
    Leaves path before later := by
  obtain rfl | ⟨hp, rfl⟩ := h'
  · exact h
  · exact .inr ⟨hp, rfl⟩

theorem Leaves.adds (h : Leaves path before after) (served : List Served) (last : Option Served) :
    Adds path before (after ++ served.map .answered ++ last.toList.map .cut) :=
  ⟨after, served, last, h, rfl⟩

theorem Leaves.adds_none (h : Leaves path before after) : Adds path before after :=
  ⟨after, [], none, h, by simp⟩

theorem Adds.leaves (h : Adds path before after) (h' : Leaves path after later) :
    Adds path before later := by
  obtain rfl | ⟨hp, rfl⟩ := h'
  · exact h
  · exact Leaves.adds_none (.inr ⟨hp, rfl⟩)

theorem Adds.app (h : Adds .app before after) : before <+: after := by
  obtain ⟨old, served, last, hold | ⟨hp, _⟩, rfl⟩ := h
  · rw [hold, List.append_assoc]
    exact List.prefix_append _ _
  · cases hp

theorem Directory.Continues.refl (d : Directory) : d.Continues d := ⟨id, id⟩

theorem Directory.Continues.trans {d'' : Directory} (h : d.Continues d') (h' : d'.Continues d'') :
    d.Continues d'' := ⟨h'.sound ∘ h.sound, h'.table ∘ h.table⟩

/-- A table with the history that belongs to it. -/
theorem continues_set (hsound : d.Sound → Grown .empty history db) :
    d.Continues (d.set path (some db) history) := by
  refine ⟨fun h p => ?_, fun h => ?_⟩
  · by_cases hp : p = path
    · simpa [hp] using hsound h
    · simpa [hp] using h p
  · by_cases hp : DbFile.app = path
    · simp [hp]
    · simpa [hp] using h

theorem Directory.Sound.grown (h : d.Sound) (hdb : d.table path = some db) :
    Grown .empty (d.history path) db := by
  have hpath := h path
  rwa [hdb] at hpath

theorem continues_after (d : Directory) (k : Call) : d.Continues (d.after k) := by
  cases k with
  | createTable path =>
    refine continues_set fun h => ?_
    have hpath := h path
    cases htable : d.table path with
    | none =>
      rw [htable] at hpath
      rw [hpath]
      exact .nil
    | some db => exact h.grown htable
  | removeTestDb =>
    refine ⟨fun h p => ?_, fun h => ?_⟩
    · by_cases hp : p = .test
      · simp [Directory.after, hp]
      · simpa [Directory.after, hp] using h p
    · simpa [Directory.after] using h
  | _ => exact .refl d

theorem leaves_after (d : Directory) (k : Call) (path : DbFile) :
    Leaves path (d.history path) ((d.after k).history path) := by
  cases k with
  | createTable p =>
    left
    show (d.set p _ (d.history p)).history path = d.history path
    rw [Directory.history_set]
    split
    · rename_i hp
      rw [hp]
    · rfl
  | removeTestDb =>
    by_cases hp : path = .test
    · exact .inr ⟨hp, by simp [Directory.after, hp]⟩
    · exact .inl (by simp [Directory.after, hp])
  | _ => exact .inl rfl

theorem continues_calls (d : Directory) (calls : List Call) :
    d.Continues (calls.foldl Directory.after d) := by
  induction calls generalizing d with
  | nil => exact .refl d
  | cons k calls ih => exact (continues_after d k).trans (ih (d.after k))

theorem leaves_calls (d : Directory) (calls : List Call) (path : DbFile) :
    Leaves path (d.history path) ((calls.foldl Directory.after d).history path) := by
  induction calls generalizing d with
  | nil => exact .inl rfl
  | cons k calls ih => exact (leaves_after d k path).trans (ih (d.after k))

theorem Boots.continues {listenfd : Nat} (h : Boots d d' path db listenfd) :
    d.Continues d' ∧ d'.table path = some db ∧
      ∀ p, Leaves p (d.history p) (d'.history p) := by
  cases h with
  | main _ hd' hdb =>
    subst hd'
    exact ⟨continues_calls d _, hdb, leaves_calls d _⟩

/-- What a server serves goes on from the table that it found. -/
theorem continues_serve {capacity listenfd : Nat} {s : Server} (hdb : d.table path = some db)
    (h : Steps (Server.boot capacity listenfd db) s) : d.Continues (d.serve path s) :=
  continues_set fun hd => (hd.grown hdb).append h.grown

/-- And so does what it took to the table last. -/
theorem continues_cutOff {s : Server} (hdb : d.table path = some s.db) (c : Nat) (frame : Bytes)
    (o : SqlOutcome) : d.Continues (d.cutOff path s c frame o) :=
  continues_set fun hd => (hd.grown hdb).append (.cons ⟨s, rfl, rfl, rfl⟩ .nil)

theorem Moment.continues {listenfd : Option Nat} (h : Moment d d' listenfd) : d.Continues d' := by
  cases h with
  | starting argv sc hpre => exact continues_calls d _
  | serving hboots hs =>
    obtain ⟨hcontinues, hdb, _⟩ := hboots.continues
    obtain hs | ⟨c, hs⟩ := hs
    · exact hcontinues.trans (continues_serve hdb hs.steps)
    · exact hcontinues.trans (continues_serve hdb hs.steps.1)
  | @inRequest d₁ path db listenfd s c n o hboots hs _ =>
    obtain ⟨hcontinues, hdb, _⟩ := hboots.continues
    have hserved : (d₁.serve path s).table path = some s.db := by simp [Directory.serve]
    exact (hcontinues.trans (continues_serve hdb hs.steps.1)).trans
      (continues_cutOff hserved c _ o)

theorem Moment.adds {listenfd : Option Nat} (h : Moment d d' listenfd) (p : DbFile) :
    Adds p (d.history p) (d'.history p) := by
  cases h with
  | starting argv sc hpre => exact (leaves_calls d _ p).adds_none
  | @serving d₁ path _ _ s hboots _ =>
    have hleaves := hboots.continues.2.2 p
    rw [Directory.serve, Directory.history_set]
    split
    · rename_i hp
      subst hp
      simpa using hleaves.adds (servedIn s.log) none
    · exact hleaves.adds_none
  | @inRequest d₁ path _ _ s c n o hboots _ _ =>
    have hleaves := hboots.continues.2.2 p
    rw [Directory.cutOff, Directory.history_set, Directory.serve, Directory.history_set,
      Directory.history_set, if_pos rfl]
    split
    · rename_i hp
      subst hp
      exact hleaves.adds (servedIn s.log) (some _)
    · exact hleaves.adds_none

theorem Life.continues (h : Life d d') : d.Continues d' := by
  cases h with
  | ended hm => exact hm.continues
  | interrupted closed removed hm => exact hm.continues.trans (continues_calls _ _)

theorem Life.adds (h : Life d d') (p : DbFile) : Adds p (d.history p) (d'.history p) := by
  cases h with
  | ended hm => exact hm.adds p
  | interrupted closed removed hm => exact (hm.adds p).leaves (leaves_calls _ _ p)

theorem Lives.continues (h : Lives d d') :
    d.Continues d' ∧ d.history .app <+: d'.history .app := by
  induction h with
  | refl => exact ⟨.refl d, List.prefix_rfl⟩
  | tail _ hlife ih => exact ⟨ih.1.trans hlife.continues, ih.2.trans (hlife.adds .app).app⟩

/-- Beside each table stands its history, from the first life on. -/
theorem Lives.sound (h : Lives .empty d) : d.Sound := h.continues.1.sound fun _ => rfl

/-- A request that was taken to a table has one to be on. -/
theorem Directory.Sound.table_of_history (h : d.Sound) (hhist : d.history path ≠ []) :
    ∃ db, d.table path = some db := by
  have hpath := h path
  cases htable : d.table path with
  | none =>
    rw [htable] at hpath
    exact absurd hpath hhist
  | some db => exact ⟨db, rfl⟩

/-- Whatever servers were started in a directory, and however far each of them got: the rows of a
table are the registrations that were granted on it, over all lives, in their order and numbered
from one. All but one of a life were answered; the last may have been cut off, when the server
died. Neither the application's table nor its history is ever lost. -/
theorem tables_record_registrations (h : Lives .empty d) :
    (∀ path, match d.table path with
      | none => d.history path = []
      | some db => db.Records (d.history path)) ∧
    (∀ d', Life d d' → ∀ path, Adds path (d.history path) (d'.history path)) ∧
    ∀ d', Lives d d' → (d.table .app ≠ none → d'.table .app ≠ none) ∧
      d.history .app <+: d'.history .app := by
  refine ⟨fun path => ?_, fun d' h' => h'.adds,
    fun d' h' => ⟨h'.continues.1.table, h'.continues.2⟩⟩
  have hpath := h.sound path
  cases htable : d.table path with
  | none =>
    rw [htable] at hpath
    exact hpath
  | some db => exact (h.sound.grown htable).records records_empty

/-- An account that was registered, after a look-up that did not fail, keeps its number, which is
that of its row's place, and its password through all lives: whatever else was served in between,
and however it failed, the name in any spelling is refused to other registrations, and a login is
granted exactly with the password as it was stored, each if its own look-up does not fail. It does
not matter whether the registration was answered or cut off. -/
theorem accounts_persist {t : Turn} {credentials : Credentials} (h : Lives .empty d)
    (hhist : d.history path = before ++ t :: later) (hreg : t.request.Registers credentials)
    (hlookup : ¬ t.request.sql.LookupFails) :
    let id := UInt32.ofNat ((before.filterMap Turn.granted).length + 1)
    t.request.response = .ofFields .register (userFields
      ⟨id, credentials.username, credentials.password⟩) ∧
    ∀ t' ∈ later, ¬ t'.request.sql.LookupFails → ∀ credentials',
      SameName (cString credentials'.username) (cString credentials.username) →
      (t'.request.Asks .register credentials' → t'.request.response =
        buildServerResponse MsgType.register.code ResponseCode.userExists.code none 0) ∧
      (t'.request.Asks .login credentials' → t'.request.response =
        if credentials'.password = cString credentials.password then
          .ofFields .login (userFields
            ⟨id, cString credentials.username, cString credentials.password⟩)
        else
          buildServerResponse MsgType.login.code ResponseCode.invalidCredentials.code none 0) := by
  intro id
  have hsome : d.history path ≠ [] := by rw [hhist]; simp
  obtain ⟨db, hdb⟩ := h.sound.table_of_history hsome
  have hgrown := h.sound.grown hdb
  rw [hhist] at hgrown
  obtain ⟨db₀, hbefore, hrest⟩ := grown_append_iff.mp hgrown
  cases hrest with
  | @cons _ db₁ _ _ _ hr hlater =>
    have hseq : db₀.seq = (before.filterMap Turn.granted).length :=
      (hbefore.records records_empty).seq
    obtain ⟨hholds, hresponse⟩ := hr.holds hlookup hreg
    rw [hseq] at hholds hresponse
    refine ⟨hresponse, fun t' ht' hlookup' credentials' hsame => ?_⟩
    obtain ⟨first, last, rfl⟩ := List.append_of_mem ht'
    obtain ⟨db₂, hfirst, hlast⟩ := grown_append_iff.mp hlater
    cases hlast with
    | cons hturn _ =>
      have hthen := hfirst.holds hholds
      exact ⟨hturn.refused hthen hlookup' hsame, hturn.admitted hthen hlookup' hsame⟩

end Directories

/-! ## Three lives -/

/-- A server is started in the directory, for the application's table. -/
def Directory.startUp (d : Directory) : Directory :=
  (serverMain [[], [], [48], [49]] thirdAddress).calls.foldl Directory.after d

theorem boots_startUp {d : Directory} {db : Db} (hdb : (d.table .app).getD .empty = db) :
    Boots d d.startUp .app db 3 := by
  have hpath : DbFile.ofTest (atoi [48]) = .app := by decide
  have hboots := @Boots.main d [] [] [48] [49] thirdAddress 3 db _ rfl rfl
    (by rw [hpath]; exact congrArg some hdb)
  rwa [hpath] at hboots

/-- A client connects, and one request of it is served. -/
def oneRequest (db : Db) (frame : Bytes) : Server :=
  ((Server.boot INITIAL_CAPACITY 3 db).iterate
    (.ready [⟨3, false, { accepts := [.conn 5 true true] }⟩])).iterate
    (.ready [⟨5, false, { reads := [.bytes frame] }⟩])

theorem reaches_oneRequest (db : Db) (frame : Bytes) :
    Reaches (Server.boot INITIAL_CAPACITY 3 db) (oneRequest db frame) := by
  refine .tail (.single ⟨_, ?_, rfl⟩) ⟨_, ?_, rfl⟩
  · simp [Wait.Legal, Event.Legal, Server.boot, STDIN_FILENO]
  · simp [Wait.Legal, Event.Legal]

def Directory.serveOne (d : Directory) (db : Db) (frame : Bytes) : Directory :=
  d.startUp.serve .app (oneRequest db frame)

theorem life_serveOne {d : Directory} {db : Db} {frame : Bytes}
    (hdb : (d.table .app).getD .empty = db) : Life d (d.serveOne db frame) :=
  .ended (.serving (boots_startUp hdb) (.inl (reaches_oneRequest db frame)))

/-- The first server has read a registration of "a". -/
def registeringA : Server :=
  ((accepted INITIAL_CAPACITY).readAvailable 5 [.bytes (registerFrame 97)]).1

theorem atRequest_registeringA :
    AtRequest (Server.boot INITIAL_CAPACITY 3 .empty) 5 registeringA :=
  .first (reaches_accepted INITIAL_CAPACITY) (by decide +kernel) (by decide) (by decide)
    (by decide +kernel) (Prod.ext rfl (by decide +kernel))

/-- It dies when the row is inserted. -/
def oneLife : Directory :=
  (Directory.empty.startUp.serve .app registeringA).cutOff .app registeringA 5
    ((registeringA.slot 5).incoming.take 13) {}

/-- The next server registers "b", and the one after that has a login as "B". -/
def threeLives : Directory :=
  (oneLife.serveOne ⟨[⟨1, [97], [97]⟩], 1⟩ (registerFrame 98)).serveOne
    ⟨[⟨1, [97], [97]⟩, ⟨2, [98], [98]⟩], 2⟩ [1, 1, 0, 0, 0, 0, 6, 0, 1, 66, 1, 1, 98]

theorem lives_threeLives : Lives .empty threeLives := by
  have hfirst : Life .empty oneLife :=
    .ended (.inRequest {} (boots_startUp rfl) atRequest_registeringA (by decide +kernel))
  have hsecond : Life oneLife (oneLife.serveOne ⟨[⟨1, [97], [97]⟩], 1⟩ (registerFrame 98)) :=
    life_serveOne (by decide +kernel)
  exact .tail (.tail (.single hfirst) hsecond) (life_serveOne (by decide +kernel))

/-- Nobody was told of the first row. -/
theorem tables_record_registrations_threeLives :
    threeLives.table .app = some ⟨[⟨1, [97], [97]⟩, ⟨2, [98], [98]⟩], 2⟩ ∧
      ∃ db, threeLives.table .app = some db ∧ db.Records (threeLives.history .app) := by
  have htable : threeLives.table .app = some ⟨[⟨1, [97], [97]⟩, ⟨2, [98], [98]⟩], 2⟩ := by
    decide +kernel
  have hrecords := (tables_record_registrations lives_threeLives).1 .app
  rw [htable] at hrecords
  exact ⟨htable, _, htable, hrecords⟩

theorem accounts_persist_threeLives :
    ∃ t₁ t₂ t₃, threeLives.history .app = [t₁, t₂, t₃] ∧
      t₂.request.response = .ofFields .register (userFields ⟨2, [98], [98]⟩) ∧
      t₃.request.response = .ofFields .login (userFields ⟨2, [98], [98]⟩) := by
  have hlength : (threeLives.history .app).length = 3 := by decide +kernel
  have hfirst : (((threeLives.history .app).take 1).filterMap Turn.granted).length = 1 := by
    decide +kernel
  have hregister : ∀ t ∈ ((threeLives.history .app).drop 1).take 1,
      (t.request.Asks .register ⟨[98], [98]⟩ ∧ t.request.response.rc = 0) ∧
        ¬ t.request.sql.LookupFails := by
    decide +kernel
  have hlogin : ∀ t ∈ (threeLives.history .app).drop 2,
      t.request.Asks .login ⟨[66], [98]⟩ ∧ ¬ t.request.sql.LookupFails := by decide +kernel
  obtain ⟨t₁, t₂, t₃, hhist⟩ := List.length_eq_three.mp hlength
  rw [hhist] at hfirst hregister hlogin
  obtain ⟨hreg, hlookup⟩ := hregister t₂ List.mem_cons_self
  obtain ⟨hasks, hlookup'⟩ := hlogin t₃ List.mem_cons_self
  have hpersists := @accounts_persist _ .app [t₁] [t₃] t₂ ⟨[98], [98]⟩ lives_threeLives hhist hreg
    hlookup
  have hplace : ([t₁].filterMap Turn.granted).length = 1 := hfirst
  rw [hplace] at hpersists
  exact ⟨t₁, t₂, t₃, hhist, hpersists.1,
    (hpersists.2 t₃ List.mem_cons_self hlookup' ⟨[66], [98]⟩ (by decide)).2 hasks⟩

end ChatServer
