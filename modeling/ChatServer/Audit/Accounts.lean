import ChatServer.Audit.Delivery
import ChatServer.Audit.TopOfLoop

/-!
# Registration and login agree

A credential crosses four representations: the bytes of a field, a `std::string`, the C
string bound into SQLite, and the C string read back. While no NUL enters the table, the
rows are the registrations answered `RESP_OK`, and a login succeeds on exactly those.
A NUL cuts what is stored but not what is compared with it.
-/

namespace ChatServer

/-- The row that `SELECT … WHERE LOWER(username) = ?` finds for a username. -/
def Db.lookup (db : Db) (username : Bytes) : Option Row :=
  db.rows.find? fun row => sqlLower row.username = cString (stringToLower username)

/-- The request is of this type and carries these credentials. -/
def Served.Asks (r : Served) (type : MsgType) (credentials : Credentials) : Prop :=
  (parseMessage r.frame).type = type.code ∧
    parseCredentials (parseMessage r.frame) = .ok credentials

/-- The request registered these credentials. -/
def Served.Registers (r : Served) (credentials : Credentials) : Prop :=
  r.Asks .register credentials ∧ r.response.rc = 0

/-- The response names this account. -/
def Served.Reports (r : Served) (userId : UInt32) (username : Bytes) : Prop :=
  r.response.payloadBytes =
    Tlv.encode [wordField .userId userId, textField .username username]

/-- A LOGIN is answered `RESP_OK` exactly if its password was registered before under its
username, up to the case of ASCII letters; it then reports the account that the REGISTER
reported. -/
def LoginAgrees (pre : List Entry) (r : Served) : Prop :=
  ∀ credentials, r.Asks .login credentials →
    (r.response.rc = 0 ↔ ∃ r' username, .served r' ∈ pre ∧
      r'.Registers ⟨username, credentials.password⟩ ∧
      stringToLower username = stringToLower credentials.username) ∧
    ∀ r' username, .served r' ∈ pre → r'.Registers ⟨username, credentials.password⟩ →
      stringToLower username = stringToLower credentials.username →
      ∃ userId, r'.Reports userId username ∧ r.Reports userId username

/-- No NUL enters the table with this request, or finds a row of it. -/
def Served.NulFree (r : Served) : Prop :=
  ∀ credentials, parseCredentials (parseMessage r.frame) = .ok credentials →
    ((parseMessage r.frame).type = MsgType.register.code →
      r.view.db.lookup credentials.username = none →
      0 ∉ credentials.username ∧ 0 ∉ credentials.password) ∧
    ((parseMessage r.frame).type = MsgType.login.code →
      (r.view.db.lookup credentials.username).map Row.password = some credentials.password →
      0 ∉ credentials.username)

instance (r : Served) (type : MsgType) (credentials : Credentials) :
    Decidable (r.Asks type credentials) := inferInstanceAs (Decidable (_ ∧ _))

instance (r : Served) : Decidable r.NulFree :=
  match h : parseCredentials (parseMessage r.frame) with
  | .error _ => .isTrue fun _ hc => by rw [h] at hc; cases hc
  | .ok credentials =>
    decidable_of_iff (_ ∧ _)
      ⟨fun hr _ hc => Except.ok.inj (h.symm.trans hc) ▸ hr, fun hr => hr credentials h⟩

theorem getUserByUsername_some {db : Db} {username : Bytes} {row : Row} (user : User)
    (h : db.lookup username = some row) :
    getUserByUsername db (stringToLower username) user {} =
      (1, ⟨UInt32.ofNat row.id, cString row.username, cString row.password⟩) := by
  unfold Db.lookup at h
  simp [getUserByUsername, Db.select, sqlite3Prepare, h]

/-! ## One login -/

section Login

variable {s : Server} {c : Nat} {request : Message} {credentials : Credentials} {row : Row}

/-- A login that finds a row with its password reports that row. -/
theorem loginUser_granted (hdb : InsertedOnly s.db)
    (hp : parseLoginRequest request = .ok credentials)
    (hrow : s.db.lookup credentials.username = some row)
    (hpw : row.password = credentials.password) :
    (s.loginUser c request {}).2 =
      .ofFields .login
        [wordField .userId (UInt32.ofNat row.id), textField .username row.username] := by
  obtain ⟨hu, hw⟩ := hdb.no_nul (List.mem_of_find?_eq_some hrow)
  unfold Server.loginUser
  simp only [hp, getUserByUsername_some _ hrow, cString_eq_self hu, cString_eq_self hw]
  rw [if_neg (not_not.mpr rfl), if_neg (not_not.mpr hpw), buildLoginResponse, buildUserResponse_eq]
  rfl

theorem loginUser_rc (hdb : InsertedOnly s.db) (ht : request.type = MsgType.login.code)
    (hp : parseLoginRequest request = .ok credentials) :
    (s.loginUser c request {}).2.rc = 0 ↔
      (s.db.lookup credentials.username).map Row.password = some credentials.password := by
  constructor
  · intro hrc
    have hd : Handled s c request {} (s.loginUser c request {}) := loginUser_handled ht
    generalize s.loginUser c request {} = r at hd hrc
    cases hd with
    | rejected code hcode => exact absurd hrc (rc_header hcode)
    | registered ht' => exact absurd (ht.symm.trans ht') (by decide)
    | @loggedIn credentials' user _ hp' hu hpw =>
      obtain rfl := Except.ok.inj (hp.symm.trans hp')
      obtain ⟨_, row, hrow, rfl⟩ := getUserByUsername_found hu
      have hnul := (hdb.no_nul (List.mem_of_find?_eq_some hrow)).2
      have hsome : s.db.lookup credentials.username = some row := hrow
      rw [hsome, Option.map_some, ← hpw, cString_eq_self hnul]
    | announced ht' => exact absurd (ht.symm.trans ht') (by decide)
  · intro h
    obtain ⟨row, hrow, hpw⟩ := Option.map_eq_some_iff.mp h
    rw [loginUser_granted hdb hp hrow hpw]
    rfl

end Login

/-! ## The table and the history -/

/-- The rows are the registrations of the history. -/
structure Accounts (db : Db) (log : List Entry) : Prop where
  inserted : InsertedOnly db
  registered : ∀ row ∈ db.rows, ∃ r, .served r ∈ log ∧ r.Registers ⟨row.username, row.password⟩
  kept : ∀ r credentials, .served r ∈ log → r.Registers credentials →
    ∃ row ∈ db.rows, row.username = credentials.username ∧ row.password = credentials.password ∧
      r.Reports (UInt32.ofNat row.id) row.username
  found : ∀ row ∈ db.rows, db.lookup row.username = some row

theorem accounts_empty : Accounts .empty [] where
  inserted := .empty
  registered := fun _ h => absurd h List.not_mem_nil
  kept := fun _ _ h => absurd h List.not_mem_nil
  found := fun _ h => absurd h List.not_mem_nil

namespace Accounts

variable {db : Db} {log : List Entry} {r : Served} {row : Row}

/-- What is no registration leaves the accounts alone. -/
theorem append {es : List Entry} (h : Accounts db log)
    (hes : ∀ r credentials, .served r ∈ es → ¬ r.Registers credentials) :
    Accounts db (log ++ es) where
  inserted := h.inserted
  registered := fun row hrow => by
    obtain ⟨r, hr, hreg⟩ := h.registered row hrow
    exact ⟨r, List.mem_append_left _ hr, hreg⟩
  kept := fun r credentials hr hreg => by
    rcases List.mem_append.mp hr with hr | hr
    · exact h.kept r credentials hr hreg
    · exact absurd hreg (hes r credentials hr)
  found := h.found

theorem append_sys (h : Accounts db log) (ks : List (EdgeTrigger.Syscall UInt8)) :
    Accounts db (log ++ ks.map .sys) := by
  apply h.append
  intro r _ hr
  obtain ⟨_, _, hk⟩ := List.mem_map.mp hr
  cases hk

/-- A registration adds its row, whose name was free. -/
theorem insert {seq : Nat} (h : Accounts db log) (hr : r.Registers ⟨row.username, row.password⟩)
    (hreport : r.Reports (UInt32.ofNat row.id) row.username)
    (hfree : db.lookup row.username = none) (hdb : InsertedOnly ⟨db.rows ++ [row], seq⟩) :
    Accounts ⟨db.rows ++ [row], seq⟩ (log ++ [.served r]) where
  inserted := hdb
  registered := fun row' hrow => by
    rcases List.mem_append.mp hrow with hold | hnew
    · obtain ⟨r', hr', hreg⟩ := h.registered row' hold
      exact ⟨r', List.mem_append_left _ hr', hreg⟩
    · obtain rfl := List.mem_singleton.mp hnew
      exact ⟨r, List.mem_append_right _ List.mem_cons_self, hr⟩
  kept := fun r' credentials hr' hreg => by
    rcases List.mem_append.mp hr' with hold | hnew
    · obtain ⟨row', hrow, hkept⟩ := h.kept r' credentials hold hreg
      exact ⟨row', List.mem_append_left _ hrow, hkept⟩
    · obtain rfl : r' = r := by simpa using hnew
      obtain rfl := Except.ok.inj (hr.1.2.symm.trans hreg.1.2)
      exact ⟨row, List.mem_append_right _ List.mem_cons_self, rfl, rfl, hreport⟩
  found := fun row' hrow => by
    unfold Db.lookup at hfree ⊢
    rw [List.find?_append]
    rcases List.mem_append.mp hrow with hold | hnew
    · have hfound := h.found row' hold
      unfold Db.lookup at hfound
      rw [hfound, Option.some_or]
    · obtain rfl := List.mem_singleton.mp hnew
      have hown : sqlLower row'.username = cString (stringToLower row'.username) := by
        rw [cString_stringToLower, cString_eq_self (hdb.no_nul hrow).1, sqlLower_eq]
      rw [hfree, Option.none_or]
      simp [hown]

/-- Under every spelling of a registered name the table has the account that was reported. -/
theorem lookup_of_registers {username username' password : Bytes} (h : Accounts db log)
    (hr : .served r ∈ log) (hreg : r.Registers ⟨username', password⟩)
    (hlower : stringToLower username' = stringToLower username) :
    ∃ row, db.lookup username = some row ∧ row.username = username' ∧ row.password = password ∧
      r.Reports (UInt32.ofNat row.id) username' := by
  obtain ⟨row, hrow, rfl, rfl, hreport⟩ := h.kept r _ hr hreg
  have hfound := h.found row hrow
  unfold Db.lookup at hfound ⊢
  rw [hlower] at hfound
  exact ⟨row, hfound, rfl, rfl, hreport⟩

end Accounts

/-! ## One request -/

section Serve

variable {s : Server} {c : Nat} {frame : Bytes} {log : List Entry}

/-- A request keeps the accounts if no NUL enters the table. -/
theorem Accounts.serve {r : Server × Message} (h : Accounts s.db log)
    (hd : Handled s c (parseMessage frame) {} r)
    (hnul : Served.NulFree ⟨c, frame, r.2, s.view, {}⟩) :
    Accounts r.1.db (log ++ [.served ⟨c, frame, r.2, s.view, {}⟩]) := by
  have hother : ∀ m : Message, (parseMessage frame).type ≠ MsgType.register.code →
      Accounts s.db (log ++ [.served ⟨c, frame, m, s.view, {}⟩]) := by
    intro m hne
    apply h.append
    intro r' credentials hr' hreg
    obtain rfl := Entry.served.inj (List.mem_singleton.mp hr')
    exact hne hreg.1.1
  cases hd with
  | rejected code hcode =>
    apply h.append
    intro r' credentials hr' hreg
    obtain rfl := Entry.served.inj (List.mem_singleton.mp hr')
    exact rc_header hcode hreg.2
  | @registered credentials user db ht hp hfree hins =>
    have hnone : s.db.lookup credentials.username = none := by
      cases hl : s.db.lookup credentials.username with
      | none => rfl
      | some row =>
        rw [getUserByUsername_some _ hl] at hfree
        exact absurd (show (1 : Int) = 0 from hfree) (by decide)
    obtain ⟨hu, hw⟩ := (hnul credentials hp).1 ht hnone
    rcases insertUser_cases s.db ⟨0, credentials.username, credentials.password⟩ {} with
      ⟨hfail, _⟩ | ⟨_, hnew⟩
    · rw [hins] at hfail
      exact absurd (show (0 : Int) = -1 from hfail) (by decide)
    · have hdb := InsertedOnly.insert ⟨0, credentials.username, credentials.password⟩ {} h.inserted
      rw [hnew] at hins hdb
      simp only [cString_eq_self hu, cString_eq_self hw] at hins hdb
      obtain ⟨_, rfl, rfl⟩ := hins
      refine h.insert ⟨⟨ht, hp⟩, rfl⟩ ?_ hnone hdb
      exact payloadBytes_ofFields (by simp [userFields])
  | loggedIn ht => exact hother _ (by rw [ht]; decide)
  | announced ht =>
    rw [(s.deliverAll_frame _ _).1]
    exact hother _ (by rw [ht]; decide)

/-- A login agrees with the registrations if no NUL finds a row. -/
theorem Accounts.loginAgrees (h : Accounts s.db log)
    (hnul : Served.NulFree ⟨c, frame, (s.dispatch c (parseMessage frame) {}).2, s.view, {}⟩) :
    LoginAgrees log ⟨c, frame, (s.dispatch c (parseMessage frame) {}).2, s.view, {}⟩ := by
  rintro credentials ⟨ht, hp⟩
  have hlogin : s.dispatch c (parseMessage frame) {} = s.loginUser c (parseMessage frame) {} :=
    dispatch_login ht
  have hrc := loginUser_rc (c := c) h.inserted ht hp
  have hfree := (hnul credentials hp).2 ht
  rw [hlogin]
  refine ⟨⟨fun hok => ?_, ?_⟩, ?_⟩
  · have hmap := hrc.mp hok
    obtain ⟨row, hrow, hpw⟩ := Option.map_eq_some_iff.mp hmap
    obtain ⟨r', hr', hreg⟩ := h.registered row (List.mem_of_find?_eq_some hrow)
    have hlower : sqlLower row.username = cString (stringToLower credentials.username) := by
      simpa using List.find?_some hrow
    rw [cString_stringToLower, cString_eq_self (hfree hmap), sqlLower_eq] at hlower
    exact ⟨r', row.username, hr', hpw ▸ hreg, hlower⟩
  · rintro ⟨r', username, hr', hreg, hlower⟩
    obtain ⟨row, hrow, _, hpw, _⟩ := h.lookup_of_registers hr' hreg hlower
    apply hrc.mpr
    rw [hrow, Option.map_some, hpw]
  · intro r' username hr' hreg hlower
    obtain ⟨row, hrow, rfl, hpw, hreport⟩ := h.lookup_of_registers hr' hreg hlower
    refine ⟨UInt32.ofNat row.id, hreport, ?_⟩
    unfold Served.Reports
    rw [loginUser_granted h.inserted hp hrow hpw]
    exact payloadBytes_ofFields (by simp)

end Serve

/-! ## Every run -/

theorem Step.accounts {s t : Server} {c : Nat} (hst : Step c s t) (hs : Accounts s.db s.log)
    (hsafe : ∀ r, .served r ∈ t.log → r.sql = {} ∧ r.NulFree) :
    Accounts t.db t.log ∧ (AtEach LoginAgrees s.log → AtEach LoginAgrees t.log) := by
  rcases hst.log with ⟨ks, hlog, hdb⟩ | ⟨n, o, _, _, rfl⟩
  · rw [hlog, hdb]
    exact ⟨hs.append_sys ks, fun h => h.append_sys ks⟩
  · obtain ⟨dests, hlog⟩ := log_serve s c ((s.slot c).incoming.take n)
      ((s.slot c).incoming.drop n) o
    rw [hlog] at hsafe
    obtain ⟨hsql, hnul⟩ := hsafe _ (List.mem_append_right _ List.mem_cons_self)
    obtain rfl : o = {} := hsql
    have hold := hs.append_sys (dests.map fun d => EdgeTrigger.Syscall.modify d .output)
    rw [hlog, map_modify, db_serve]
    exact ⟨hold.serve (dispatch_handled _ _ _ _) hnul,
      fun h => (h.append_sys _).append_served (hold.loginAgrees hnul)⟩

theorem Steps.accounts {capacity listenfd : Nat} {s : Server}
    (h : Steps (Server.boot capacity listenfd .empty) s)
    (hsafe : ∀ r, .served r ∈ s.log → r.sql = {} ∧ r.NulFree) :
    Accounts s.db s.log ∧ AtEach LoginAgrees s.log := by
  induction h with
  | refl => exact ⟨accounts_empty, atEach_nil _⟩
  | @tail s t _ hst ih =>
    obtain ⟨c, hst⟩ := hst
    obtain ⟨hs, hagree⟩ := ih fun r hr => hsafe r (hst.log_grows.subset hr)
    obtain ⟨ht, hkeep⟩ := hst.accounts hs hsafe
    exact ⟨ht, hkeep hagree⟩

/-- **Registration and login agree while no NUL reaches the table.** From an empty table, in
every run whose SQLite calls succeed and whose REGISTER and LOGIN requests put no NUL into the
table and find no row through one: a LOGIN is answered `RESP_OK` if and only if an earlier
REGISTER with that password, and with that username up to ASCII case, was answered `RESP_OK`,
and both responses report one account. -/
theorem register_login_agreement {capacity listenfd : Nat} {s : Server}
    (h : Reaches (Server.boot capacity listenfd .empty) s)
    (hsql : ∀ r, .served r ∈ s.log → r.sql = {})
    (hnul : ∀ r, .served r ∈ s.log → r.NulFree) :
    AtEach LoginAgrees s.log :=
  (h.steps.accounts fun r hr => ⟨hsql r hr, hnul r hr⟩).2

/-- In the run with two accounts, the login on connection 6 agrees. -/
theorem register_login_agreement_two :
    let s := (Server.boot 8 3 .empty).iterate twoSignedIn
    AtEach LoginAgrees s.log ∧ (lastLogin 6 s.log).isSome = true := by
  intro s
  have hsql : ∀ r, .served r ∈ s.log → r.sql = {} := by decide +kernel
  have hnul : ∀ r, .served r ∈ s.log → r.NulFree := by decide +kernel
  exact ⟨register_login_agreement reaches_twoSignedIn hsql hnul, by decide +kernel⟩

/-- A REGISTER and a LOGIN with the username `x` and the password `a`, NUL, `b`: the first is
answered `RESP_OK`, the second `RESP_ERROR_INVALID_CREDENTIALS`. -/
theorem login_after_nul_rejected :
    let s := (accepted INITIAL_CAPACITY).iterate (.ready [⟨5, false,
      { reads := [.bytes ([1, 0, 0, 0, 0, 0, 8, 0, 1, 120, 1, 3, 97, 0, 98] ++
        [1, 1, 0, 0, 0, 0, 8, 0, 1, 120, 1, 3, 97, 0, 98])] }⟩])
    Reaches (Server.boot INITIAL_CAPACITY 3 .empty) s ∧
      (∀ r, .served r ∈ s.log → r.sql = {}) ∧ ¬ AtEach LoginAgrees s.log := by
  intro s
  refine ⟨.tail (reaches_accepted _) ⟨_, by simp [Wait.Legal, Event.Legal], rfl⟩,
    by decide +kernel, fun hagree => ?_⟩
  have hregister : ∃ r, .served r ∈ s.log.take 5 ∧
      r.Asks .register ⟨[120], [97, 0, 98]⟩ ∧ r.response.rc = 0 := by decide +kernel
  have hlogin : ∃ r, .served r ∈ (s.log.drop 5).take 1 ∧
      r.Asks .login ⟨[120], [97, 0, 98]⟩ ∧ r.response.rc = 4 := by decide +kernel
  obtain ⟨first, hfirst, hregistered⟩ := hregister
  obtain ⟨second, hsecond, hasks, hrejected⟩ := hlogin
  cases hdrop : s.log.drop 5 with
  | nil =>
    rw [hdrop] at hsecond
    cases hsecond
  | cons e rest =>
    rw [hdrop] at hsecond
    obtain rfl := List.mem_singleton.mp hsecond
    have hlog : s.log = s.log.take 5 ++ .served second :: rest := by
      rw [← hdrop, List.take_append_drop]
    have hrc := (hagree _ _ _ hlog _ hasks).1.mpr ⟨first, [120], hfirst, hregistered, rfl⟩
    rw [hrejected] at hrc
    exact absurd hrc (by decide)

end ChatServer
