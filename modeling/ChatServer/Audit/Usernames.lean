import ChatServer.Audit.Accounts

/-!
# One account for each username

The `UNIQUE` constraint of the table compares bytes, so that usernames are unique up to case
rests on the look-up before each insertion: on the lowering of the argument, `LOWER` of the
stored names, and the cut at the first NUL. A look-up whose step fails is reported as one that
found nothing, and the constraint alone then guards the table.
-/

namespace ChatServer

/-- Equal up to the case of ASCII letters. -/
def SameName (a b : Bytes) : Prop := stringToLower a = stringToLower b

instance (a b : Bytes) : Decidable (SameName a b) := inferInstanceAs (Decidable (_ = _))

/-- A row has the username that this one is bound as. -/
def Db.Taken (db : Db) (username : Bytes) : Prop :=
  ∃ row ∈ db.rows, SameName row.username (cString username)

def Db.UniqueNames (db : Db) : Prop :=
  db.rows.Pairwise fun row row' => ¬ SameName row.username row'.username

/-- For every argument, the `SELECT` of `get_user_by_username` matches at most one row. -/
def Db.MatchesOnce (db : Db) : Prop :=
  ∀ username, (db.rows.filter fun row => sqlLower row.username = cString username).length ≤ 1

instance (db : Db) (username : Bytes) : Decidable (db.Taken username) :=
  inferInstanceAs (Decidable (∃ _ ∈ _, _))

instance (db : Db) : Decidable db.UniqueNames := inferInstanceAs (Decidable (List.Pairwise _ _))

/-! ## The look-up -/

theorem lookup_eq_none {db : Db} {username : Bytes} :
    db.lookup username = none ↔ ¬ db.Taken username := by
  unfold Db.lookup Db.Taken
  rw [List.find?_eq_none, cString_stringToLower]
  simp only [decide_eq_true_eq, not_exists, not_and]
  exact Iff.rfl

theorem taken_iff {db : Db} {username : Bytes} :
    db.Taken username ↔ ∃ row, db.lookup username = some row := by
  rw [← Option.isSome_iff_exists, ← not_iff_not, ← lookup_eq_none, Option.not_isSome_iff_eq_none]

/-- With unique names, at most one row can match. -/
theorem Db.UniqueNames.matchesOnce {db : Db} (h : db.UniqueNames) : db.MatchesOnce := by
  intro username
  have hpair := h.filter fun row => sqlLower row.username = cString username
  have hmem : ∀ row ∈ db.rows.filter fun row => sqlLower row.username = cString username,
      stringToLower row.username = cString username := by
    intro row hrow
    exact of_decide_eq_true (List.mem_filter.mp hrow).2
  generalize (db.rows.filter fun row => sqlLower row.username = cString username) = rows
    at hpair hmem
  cases rows with
  | nil => exact Nat.zero_le 1
  | cons row rows =>
    cases rows with
    | nil => exact Nat.le_refl 1
    | cons row' rows =>
      have hsame := (hmem row (by simp)).trans (hmem row' (by simp)).symm
      exact absurd hsame ((List.pairwise_cons.mp hpair).1 row' List.mem_cons_self)

theorem Db.UniqueNames.insert {db : Db} (h : db.UniqueNames) {row : Row} {seq : Nat}
    (hfree : ∀ row' ∈ db.rows, ¬ SameName row'.username row.username) :
    Db.UniqueNames ⟨db.rows ++ [row], seq⟩ := by
  refine List.pairwise_append.mpr ⟨h, List.pairwise_singleton _ _, ?_⟩
  intro row' hrow' new hnew
  obtain rfl := List.mem_singleton.mp hnew
  exact hfree row' hrow'

/-- The `SELECT` cannot be prepared, or its step fails. -/
def SqlOutcome.LookupFails (o : SqlOutcome) : Prop :=
  o.selectPrepare ≠ none ∨ o.selectStep ≠ none

/-- If the `SELECT` can be prepared, its step does not fail. -/
def SqlOutcome.StepReported (o : SqlOutcome) : Prop :=
  o.selectPrepare = none → o.selectStep = none

instance (o : SqlOutcome) : Decidable o.LookupFails := inferInstanceAs (Decidable (_ ∨ _))

instance (o : SqlOutcome) : Decidable o.StepReported := inferInstanceAs (Decidable (_ → _))

section Lookup

variable {db : Db} {username : Bytes} {user : User} {o : SqlOutcome}

theorem getUserByUsername_unprepared (h : o.selectPrepare ≠ none) :
    (getUserByUsername db username user o).1 = -1 := by
  obtain ⟨code, hcode⟩ := Option.ne_none_iff_exists'.mp h
  simp [getUserByUsername, sqlite3Prepare, hcode]

/-- A step that fails is reported as one that found nothing. -/
theorem getUserByUsername_stepFailed (h : o.selectPrepare = none) (hs : o.selectStep ≠ none) :
    (getUserByUsername db username user o).1 = 0 := by
  obtain ⟨code, hcode⟩ := Option.ne_none_iff_exists'.mp hs
  simp [getUserByUsername, sqlite3Prepare, Db.select, h, hcode]

theorem getUserByUsername_taken (h : ¬ o.LookupFails) (ht : db.Taken username) :
    (getUserByUsername db (stringToLower username) user o).1 = 1 := by
  obtain ⟨row, hrow⟩ := taken_iff.mp ht
  simp only [SqlOutcome.LookupFails, not_or, not_not] at h
  unfold Db.lookup at hrow
  simp [getUserByUsername, sqlite3Prepare, Db.select, h.1, h.2, hrow]

theorem getUserByUsername_free (h : ¬ o.LookupFails) (hf : ¬ db.Taken username) :
    (getUserByUsername db (stringToLower username) user o).1 = 0 := by
  have hnone := lookup_eq_none.mpr hf
  simp only [SqlOutcome.LookupFails, not_or, not_not] at h
  unfold Db.lookup at hnone
  simp [getUserByUsername, sqlite3Prepare, Db.select, h.1, h.2, hnone]

/-- Without a failing step, 0 means that no row matches. -/
theorem not_taken_of_rc {credentials : Credentials} (ho : o.StepReported)
    (h : (getUserByUsername db (stringToLower credentials.username) user o).1 = 0) :
    ¬ db.Taken credentials.username := by
  intro ht
  by_cases hp : o.selectPrepare = none
  · rw [getUserByUsername_taken (fun hf => hf.elim (· hp) (· (ho hp))) ht] at h
    exact absurd h (by decide)
  · rw [getUserByUsername_unprepared hp] at h
    exact absurd h (by decide)

end Lookup

/-! ## One request -/

section Request

variable {s : Server} {c : Nat} {request : Message} {credentials : Credentials} {o : SqlOutcome}

theorem registerUser_taken (hp : parseRegisterRequest request = .ok credentials)
    (h : (getUserByUsername s.db (stringToLower credentials.username) .empty o).1 = 1) :
    s.registerUser request o =
      (s, buildServerResponse MsgType.register.code ResponseCode.userExists.code none 0) := by
  simp only [Server.registerUser, hp, h, ↓reduceIte]

theorem registerUser_lookupFailed (hp : parseRegisterRequest request = .ok credentials)
    (h : (getUserByUsername s.db (stringToLower credentials.username) .empty o).1 = -1) :
    s.registerUser request o =
      (s, buildServerResponse MsgType.register.code ResponseCode.internal.code none 0) := by
  have hne : ¬ ((-1 : Int) = 1) := by decide
  simp only [Server.registerUser, hp, h, hne, ↓reduceIte]

/-- With a free name and no failure the row is inserted: the constraint is not tripped. -/
theorem registerUser_free (hp : parseRegisterRequest request = .ok credentials)
    (h : ¬ s.db.Taken credentials.username) :
    s.registerUser request {} =
      (s.setDb ⟨s.db.rows ++
          [⟨s.db.seq + 1, cString credentials.username, cString credentials.password⟩],
          s.db.seq + 1⟩,
        .ofFields .register (userFields
          ⟨UInt32.ofNat (s.db.seq + 1), credentials.username, credentials.password⟩)) := by
  have hfails : ¬ SqlOutcome.LookupFails {} := by decide
  have hrc := @getUserByUsername_free s.db credentials.username .empty {} hfails h
  have hnew : s.db.rows.any (fun row => row.username = cString credentials.username) = false := by
    rw [List.any_eq_false]
    intro row hrow he
    exact h ⟨row, hrow, congrArg stringToLower (of_decide_eq_true he)⟩
  have hins : insertUser s.db ⟨0, credentials.username, credentials.password⟩ {} =
      (0, ⟨UInt32.ofNat (s.db.seq + 1), credentials.username, credentials.password⟩,
        ⟨s.db.rows ++ [⟨s.db.seq + 1, cString credentials.username, cString credentials.password⟩],
          s.db.seq + 1⟩) := by
    simp [insertUser, Db.insert, sqlite3Prepare, hnew]
  have h1 : ¬ ((0 : Int) = 1) := by decide
  have h2 : ¬ ((0 : Int) = -1) := by decide
  simp only [Server.registerUser, hp, hrc, hins, h1, h2, ↓reduceIte, ne_eq, not_true_eq_false,
    buildRegisterResponse, buildUserResponse_eq]

theorem loginUser_lookupFailed (hp : parseLoginRequest request = .ok credentials)
    (h : (getUserByUsername s.db (stringToLower credentials.username) .empty o).1 = -1) :
    s.loginUser c request o =
      (s, buildServerResponse MsgType.login.code ResponseCode.internal.code none 0) := by
  have h1 : ((-1 : Int) ≠ 1) := by decide
  have h2 : ¬ ((-1 : Int) = 0) := by decide
  simp only [Server.loginUser, hp, h, if_pos h1, if_neg h2]

theorem loginUser_found (hp : parseLoginRequest request = .ok credentials)
    (h : (getUserByUsername s.db (stringToLower credentials.username) .empty o).1 = 1) :
    (s.loginUser c request o).2.rc ≠ ResponseCode.userNotFound.byte := by
  have h1 : ¬ ((1 : Int) ≠ 1) := by decide
  simp only [Server.loginUser, hp, h, if_neg h1]
  split
  · exact fun he => absurd (show (4 : UInt8) = 3 from he) (by decide)
  · rw [buildLoginResponse, buildUserResponse_eq]
    exact fun he => absurd (show (0 : UInt8) = 3 from he) (by decide)

/-- A request inserts at most one row, and if no failing step is hidden its name is new. -/
theorem Handled.inserts {r : Server × Message} (h : Handled s c request o r)
    (ho : o.StepReported) :
    r.1.db = s.db ∨ ∃ row seq, r.1.db = ⟨s.db.rows ++ [row], seq⟩ ∧
      ∀ row' ∈ s.db.rows, ¬ SameName row'.username row.username := by
  cases h with
  | rejected => exact .inl rfl
  | @registered credentials user db _ _ hfree hins =>
    rcases insertUser_cases s.db ⟨0, credentials.username, credentials.password⟩ o with
      ⟨hfail, _⟩ | ⟨_, hnew⟩
    · rw [hins] at hfail
      exact absurd (show (0 : Int) = -1 from hfail) (by decide)
    · obtain ⟨_, _, rfl⟩ := hins.symm.trans hnew
      exact .inr ⟨_, _, rfl, fun row' hrow' he => not_taken_of_rc ho hfree ⟨row', hrow', he⟩⟩
  | loggedIn => exact .inl rfl
  | announced => exact .inl (s.deliverAll_frame _ _).1

end Request

/-! ## Every run -/

section Runs

variable {s t : Server} {c : Nat}

theorem Step.uniqueNames (hst : Step c s t) (hs : s.db.UniqueNames)
    (hsafe : ∀ r, .served r ∈ t.log → r.sql.StepReported) : t.db.UniqueNames := by
  rcases hst.log with ⟨_, _, hdb⟩ | ⟨n, o, _, _, rfl⟩
  · rw [hdb]
    exact hs
  · rw [log_served] at hsafe
    have ho := hsafe _ (List.mem_append_right _ List.mem_cons_self)
    rw [db_serve]
    rcases (dispatch_handled s c (parseMessage ((s.slot c).incoming.take n)) o).inserts ho with
      h | ⟨row, seq, h, hfree⟩
    · rw [h]
      exact hs
    · rw [h]
      exact hs.insert hfree

/-- While no failing step is hidden, usernames stay unique up to case. -/
theorem Steps.uniqueNames (h : Steps s t) (hs : s.db.UniqueNames)
    (hsafe : ∀ r, .served r ∈ t.log → r.sql.StepReported) : t.db.UniqueNames := by
  induction h with
  | refl => exact hs
  | @tail t u _ hst ih =>
    obtain ⟨c, hst⟩ := hst
    exact hst.uniqueNames (ih fun r hr => hsafe r (hst.log_grows.subset hr)) hsafe

end Runs

/-- The request that `try_one_request` serves next on `c`. -/
def Server.pending (s : Server) (c : Nat) : Message :=
  parseMessage (firstFrame (s.slot c).incoming)

theorem tryOneRequest_pending {s s' : Server} {c : Nat} {o : SqlOutcome}
    (h : s.tryOneRequest c o = (s', true)) :
    s'.db = (s.dispatch c (s.pending c) o).1.db ∧
      ∀ j, j ≠ c → s'.slot j = (s.dispatch c (s.pending c) o).1.slot j := by
  obtain ⟨n, hcut, rfl⟩ := s.tryOneRequest_true c o h
  have hframe : (s.slot c).incoming.take n = firstFrame (s.slot c).incoming := by
    rw [(requestCut_eq_take.mp hcut).2.2.1]
    rfl
  rw [db_serve, hframe]
  refine ⟨rfl, fun j hj => ?_⟩
  rw [slot_serve, if_neg hj]
  rfl

/-- A REGISTER is refused exactly if its name is taken, and otherwise adds one row. -/
structure RegisterDecides (db db' : Db) (credentials : Credentials) (response : Message) :
    Prop where
  refused : response.rc = ResponseCode.userExists.byte ↔ db.Taken credentials.username
  taken : db.Taken credentials.username → db' = db
  free : ¬ db.Taken credentials.username → response.rc = ResponseCode.ok.byte ∧
    ∃ id, db'.rows =
      db.rows ++ [⟨id, cString credentials.username, cString credentials.password⟩]

theorem registerUser_decides {s : Server} {request : Message} {credentials : Credentials}
    (hp : parseRegisterRequest request = .ok credentials) :
    RegisterDecides s.db (s.registerUser request {}).1.db credentials
      (s.registerUser request {}).2 := by
  by_cases ht : s.db.Taken credentials.username
  · rw [registerUser_taken hp (getUserByUsername_taken (by decide) ht)]
    exact ⟨⟨fun _ => ht, fun _ => rfl⟩, fun _ => rfl, fun hf => absurd ht hf⟩
  · rw [registerUser_free hp ht]
    refine ⟨⟨fun he => ?_, fun h => absurd h ht⟩, fun h => absurd h ht, fun _ => ⟨rfl, _, rfl⟩⟩
    exact absurd (show (0 : UInt8) = 2 from he) (by decide)

theorem uniqueNames_empty : Db.UniqueNames .empty := List.Pairwise.nil

/-- **Accounts are unique up to the case of their names.** In every run from an empty table
whose SQLite calls succeed: no two rows have one username up to ASCII case, so that a look-up
matches at most one row; a well-formed REGISTER is answered `RESP_ERROR_USER_EXISTS` if and only
if a row has its username up to case, and otherwise adds one row and is answered `RESP_OK`. -/
theorem accounts_unique (capacity listenfd : Nat) :
    (∀ s, Reaches (Server.boot capacity listenfd .empty) s →
      (∀ r, .served r ∈ s.log → r.sql = {}) →
      s.db.UniqueNames ∧ s.db.MatchesOnce) ∧
    ∀ s c s', AtRequest (Server.boot capacity listenfd .empty) c s →
      (∀ r, .served r ∈ s.log → r.sql = {}) → s.tryOneRequest c {} = (s', true) →
      s.db.UniqueNames ∧ s.db.MatchesOnce ∧ s'.db.UniqueNames ∧
        ∀ credentials, (s.pending c).type = MsgType.register.code →
          parseRegisterRequest (s.pending c) = .ok credentials →
          RegisterDecides s.db s'.db credentials (s.dispatch c (s.pending c) {}).2 := by
  have hsafe : ∀ {s : Server}, (∀ r, .served r ∈ s.log → r.sql = {}) →
      ∀ r, .served r ∈ s.log → r.sql.StepReported := by
    intro s hsql r hr
    rw [hsql r hr]
    decide
  constructor
  · intro s hs hsql
    have hunique := hs.steps.uniqueNames uniqueNames_empty (hsafe hsql)
    exact ⟨hunique, hunique.matchesOnce⟩
  · intro s c s' hs hsql h
    have hunique := hs.steps.1.uniqueNames uniqueNames_empty (hsafe hsql)
    have hdb := (tryOneRequest_pending h).1
    refine ⟨hunique, hunique.matchesOnce, ?_, fun credentials ht hp => ?_⟩
    · rw [hdb]
      rcases (dispatch_handled s c (s.pending c) {}).inserts (by decide) with h | ⟨_, _, h, hfree⟩
      · rw [h]
        exact hunique
      · rw [h]
        exact hunique.insert hfree
    · rw [hdb, dispatch_register ht]
      exact registerUser_decides hp

/-- A REGISTER of the username `x`, with the password `x`. -/
def registerFrame (x : UInt8) : Bytes := [1, 0, 0, 0, 0, 0, 6, 0, 1, x, 1, 1, x]

/-- With "a" and "b" registered, a REGISTER of "A" is refused. -/
theorem accounts_unique_refused :
    let s := (((Server.boot 8 3 .empty).iterate twoSignedIn).readAvailable 5
      [.bytes (registerFrame 65)]).1
    RegisterDecides s.db (s.tryOneRequest 5 {}).1.db ⟨[65], [65]⟩
      (s.dispatch 5 (s.pending 5) {}).2 ∧ s.db.Taken [65] := by
  intro s
  have hat : AtRequest (Server.boot 8 3 .empty) 5 s := atRequest_twoSignedIn _ _
  have hserved : (s.tryOneRequest 5 {}).2 = true := by decide +kernel
  have htry : s.tryOneRequest 5 {} = ((s.tryOneRequest 5 {}).1, true) := by
    rw [← hserved]
  have hsql : ∀ r, .served r ∈ s.log → r.sql = {} := by decide +kernel
  have hdecides := ((accounts_unique 8 3).2 s 5 _ hat hsql htry).2.2.2 ⟨[65], [65]⟩
    (by decide +kernel) (by decide +kernel)
  exact ⟨hdecides, by decide +kernel⟩

/-! ## Failing look-ups -/

/-- What the header of `get_user_by_username` promises: 1 for a row, 0 for a query that ran
to its end without one, and -1 for any error. -/
structure LookupContract (db : Db) (username : Bytes) (user : User) (o : SqlOutcome) : Prop where
  found : (getUserByUsername db username user o).1 = 1 ↔
    sqlite3Prepare o.selectPrepare = .ok ∧ (db.select (cString username) o.selectStep).1 = .row
  missing : (getUserByUsername db username user o).1 = 0 ↔
    sqlite3Prepare o.selectPrepare = .ok ∧ (db.select (cString username) o.selectStep).1 = .done
  failed : (getUserByUsername db username user o).1 = -1 ↔
    sqlite3Prepare o.selectPrepare ≠ .ok ∨
      ∃ code, (db.select (cString username) o.selectStep).1 = .error code

theorem lookupContract_iff (db : Db) (username : Bytes) (user : User) (o : SqlOutcome) :
    LookupContract db username user o ↔ o.StepReported := by
  cases hp : o.selectPrepare with
  | some code =>
    have hne : o.selectPrepare ≠ none := by simp [hp]
    have hrc := @getUserByUsername_unprepared db username user o hne
    refine ⟨fun _ h => by simp [hp] at h, fun _ => ⟨?_, ?_, ?_⟩⟩ <;>
      simp [hrc, hp, sqlite3Prepare]
  | none =>
    cases hs : o.selectStep with
    | some code =>
      have hne : o.selectStep ≠ none := by simp [hs]
      have hrc := @getUserByUsername_stepFailed db username user o hp hne
      refine ⟨fun h => ?_, fun h => absurd (hs.symm.trans (h hp)) (Option.some_ne_none code)⟩
      have hdone := (h.missing.mp hrc).2
      rw [hs] at hdone
      cases hdone
    | none =>
      refine ⟨fun _ _ => hs, fun _ => ?_⟩
      cases hf : db.rows.find? (fun r => sqlLower r.username = cString username) with
      | none =>
        constructor <;> simp [getUserByUsername, Db.select, sqlite3Prepare, hp, hs, hf]
      | some row =>
        constructor <;> simp [getUserByUsername, Db.select, sqlite3Prepare, hp, hs, hf]

/-- A request served took no failing look-up for an absent user: a LOGIN for a stored username
is not answered `RESP_ERROR_USER_NOT_FOUND`, a request whose look-up failed is answered
`RESP_ERROR_INTERNAL`, and no username is inserted that is there up to case. -/
structure LookupsHonoured (db db' : Db) (request response : Message) (o : SqlOutcome) : Prop where
  stored : ∀ credentials, request.type = MsgType.login.code →
    parseLoginRequest request = .ok credentials → db.Taken credentials.username →
    response.rc ≠ ResponseCode.userNotFound.byte
  failed : ∀ credentials,
    request.type = MsgType.register.code ∨ request.type = MsgType.login.code →
    parseCredentials request = .ok credentials → o.LookupFails →
    response.rc = ResponseCode.internal.byte
  fresh : ∀ row ∈ db'.rows, row ∈ db.rows ∨
    ∀ row' ∈ db.rows, ¬ SameName row'.username row.username

section Honoured

variable {s : Server} {c : Nat} {request : Message} {credentials : Credentials} {o : SqlOutcome}

theorem dispatch_lookupsHonoured (ho : o.StepReported) :
    LookupsHonoured s.db (s.dispatch c request o).1.db request (s.dispatch c request o).2 o := by
  refine ⟨fun credentials ht hp htaken => ?_, fun credentials ht hp hfails => ?_, fun row hrow => ?_⟩
  · rw [dispatch_login ht]
    by_cases hprep : o.selectPrepare = none
    · exact loginUser_found hp
        (getUserByUsername_taken (fun hf => hf.elim (· hprep) (· (ho hprep))) htaken)
    · rw [loginUser_lookupFailed hp (getUserByUsername_unprepared hprep)]
      exact fun he => absurd (show (5 : UInt8) = 3 from he) (by decide)
  · have hprep : o.selectPrepare ≠ none := hfails.elim id fun hstep hnone => hstep (ho hnone)
    rcases ht with ht | ht
    · rw [dispatch_register ht, registerUser_lookupFailed hp (getUserByUsername_unprepared hprep)]
      rfl
    · rw [dispatch_login ht, loginUser_lookupFailed hp (getUserByUsername_unprepared hprep)]
      rfl
  · rcases (dispatch_handled s c request o).inserts ho with h | ⟨new, seq, h, hfree⟩
    · rw [h] at hrow
      exact .inl hrow
    · rw [h] at hrow
      rcases List.mem_append.mp hrow with hold | hnew
      · exact .inl hold
      · obtain rfl := List.mem_singleton.mp hnew
        exact .inr hfree

end Honoured

/-- **A failed look-up passes for an absent user exactly if it fails at the step.** The return
code is the documented one if and only if the step of a prepared `SELECT` does not fail. In
every run, every request for which that holds is answered and stored as it should be, and if it
holds for all of them usernames stay unique up to case. -/
theorem lookup_failures_reported (capacity listenfd : Nat) (db : Db) :
    (∀ username user o, LookupContract db username user o ↔ o.StepReported) ∧
    (∀ s c s' o, AtRequest (Server.boot capacity listenfd db) c s →
      s.tryOneRequest c o = (s', true) → o.StepReported →
      LookupsHonoured s.db s'.db (s.pending c) (s.dispatch c (s.pending c) o).2 o) ∧
    ∀ s, Reaches (Server.boot capacity listenfd db) s → db.UniqueNames →
      (∀ r, .served r ∈ s.log → r.sql.StepReported) → s.db.UniqueNames := by
  refine ⟨lookupContract_iff db, fun s c s' o _ h ho => ?_,
    fun s hs hdb hsafe => hs.steps.uniqueNames hdb hsafe⟩
  rw [(tryOneRequest_pending h).1]
  exact dispatch_lookupsHonoured ho

/-- With "a" and "b" registered, a REGISTER whose `SELECT` cannot be prepared is answered
`RESP_ERROR_INTERNAL`. -/
theorem lookup_failures_reported_prepare :
    let s := (((Server.boot 8 3 .empty).iterate twoSignedIn).readAvailable 5
      [.bytes (registerFrame 65)]).1
    (s.dispatch 5 (s.pending 5) { selectPrepare := some 5 }).2.rc = ResponseCode.internal.byte := by
  intro s
  have hat : AtRequest (Server.boot 8 3 .empty) 5 s := atRequest_twoSignedIn _ _
  have hserved : (s.tryOneRequest 5 { selectPrepare := some 5 }).2 = true := by decide +kernel
  have htry : s.tryOneRequest 5 { selectPrepare := some 5 } =
      ((s.tryOneRequest 5 { selectPrepare := some 5 }).1, true) := by
    rw [← hserved]
  have hhonoured := (lookup_failures_reported 8 3 .empty).2.1 s 5 _ _ hat htry (by decide)
  exact hhonoured.failed ⟨[65], [65]⟩ (.inl (by decide +kernel)) (by decide +kernel) (by decide)

/-- "X" registers. While the step of each `SELECT` reports `SQLITE_BUSY`, "x" registers too, and
the login of "X" is answered `RESP_ERROR_USER_NOT_FOUND`. -/
theorem busy_lookup_passes_for_absent :
    let s := (accepted INITIAL_CAPACITY).iterate (.ready [⟨5, false,
      { reads := [.bytes (registerFrame 88 ++ registerFrame 120 ++
          [1, 1, 0, 0, 0, 0, 6, 0, 1, 88, 1, 1, 88])]
        sql := [{}, { selectStep := some 5 }, { selectStep := some 5 }] }⟩])
    Reaches (Server.boot INITIAL_CAPACITY 3 .empty) s ∧
      s.db.rows.map Row.username = [[88], [120]] ∧ ¬ s.db.UniqueNames ∧
      (∃ r, .served r ∈ s.log ∧ r.Asks .login ⟨[88], [88]⟩ ∧ r.view.db = s.db ∧
        r.response.rc = ResponseCode.userNotFound.byte) ∧
      ¬ LookupContract s.db [120] .empty { selectStep := some 5 } := by
  intro s
  refine ⟨?_, ?_, ?_, ?_, fun h => ?_⟩
  · refine .tail (reaches_accepted _) ⟨_, ?_, rfl⟩
    simp [Wait.Legal, Event.Legal]
  · decide +kernel
  · decide +kernel
  · decide +kernel
  · exact absurd ((lookupContract_iff _ _ _ _).mp h rfl) (by decide)

end ChatServer
