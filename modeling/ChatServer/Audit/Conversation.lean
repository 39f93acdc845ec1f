import ChatServer.Audit.Network

/-!
# What the users of the network can rely on

The claims of a client's screen are about what other people typed. Along every run of the server
and its clients, each request is served once and in the order it was typed; each line that a
client shows has one request as its cause; and a name shown was proved by its password.
-/

namespace ChatServer

open Chat (placesOf)

theorem forall₂_getElem? {α β : Type*} {R : α → β → Prop} {as : List α} {bs : List β}
    (h : List.Forall₂ R as bs) {k : Nat} {b : β} (hk : bs[k]? = some b) :
    ∃ a, as[k]? = some a ∧ R a b := by
  induction h generalizing k with
  | nil => cases hk
  | cons hr _ ih =>
    cases k with
    | zero =>
      cases hk
      exact ⟨_, rfl, hr⟩
    | succ k => exact ih hk

/-- The requests contain a login with the password of the account of this name. -/
def LogsIn (db : Db) (asks : List Ask) (name : Bytes) : Prop :=
  ∃ row ∈ db.rows, row.username = name ∧ ∃ credentials : Credentials,
    .login credentials ∈ asks ∧ credentials.password = row.password ∧
      stringToLower row.username = stringToLower (cString credentials.username)

/-- The request of client `c`, typed after these ones, accounts for the line that client `d`
shows. -/
inductive Network.Explains (n : Network) (d c : Nat) (before : List Ask) : Ask → Notice → Prop where
  | refused {q code} : d = c →
      Explains n d c before q (Client.initial.told (.refused (q.type.code, code))).2
  | registered {q row} : d = c → row ∈ n.server.db.rows → row.username = cString q.username →
      row.password = cString q.password →
      Explains n d c before (.register q)
        (.registered (printedId (UInt32.ofNat row.id)) row.username)
  | loggedIn {q row} : d = c → row ∈ n.server.db.rows →
      stringToLower row.username = stringToLower (cString q.username) →
      row.password = q.password →
      Explains n d c before (.login q)
        (.loggedIn (printedId (UInt32.ofNat row.id)) row.username)
  | world {b sender} : LogsIn n.server.db before sender →
      (∃ name, LogsIn n.server.db (n.peer d).typed name) →
      Explains n d c before (.world b) (printChatMessage sender [] b.messageContent)
  | p2p {b sender} : LogsIn n.server.db before sender →
      d = c ∨ LogsIn n.server.db (n.peer d).typed b.recipientUsername →
      sender ≠ b.recipientUsername →
      Explains n d c before (.p2p b)
        (printChatMessage sender b.recipientUsername b.messageContent)

namespace Network

/-- Each line that client `d` shows has its request in `causes`, given by client and place. -/
def Shows (n : Network) (d : Nat) (causes : List (Nat × Nat)) : Prop :=
  List.Forall₂ (fun x notice => ∃ q, (n.peer x.1).typed[x.2]? = some q ∧
    n.Explains d x.1 ((n.peer x.1).typed.take x.2) q notice) causes (n.peer d).shown

section Runs

variable {capacity listenfd : Nat} {db : Db} {n : Network}

/-! ## Requests -/

/-- Of the requests typed at a client the first are served, and nothing else is; the others are
in the server's buffer or on their way. -/
theorem Sound.requests (h : n.Sound capacity listenfd db) (c : Nat) :
    ∃ served waiting flying, (n.peer c).typed = served ++ waiting ∧
      requestsOn c n.server.log = served.map Ask.frame ∧
      (n.peer c).sent = bytesRead c n.server.log ++ flying ∧
      (n.server.slot c).incoming ++ flying <+: Ask.stream waiting ∧
      ((n.peer c).failed = false →
        (n.server.slot c).incoming ++ flying = Ask.stream waiting) := by
  have hframes : ∀ f ∈ (n.peer c).typed.map Ask.frame, CompleteFrame f := by
    intro f hf
    obtain ⟨q, _, rfl⟩ := List.mem_map.mp hf
    exact q.completeFrame
  have hfirst := h.reaches.steps.requests_first c hframes
    ((h.delivered c).trans (h.sends c).sent)
  obtain ⟨served, ⟨waiting, htyped⟩, hserved⟩ := List.prefix_map_iff.mp hfirst
  obtain ⟨flying, hflying⟩ := h.delivered c
  have hin := (h.reaches.steps.whole c).2
  have hstream : Ask.stream (n.peer c).typed =
      (requestsOn c n.server.log).flatten ++ Ask.stream waiting := by
    rw [← htyped, Ask.stream_append, hserved]
    rfl
  have hsent : (n.peer c).sent = (requestsOn c n.server.log).flatten ++
      ((n.server.slot c).incoming ++ flying) := by
    rw [← hflying, hin, List.append_assoc]
  refine ⟨served, waiting, flying, htyped.symm, hserved, hflying.symm, ?_, fun hok => ?_⟩
  · have hpart := (h.sends c).sent
    rw [hstream, hsent] at hpart
    exact (List.prefix_append_right_inj _).mp hpart
  · have hwhole := (h.sends c).whole hok
    rw [hstream, hsent] at hwhole
    exact List.append_cancel_left hwhole

/-- The events of a connection are the requests served, granted or refused. -/
theorem Sound.becomes (h : n.Sound capacity listenfd db) {c : Nat} {served waiting : List Ask}
    (htyped : (n.peer c).typed = served ++ waiting)
    (hserved : requestsOn c n.server.log = served.map Ask.frame) :
    List.Forall₂ (Ask.Becomes c) served (Chat.requestsOf c n.server.events) := by
  have hall := requestsOf_events c (h.reaches.steps.served_events)
  rw [hserved, List.forall₂_map_left_iff] at hall
  have hfits : ∀ q ∈ served, q.Fits := fun q hq =>
    (h.sends c).fits q (htyped ▸ List.mem_append_left _ hq)
  refine (List.forall₂_and_left (p := Ask.Fits) _ _).mpr ⟨hfits, hall⟩ |>.imp ?_
  rintro q e ⟨hq, r, rfl, hframe, he⟩
  exact Served.event_frame hq hframe he

end Runs

/-- The requests typed at a client are served in their order, each once, granted or refused, and
nothing else is. What is not served yet is in the server's buffer or on its way, unless a write
has failed; and when nothing is on its way and no complete frame is in the buffer, all are. -/
theorem requests_served_as_typed {capacity listenfd : Nat} {db : Db} {n : Network}
    (h : Moves (boot capacity listenfd db) n) (c : Nat) :
    ∃ served waiting flying, (n.peer c).typed = served ++ waiting ∧
      List.Forall₂ (Ask.Becomes c) served (Chat.requestsOf c n.server.events) ∧
      (n.peer c).sent = bytesRead c n.server.log ++ flying ∧
      (n.server.slot c).incoming ++ flying <+: Ask.stream waiting ∧
      ((n.peer c).failed = false →
        (n.server.slot c).incoming ++ flying = Ask.stream waiting ∧
        (flying = [] → (∀ k, requestCut (n.server.slot c).incoming ≠ .take k) → waiting = [])) := by
  have hsound := Moves.sound h
  obtain ⟨served, waiting, flying, htyped, hserved, hsent, hpart, hwhole⟩ := hsound.requests c
  refine ⟨served, waiting, flying, htyped, hsound.becomes htyped hserved, hsent, hpart,
    fun hok => ⟨hwhole hok, fun hflying hidle => ?_⟩⟩
  have hstream := hwhole hok
  rw [hflying, List.append_nil] at hstream
  cases waiting with
  | nil => rfl
  | cons q waiting =>
    have hfront : (n.server.slot c).incoming = q.frame ++ Ask.stream waiting := hstream
    exact absurd (hfront ▸ q.requestCut_frame_append (Ask.stream waiting)) (hidle _)

section Runs

variable {capacity listenfd : Nat} {db : Db} {n : Network}

/-! ## Places -/

/-- The request that an event was, with the requests typed before it. -/
theorem Sound.asked (h : n.Sound capacity listenfd db) {before : List ServiceEvent}
    {e : ServiceEvent} (hbefore : before ++ [e] <+: n.server.events) {c : Nat}
    (he : e.requester = some c) :
    let k := (Chat.requestsOf c before).length
    (∃ q, (n.peer c).typed[k]? = some q ∧ q.Becomes c e) ∧
      ∀ e' ∈ before, e'.requester = some c →
        ∃ q ∈ (n.peer c).typed.take k, q.Becomes c e' := by
  intro k
  obtain ⟨served, waiting, _, htyped, hserved, _⟩ := h.requests c
  have hall := h.becomes htyped hserved
  have hplace : Chat.requestsOf c before ++ [e] <+: Chat.requestsOf c n.server.events := by
    have hfilter := hbefore.filter fun e => e.requester = some c
    rwa [← Chat.requestsOf, Chat.requestsOf_snoc he, if_pos rfl] at hfilter
  obtain ⟨later, hlater⟩ := hplace
  rw [List.append_assoc] at hlater
  have hk : (Chat.requestsOf c n.server.events)[k]? = some e := by
    rw [← hlater, List.getElem?_append_right (Nat.le_refl _), Nat.sub_self]
    rfl
  obtain ⟨q, hq, hbecomes⟩ := forall₂_getElem? hall hk
  have hle : k ≤ served.length := by
    obtain ⟨hlt, _⟩ := List.getElem?_eq_some_iff.mp hq
    exact Nat.le_of_lt hlt
  refine ⟨⟨q, ?_, hbecomes⟩, fun e' he' hreq => ?_⟩
  · rw [htyped, List.getElem?_append_left (List.getElem?_eq_some_iff.mp hq).1]
    exact hq
  · have hfront := List.forall₂_take k hall
    rw [← hlater, List.take_left] at hfront
    obtain ⟨j, hj⟩ := List.getElem?_of_mem
      (List.mem_filter.mpr ⟨he', decide_eq_true hreq⟩ : e' ∈ Chat.requestsOf c before)
    obtain ⟨q', hq', hbecomes'⟩ := forall₂_getElem? hfront hj
    refine ⟨q', ?_, hbecomes'⟩
    rw [htyped, List.take_append_of_le_length hle]
    exact List.mem_of_getElem? hq'

/-! ## Causes -/

/-- An event of a connection is a request typed at its client. -/
theorem Sound.typed (h : n.Sound capacity listenfd db) {e : ServiceEvent}
    (he : e ∈ n.server.events) {c : Nat} (hreq : e.requester = some c) :
    ∃ q ∈ (n.peer c).typed, q.Becomes c e := by
  obtain ⟨before, after, hevents⟩ := List.append_of_mem he
  have hbefore : before ++ [e] <+: n.server.events := ⟨after, by simp [hevents]⟩
  obtain ⟨q, hq, hbecomes⟩ := (h.asked hbefore hreq).1
  exact ⟨q, List.mem_of_getElem? hq, hbecomes⟩

/-- Who proved to the service that the account is theirs typed its password. -/
theorem logsIn_of_proved {db : Db} {events : List ServiceEvent} {c : Nat} {name : Bytes}
    {asks : List Ask} (h : Chat.ProvedName serverRules db.accounts events c name)
    (hasks : ∀ e ∈ events, e.requester = some c → ∃ q ∈ asks, q.Becomes c e) :
    LogsIn db asks name := by
  obtain ⟨a, ha, hname, typed, hlogin, hmatch⟩ := h
  obtain ⟨row, hrow, rfl⟩ := List.mem_map.mp ha
  obtain ⟨q, hq, heq | ⟨_, heq⟩⟩ := hasks _ hlogin rfl
  · cases q with
    | login credentials =>
      obtain ⟨_, rfl, hkey⟩ := Chat.Event.login.inj heq
      exact ⟨row, hrow, hname, credentials, hq, hkey.symm, hmatch⟩
    | _ => cases heq
  · cases heq

theorem row_of_account {db : Db} {k : Nat} {a : Chat.Account Bytes Bytes}
    (h : db.accounts[k]? = some a) : ∃ row, db.rows[k]? = some row ∧ row.account = a := by
  rwa [Db.accounts, List.getElem?_map, Option.map_eq_some_iff] at h

/-- What put a reply into the mailbox of a connection explains the line that its client shows. -/
theorem Sound.explains (h : n.Sound capacity listenfd db) (hdb : InsertedOnly n.server.db)
    {d : Nat} {x : Nat × Nat} {p : Reply}
    (hcause : Chat.CausedBy serverRules n.server.db.accounts d n.server.events x p) :
    ∃ q, (n.peer x.1).typed[x.2]? = some q ∧
      n.Explains d x.1 ((n.peer x.1).typed.take x.2) q (Client.initial.told p).2 := by
  obtain ⟨before, e, hbefore, hreq, hplace, hc⟩ := hcause
  obtain ⟨⟨q, hq, hbecomes⟩, hearlier⟩ := h.asked hbefore hreq
  rw [← hplace] at hq hearlier
  have hproved : ∀ name, Chat.ProvedName serverRules n.server.db.accounts before x.1 name →
      LogsIn n.server.db ((n.peer x.1).typed.take x.2) name := fun name hp =>
    logsIn_of_proved hp hearlier
  have hsomewhere : ∀ name, Chat.ProvedName serverRules n.server.db.accounts before d name →
      LogsIn n.server.db (n.peer d).typed name := fun name hp =>
    logsIn_of_proved hp fun e' he' hr =>
      h.typed (hbefore.subset (List.mem_append_left _ he')) hr
  refine ⟨q, hq, ?_⟩
  cases hc with
  | refuse why =>
    cases hreq
    obtain heq | ⟨code, heq⟩ := hbecomes
    · cases q <;> cases heq
    · cases heq
      exact .refused rfl
  | register name key k hk =>
    cases hreq
    obtain ⟨row, hrow, haccount⟩ := row_of_account hk
    have hid : k + 1 = row.id := (hdb.numbered.id k row hrow).symm
    have hname : cString name = row.username := (congrArg Chat.Account.name haccount).symm
    obtain heq | ⟨code, heq⟩ := hbecomes
    · cases q with
      | register credentials =>
        cases heq
        simp only [Client.told, hid, hname]
        exact .registered rfl (List.mem_of_getElem? hrow) hname.symm
          (congrArg Chat.Account.key haccount)
      | _ => cases heq
    · cases heq
  | login name k a hk hm =>
    cases hreq
    obtain ⟨row, hrow, rfl⟩ := row_of_account hk
    have hmem := List.mem_of_getElem? hrow
    have hid : k + 1 = row.id := (hdb.numbered.id k row hrow).symm
    have hname : cString row.account.name = row.username := cString_eq_self (hdb.no_nul hmem).1
    obtain heq | ⟨code, heq⟩ := hbecomes
    · cases q with
      | login credentials =>
        obtain ⟨_, rfl, hkey⟩ := Chat.Event.login.inj heq
        simp only [Client.told, hid, hname]
        exact .loggedIn rfl hmem hm hkey
      | _ => cases heq
    · cases heq
  | toAll c sender text hc hd =>
    cases hreq
    obtain ⟨name, hname⟩ := hd
    obtain heq | ⟨code, heq⟩ := hbecomes
    · cases q with
      | world b =>
        cases heq
        exact .world (hproved _ hc) ⟨name, hsomewhere _ hname⟩
      | _ => cases heq
    · cases heq
  | toOne c sender recipient text hc hd hne =>
    cases hreq
    obtain heq | ⟨code, heq⟩ := hbecomes
    · cases q with
      | p2p b =>
        cases heq
        exact .p2p (hproved _ hc) (hd.imp_right (hsomewhere _)) hne
      | _ => cases heq
    · cases heq

/-- The line shown does not depend on the connection object. -/
theorem notices_eq_map (conn : Client) (ps : List Reply) :
    conn.notices ps = ps.map fun p => (Client.initial.told p).2 := by
  induction ps generalizing conn with
  | nil => rfl
  | cons p ps ih =>
    rw [Client.notices, ih, List.map_cons]
    congr 1
    cases p <;> rfl

/-- The client has read the first posts of a mailbox of the service. -/
theorem Sound.mailbox (h : n.Sound capacity listenfd db) (hdb : InsertedOnly db) :
    ∃ a : Service, Represents n.server a ∧ Chat.Sound serverRules a ∧
      Chat.Explained serverRules a n.server.events ∧
      ∀ d, ∃ done, done <+: a.mailbox d ∧ (n.peer d).Read done := by
  obtain ⟨a, hrun, hrep⟩ :=
    (h.reaches.steps.represents hdb False.elim : ∃ a, Chat.Run serverRules False _ _ a ∧ _)
  exact ⟨a, hrep, hrun.sound, hrun.explained, fun d =>
    h.follows d _ (hrep.fits d) (hrep.mailbox d)⟩

/-- All bytes queued for the connection have been read, so all posts have. -/
theorem Sound.read_all (h : n.Sound capacity listenfd db) {a : Service}
    (hrep : Represents n.server a) {c : Nat}
    (hall : (n.peer c).read = n.server.emitted c) : (n.peer c).Read (a.mailbox c) := by
  obtain ⟨done, ⟨left, hleft⟩, hread⟩ := h.follows c _ (hrep.fits c) (hrep.mailbox c)
  have hout := (h.reaches.steps.whole c).1.1
  rw [hrep.mailbox, ← hleft, List.map_append, List.flatten_append, ← hread.read, ← hall] at hout
  have hnil : (left.map Reply.wire).flatten = [] := List.self_eq_append_right.mp hout
  have hempty : left = [] := by
    cases left with
    | nil => rfl
    | cons p left =>
      rw [List.map_cons, List.flatten_cons, List.append_eq_nil_iff] at hnil
      exact absurd hnil.1 (wire_ne_nil (Reply.message p))
  rw [hempty, List.append_nil] at hleft
  rwa [← hleft]

/-- The requests behind the lines are known for all clients at once: those behind the posts of
each mailbox, as far as the client has read. -/
theorem Sound.shown (h : n.Sound capacity listenfd db) (hdb : InsertedOnly db) :
    ∃ causes : Nat → List (Nat × Nat),
      (∀ d, Chat.InOrder d n.server.events (causes d)) ∧
      (∀ d, ∃ shown, n.Shows d shown ∧ shown <+: causes d ∧
        ((n.peer d).read = n.server.emitted d → shown = causes d)) ∧
      ∀ before c recipient text, before ++ [.toOne c recipient text] <+: n.server.events →
        ∃ d, d ≠ c ∧ Chat.Online before d ∧ LogsIn n.server.db (n.peer d).typed recipient ∧
          ∀ i, (c, (Chat.requestsOf c before).length) ∈ causes i ↔ i = c ∨ i = d := by
  obtain ⟨a, hrep, _, hexplained, hread⟩ := h.mailbox hdb
  obtain ⟨causes, hledger⟩ := hexplained.ledger
  rw [hrep.accounts] at hledger
  have hrows : InsertedOnly n.server.db := (Steps.signedIn hdb h.reaches.steps).1
  refine ⟨causes, hledger.inOrder, fun d => ?_, fun before c recipient text hb => ?_⟩
  · obtain ⟨done, hdone, hread⟩ := hread d
    have hall := hledger.caused d
    refine ⟨(causes d).take done.length, ?_, List.take_prefix _ _, fun hcaught => ?_⟩
    · rw [Shows, hread.shown, notices_eq_map, List.forall₂_map_right_iff,
        List.prefix_iff_eq_take.mp hdone, List.length_take_of_le hdone.length_le]
      exact (List.forall₂_take _ hall).imp fun x p hp => h.explains hrows hp
    · have hlength : done.length = (a.mailbox d).length := by
        have hshown := congrArg List.length
          ((h.read_all hrep hcaught).shown.symm.trans hread.shown)
        rw [notices_eq_map, notices_eq_map, List.length_map, List.length_map] at hshown
        exact hshown.symm
      rw [hlength, ← hall.length_eq, List.take_length]
  · obtain ⟨d, hne, hon, hproved, hends⟩ := hledger.direct before c recipient text hb
    refine ⟨d, hne, hon, logsIn_of_proved hproved fun e he hr => ?_, hends⟩
    exact h.typed (hb.subset (List.mem_append_left _ he)) hr

end Runs

/-- There is one order of all requests served, that of each client's typing for its own, in which
every client's lines follow each other. Each line has a request of its own there as its cause: one
that the same user typed, or a broadcast of another user who had typed the password that belongs
to the sender's name. A client's own requests are answered one after another, none left out. -/
theorem conversation {capacity listenfd : Nat} {db : Db} {n : Network} (hdb : InsertedOnly db)
    (h : Moves (boot capacity listenfd db) n) :
    ∃ order : List (Nat × Nat),
      (∀ c, placesOf c order = List.range (Chat.requestsOf c n.server.events).length) ∧
      ∀ d, ∃ causes, n.Shows d causes ∧ causes.Sublist order ∧
        placesOf d causes <+: placesOf d order := by
  obtain ⟨causes, horder, hshown, _⟩ := (Moves.sound h).shown hdb
  refine ⟨Chat.serving n.server.events, fun c => Chat.placesOf_serving, fun d => ?_⟩
  obtain ⟨shown, hall, hfirst, _⟩ := hshown d
  refine ⟨shown, hall, hfirst.sublist.trans (horder d).order, ?_⟩
  rw [← (horder d).own]
  exact (hfirst.filter _).map _

/-- Once a client has read all that was queued for it, it shows, each on a line of its own, the
answer to every request of its own that was served and every broadcast to all that was served
while the last login on its connection stood. A direct message is for two clients and no third:
its sender, and one that was online then and whose user had typed the recipient's password. -/
theorem nothing_missed {capacity listenfd : Nat} {db : Db} {n : Network} (hdb : InsertedOnly db)
    (h : Moves (boot capacity listenfd db) n) : ∃ causes : Nat → List (Nat × Nat),
      (∀ d, (causes d).Nodup ∧
        ((n.peer d).read = n.server.emitted d → n.Shows d (causes d))) ∧
      (∀ d before e c, before ++ [e] <+: n.server.events → e.requester = some c →
        Chat.Concerns before d e → (c, (Chat.requestsOf c before).length) ∈ causes d) ∧
      ∀ before c recipient text, before ++ [.toOne c recipient text] <+: n.server.events →
        ∃ d, d ≠ c ∧ Chat.Online before d ∧ LogsIn n.server.db (n.peer d).typed recipient ∧
          ∀ i, (c, (Chat.requestsOf c before).length) ∈ causes i ↔ i = c ∨ i = d := by
  obtain ⟨causes, horder, hshown, hdirect⟩ := (Moves.sound h).shown hdb
  refine ⟨causes, fun d => ⟨?_, fun hcaught => ?_⟩, fun d => (horder d).all, hdirect⟩
  · exact Chat.serving_nodup.sublist (horder d).order
  · obtain ⟨shown, hall, _, hwhole⟩ := hshown d
    exact hwhole hcaught ▸ hall

/-! ## Who a client is -/

/-- The connection object is that of the last welcome. -/
theorem after_eq (ps : List Reply) :
    Client.initial.after ps = match Chat.lastWelcome ps with
      | none => .initial
      | some w => ⟨Reply.user w.1 w.2, .isAuth⟩ := by
  induction ps using List.reverseRecOn with
  | nil => rfl
  | append_singleton ps p ih =>
    rw [Client.after_append, ih, Chat.lastWelcome_snoc]
    cases p with
    | welcome id name =>
      have hauth : (ConnFlags.isAuth ||| .isAuth) = .isAuth := by decide
      cases Chat.lastWelcome ps with
      | none => rfl
      | some w =>
        show (⟨Reply.user id name, .isAuth ||| .isAuth⟩ : Client) = _
        rw [hauth]
    | _ => rfl

/-- A client that holds itself logged in has typed the password of the account it shows; and once
it has read all that was queued for it, it agrees with the server on who it is. -/
theorem identities_agree {capacity listenfd : Nat} {db : Db} {n : Network}
    (hdb : InsertedOnly db) (h : Moves (boot capacity listenfd db) n) (c : Nat) :
    (hasFlag (n.peer c).conn.flags .isAuth = true → ∃ row ∈ n.server.db.rows,
      (n.peer c).conn.user = ⟨UInt32.ofNat row.id, row.username, []⟩ ∧
      LogsIn n.server.db (n.peer c).typed row.username) ∧
    ((n.peer c).read = n.server.emitted c → hasFlag (n.server.slot c).flags .isAuth = true →
      hasFlag (n.peer c).conn.flags .isAuth = true ∧
      (n.peer c).conn.user.userId = (n.server.slot c).userId ∧
      (n.peer c).conn.user.username = (n.server.slot c).username) := by
  have hsound := Moves.sound h
  obtain ⟨a, hrep, hposts, hexplained, hread⟩ := hsound.mailbox hdb
  have hrows : InsertedOnly n.server.db := (Steps.signedIn hdb hsound.reaches.steps).1
  constructor
  · intro hauth
    obtain ⟨done, hdone, hread⟩ := hread c
    rw [hread.conn, after_eq] at hauth ⊢
    cases hlast : Chat.lastWelcome done with
    | none =>
      rw [hlast] at hauth
      exact absurd hauth (by decide)
    | some w =>
      obtain ⟨causes, hledger⟩ := hexplained.ledger
      obtain ⟨j, hj⟩ := List.getElem?_of_mem (hdone.subset (Chat.mem_of_lastWelcome hlast))
      obtain ⟨_, _, before, e, ⟨after, hevents⟩, _, _, hcause⟩ :=
        forall₂_getElem? (hledger.caused c) hj
      rw [hrep.accounts] at hcause
      obtain ⟨id, name⟩ := w
      cases hcause with
      | login typed k acc hk hm =>
        obtain ⟨row, hrow, rfl⟩ := row_of_account hk
        have hmem := List.mem_of_getElem? hrow
        refine ⟨row, hmem, ?_, ?_⟩
        · show Reply.user (k + 1) row.username = _
          rw [hrows.numbered.id k row hrow]
          rfl
        · have hproved : Chat.ProvedName serverRules n.server.db.accounts n.server.events c
              row.username :=
            ⟨row.account, List.mem_map_of_mem hmem, rfl, typed, by simp [← hevents], hm⟩
          exact logsIn_of_proved hproved fun e' he' hr => hsound.typed he' hr
  · intro hall hauth
    obtain ⟨k, hk⟩ := (mem_members_iff hrep hsound.reaches.steps.tidy c).mpr hauth
    obtain ⟨acc, hacc, hlast⟩ := hposts.member c k hk
    have hshows := hrep.session c
    rw [hk] at hshows
    obtain ⟨_, _, row, hrow, hid, hname⟩ := hshows
    rw [(hsound.read_all hrep hall).conn, after_eq, hlast]
    rw [hrep.accounts, Db.accounts, List.getElem?_map, hrow] at hacc
    cases hacc
    refine ⟨(by decide : hasFlag .isAuth .isAuth = true), ?_, hname.symm⟩
    rw [hid, hrows.numbered.id k row hrow]
    rfl

/-! ## A run of the network -/

/-- Client 5 types a line, and its calls of `write` succeed. -/
def types (n : Network) (line : Bytes) (q : Ask) : Network :=
  n.setPeer 5 ((n.peer 5).afterLine (some q) ((n.peer 5).conn.commandShell [] [] line))

/-- Client 5 takes a reply, with what has arrived behind it. -/
def hears (n : Network) (p : Reply) (rest : Bytes) : Network :=
  n.setPeer 5 ((n.peer 5).afterMessage ((n.peer 5).conn.told p).1 ((n.peer 5).conn.told p).2
    (p.wire ++ rest) rest)

/-- `/register a a` and `/login a a`, typed at the client on descriptor 5. -/
def registering : Network :=
  (boot 8 3 .empty).types [47, 114, 101, 103, 105, 115, 116, 101, 114, 32, 97, 32, 97]
    (.register ⟨[97], [97]⟩)

def asked : Network :=
  registering.types [47, 108, 111, 103, 105, 110, 32, 97, 32, 97] (.login ⟨[97], [97]⟩)

/-- The server accepts the connection, reads both requests and answers them. -/
def served : Network :=
  { asked with server := asked.server.iterate (.ready
    [⟨3, false, { accepts := [.conn 5 true true] }⟩,
      ⟨5, false, { reads := [.bytes (credentialFrames 97)] }⟩]) }

def told : Network := served.hears (.registered 1 [97]) (Reply.wire (.welcome 1 [97]))

def answered : Network := told.hears (.welcome 1 [97]) []

theorem moves_types {n : Network} {line : Bytes} {q : Ask} (hquit : (n.peer 5).quit = false)
    (hok : (n.peer 5).failed = false) (hasks : (n.peer 5).conn.Asks line q) (hfits : q.Fits) :
    n.Move (n.types line q) := by
  refine .line 5 [] [] line (some q) _ hquit rfl (fun q' => ⟨fun hq => ?_, fun hq => ?_⟩)
    fun hf => absurd (hok.symm.trans hf) (by decide)
  · cases hq
    exact ⟨hasks, hfits⟩
  · rw [hasks.unique hq.1]

theorem moves_hears {n : Network} {p : Reply} {rest : Bytes} (hon : (n.peer 5).listening = true)
    (hquiet : (n.peer 5).signalled = false)
    (harrived : (n.peer 5).read ++ (p.wire ++ rest) <+: bytesWritten 5 n.server.log)
    (hcall : (n.peer 5).conn.handleServerResponse [] [] (p.wire ++ rest) =
      .handled ((n.peer 5).conn.told p).1 ((n.peer 5).conn.told p).2 [] rest) :
    n.Move (n.hears p rest) :=
  .message 5 [] [] [] _ rest _ _ hon (fun hs => absurd (hquiet.symm.trans hs) (by decide)) harrived
    hcall

/-- Bytes are read on no other descriptor. -/
def readsOnly (i : Nat) : Entry → Bool
  | .sys (.read d _) => d == i
  | _ => true

theorem bytesRead_other {log : List Entry} {i c : Nat} (h : log.all (readsOnly i) = true)
    (hc : c ≠ i) : bytesRead c log = [] := by
  rw [bytesRead, List.flatMap_eq_nil_iff]
  intro e he
  have hi := List.all_eq_true.mp h e he
  cases e with
  | served r => rfl
  | sys call =>
    cases call with
    | read d rv =>
      obtain rfl : d = i := by simpa [readsOnly] using hi
      cases rv with
      | bytes bs => exact if_neg (Ne.symm hc)
      | fail e => rfl
    | _ => rfl

theorem moves_served : Moves (boot 8 3 .empty) served := by
  have hregistering : (boot 8 3 .empty).Move registering :=
    moves_types rfl rfl (asks_iff.mpr (by decide)) ⟨by decide, by decide⟩
  have hasked : registering.Move asked :=
    moves_types (by decide) (by decide) (asks_iff.mpr (by decide)) ⟨by decide, by decide⟩
  have hserved : asked.Move served := by
    refine .serve _ ?_ fun c => ?_
    · simp [Wait.Legal, Event.Legal, STDIN_FILENO, asked, registering, types, setPeer, boot,
        Server.boot]
    · by_cases hc : c = 5
      · subst hc
        decide +kernel
      · show bytesRead c served.server.log <+: _
        rw [bytesRead_other (by decide +kernel : served.server.log.all (readsOnly 5) = true) hc]
        exact List.nil_prefix
  exact ((Relation.ReflTransGen.single hregistering).tail hasked).tail hserved

theorem moves_answered : Moves (boot 8 3 .empty) answered := by
  have htold : served.Move told :=
    moves_hears (by decide +kernel) (by decide +kernel) (by decide +kernel) (by decide +kernel)
  have hanswered : told.Move answered :=
    moves_hears (by decide +kernel) (by decide +kernel) (by decide +kernel) (by decide +kernel)
  exact (moves_served.tail htold).tail hanswered

/-- Both requests of client 5 were served as they were typed. -/
theorem requests_served_as_typed_answered : ∃ asks waiting flying,
    (answered.peer 5).typed = asks ++ waiting ∧
      List.Forall₂ (Ask.Becomes 5) asks (Chat.requestsOf 5 answered.server.events) ∧
      (answered.peer 5).sent = bytesRead 5 answered.server.log ++ flying := by
  obtain ⟨asks, waiting, flying, htyped, hall, hsent, _⟩ :=
    requests_served_as_typed moves_answered 5
  exact ⟨asks, waiting, flying, htyped, hall, hsent⟩

theorem conversation_answered :
    (answered.peer 5).shown = [.registered 1 [97], .loggedIn 1 [97]] ∧
      ∃ order causes, placesOf 5 order = [0, 1] ∧ answered.Shows 5 causes ∧
        causes.Sublist order := by
  obtain ⟨order, hplaces, hclients⟩ := conversation .empty moves_answered
  obtain ⟨causes, hall, horder, _⟩ := hclients 5
  have htwo : (Chat.requestsOf 5 answered.server.events).length = 2 := by decide +kernel
  have hown : placesOf 5 order = [0, 1] := by rw [hplaces, htwo]; rfl
  exact ⟨by decide +kernel, order, causes, hown, hall, horder⟩

theorem nothing_missed_answered : ∃ causes : List (Nat × Nat),
    answered.Shows 5 causes ∧ causes.Nodup := by
  obtain ⟨causes, hshown, _⟩ := nothing_missed .empty moves_answered
  exact ⟨causes 5, (hshown 5).2 (by decide +kernel), (hshown 5).1⟩

theorem identities_agree_answered :
    (answered.peer 5).conn.user.userId = (answered.server.slot 5).userId ∧
      ∃ row ∈ answered.server.db.rows, LogsIn answered.server.db (answered.peer 5).typed
        row.username := by
  obtain ⟨hknown, hagree⟩ := identities_agree .empty moves_answered 5
  obtain ⟨row, hrow, _, hlogs⟩ := hknown (by decide +kernel)
  exact ⟨(hagree (by decide +kernel) (by decide +kernel)).2.1, row, hrow, hlogs⟩

end Network

end ChatServer
