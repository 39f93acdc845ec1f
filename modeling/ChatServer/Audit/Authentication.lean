import ChatServer.Audit.Delivery

/-!
# Authentication

A slot with the sign-in flag is active and holds the account of its latest login, and no
successful chat frame carries another name than that of the account its sender was signed
in as.
-/

namespace ChatServer

/-- If the request is a chat request answered `RESP_OK`, its sender was signed in, and every
frame queued for it decodes to the stored username of that account as the sender. -/
def SenderAuthentic (pre : List Entry) (r : Served) : Prop :=
  r.response.type = MsgType.chat.code → r.response.rc = 0 →
    ∃ last row, lastLogin r.conn pre = some last ∧ last.GrantedBy row ∧
      ∀ j, ∀ f ∈ r.framesTo j,
        (∃ b, DecodesTo parseWorldBroadcastNotification f b ∧
          b.senderUsername = row.username) ∨
        ∃ b, DecodesTo parseP2pBroadcastNotification f b ∧ b.senderUsername = row.username

theorem framesTo_eq_wire {r : Served} {j : Nat} {f : Bytes} (hf : f ∈ r.framesTo j) :
    f = r.response.wire := by
  unfold Served.framesTo at hf
  split_ifs at hf
  · exact List.mem_singleton.mp hf
  · exact List.mem_singleton.mp hf
  · exact absurd hf List.not_mem_nil

/-- The announcement of a connection carries the name it has signed in under. -/
theorem Announces.decodes {s : Server} {c : Nat} {request m : Message}
    (h : Announces s.view c request m)
    (hn : (s.slot c).username.length ≤ MAX_USERNAME_SIZE) :
    (∃ b, DecodesTo parseWorldBroadcastNotification m.wire b ∧
      b.senderUsername = (s.slot c).username) ∨
    ∃ b, DecodesTo parseP2pBroadcastNotification m.wire b ∧
      b.senderUsername = (s.slot c).username := by
  cases h with
  | world _ hp => exact .inl ⟨_, decodesTo_world hp hn, rfl⟩
  | p2p _ hp => exact .inr ⟨_, decodesTo_p2p hp hn, rfl⟩

theorem Step.senderAuthentic {s t : Server} {c : Nat} (hst : Step c s t) (hnames : s.NamesFit)
    (hin : ∀ i, hasFlag (s.slot i).flags .isAuth = true → s.SignedIn i)
    (hs : AtEach SenderAuthentic s.log) : AtEach SenderAuthentic t.log := by
  refine hst.atEach hs fun n o dests _ _ htype hrc => ?_
  have hd := dispatch_handled s c (parseMessage ((s.slot c).incoming.take n)) o
  generalize s.dispatch c (parseMessage ((s.slot c).incoming.take n)) o = r at hd htype hrc ⊢
  cases hd with
  | rejected code hcode => exact absurd hrc (rc_header hcode)
  | registered => exact absurd htype register_ne_chat
  | loggedIn => exact absurd htype login_ne_chat
  | announced _ ha hm =>
    obtain ⟨last, row, hlast, hgrant, _, hname⟩ := hin c ha
    refine ⟨last, row, ?_, hgrant, fun j f hf => ?_⟩
    · rw [lastLogin_modify]
      exact hlast
    · rw [framesTo_eq_wire hf, ← hname]
      exact hm.decodes (hnames c ha)

theorem Steps.senderAuthentic {capacity listenfd : Nat} {db : Db} {s : Server}
    (hdb : InsertedOnly db) (h : Steps (Server.boot capacity listenfd db) s) :
    AtEach SenderAuthentic s.log := by
  induction h with
  | refl => exact atEach_nil _
  | @tail s t hsteps hst ih =>
    obtain ⟨c, hst⟩ := hst
    exact hst.senderAuthentic (Steps.namesFit hsteps) (Steps.signedIn hdb hsteps).2 ih

/-- **Authentication soundness and sender authenticity.** Over a table that holds
only rows inserted by `insert_user`, a slot with the sign-in flag is active and, since a
connection was last added there, has had a login served whose username and password
are those of a row; it holds the id and the stored username of the row of the latest such
login. Every chat frame queued with `RESP_OK` decodes to the stored username of the account
that its sender was signed in as when the request was served. -/
theorem authentication_sound {capacity listenfd : Nat} {db : Db} {s : Server}
    (hdb : InsertedOnly db) (h : Reaches (Server.boot capacity listenfd db) s) :
    (∀ i, hasFlag (s.slot i).flags .isAuth = true →
      hasFlag (s.slot i).flags .isActive = true ∧
      ∃ r row, lastLogin i s.log = some r ∧ r.GrantedBy row ∧
        (s.slot i).userId = UInt32.ofNat row.id ∧ (s.slot i).username = row.username) ∧
    AtEach SenderAuthentic s.log := by
  refine ⟨fun i hi => ⟨h.steps.tidy.active hi, ?_⟩, h.steps.senderAuthentic hdb⟩
  exact (h.steps.signedIn hdb).2 i hi

/-- In the run with two accounts, connection 6 is signed in as `b`. -/
theorem authentication_sound_two :
    let s := (Server.boot 8 3 .empty).iterate twoSignedIn
    hasFlag (s.slot 6).flags .isAuth = true ∧
      ∃ r row, lastLogin 6 s.log = some r ∧ r.GrantedBy row ∧ row.username = [98] := by
  intro s
  have ha : hasFlag (s.slot 6).flags .isAuth = true := by decide +kernel
  have hname : (s.slot 6).username = [98] := by decide +kernel
  obtain ⟨_, r, row, hlast, hgrant, _, h⟩ :=
    (authentication_sound .empty reaches_twoSignedIn).1 6 ha
  exact ⟨ha, r, row, hlast, hgrant, h.symm.trans hname⟩

end ChatServer
