import ChatServer.Audit.RequestStream

/-!
# One request in two states

A handler reads the user table, who has signed in under which name, and the size of the
table. A relation between states that keeps these equal, and is kept by the three things a
request can do to the server, is kept by serving the same request in both, and the
response is the same.
-/

namespace ChatServer

open EdgeTrigger (Errno Rv Interest Syscall)

/-- The relation lets a request of `c` take the same course in both states. -/
structure ServesAlike (c : Nat) (R : Server → Server → Prop) : Prop where
  db : ∀ {s t}, R s t → t.db = s.db
  size : ∀ {s t}, R s t → t.getSize = s.getSize
  isAuth : ∀ {s t}, R s t → ∀ j,
    hasFlag (t.slot j).flags .isAuth = hasFlag (s.slot j).flags .isAuth
  username : ∀ {s t}, R s t → ∀ j, (t.slot j).username = (s.slot j).username
  setDb : ∀ {s t}, R s t → ∀ db, R (s.setDb db) (t.setDb db)
  signIn : ∀ {s t}, R s t → ∀ user, R (s.signIn c user) (t.signIn c user)
  deliver : ∀ {s t}, R s t → ∀ i b, i ≠ c → R (s.deliver i b) (t.deliver i b)

/-- The handlers leave related states and give the same response. -/
def HandledAlike (R : Server → Server → Prop) (r r' : Server × Message) : Prop :=
  R r.1 r'.1 ∧ r'.2 = r.2

namespace ServesAlike

variable {c : Nat} {R : Server → Server → Prop} (hR : ServesAlike c R) {s t : Server}

include hR

theorem isValidRecipient (h : R s t) : t.isValidRecipient c = s.isValidRecipient c := by
  funext i
  show (hasFlag (t.slot i).flags .isAuth && i != c) = (hasFlag (s.slot i).flags .isAuth && i != c)
  rw [hR.isAuth h i]

theorem findRecipient (h : R s t) (name : Bytes) :
    t.findRecipient c name = s.findRecipient c name := by
  unfold Server.findRecipient
  rw [hR.size h, hR.isValidRecipient h]
  congr 1
  funext i
  rw [Server.username_eq, Server.username_eq, hR.username h i]

theorem deliverAll (h : R s t) {dests : List Nat} (hc : c ∉ dests) (b : Bytes) :
    R (s.deliverAll b dests) (t.deliverAll b dests) := by
  induction dests generalizing s t with
  | nil => exact h
  | cons i dests ih =>
    rw [List.mem_cons, not_or] at hc
    exact ih (hR.deliver h i b (Ne.symm hc.1)) hc.2

theorem fanOut (h : R s t) (b : Bytes) : R (s.fanOut c b) (t.fanOut c b) := by
  rw [Server.fanOut_eq, Server.fanOut_eq, hR.isValidRecipient h, hR.size h]
  apply hR.deliverAll h
  intro hc
  have hvalid := (List.mem_filter.mp hc).2
  simp [Server.isValidRecipient] at hvalid

theorem registerUser (h : R s t) (m : Message) (o : SqlOutcome) :
    HandledAlike R (s.registerUser m o) (t.registerUser m o) := by
  unfold Server.registerUser
  rw [hR.db h]
  cases parseRegisterRequest m with
  | error rc => exact ⟨h, rfl⟩
  | ok credentials =>
    simp only
    split
    · exact ⟨h, rfl⟩
    · split
      · exact ⟨h, rfl⟩
      · split
        · exact ⟨hR.setDb h _, rfl⟩
        · split <;> exact ⟨hR.setDb h _, rfl⟩

theorem loginUser (h : R s t) (m : Message) (o : SqlOutcome) :
    HandledAlike R (s.loginUser c m o) (t.loginUser c m o) := by
  unfold Server.loginUser
  rw [hR.db h]
  cases parseLoginRequest m with
  | error rc => exact ⟨h, rfl⟩
  | ok credentials =>
    simp only
    split
    · split <;> exact ⟨h, rfl⟩
    · split
      · exact ⟨h, rfl⟩
      · split <;> exact ⟨hR.signIn h _, rfl⟩

theorem handleWorldBroadcast (h : R s t) (m : Message) :
    HandledAlike R (s.handleWorldBroadcast c m) (t.handleWorldBroadcast c m) := by
  unfold Server.handleWorldBroadcast
  cases parseWorldBroadcast m with
  | error ret => exact ⟨h, rfl⟩
  | ok b =>
    simp only [Server.username_eq, hR.username h]
    split
    · exact ⟨h, rfl⟩
    · split
      · exact ⟨h, rfl⟩
      · exact ⟨hR.fanOut h _, rfl⟩

theorem handleP2pBroadcast (h : R s t) (m : Message) :
    HandledAlike R (s.handleP2pBroadcast c m) (t.handleP2pBroadcast c m) := by
  unfold Server.handleP2pBroadcast
  cases parseP2pBroadcast m with
  | error ret => exact ⟨h, rfl⟩
  | ok b =>
    have hname : t.connManager.usernames c = s.connManager.usernames c := hR.username h c
    rw [hname]
    simp only [hR.findRecipient h]
    split
    · exact ⟨h, rfl⟩
    · by_cases hself : s.connManager.usernames c = b.recipientUsername
      · rw [if_pos hself, if_pos hself]
        exact ⟨h, rfl⟩
      · rw [if_neg hself, if_neg hself]
        cases buildP2pBroadcastNotification
            { b with senderUsername := s.connManager.usernames c } with
        | error ret => exact ⟨h, rfl⟩
        | ok response =>
          cases hi : s.findRecipient c b.recipientUsername with
          | none => exact ⟨h, rfl⟩
          | some i =>
            refine ⟨hR.deliver h i _ fun hc => ?_, rfl⟩
            have hvalid := List.find?_some hi
            simp [Server.isValidRecipient, hc] at hvalid

/-- Serving the same request keeps the relation, and the response is the same. -/
theorem dispatch (h : R s t) (m : Message) (o : SqlOutcome) :
    HandledAlike R (s.dispatch c m o) (t.dispatch c m o) := by
  unfold Server.dispatch
  split
  · exact hR.registerUser h m o
  · split
    · exact hR.loginUser h m o
    · split
      · unfold Server.handleBroadcastMessage
        rw [Server.flags_eq, Server.flags_eq, hR.isAuth h c]
        split
        · exact ⟨h, rfl⟩
        · split
          · exact hR.handleWorldBroadcast h m
          · split
            · exact hR.handleP2pBroadcast h m
            · exact ⟨h, rfl⟩
      · exact ⟨h, rfl⟩

end ServesAlike

end ChatServer
