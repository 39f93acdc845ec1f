import ChatServer.Audit.Lockstep
import ChatServer.Audit.Notification

/-!
# States that agree apart from one connection's buffers

`Agree c s t`: the two states have the same tables, have emitted the same bytes to every
connection and have served the same requests, but may differ in how much of the input of
`c` is consumed, how much of its output is written, and whether it reads or writes. Serving
a request on `c` keeps agreement, and so does everything else that is done for `c` until it
is removed.
-/

namespace ChatServer

open EdgeTrigger (Errno Rv Interest Syscall)

/-- The connection, the frame and the response of a request served. -/
def Entry.request : Entry → Option (Nat × Bytes × Message)
  | .served r => some (r.conn, r.frame, r.response)
  | .sys _ => none

/-- The requests served so far, on all connections. -/
def Server.requests (s : Server) : List (Nat × Bytes × Message) := s.log.filterMap Entry.request

structure Agree (c : Nat) (s t : Server) : Prop where
  listenfd : t.listenfd = s.listenfd
  status : t.status = s.status
  size : t.getSize = s.getSize
  db : t.db = s.db
  slot : ∀ j, j ≠ c → t.slot j = s.slot j
  userId : (t.slot c).userId = (s.slot c).userId
  username : (t.slot c).username = (s.slot c).username
  isActive : hasFlag (t.slot c).flags .isActive = hasFlag (s.slot c).flags .isActive
  isAuth : hasFlag (t.slot c).flags .isAuth = hasFlag (s.slot c).flags .isAuth
  emitted : ∀ j, t.emitted j = s.emitted j
  requests : t.requests = s.requests

section Agree

variable {c : Nat} {s t u : Server}

theorem Agree.refl (c : Nat) (s : Server) : Agree c s s :=
  ⟨rfl, rfl, rfl, rfl, fun _ _ => rfl, rfl, rfl, rfl, rfl, fun _ => rfl, rfl⟩

theorem Agree.symm (h : Agree c s t) : Agree c t s :=
  ⟨h.listenfd.symm, h.status.symm, h.size.symm, h.db.symm, fun j hj => (h.slot j hj).symm,
    h.userId.symm, h.username.symm, h.isActive.symm, h.isAuth.symm,
    fun j => (h.emitted j).symm, h.requests.symm⟩

theorem Agree.trans (h : Agree c s t) (h' : Agree c t u) : Agree c s u :=
  ⟨h'.listenfd.trans h.listenfd, h'.status.trans h.status, h'.size.trans h.size,
    h'.db.trans h.db, fun j hj => (h'.slot j hj).trans (h.slot j hj),
    h'.userId.trans h.userId, h'.username.trans h.username, h'.isActive.trans h.isActive,
    h'.isAuth.trans h.isAuth, fun j => (h'.emitted j).trans (h.emitted j),
    h'.requests.trans h.requests⟩

/-! ## What is done for the connection itself -/

theorem emitted_sys {k : Syscall UInt8} (hk : ∀ j, (Entry.sys k).writtenTo j = []) (j : Nat) :
    (s.sys k).emitted j = s.emitted j := by
  rw [Server.emitted, Server.log_sys, bytesWritten_append, bytesWritten_singleton, hk,
    List.append_nil]
  rfl

theorem requests_sys (s : Server) (k : Syscall UInt8) : (s.sys k).requests = s.requests := by
  rw [Server.requests, Server.log_sys, List.filterMap_append]
  exact List.append_nil _

theorem agree_sys {k : Syscall UInt8} (hk : ∀ j, (Entry.sys k).writtenTo j = []) :
    Agree c s (s.sys k) :=
  ⟨rfl, rfl, rfl, rfl, fun _ _ => rfl, rfl, rfl, rfl, rfl, emitted_sys hk, requests_sys s k⟩

theorem agree_setIncoming (c : Nat) (s : Server) (b : Bytes) : Agree c s (s.setIncoming c b) := by
  have hself : (s.setIncoming c b).slot c = { s.slot c with incoming := b } := by
    rw [Server.slot_setIncoming, if_pos rfl]
  have hother : ∀ j, j ≠ c → (s.setIncoming c b).slot j = s.slot j := by
    intro j hj
    rw [Server.slot_setIncoming, if_neg hj]
  refine ⟨rfl, rfl, rfl, rfl, hother, ?_, ?_, ?_, ?_, fun j => ?_, rfl⟩
  · rw [hself]
  · rw [hself]
  · rw [hself]
  · rw [hself]
  · by_cases hj : j = c
    · subst hj
      rw [Server.emitted, hself]
      rfl
    · rw [Server.emitted, hother j hj]
      rfl

theorem emitted_setConnectionState (c j : Nat) (s : Server) (next : ConnState) :
    (s.setConnectionState c next).emitted j = s.emitted j := by
  have hout := (s.setConnectionState_keeps c j next).2.1
  have hlog : bytesWritten j (s.setConnectionState c next).log = bytesWritten j s.log := by
    cases next with
    | reading =>
      exact (bytesWritten_append j s.log [.sys (.modify c .input)]).trans (List.append_nil _)
    | writing =>
      exact (bytesWritten_append j s.log [.sys (.modify c .output)]).trans (List.append_nil _)
    | closing => rfl
  rw [Server.emitted, Server.emitted, hout, hlog]

theorem requests_setConnectionState (c : Nat) (s : Server) (next : ConnState) :
    (s.setConnectionState c next).requests = s.requests := by
  cases next with
  | reading => exact requests_sys _ _
  | writing => exact requests_sys _ _
  | closing => rfl

theorem agree_setConnectionState (c : Nat) (s : Server) (next : ConnState) :
    Agree c s (s.setConnectionState c next) := by
  have hself : (s.setConnectionState c next).slot c =
      { s.slot c with flags := next.nextFlags (s.slot c).flags } := s.slot_setConnectionState_self c _
  have hdb : (s.setConnectionState c next).db = s.db := by
    cases next <;> rfl
  obtain ⟨hsize, hstatus, hlisten⟩ := setConnectionState_globals s c next
  refine ⟨hlisten, hstatus, hsize, hdb, fun j hj => ?_, ?_, ?_, ?_, ?_,
    fun j => emitted_setConnectionState c j s next, requests_setConnectionState c s next⟩
  · rw [Server.slot_setConnectionState, if_neg hj]
  · rw [hself]
  · rw [hself]
  · rw [hself]
    exact isActive_nextFlags _ _
  · rw [hself]
    exact isAuth_nextFlags _ _

/-- What is written leaves the outgoing buffer. -/
theorem agree_written (c : Nat) (s : Server) (n : Nat) : Agree c s (s.written c n) := by
  have hself : (s.written c n).slot c =
      { s.slot c with outgoing := (s.slot c).outgoing.drop n } := by
    rw [slot_written, if_pos rfl]
  have hother : ∀ j, j ≠ c → (s.written c n).slot j = s.slot j := by
    intro j hj
    rw [slot_written, if_neg hj]
  have hlog : (s.written c n).log =
      s.log ++ [.sys (.write c (.bytes ((s.slot c).outgoing.take n)))] := rfl
  refine ⟨rfl, rfl, rfl, rfl, hother, ?_, ?_, ?_, ?_, fun j => ?_, requests_sys _ _⟩
  · rw [hself]
  · rw [hself]
  · rw [hself]
  · rw [hself]
  · rw [Server.emitted, Server.emitted, hlog, bytesWritten_append, bytesWritten_singleton,
      Entry.writtenTo]
    by_cases hj : c = j
    · subst hj
      rw [hself, if_pos rfl, List.append_assoc, List.take_append_drop]
    · rw [hother j (Ne.symm hj), if_neg hj, List.append_nil]

end Agree

/-! ## Serving a request -/

section Serve

variable {c : Nat} {s t : Server}

theorem emitted_deliver (s : Server) (i j : Nat) (b : Bytes) :
    (s.deliver i b).emitted j = s.emitted j ++ if j = i then b else [] := by
  rw [Server.deliver, emitted_setConnectionState, Server.emitted, Server.emitted,
    Server.slot_queueBytes]
  by_cases hj : j = i
  · rw [if_pos hj, if_pos hj, ← List.append_assoc]
    rfl
  · rw [if_neg hj, if_neg hj, List.append_nil]
    rfl

theorem Agree.deliver (h : Agree c s t) {i : Nat} (hi : i ≠ c) (b : Bytes) :
    Agree c (s.deliver i b) (t.deliver i b) := by
  have hs : (s.deliver i b).slot c = s.slot c := by rw [Server.slot_deliver, if_neg (Ne.symm hi)]
  have ht : (t.deliver i b).slot c = t.slot c := by rw [Server.slot_deliver, if_neg (Ne.symm hi)]
  refine ⟨h.listenfd, h.status, h.size, h.db, fun j hj => ?_, ?_, ?_, ?_, ?_, fun j => ?_, ?_⟩
  · rw [Server.slot_deliver, Server.slot_deliver, h.slot j hj]
  · rw [hs, ht, h.userId]
  · rw [hs, ht, h.username]
  · rw [hs, ht, h.isActive]
  · rw [hs, ht, h.isAuth]
  · rw [emitted_deliver, emitted_deliver, h.emitted j]
  · rw [Server.deliver, Server.deliver, requests_setConnectionState, requests_setConnectionState]
    exact h.requests

theorem Agree.setDb (h : Agree c s t) (db : Db) : Agree c (s.setDb db) (t.setDb db) :=
  ⟨h.listenfd, h.status, h.size, rfl, h.slot, h.userId, h.username, h.isActive, h.isAuth,
    h.emitted, h.requests⟩

theorem Agree.signIn (h : Agree c s t) (user : User) :
    Agree c (s.signIn c user) (t.signIn c user) := by
  have hemitted : ∀ (s : Server) j, (s.signIn c user).emitted j = s.emitted j := by
    intro s j
    have hout : ((s.signIn c user).slot j).outgoing = (s.slot j).outgoing := by
      rw [slot_signIn]
      split <;> rfl
    rw [Server.emitted, Server.emitted, hout]
    rfl
  have hflags : ∀ (s : Server) g, hasFlag ((s.signIn c user).slot c).flags g =
      (hasFlag (s.slot c).flags g || hasFlag .isAuth g) := by
    intro s g
    rw [slot_signIn, if_pos rfl]
    exact hasFlag_or _ _ _
  refine ⟨h.listenfd, h.status, h.size, h.db, fun j hj => ?_, ?_, ?_, ?_, ?_, fun j => ?_,
    h.requests⟩
  · rw [slot_signIn, slot_signIn, if_neg hj, if_neg hj, h.slot j hj]
  · rw [slot_signIn, slot_signIn, if_pos rfl, if_pos rfl]
  · rw [slot_signIn, slot_signIn, if_pos rfl, if_pos rfl]
  · rw [hflags, hflags, h.isActive]
  · rw [hflags, hflags, h.isAuth]
  · rw [hemitted, hemitted, h.emitted j]

/-- The handlers give the same response and keep agreement. -/
def AgreeHandled (c : Nat) (r r' : Server × Message) : Prop := Agree c r.1 r'.1 ∧ r'.2 = r.2

theorem servesAlike_agree (c : Nat) : ServesAlike c (Agree c) where
  db h := h.db
  size h := h.size
  isAuth h j := by
    by_cases hj : j = c
    · rw [hj, h.isAuth]
    · rw [h.slot j hj]
  username h j := by
    by_cases hj : j = c
    · rw [hj, h.username]
    · rw [h.slot j hj]
  setDb h db := h.setDb db
  signIn h user := h.signIn user
  deliver h _ b hi := h.deliver hi b

theorem Agree.dispatch (h : Agree c s t) (m : Message) (o : SqlOutcome) :
    AgreeHandled c (s.dispatch c m o) (t.dispatch c m o) :=
  (servesAlike_agree c).dispatch h m o

theorem emitted_respond (s : Server) (frame : Bytes) (m : Message) (v : View) (o : SqlOutcome)
    (j : Nat) :
    (s.respond c frame m v o).emitted j = s.emitted j ++ if j = c then m.wire else [] := by
  have hlog : bytesWritten j (s.respond c frame m v o).log = bytesWritten j s.log :=
    (bytesWritten_append j s.log [.served _]).trans (List.append_nil _)
  rw [Server.emitted, Server.emitted, hlog, Server.slot_respond]
  split
  · rw [List.append_assoc]
  · rw [List.append_nil]

theorem requests_respond (s : Server) (frame : Bytes) (m : Message) (v : View)
    (o : SqlOutcome) :
    (s.respond c frame m v o).requests = s.requests ++ [(c, frame, m)] :=
  List.filterMap_append

theorem Agree.serveFrame (h : Agree c s t) (frame : Bytes) (o : SqlOutcome) :
    Agree c (s.serveFrame c frame o) (t.serveFrame c frame o) := by
  obtain ⟨hd, hm⟩ := h.dispatch (parseMessage frame) o
  unfold Server.serveFrame
  simp only [hm]
  generalize (s.dispatch c (parseMessage frame) o).1 = s' at hd ⊢
  generalize (t.dispatch c (parseMessage frame) o).1 = t' at hd ⊢
  refine ⟨hd.listenfd, hd.status, hd.size, hd.db, fun j hj => ?_, ?_, ?_, ?_, ?_, fun j => ?_, ?_⟩
  · rw [Server.slot_respond, Server.slot_respond, if_neg hj, if_neg hj, hd.slot j hj]
  · rw [Server.slot_respond, Server.slot_respond, if_pos rfl, if_pos rfl, hd.userId]
  · rw [Server.slot_respond, Server.slot_respond, if_pos rfl, if_pos rfl, hd.username]
  · rw [Server.slot_respond, Server.slot_respond, if_pos rfl, if_pos rfl, hd.isActive]
  · rw [Server.slot_respond, Server.slot_respond, if_pos rfl, if_pos rfl, hd.isAuth]
  · rw [emitted_respond, emitted_respond, hd.emitted j]
  · rw [requests_respond, requests_respond, hd.requests]

end Serve

end ChatServer
