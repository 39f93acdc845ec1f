import ChatServer.Audit.History
import ChatServer.Audit.Lockstep

/-!
# Two runs that differ in what one connection tells another

`Alike a b s t`: a third party cannot tell the two states apart. They may differ in the bytes
received from `a` and in the bytes emitted to `a` and to `b`, not in how many there are.
All that the event loop does in both states keeps them alike, as long as it asks nothing
of the bytes that differ.
-/

namespace ChatServer

open EdgeTrigger (Errno Rv Interest Syscall)

/-! ## Bytes that may be secret -/

/-- As many bytes in both, and the same ones unless they are secret. -/
def SameUnless (secret : Prop) (x y : Bytes) : Prop :=
  y.length = x.length ∧ (¬ secret → y = x)

section SameUnless

variable {secret : Prop} {x y x' y' : Bytes}

theorem SameUnless.refl (secret : Prop) (x : Bytes) : SameUnless secret x x :=
  ⟨rfl, fun _ => rfl⟩

theorem SameUnless.append (h : SameUnless secret x y) (h' : SameUnless secret x' y') :
    SameUnless secret (x ++ x') (y ++ y') := by
  refine ⟨?_, fun hs => ?_⟩
  · rw [List.length_append, List.length_append, h.1, h'.1]
  · rw [h.2 hs, h'.2 hs]

theorem SameUnless.take (h : SameUnless secret x y) (n : Nat) :
    SameUnless secret (x.take n) (y.take n) := by
  refine ⟨?_, fun hs => by rw [h.2 hs]⟩
  rw [List.length_take, List.length_take, h.1]

theorem SameUnless.drop (h : SameUnless secret x y) (n : Nat) :
    SameUnless secret (x.drop n) (y.drop n) := by
  refine ⟨?_, fun hs => by rw [h.2 hs]⟩
  rw [List.length_drop, List.length_drop, h.1]

end SameUnless

/-! ## The relation -/

/-- Slot `j` in the two states. -/
structure SlotAlike (a b j : Nat) (σ τ : Slot) : Prop where
  flags : τ.flags = σ.flags
  userId : τ.userId = σ.userId
  username : τ.username = σ.username
  incoming : SameUnless (j = a) σ.incoming τ.incoming
  outgoing : SameUnless (j = a ∨ j = b) σ.outgoing τ.outgoing

structure Alike (a b : Nat) (s t : Server) : Prop where
  listenfd : t.listenfd = s.listenfd
  status : t.status = s.status
  size : t.getSize = s.getSize
  db : t.db = s.db
  slot : ∀ j, SlotAlike a b j (s.slot j) (t.slot j)
  written : ∀ j, SameUnless (j = a ∨ j = b) (bytesWritten j s.log) (bytesWritten j t.log)
  served : (requestsOn a t.log).length = (requestsOn a s.log).length

section Alike

variable {a b c : Nat} {s t : Server}

theorem SlotAlike.refl (a b j : Nat) (σ : Slot) : SlotAlike a b j σ σ :=
  ⟨rfl, rfl, rfl, .refl _ _, .refl _ _⟩

theorem Alike.refl (a b : Nat) (s : Server) : Alike a b s s :=
  ⟨rfl, rfl, rfl, rfl, fun _ => .refl _ _ _ _, fun _ => .refl _ _, rfl⟩

/-- What a third party has been sent is the same in both. -/
theorem Alike.emitted (h : Alike a b s t) {j : Nat} (ha : j ≠ a) (hb : j ≠ b) :
    t.emitted j = s.emitted j := by
  have hthird : ¬ (j = a ∨ j = b) := not_or.mpr ⟨ha, hb⟩
  show bytesWritten j t.log ++ (t.slot j).outgoing = bytesWritten j s.log ++ (s.slot j).outgoing
  rw [(h.written j).2 hthird, (h.slot j).outgoing.2 hthird]

theorem Alike.hasFlag_eq (h : Alike a b s t) (j : Nat) (g : ConnFlags) :
    hasFlag (t.connManager.flags j) g = hasFlag (s.connManager.flags j) g := by
  show hasFlag (t.slot j).flags g = hasFlag (s.slot j).flags g
  rw [(h.slot j).flags]

/-! ## The writes of the tables -/

theorem Alike.setFlags (h : Alike a b s t) (i : Nat) (f : ConnFlags) :
    Alike a b (s.setFlags i f) (t.setFlags i f) := by
  refine ⟨h.listenfd, h.status, h.size, h.db, fun j => ?_, h.written, h.served⟩
  have hj := h.slot j
  rw [Server.slot_setFlags, Server.slot_setFlags]
  split
  · exact ⟨rfl, hj.userId, hj.username, hj.incoming, hj.outgoing⟩
  · exact hj

theorem Alike.setIncoming (h : Alike a b s t) (i : Nat) {x y : Bytes}
    (hxy : SameUnless (i = a) x y) : Alike a b (s.setIncoming i x) (t.setIncoming i y) := by
  refine ⟨h.listenfd, h.status, h.size, h.db, fun j => ?_, h.written, h.served⟩
  have hj := h.slot j
  rw [Server.slot_setIncoming, Server.slot_setIncoming]
  split
  · rename_i hi
    subst hi
    exact ⟨hj.flags, hj.userId, hj.username, hxy, hj.outgoing⟩
  · exact hj

theorem Alike.setOutgoing (h : Alike a b s t) (i : Nat) {x y : Bytes}
    (hxy : SameUnless (i = a ∨ i = b) x y) :
    Alike a b (s.setOutgoing i x) (t.setOutgoing i y) := by
  refine ⟨h.listenfd, h.status, h.size, h.db, fun j => ?_, h.written, h.served⟩
  have hj := h.slot j
  rw [Server.slot_setOutgoing, Server.slot_setOutgoing]
  split
  · rename_i hi
    subst hi
    exact ⟨hj.flags, hj.userId, hj.username, hj.incoming, hxy⟩
  · exact hj

theorem Alike.setUserId (h : Alike a b s t) (i : Nat) (id : UInt32) :
    Alike a b (s.setUserId i id) (t.setUserId i id) := by
  refine ⟨h.listenfd, h.status, h.size, h.db, fun j => ?_, h.written, h.served⟩
  have hj := h.slot j
  rw [Server.slot_setUserId, Server.slot_setUserId]
  split
  · exact ⟨hj.flags, rfl, hj.username, hj.incoming, hj.outgoing⟩
  · exact hj

theorem Alike.setUsername (h : Alike a b s t) (i : Nat) (name : Bytes) :
    Alike a b (s.setUsername i name) (t.setUsername i name) := by
  refine ⟨h.listenfd, h.status, h.size, h.db, fun j => ?_, h.written, h.served⟩
  have hj := h.slot j
  rw [Server.slot_setUsername, Server.slot_setUsername]
  split
  · exact ⟨hj.flags, hj.userId, rfl, hj.incoming, hj.outgoing⟩
  · exact hj

theorem Alike.setDb (h : Alike a b s t) (db : Db) : Alike a b (s.setDb db) (t.setDb db) :=
  ⟨h.listenfd, h.status, h.size, rfl, h.slot, h.written, h.served⟩

theorem Alike.setStatus (h : Alike a b s t) (st : Status) :
    Alike a b (s.setStatus st) (t.setStatus st) :=
  ⟨h.listenfd, rfl, h.size, h.db, h.slot, h.written, h.served⟩

/-- The history may grow by entries that show a third party the same. -/
theorem Alike.record (h : Alike a b s t) {e e' : Entry}
    (hw : ∀ j, SameUnless (j = a ∨ j = b) (e.writtenTo j) (e'.writtenTo j))
    (hq : (e'.requestOn a).length = (e.requestOn a).length) :
    Alike a b (s.record e) (t.record e') := by
  refine ⟨h.listenfd, h.status, h.size, h.db, h.slot, fun j => ?_, ?_⟩
  · rw [Server.log_record, Server.log_record, bytesWritten_append, bytesWritten_append,
      bytesWritten_singleton, bytesWritten_singleton]
    exact (h.written j).append (hw j)
  · rw [Server.log_record, Server.log_record, requestsOn_append, requestsOn_append,
      requestsOn_singleton, requestsOn_singleton, List.length_append, List.length_append,
      h.served, hq]

/-- A call that writes nothing is no different with another answer. -/
theorem Alike.sys (h : Alike a b s t) {k k' : Syscall UInt8}
    (hk : ∀ j, (Entry.sys k).writtenTo j = []) (hk' : ∀ j, (Entry.sys k').writtenTo j = []) :
    Alike a b (s.sys k) (t.sys k') := by
  apply h.record
  · intro j
    rw [hk, hk']
    exact .refl _ _
  · rfl

/-! ## What is done for a connection -/

theorem Alike.setConnectionState (h : Alike a b s t) (i : Nat) (next : ConnState) :
    Alike a b (s.setConnectionState i next) (t.setConnectionState i next) := by
  have hflags : t.connManager.flags i = s.connManager.flags i := (h.slot i).flags
  unfold Server.setConnectionState
  rw [hflags]
  have hset := h.setFlags i (next.nextFlags (s.connManager.flags i))
  cases next with
  | reading => exact hset.sys (fun _ => rfl) (fun _ => rfl)
  | writing => exact hset.sys (fun _ => rfl) (fun _ => rfl)
  | closing => exact hset

theorem Alike.deliver (h : Alike a b s t) (i : Nat) {x y : Bytes}
    (hxy : SameUnless (i = a ∨ i = b) x y) : Alike a b (s.deliver i x) (t.deliver i y) := by
  apply Alike.setConnectionState
  exact h.setOutgoing i ((h.slot i).outgoing.append hxy)

theorem Alike.signIn (h : Alike a b s t) (i : Nat) (user : User) :
    Alike a b (s.signIn i user) (t.signIn i user) := by
  have hflags : t.connManager.flags i = s.connManager.flags i := (h.slot i).flags
  have hset := ((h.setUserId i user.userId).setUsername i user.username).setFlags i
    (s.connManager.flags i ||| .isAuth)
  show Alike a b (s.signIn i user)
    (((t.setUserId i user.userId).setUsername i user.username).setFlags i
      (t.connManager.flags i ||| .isAuth))
  rw [hflags]
  exact hset

/-- A request that is the same in both states is served alike, on any connection. -/
theorem servesAlike_alike (a b c : Nat) : ServesAlike c (Alike a b) where
  db h := h.db
  size h := h.size
  isAuth h j := h.hasFlag_eq j .isAuth
  username h j := (h.slot j).username
  setDb h db := h.setDb db
  signIn h user := h.signIn c user
  deliver h i _ _ := h.deliver i (.refl _ _)

/-- What is written is as much in both, and so is what remains. -/
theorem Alike.written_alike (h : Alike a b s t) (c n : Nat) :
    Alike a b (s.written c n) (t.written c n) := by
  have hout := (h.slot c).outgoing
  apply Alike.setOutgoing
  · apply h.record
    · intro j
      show SameUnless (j = a ∨ j = b) (if c = j then _ else []) (if c = j then _ else [])
      by_cases hj : c = j
      · subst hj
        rw [if_pos rfl, if_pos rfl]
        exact hout.take n
      · rw [if_neg hj, if_neg hj]
        exact .refl _ _
    · rfl
  · exact hout.drop n

theorem Alike.grow (h : Alike a b s t) (fd : Nat) : Alike a b (s.grow fd) (t.grow fd) := by
  have hlog : ∀ s : Server, (s.grow fd).log = s.log := by
    intro s
    unfold Server.grow
    split <;> rfl
  have hsize : ∀ s : Server, (s.grow fd).getSize = max s.getSize (fd + 1) := by
    exact fun s => size_activate s fd
  refine ⟨?_, ?_, ?_, ?_, fun j => ?_, fun j => ?_, ?_⟩
  · unfold Server.grow
    split <;> split <;> exact h.listenfd
  · unfold Server.grow
    split <;> split <;> exact h.status
  · rw [hsize, hsize, h.size]
  · unfold Server.grow
    split <;> split <;> exact h.db
  · rw [slot_grow, slot_grow, h.size]
    split
    · exact .refl _ _ _ _
    · exact h.slot j
  · rw [hlog, hlog]
    exact h.written j
  · rw [hlog, hlog]
    exact h.served

/-! ## Requests -/

/-- The response is queued for `c`, whose frame and response a third party does not see. -/
theorem Alike.respond (h : Alike a b s t) (c : Nat) (frame frame' : Bytes) {m m' : Message}
    (hm : SameUnless (c = a ∨ c = b) m.wire m'.wire) (v v' : View) (o : SqlOutcome) :
    Alike a b (s.respond c frame m v o) (t.respond c frame' m' v' o) := by
  apply Alike.record
  · apply h.setOutgoing
    rw [writeMessageToBuffer_eq, writeMessageToBuffer_eq]
    exact (h.slot c).outgoing.append hm
  · exact fun _ => .refl _ _
  · show (if c = a then [frame'] else []).length = (if c = a then [frame] else []).length
    split <;> rfl

theorem Alike.serveFrame (h : Alike a b s t) (c : Nat) (frame : Bytes) (o : SqlOutcome) :
    Alike a b (s.serveFrame c frame o) (t.serveFrame c frame o) := by
  obtain ⟨hd, hm⟩ := (servesAlike_alike a b c).dispatch h (parseMessage frame) o
  apply hd.respond
  rw [hm]
  exact .refl _ _

/-- A request is taken in both states or in neither, and the two frames are served alike. -/
theorem Alike.tryOneRequest (h : Alike a b s t) (c : Nat) (o : SqlOutcome)
    (hcut : requestCut (t.slot c).incoming = requestCut (s.slot c).incoming)
    (hserve : ∀ n, requestCut (s.slot c).incoming = .take n →
      Alike a b (s.serveFrame c ((s.slot c).incoming.take n) o)
        (t.serveFrame c ((t.slot c).incoming.take n) o)) :
    Alike a b (s.tryOneRequest c o).1 (t.tryOneRequest c o).1 ∧
      (t.tryOneRequest c o).2 = (s.tryOneRequest c o).2 := by
  cases hs : requestCut (s.slot c).incoming with
  | more =>
    rw [s.tryOneRequest_more c o hs, t.tryOneRequest_more c o (hcut.trans hs)]
    exact ⟨h, rfl⟩
  | stop =>
    rw [s.tryOneRequest_stop c o hs, t.tryOneRequest_stop c o (hcut.trans hs)]
    exact ⟨h.setConnectionState c .closing, rfl⟩
  | take n =>
    rw [s.tryOneRequest_take c o hs, t.tryOneRequest_take c o (hcut.trans hs)]
    exact ⟨(hserve n hs).setIncoming c ((h.slot c).incoming.drop n), rfl⟩

/-! ## Reading and writing -/

/-- One answer of `read`: as many bytes in both runs. -/
inductive AlikeRead (secret : Prop) : Rv UInt8 → Rv UInt8 → Prop where
  | bytes {x y : Bytes} : SameUnless secret x y → AlikeRead secret (.bytes x) (.bytes y)
  | fail (e : Errno) : AlikeRead secret (.fail e) (.fail e)

theorem AlikeRead.refl (secret : Prop) (rv : Rv UInt8) : AlikeRead secret rv rv := by
  cases rv with
  | bytes x => exact .bytes (.refl secret x)
  | fail e => exact .fail e

theorem Alike.readAvailable (h : Alike a b s t) (c : Nat) {reads reads' : List (Rv UInt8)}
    (hr : List.Forall₂ (AlikeRead (c = a)) reads reads') :
    Alike a b (s.readAvailable c reads).1 (t.readAvailable c reads').1 ∧
      (t.readAvailable c reads').2 = (s.readAvailable c reads).2 := by
  have hread : ∀ {s t : Server} (rv rv' : Rv UInt8), Alike a b s t →
      Alike a b (s.sys (.read c rv)) (t.sys (.read c rv')) := by
    intro s t rv rv' h
    exact h.sys (fun _ => rfl) (fun _ => rfl)
  induction hr generalizing s t with
  | nil => exact ⟨hread _ _ h, rfl⟩
  | cons hrv _ ih =>
    cases hrv with
    | fail e =>
      simp only [Server.readAvailable]
      split
      · exact ⟨hread _ _ h, rfl⟩
      · exact ⟨(hread _ _ h).setConnectionState c .closing, rfl⟩
    | @bytes x y hxy =>
      cases x with
      | nil =>
        obtain rfl := List.eq_nil_of_length_eq_zero hxy.1
        exact ⟨(hread _ _ h).setConnectionState c .closing, rfl⟩
      | cons x xs =>
        cases y with
        | nil => cases hxy.1
        | cons y ys =>
          apply ih
          exact (hread _ _ h).setIncoming c ((h.slot c).incoming.append hxy)

theorem Alike.handleWriteConnection (h : Alike a b s t) (c : Nat) (writes : List WriteAnswer) :
    Alike a b (s.handleWriteConnection c writes) (t.handleWriteConnection c writes) := by
  have hlen : ∀ {s t : Server}, Alike a b s t →
      (t.connManager.outgoingBuffers c).length = (s.connManager.outgoingBuffers c).length :=
    fun h => (h.slot c).outgoing.1
  induction writes generalizing s t with
  | nil =>
    simp only [Server.handleWriteConnection, hlen h]
    exact (h.written_alike c _).setConnectionState c .reading
  | cons answer writes ih =>
    cases answer with
    | took k =>
      have hw := h.written_alike c (min (k + 1) (s.connManager.outgoingBuffers c).length)
      simp only [Server.handleWriteConnection, hlen h, hlen hw]
      split
      · exact hw.setConnectionState c .reading
      · exact ih hw
    | fail e =>
      have hw : Alike a b (s.sys (.write c (.fail e))) (t.sys (.write c (.fail e))) :=
        h.sys (fun _ => rfl) (fun _ => rfl)
      simp only [Server.handleWriteConnection]
      split_ifs
      · exact hw.setStatus .killed
      · exact hw
      · exact hw.setConnectionState c .closing

/-! ## Connecting and closing -/

theorem Alike.addConnection (h : Alike a b s t) (fd : Nat) (nonblocking registered : Bool) :
    Alike a b (s.addConnection fd nonblocking registered)
      (t.addConnection fd nonblocking registered) := by
  unfold Server.addConnection
  split_ifs
  · exact h.setStatus _
  · exact h
  · apply Alike.setFlags
    apply Alike.grow
    exact h.sys (fun _ => rfl) (fun _ => rfl)

theorem Alike.acceptAllConnections (h : Alike a b s t) (answers : List AcceptAnswer) :
    Alike a b (s.acceptAllConnections answers) (t.acceptAllConnections answers) := by
  induction answers generalizing s t with
  | nil => exact h
  | cons answer answers ih =>
    cases answer with
    | fail e =>
      simp only [Server.acceptAllConnections]
      split
      · exact h
      · exact h.setStatus _
    | conn fd nonblocking registered =>
      have hadd : Alike a b ((s.sys (.accept fd)).addConnection fd nonblocking registered)
          ((t.sys (.accept fd)).addConnection fd nonblocking registered) := by
        apply Alike.addConnection
        exact h.sys (fun _ => rfl) (fun _ => rfl)
      simp only [Server.acceptAllConnections, hadd.status]
      split
      · exact ih hadd
      · exact hadd

theorem Alike.removeConnection (h : Alike a b s t) (c : Nat) :
    Alike a b (s.removeConnection c) (t.removeConnection c) :=
  (h.setFlags c .none).sys (fun _ => rfl) (fun _ => rfl)

end Alike

end ChatServer
