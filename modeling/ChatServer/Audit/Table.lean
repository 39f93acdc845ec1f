import ChatServer.Audit.Descriptors
import ChatServer.Model.Checked

/-!
# The connection table holds every descriptor in use

The five arrays have one length, which never shrinks, and every descriptor in the interest list
is below it. So no index is ever out of range: the event loop with checked indices computes what
the one without checks does.
-/

namespace ChatServer

open EdgeTrigger (Errno Rv Interest Syscall)

/-! ## Accesses in range -/

namespace Checked

section Accesses

variable {s : Server} {i : Nat} (h : i < s.getSize)

include h

theorem flags_eq : flags s i = some (s.connManager.flags i) :=
  Column.access_eq _ h _

theorem incoming_eq : incoming s i = some (s.connManager.incomingBuffers i) :=
  Column.access_eq _ (s.connManager.aligned.1 ▸ h) _

theorem outgoing_eq : outgoing s i = some (s.connManager.outgoingBuffers i) :=
  Column.access_eq _ (s.connManager.aligned.2.1 ▸ h) _

theorem username_eq : username s i = some (s.connManager.usernames i) :=
  Column.access_eq _ (s.connManager.aligned.2.2.2 ▸ h) _

theorem setFlags_eq (f : ConnFlags) : setFlags s i f = some (s.setFlags i f) :=
  Column.access_eq _ h _

theorem setIncoming_eq (b : Bytes) : setIncoming s i b = some (s.setIncoming i b) :=
  Column.access_eq _ (s.connManager.aligned.1 ▸ h) _

theorem setOutgoing_eq (b : Bytes) : setOutgoing s i b = some (s.setOutgoing i b) :=
  Column.access_eq _ (s.connManager.aligned.2.1 ▸ h) _

theorem setUserId_eq (id : UInt32) : setUserId s i id = some (s.setUserId i id) :=
  Column.access_eq _ (s.connManager.aligned.2.2.1 ▸ h) _

theorem setUsername_eq (name : Bytes) : setUsername s i name = some (s.setUsername i name) :=
  Column.access_eq _ (s.connManager.aligned.2.2.2 ▸ h) _

/-! ## The functions in range -/

theorem setConnectionState_eq (next : ConnState) :
    setConnectionState s i next = some (s.setConnectionState i next) := by
  simp only [setConnectionState, flags_eq h, setFlags_eq h, Option.bind_eq_bind, Option.bind_some]
  cases next <;> rfl

theorem loginUser_eq (request : Message) (o : SqlOutcome) :
    loginUser s i request o = some (s.loginUser i request o) := by
  unfold loginUser Server.loginUser
  cases parseLoginRequest request with
  | error rc => rfl
  | ok credentials =>
    simp only
    generalize getUserByUsername s.db (stringToLower credentials.username) .empty o = found
    split_ifs
    · rfl
    · rfl
    · rfl
    · have h₁ : i < (s.setUserId i found.2.userId).getSize := h
      have h₂ : i < ((s.setUserId i found.2.userId).setUsername i found.2.username).getSize := h
      simp only [setUserId_eq h, setUsername_eq h₁, flags_eq h₂, setFlags_eq h₂,
        Option.bind_eq_bind, Option.bind_some]
      cases buildLoginResponse found.2 <;> rfl

theorem isValidRecipient_eq (c : Nat) :
    isValidRecipient s c i = some (s.isValidRecipient c i) := by
  unfold isValidRecipient
  rw [flags_eq h]
  rfl

theorem deliver_eq (b : Bytes) : deliver s i b = some (s.deliver i b) := by
  have h' : i < (s.queueBytes i b).getSize := h
  simp only [deliver, outgoing_eq h, setOutgoing_eq h, Option.bind_eq_bind, Option.bind_some]
  exact setConnectionState_eq h' .writing

end Accesses

/-! ## Broadcasts -/

theorem fanOutFrom_eq (c : Nat) (b : Bytes) (is : List Nat) {s : Server}
    (h : ∀ i ∈ is, i < s.getSize) :
    fanOutFrom c b is s = some (is.foldl
      (fun s i => if s.isValidRecipient c i then s.deliver i b else s) s) := by
  induction is generalizing s with
  | nil => rfl
  | cons i is ih =>
    have hi := h i List.mem_cons_self
    have hrest : ∀ j ∈ is, j < s.getSize := fun j hj => h j (List.mem_cons_of_mem _ hj)
    simp only [fanOutFrom, isValidRecipient_eq hi, Option.bind_eq_bind, Option.bind_some,
      List.foldl_cons]
    cases s.isValidRecipient c i with
    | false => exact ih hrest
    | true =>
      have hdeliver : ∀ j ∈ is, j < (s.deliver i b).getSize := hrest
      simp only [if_true, deliver_eq hi, Option.bind_some]
      exact ih hdeliver

theorem fanOut_eq (s : Server) (c : Nat) (b : Bytes) : fanOut s c b = some (s.fanOut c b) :=
  fanOutFrom_eq c b _ fun _ hi => List.mem_range.mp hi

theorem findRecipientFrom_eq (c : Nat) (name : Bytes) (is : List Nat) {s : Server}
    (h : ∀ i ∈ is, i < s.getSize) :
    findRecipientFrom s c name is =
      some (is.find? fun i =>
        s.isValidRecipient c i && s.connManager.usernames i == name) := by
  induction is with
  | nil => rfl
  | cons i is ih =>
    have hi := h i List.mem_cons_self
    have hrest := ih fun j hj => h j (List.mem_cons_of_mem _ hj)
    simp only [findRecipientFrom, isValidRecipient_eq hi, username_eq hi, Option.bind_eq_bind,
      Option.bind_some, List.find?_cons, hrest]
    cases s.isValidRecipient c i with
    | false => rfl
    | true => cases s.connManager.usernames i == name <;> rfl

theorem findRecipient_eq (s : Server) (c : Nat) (name : Bytes) :
    findRecipient s c name = some (s.findRecipient c name) :=
  findRecipientFrom_eq c name _ fun _ hi => List.mem_range.mp hi

/-- A recipient that was found is in the table. -/
theorem findRecipient_lt {s : Server} {c i : Nat} {name : Bytes}
    (h : s.findRecipient c name = some i) : i < s.getSize :=
  List.mem_range.mp (List.mem_of_find?_eq_some h)

section Requests

variable {s : Server} {c : Nat} (h : c < s.getSize)

include h

theorem handleWorldBroadcast_eq (request : Message) :
    handleWorldBroadcast s c request = some (s.handleWorldBroadcast c request) := by
  unfold handleWorldBroadcast Server.handleWorldBroadcast
  cases parseWorldBroadcast request with
  | error rc => rfl
  | ok b =>
    simp only [username_eq h, Option.bind_eq_bind, Option.bind_some]
    split
    · rfl
    · cases buildWorldBroadcastNotification
        { b with senderUsername := s.connManager.usernames c } with
      | error rc => rfl
      | ok response => simp only [fanOut_eq, Option.bind_some]

theorem handleP2pBroadcast_eq (request : Message) :
    handleP2pBroadcast s c request = some (s.handleP2pBroadcast c request) := by
  unfold handleP2pBroadcast Server.handleP2pBroadcast
  cases parseP2pBroadcast request with
  | error rc => rfl
  | ok b =>
    simp only [username_eq h, Option.bind_eq_bind, Option.bind_some]
    split_ifs
    · rfl
    · rfl
    · cases buildP2pBroadcastNotification
        { b with senderUsername := s.connManager.usernames c } with
      | error rc => rfl
      | ok response =>
        simp only [findRecipient_eq, Option.bind_some]
        cases hfound : s.findRecipient c b.recipientUsername with
        | none => rfl
        | some i => simp only [deliver_eq (findRecipient_lt hfound), Option.bind_some]

theorem handleBroadcastMessage_eq (request : Message) :
    handleBroadcastMessage s c request = some (s.handleBroadcastMessage c request) := by
  simp only [handleBroadcastMessage, Server.handleBroadcastMessage, flags_eq h,
    Option.bind_eq_bind, Option.bind_some, handleWorldBroadcast_eq h, handleP2pBroadcast_eq h]
  split_ifs <;> rfl

theorem dispatch_eq (request : Message) (o : SqlOutcome) :
    dispatch s c request o = some (s.dispatch c request o) := by
  simp only [dispatch, Server.dispatch, loginUser_eq h, handleBroadcastMessage_eq h]
  split_ifs <;> rfl

theorem tryOneRequest_eq (o : SqlOutcome) :
    tryOneRequest s c o = some (s.tryOneRequest c o) := by
  simp only [tryOneRequest, Server.tryOneRequest, incoming_eq h, Option.bind_eq_bind,
    Option.bind_some]
  split_ifs
  · rfl
  · simp only [setConnectionState_eq h, Option.bind_some]
  · rfl
  · have hd := dispatch_handled s c (parseMessage (s.connManager.incomingBuffers c)) o
    have h₁ : c < (s.dispatch c (parseMessage (s.connManager.incomingBuffers c)) o).1.getSize :=
      hd.frame.1.symm ▸ h
    have h₂ : ∀ b, c < ((s.dispatch c (parseMessage (s.connManager.incomingBuffers c)) o).1.setIncoming c
        b).getSize := fun _ => h₁
    simp only [dispatch_eq h, Option.bind_some, incoming_eq h₁, setIncoming_eq h₁,
      outgoing_eq (h₂ _), setOutgoing_eq (h₂ _)]
    rfl

end Requests

end Checked

/-! ## The table never shrinks -/

section Size

variable {s t : Server} {c : Nat}

theorem Step.size_le (hst : Step c s t) : s.getSize ≤ t.getSize := by
  cases hst with
  | connect =>
    rw [size_activate]
    exact Nat.le_max_left _ _
  | serve o => exact Nat.le_of_eq (serve_frame s c _ o _).1.symm
  | _ => exact Nat.le_refl _

theorem Steps.size_le (h : Steps s t) : s.getSize ≤ t.getSize :=
  h.preserves (P := fun u => s.getSize ≤ u.getSize) (fun _ _ _ hst hu => hu.trans hst.size_le)
    (Nat.le_refl _)

end Size

/-! ## The handlers and the loop in range -/

namespace Checked

section Handlers

variable {s : Server} {c : Nat} (h : c < s.getSize)

include h

theorem serveRequests_eq (fuel : Nat) (sql : List SqlOutcome) :
    serveRequests c fuel s sql = some (Server.serveRequests c fuel s sql) := by
  induction fuel generalizing s sql with
  | zero => rfl
  | succ fuel ih =>
    have hsize := (tryOneRequest_globals s c (sql.headD {})).1
    simp only [serveRequests, Server.serveRequests, tryOneRequest_eq h, Option.bind_eq_bind,
      Option.bind_some]
    cases htry : s.tryOneRequest c (sql.headD {}) with
    | mk t served =>
      rw [htry] at hsize
      cases served with
      | false => rfl
      | true => exact ih (s := t) (hsize.symm ▸ h) sql.tail

theorem logDisconnect_eq : logDisconnect s c = some () := by
  simp only [logDisconnect, incoming_eq h, flags_eq h, username_eq h, Option.bind_eq_bind,
    Option.bind_some]
  split_ifs <;> rfl

theorem readAvailable_eq (reads : List (Rv UInt8)) :
    readAvailable s c reads = some (s.readAvailable c reads) := by
  induction reads generalizing s with
  | nil => rfl
  | cons rv rvs ih =>
    match rv with
    | .bytes [] =>
      have h' : c < (s.sys (.read c (.bytes []))).getSize := h
      simp only [readAvailable, Server.readAvailable, logDisconnect_eq h',
        setConnectionState_eq h', Option.bind_eq_bind, Option.bind_some]
    | .bytes (b :: bs) =>
      have h' : c < (s.sys (.read c (.bytes (b :: bs)))).getSize := h
      simp only [readAvailable, Server.readAvailable, incoming_eq h', setIncoming_eq h',
        Option.bind_eq_bind, Option.bind_some]
      exact ih h'
    | .fail e =>
      have h' : c < (s.sys (.read c (.fail e))).getSize := h
      simp only [readAvailable, Server.readAvailable, setConnectionState_eq h',
        Option.bind_eq_bind, Option.bind_some]
      split_ifs <;> rfl

theorem handleReadConnection_eq (script : Script) :
    handleReadConnection s c script = some (s.handleReadConnection c script) := by
  have hsize : (s.readAvailable c script.reads).1.getSize = s.getSize :=
    (agree_readAvailable c s script.reads).size
  unfold handleReadConnection Server.handleReadConnection
  simp only [readAvailable_eq h, Option.bind_eq_bind, Option.bind_some]
  generalize s.readAvailable c script.reads = r at hsize ⊢
  obtain ⟨t, drained⟩ := r
  have h₁ : c < t.getSize := hsize.symm ▸ h
  cases drained with
  | false => rfl
  | true =>
    have hserve := (serveRequests_globals c ((t.connManager.incomingBuffers c).length + 1) t
      script.sql).1
    simp only [incoming_eq h₁, serveRequests_eq h₁, Option.bind_some, Bool.not_true,
      Bool.false_eq_true, if_false]
    generalize Server.serveRequests c ((t.connManager.incomingBuffers c).length + 1) t
      script.sql = u at hserve ⊢
    have h₂ : c < u.getSize := hserve.symm ▸ h₁
    simp only [outgoing_eq h₂, Option.bind_some, setConnectionState_eq h₂]
    split_ifs <;> rfl

theorem written_eq (n : Nat) : written s c n = some (s.written c n) := by
  simp only [written, outgoing_eq h, Option.bind_eq_bind, Option.bind_some]
  exact setOutgoing_eq (s := s.sys _) h _

theorem handleWriteConnection_eq (writes : List WriteAnswer) :
    handleWriteConnection s c writes = some (s.handleWriteConnection c writes) := by
  induction writes generalizing s with
  | nil =>
    have h' : ∀ n, c < (s.written c n).getSize := fun _ => h
    simp only [handleWriteConnection, Server.handleWriteConnection, outgoing_eq h, written_eq h,
      setConnectionState_eq (h' _), Option.bind_eq_bind, Option.bind_some]
  | cons answer answers ih =>
    cases answer with
    | took k =>
      have h' : ∀ n, c < (s.written c n).getSize := fun _ => h
      simp only [handleWriteConnection, Server.handleWriteConnection, outgoing_eq h, written_eq h,
        outgoing_eq (h' _), setConnectionState_eq (h' _), ih (h' _), Option.bind_eq_bind,
        Option.bind_some]
      split_ifs <;> rfl
    | fail e =>
      have h' : c < (s.sys (.write c (.fail e))).getSize := h
      simp only [handleWriteConnection, Server.handleWriteConnection, outgoing_eq h,
        setConnectionState_eq h', Option.bind_eq_bind, Option.bind_some]
      split_ifs <;> rfl

theorem removeConnection_eq : removeConnection s c = some (s.removeConnection c) := by
  simp only [removeConnection, setFlags_eq h, Option.bind_eq_bind, Option.bind_some]
  rfl

end Handlers

/-- Growing makes room for the descriptor, whatever its number. -/
theorem addConnection_eq (s : Server) (fd : Nat) (nonblocking registered : Bool) :
    addConnection s fd nonblocking registered = some (s.addConnection fd nonblocking registered) := by
  have hgrow : fd < ((s.sys (.add fd .input)).grow fd).getSize := by
    have hsize := size_activate (s.sys (.add fd .input)) fd
    change ((s.sys (.add fd .input)).grow fd).getSize = _ at hsize
    omega
  simp only [addConnection, Server.addConnection, setFlags_eq hgrow]
  split_ifs <;> rfl

theorem acceptAllConnections_eq (s : Server) (answers : List AcceptAnswer) :
    acceptAllConnections s answers = some (s.acceptAllConnections answers) := by
  induction answers generalizing s with
  | nil => rfl
  | cons answer answers ih =>
    cases answer with
    | fail e =>
      simp only [acceptAllConnections, Server.acceptAllConnections]
      split_ifs <;> rfl
    | conn fd nonblocking registered =>
      simp only [acceptAllConnections, Server.acceptAllConnections, addConnection_eq,
        Option.bind_eq_bind, Option.bind_some, ih]
      split_ifs <;> rfl

theorem handleConnection_eq {s : Server} {ev : Event} (h : ev.fd < s.getSize) :
    handleConnection s ev = some (s.handleConnection ev) := by
  have hread : readStage s ev = some (s.readStage ev) := by
    simp only [readStage, Server.readStage, flags_eq h, handleReadConnection_eq h,
      Option.bind_eq_bind, Option.bind_some]
    split_ifs <;> rfl
  have h₁ : ev.fd < (s.readStage ev).getSize :=
    h.trans_le (readStage_steps s ev).steps.size_le
  have hwrite : writeStage (s.readStage ev) ev = some ((s.readStage ev).writeStage ev) := by
    simp only [writeStage, Server.writeStage, flags_eq h₁, handleWriteConnection_eq h₁,
      Option.bind_eq_bind, Option.bind_some]
    split_ifs <;> rfl
  have h₂ : ev.fd < ((s.readStage ev).writeStage ev).getSize :=
    h₁.trans_le (writeStage_steps (s.readStage ev) ev).steps.size_le
  have hclose : closeStage ((s.readStage ev).writeStage ev) ev = some (s.handleConnection ev) := by
    simp only [closeStage, Server.handleConnection, Server.closeStage, flags_eq h₂,
      removeConnection_eq h₂, Option.bind_eq_bind, Option.bind_some]
    split_ifs <;> rfl
  simp only [handleConnection, hread, hwrite, hclose, Option.bind_eq_bind, Option.bind_some]

theorem handleEvent_eq {s : Server} {ev : Event}
    (h : ev.fd = s.listenfd ∨ ev.fd = STDIN_FILENO ∨ ev.fd < s.getSize) :
    handleEvent s ev = some (s.handleEvent ev) := by
  unfold handleEvent Server.handleEvent
  split_ifs with hrun hl herr h0 herr'
  · rfl
  · rfl
  · exact acceptAllConnections_eq s ev.script.accepts
  · rfl
  · rfl
  · exact handleConnection_eq ((h.resolve_left hl).resolve_left h0)

/-- The events of one batch: what is in the table stays in it. -/
theorem handleEvents_eq (events : List Event) {s : Server} (hs : Tidy s)
    (h : ∀ ev ∈ events, ev.fd = s.listenfd ∨ ev.fd = STDIN_FILENO ∨ ev.fd < s.getSize) :
    handleEvents events s = some (events.foldl Server.handleEvent s) := by
  induction events generalizing s with
  | nil => rfl
  | cons ev events ih =>
    have hsteps := handleEvent_steps s ev
    obtain ⟨htidy, hlisten⟩ := tidy_of_steps hsteps hs
    simp only [handleEvents, handleEvent_eq (h ev List.mem_cons_self), Option.bind_eq_bind,
      Option.bind_some, List.foldl_cons]
    refine ih htidy fun e he => ?_
    rw [hlisten]
    rcases h e (List.mem_cons_of_mem _ he) with hl | h0 | hlt
    · exact .inl hl
    · exact .inr (.inl h0)
    · exact .inr (.inr (hlt.trans_le hsteps.size_le))

end Checked

/-! ## The descriptors in the interest list -/

/-- Every descriptor that was ever added to the interest list has a slot. -/
def Server.Covers (s : Server) : Prop := ∀ fd, .add fd .input ∈ s.calls → fd < s.getSize

section Covers

variable {s t : Server} {c : Nat}

/-- A step that adds nothing to the interest list. -/
theorem Server.Covers.extend (h : s.Covers) {ks : List (Syscall UInt8)}
    (hcalls : t.calls = s.calls ++ ks) (hno : ∀ fd, .add fd .input ∉ ks)
    (hsize : s.getSize ≤ t.getSize) : t.Covers := by
  intro fd hfd
  rw [hcalls] at hfd
  rcases List.mem_append.mp hfd with hfd | hfd
  · exact (h fd hfd).trans_le hsize
  · exact absurd hfd (hno fd)

theorem Step.covers (hst : Step c s t) (h : s.Covers) : t.Covers := by
  have hsize := hst.size_le
  have hquiet : s.calls = s.calls ++ [] := (List.append_nil _).symm
  cases hst with
  | @call k hk => exact h.extend (calls_sys s k) (by cases hk <;> simp) hsize
  | halt st => exact h.extend hquiet (by simp) hsize
  | connect =>
    intro fd hfd
    rw [calls_of_log (log_connect s c)] at hfd
    rcases List.mem_append.mp hfd with hfd | hfd
    · exact (h fd hfd).trans_le hsize
    · -- the slot is made before the descriptor can be reported
      obtain rfl : fd = c := by simpa [Entry.call] using hfd
      rw [size_activate]
      exact Nat.le_max_right _ _
  | receive b bs => exact h.extend (calls_sys s _) (by simp) hsize
  | @serve n o =>
    obtain ⟨dests, _, hlog⟩ :=
      (dispatch_handled s c (parseMessage ((s.slot c).incoming.take n)) o).log
    exact h.extend (calls_serve _ hlog) (by simp) hsize
  | closing => exact h.extend hquiet (by simp) hsize
  | writing => exact h.extend (calls_sys _ _) (by simp) hsize
  | write n => exact h.extend (calls_sys s _) (by simp) hsize
  | reading => exact h.extend (calls_sys _ _) (by simp) hsize
  | remove => exact h.extend (calls_sys _ _) (by simp) hsize

theorem Server.Covers.listed (h : s.Covers) {fd : Nat} (hl : s.Listed fd) : fd < s.getSize := by
  obtain ⟨before, after, hcalls, _⟩ := hl
  refine h fd ?_
  rw [hcalls]
  simp

end Covers

/-- `epoll_wait` reports what is in the interest list: the listening socket, standard input, and
the descriptors that were added and not deleted since. -/
def Event.Reported (s : Server) (ev : Event) : Prop :=
  ev.fd = s.listenfd ∨ ev.fd = STDIN_FILENO ∨ s.Listed ev.fd

def Wait.Reported (s : Server) : Wait → Prop
  | .ready events => ∀ ev ∈ events, ev.Reported s
  | .fail => True

/-! ## Whole runs -/

/-- The five arrays have the length that `get_size` gives. -/
structure ConnectionManager.OneLength (m : ConnectionManager) : Prop where
  flags : m.flags.size = m.getSize
  incomingBuffers : m.incomingBuffers.size = m.getSize
  outgoingBuffers : m.outgoingBuffers.size = m.getSize
  userIds : m.userIds.size = m.getSize
  usernames : m.usernames.size = m.getSize

/-- The table is at least as long as before; every slot that was there is as it was, in all five
arrays, and every other has no flags and empty buffers. -/
structure Extends (s t : Server) : Prop where
  size : s.getSize ≤ t.getSize
  kept : ∀ j < s.getSize, t.slot j = s.slot j
  fresh : ∀ j, s.getSize ≤ j → j < t.getSize →
    (t.slot j).flags = .none ∧ (t.slot j).incoming = [] ∧ (t.slot j).outgoing = []

theorem extends_grow (s : Server) (fd : Nat) : Extends s (s.grow fd) := by
  have hsize : (s.grow fd).getSize = max s.getSize (fd + 1) := size_activate s fd
  refine ⟨hsize ▸ Nat.le_max_left _ _, fun j hj => ?_, fun j hj hlt => ?_⟩
  · rw [slot_grow, if_neg fun hno => Nat.not_lt.mpr hno.2 hj]
  · have hfd : s.getSize ≤ fd := by omega
    rw [slot_grow, if_pos ⟨hfd, hj⟩]
    exact ⟨rfl, rfl, rfl⟩

theorem Steps.covers {capacity listenfd : Nat} {db : Db} {s : Server}
    (h : Steps (Server.boot capacity listenfd db) s) : s.Covers :=
  h.preserves (P := Server.Covers) (fun _ _ _ hst hs => hst.covers hs)
    fun _ hfd => absurd hfd List.not_mem_nil

/-- **The connection table holds every descriptor in use.** At the top of the loop its five
arrays have one length, at least the initial one, and the descriptors in the interest list are
below it; growing keeps what is there; and whatever `epoll_wait` reports, no access that the
iteration makes is out of range, and the table does not shrink. -/
theorem connection_table_sound {capacity listenfd : Nat} {db : Db} {s : Server}
    (h : Reaches (Server.boot capacity listenfd db) s) :
    s.connManager.OneLength ∧ capacity ≤ s.getSize ∧ (∀ fd, s.Listed fd → fd < s.getSize) ∧
      (∀ (t : Server) fd, Extends t (t.grow fd)) ∧
      ∀ w : Wait, w.Reported s →
        Checked.iterate s w = some (s.iterate w) ∧ s.getSize ≤ (s.iterate w).getSize := by
  have hcovers := h.steps.covers
  have htidy := h.steps.tidy
  obtain ⟨h1, h2, h3, h4⟩ := s.connManager.aligned
  refine ⟨⟨rfl, h1, h2, h3, h4⟩, h.steps.size_le, fun fd hl => hcovers.listed hl, extends_grow,
    fun w hw => ⟨?_, (iterate_steps s w).size_le⟩⟩
  cases w with
  | fail => rfl
  | ready events =>
    refine Checked.handleEvents_eq events htidy fun ev hev => ?_
    rcases hw ev hev with hl | h0 | hlisted
    · exact .inl hl
    · exact .inr (.inl h0)
    · exact .inr (.inr (hcovers.listed hlisted))

/-- Two descriptors at the end of the table and far above it, and the end of a connection. -/
theorem connection_table_sound_jump :
    let s := accepted 8
    let w := Wait.ready [⟨3, false, { accepts := [.conn 8 true true, .conn 20 true true] }⟩,
      ⟨5, false, { reads := [.bytes []] }⟩]
    Checked.iterate s w = some (s.iterate w) ∧ (s.iterate w).getSize = 21 := by
  intro s w
  have hlisted : s.Listed 5 := ⟨[.accept 5], [], rfl, List.not_mem_nil⟩
  have hreported : w.Reported s := by
    intro ev hev
    rcases List.mem_pair.mp hev with rfl | rfl
    · exact .inl rfl
    · exact .inr (.inr hlisted)
  exact ⟨((connection_table_sound (reaches_accepted 8)).2.2.2.2 w hreported).1,
    by decide +kernel⟩

end ChatServer
