import ChatServer.Audit.FreedSlots

/-!
# Descriptors that stay open

`remove_connection` clears the flags of a slot and takes its descriptor out of the interest
list, and does not close it. A descriptor that cannot be registered is not closed either. As
long as no connection ends, and none fails to be registered, the open descriptors are those of
the active slots.
-/

namespace ChatServer

open EdgeTrigger (Errno Rv Interest Syscall)

/-- `accept` has returned the descriptor. No function of the server closes a connection, so it
is open from then on. -/
def Server.HoldsOpen (s : Server) (fd : Nat) : Prop := .accept fd ∈ s.calls

/-- The descriptor is in the interest list: nothing has deleted it since it was added. -/
def Server.Listed (s : Server) (fd : Nat) : Prop :=
  ∃ before after, s.calls = before ++ .add fd .input :: after ∧ .delete fd ∉ after

/-! ## The calls that neither open nor remove a connection -/

/-- All calls from `s` to `t` read, write or change the interest of a descriptor. -/
def KeepsDescriptors (s t : Server) : Prop :=
  ∃ ks, t.calls = s.calls ++ ks ∧ ∀ fd, .accept fd ∉ ks ∧ .delete fd ∉ ks

section Calls

variable {s t u : Server} {c : Nat}

theorem KeepsDescriptors.refl (s : Server) : KeepsDescriptors s s :=
  ⟨[], (List.append_nil _).symm, fun _ => ⟨List.not_mem_nil, List.not_mem_nil⟩⟩

theorem KeepsDescriptors.trans (h : KeepsDescriptors s t) (h' : KeepsDescriptors t u) :
    KeepsDescriptors s u := by
  obtain ⟨ks, hks, hno⟩ := h
  obtain ⟨ks', hks', hno'⟩ := h'
  refine ⟨ks ++ ks', by rw [hks', hks, List.append_assoc], fun fd => ?_⟩
  simp only [List.mem_append, not_or]
  exact ⟨⟨(hno fd).1, (hno' fd).1⟩, ⟨(hno fd).2, (hno' fd).2⟩⟩

theorem KeepsDescriptors.holdsOpen (h : KeepsDescriptors s t) (fd : Nat) :
    t.HoldsOpen fd ↔ s.HoldsOpen fd := by
  obtain ⟨ks, hks, hno⟩ := h
  simp only [Server.HoldsOpen, hks, List.mem_append, (hno fd).1, or_false]

theorem Server.Listed.keeps {fd : Nat} (hl : s.Listed fd) (h : KeepsDescriptors s t) :
    t.Listed fd := by
  obtain ⟨before, after, hcalls, hdel⟩ := hl
  obtain ⟨ks, hks, hno⟩ := h
  refine ⟨before, after ++ ks, by rw [hks, hcalls]; simp, fun hmem => ?_⟩
  rcases List.mem_append.mp hmem with hmem | hmem
  · exact hdel hmem
  · exact (hno fd).2 hmem

theorem keepsDescriptors_sys {k : Syscall UInt8} (h : ∀ fd, k ≠ .accept fd ∧ k ≠ .delete fd) :
    KeepsDescriptors s (s.sys k) := by
  refine ⟨[k], calls_sys s k, fun fd => ?_⟩
  simp only [List.mem_singleton]
  exact ⟨Ne.symm (h fd).1, Ne.symm (h fd).2⟩

theorem keepsDescriptors_setConnectionState (s : Server) (c : Nat) (next : ConnState) :
    KeepsDescriptors s (s.setConnectionState c next) := by
  cases next with
  | reading => exact keepsDescriptors_sys (by simp)
  | writing => exact keepsDescriptors_sys (by simp)
  | closing => exact .refl s

theorem keepsDescriptors_served (s : Server) (c : Nat) (frame : Bytes) (o : SqlOutcome)
    (rest : Bytes) : KeepsDescriptors s ((s.serveFrame c frame o).setIncoming c rest) := by
  obtain ⟨dests, _, hlog⟩ := (dispatch_handled s c (parseMessage frame) o).log
  exact ⟨_, calls_serve rest hlog, by simp⟩

theorem keepsDescriptors_read (c : Nat) : AlongRead c KeepsDescriptors where
  refl := .refl
  trans := .trans
  received _ _ _ := keepsDescriptors_sys (by simp)
  blocked _ := keepsDescriptors_sys (by simp)
  ended _ _ :=
    (keepsDescriptors_sys (by simp)).trans (keepsDescriptors_setConnectionState _ c .closing)
  served s frame o rest := keepsDescriptors_served s c frame o rest
  refused s := keepsDescriptors_setConnectionState s c .closing
  turned s := keepsDescriptors_setConnectionState s c .writing

theorem keepsDescriptors_write (c : Nat) : AlongWrite c KeepsDescriptors where
  refl := .refl
  trans := .trans
  written _ _ := keepsDescriptors_sys (by simp)
  blocked _ := keepsDescriptors_sys (by simp)
  ended _ _ :=
    (keepsDescriptors_sys (by simp)).trans (keepsDescriptors_setConnectionState _ c .closing)
  turned s := keepsDescriptors_setConnectionState s c .reading

theorem keepsDescriptors_stages (s : Server) (ev : Event) :
    KeepsDescriptors s ((s.readStage ev).writeStage ev) := by
  have hread := (keepsDescriptors_read ev.fd).readStage s
  have hwrite := (keepsDescriptors_write ev.fd).writeStage (s.readStage ev)
    fun _ _ => keepsDescriptors_sys (by simp)
  exact hread.trans hwrite

end Calls

/-! ## One event -/

/-- The event ends no connection, and each connection that it opens is registered. -/
structure KeepsOpen (s : Server) (ev : Event) : Prop where
  registered : ∀ fd nonblocking registered, .conn fd nonblocking registered ∈ ev.script.accepts →
    registered = true
  /-- no end of the stream is met, and reading does not fail -/
  drained : hasFlag (s.slot ev.fd).flags .wantRead = true → readDrains ev.script.reads = true
  /-- no header announces too large a payload -/
  legalSize : hasFlag (s.slot ev.fd).flags .wantRead = true →
    requestCut (requestFramer.leftover
      ((s.slot ev.fd).incoming ++ readBytes ev.script.reads)) ≠ .stop
  /-- no write fails, except when the process is killed -/
  writes : ∀ e, .fail e ∈ ev.script.writes → e = .EAGAIN ∨ e = .EPIPE
  /-- no error is reported for a connection -/
  noError : ev.epollerr = true → hasFlag (s.slot ev.fd).flags .isActive = false

/-- An active slot reads or writes. -/
def Busy (slot : Slot) : Prop :=
  hasFlag slot.flags .isActive = true →
    hasFlag slot.flags .wantRead = true ∨ hasFlag slot.flags .wantWrite = true

/-- The open descriptors are those of the active slots, and all of them are listed. -/
structure Accounted (s : Server) : Prop where
  holdsOpen : ∀ fd, s.HoldsOpen fd ↔ hasFlag (s.slot fd).flags .isActive = true
  listed : ∀ fd, s.HoldsOpen fd → s.Listed fd

section Event

variable {s : Server} {ev : Event}

/-- A connection that the event does not end is in the middle of it before the close stage. -/
theorem stays_open (hrest : OneWay (s.slot ev.fd).flags)
    (hclose : hasFlag (s.slot ev.fd).flags .wantClose = false) (hbusy : Busy (s.slot ev.fd))
    (hkeep : KeepsOpen s ev) (ha : hasFlag (s.slot ev.fd).flags .isActive = true)
    (hrun : ((s.readStage ev).writeStage ev).status = .running) :
    ∃ b, Midway b (.fail .EAGAIN ∉ ev.script.writes)
      (((s.readStage ev).writeStage ev).slot ev.fd) := by
  cases hr : hasFlag (s.slot ev.fd).flags .wantRead with
  | true =>
    exact ⟨_, stages_midway ha hclose hrest hr (hkeep.drained hr) (hkeep.legalSize hr) hkeep.writes
      hrun⟩
  | false =>
    have hw : hasFlag (s.slot ev.fd).flags .wantWrite = true := by
      rcases hbusy ha with h | h
      · exact absurd (hr.symm.trans h) (by decide)
      · exact h
    rw [readStage_skip hr, writeStage_eq hw] at hrun ⊢
    exact ⟨_, handleWriteConnection_midway ha hclose hw rfl hkeep.writes hrun⟩

theorem Beside.active_iff {d : Nat} {t : Server} (h : Beside d s t) :
    hasFlag (t.slot d).flags .isActive = true ↔ hasFlag (s.slot d).flags .isActive = true := by
  cases h with
  | untouched _ _ _ hf => rw [hf]
  | queued _ _ ha _ _ ha' => exact iff_of_true ha' ha

theorem Accounted.keeps {t : Server} (h : Accounted s) (hk : KeepsDescriptors s t)
    (hflags : ∀ d, hasFlag (t.slot d).flags .isActive = true ↔
      hasFlag (s.slot d).flags .isActive = true) : Accounted t where
  holdsOpen fd := (hk.holdsOpen fd).trans ((h.holdsOpen fd).trans (hflags fd).symm)
  listed fd hfd := (h.listed fd ((hk.holdsOpen fd).mp hfd)).keeps hk

/-- To remove a slot that is not active deletes nothing that is open. -/
theorem Accounted.removeConnection {c : Nat} (h : Accounted s)
    (hc : hasFlag (s.slot c).flags .isActive = false) : Accounted (s.removeConnection c) := by
  have hcalls : (s.removeConnection c).calls = s.calls ++ [.delete c] := calls_sys _ _
  have hopen : ∀ fd, (s.removeConnection c).HoldsOpen fd ↔ s.HoldsOpen fd := by
    intro fd
    simp [Server.HoldsOpen, hcalls]
  have hne : ∀ fd, s.HoldsOpen fd → fd ≠ c := by
    rintro fd hfd rfl
    exact absurd (hc.symm.trans ((h.holdsOpen fd).mp hfd)) (by decide)
  constructor
  · intro fd
    rw [hopen, h.holdsOpen, slot_removeConnection]
    split
    · rename_i hfd
      subst hfd
      rw [hc, hasFlag_none]
    · exact Iff.rfl
  · intro fd hfd
    have hfd' := (hopen fd).mp hfd
    obtain ⟨before, after, hs, hdel⟩ := h.listed fd hfd'
    refine ⟨before, after ++ [.delete c], by rw [hcalls, hs]; simp, fun hmem => ?_⟩
    rcases List.mem_append.mp hmem with hmem | hmem
    · exact hdel hmem
    · simp only [List.mem_singleton, Syscall.delete.injEq] at hmem
      exact hne fd hfd' hmem

theorem accounted_handleConnection {listenfd : Nat} (hs : Tidy s)
    (hrest : AtRest listenfd ev.fd (s.slot ev.fd)) (hbusy : Busy (s.slot ev.fd))
    (hkeep : KeepsOpen s ev) (hend : (s.handleConnection ev).status = .running) :
    Busy ((s.handleConnection ev).slot ev.fd) ∧
      (Accounted s → Accounted (s.handleConnection ev)) := by
  have hstatus := status_stages hend
  unfold Server.handleConnection
  cases ha : hasFlag (s.slot ev.fd).flags .isActive with
  | false =>
    rw [stages_skip (hs.idle ev.fd ha)]
    rcases closeStage_cases s ev with hclose | ⟨hclose, _⟩ <;> rw [hclose]
    · refine ⟨fun hno => ?_, fun hacc => hacc.removeConnection ha⟩
      rw [slot_removeConnection, if_pos rfl, hasFlag_none] at hno
      cases hno
    · exact ⟨hbusy, id⟩
  | true =>
    obtain ⟨b, hmid⟩ := stays_open hrest.oneWay hrest.wantClose hbusy hkeep ha hstatus
    have herr : ev.epollerr = false := by
      by_contra hno
      exact absurd (ha.symm.trans (hkeep.noError (by simpa using hno))) (by decide)
    rw [closeStage_skip herr hmid.stays]
    refine ⟨fun _ => hmid.busy, fun hacc => hacc.keeps (keepsDescriptors_stages s ev) fun d => ?_⟩
    by_cases hd : d = ev.fd
    · subst hd
      exact iff_of_true hmid.active ha
    · have hsteps : StepsOn ev.fd s ((s.readStage ev).writeStage ev) :=
        (readStage_steps s ev).trans (writeStage_steps _ ev)
      exact (hsteps.beside hs hd).active_iff

/-- A connection that is registered is active, open and listed. -/
theorem Accounted.accept {fd : Nat} (h : Accounted s) (hs : Tidy s) :
    Accounted (((s.sys (.accept fd)).sys (.add fd .input)).activate fd) := by
  have hcalls := calls_connect s fd
  have hopen : ∀ d, (((s.sys (.accept fd)).sys (.add fd .input)).activate fd).HoldsOpen d ↔
      s.HoldsOpen d ∨ d = fd := by
    intro d
    simp [Server.HoldsOpen, hcalls]
  constructor
  · intro d
    rw [hopen, h.holdsOpen, slot_connect]
    by_cases hd : d = fd
    · rw [if_pos hd]
      exact iff_of_true (.inr hd) isActive_initial
    · have hgrow := (hs.step (.call (.accept (c := fd)))).slot_grow fd d
      rw [if_neg hd, hgrow.1, or_iff_left hd]
      exact Iff.rfl
  · intro d hd
    by_cases hdfd : d = fd
    · subst hdfd
      exact ⟨s.calls ++ [.accept d], [], by rw [hcalls]; simp, List.not_mem_nil⟩
    · obtain ⟨before, after, hb, hdel⟩ := h.listed d (((hopen d).mp hd).resolve_right hdfd)
      refine ⟨before, after ++ [.accept fd, .add fd .input], by rw [hcalls, hb]; simp, ?_⟩
      simpa using hdel

theorem accounted_acceptAllConnections (answers : List AcceptAnswer) (h : Accounted s)
    (hs : Tidy s) (hreg : ∀ d nonblocking registered,
      .conn d nonblocking registered ∈ answers → registered = true)
    (hrunning : s.status = .running)
    (hend : (s.acceptAllConnections answers).status = .running) :
    Accounted (s.acceptAllConnections answers) := by
  induction answers generalizing s with
  | nil => exact h
  | cons answer answers ih =>
    cases answer with
    | fail e =>
      simp only [Server.acceptAllConnections] at hend ⊢
      split at hend
      · rename_i he
        rw [if_pos he]
        exact h
      · cases hend
    | conn fd nonblocking registered =>
      obtain rfl := hreg fd nonblocking registered List.mem_cons_self
      cases nonblocking with
      | false => cases hend
      | true =>
        have hstatus : (((s.sys (.accept fd)).sys (.add fd .input)).activate fd).status =
            .running := (status_activate _ fd).trans hrunning
        have heq : s.acceptAllConnections (.conn fd true true :: answers) =
            (((s.sys (.accept fd)).sys (.add fd .input)).activate fd).acceptAllConnections
              answers := if_pos hstatus
        rw [heq] at hend ⊢
        have htidy := ((hs.step (.call (.accept (c := fd)))).step (.connect (c := fd)))
        exact ih (h.accept hs) htidy
          (fun d n r hmem => hreg d n r (List.mem_cons_of_mem _ hmem)) hstatus hend

end Event

/-! ## Whole runs -/

theorem lasting_busy (listenfd : Nat) : Lasting fun d slot => AtRest listenfd d slot ∧ Busy slot where
  untouched hf hi ho h := by
    refine ⟨(lasting_atRest listenfd).untouched hf hi ho h.1, ?_⟩
    unfold Busy
    rw [hf]
    exact h.2
  queued ha ha' hr hw hc hi ho h :=
    ⟨(lasting_atRest listenfd).queued ha ha' hr hw hc hi ho h.1, fun _ => .inr hw⟩

section Runs

variable {capacity listenfd : Nat} {db : Db} {s : Server}

theorem Loops.busy (h : Loops KeepsOpen (Server.boot capacity listenfd db) s) :
    Tidy s ∧ s.listenfd = listenfd ∧
      (s.status = .running → ∀ d, AtRest listenfd d (s.slot d) ∧ Busy (s.slot d)) := by
  refine (lasting_busy listenfd).loops ?_ ?_ ?_ h
  · intro fd σ hl h0 hσ
    exact ⟨starts_atRest listenfd fd σ hl h0 hσ.1, fun _ => .inl wantRead_initial⟩
  · intro d
    refine ⟨atRest_boot _ _ _ d, fun ha => ?_⟩
    exact absurd ((hasFlag_none _).symm.trans ha) (by decide)
  · intro s ev hs _ hkeep hrest hl h0 hend
    exact ⟨hrest.1.handleConnection hs hl h0 hend,
      (accounted_handleConnection hs hrest.1 hrest.2 hkeep hend).1⟩

theorem accounted_handleEvent {ev : Event} (h : Accounted s) (hs : Tidy s)
    (hrest : ∀ d, AtRest listenfd d (s.slot d) ∧ Busy (s.slot d)) (hkeep : KeepsOpen s ev)
    (hend : (s.handleEvent ev).status = .running) : Accounted (s.handleEvent ev) := by
  obtain ⟨hrunning, hhandling⟩ := handleEvent_handling hend
  generalize s.handleEvent ev = t at hhandling hend ⊢
  cases hhandling with
  | accepting =>
    exact accounted_acceptAllConnections ev.script.accepts h hs hkeep.registered hrunning hend
  | command => exact h
  | connection =>
    exact (accounted_handleConnection hs (hrest ev.fd).1 (hrest ev.fd).2 hkeep hend).2 h

theorem accounted_boot (capacity listenfd : Nat) (db : Db) :
    Accounted (Server.boot capacity listenfd db) := by
  have hnone : ∀ fd, ¬ (Server.boot capacity listenfd db).HoldsOpen fd := fun fd =>
    List.not_mem_nil
  refine ⟨fun fd => iff_of_false (hnone fd) fun ha => ?_, fun fd hfd => absurd hfd (hnone fd)⟩
  exact absurd ((hasFlag_none _).symm.trans ha) (by decide)

/-- **The open descriptors are those of the live connections** in every run in which no
connection ends and none fails to be registered. -/
theorem open_descriptors_live (h : Loops KeepsOpen (Server.boot capacity listenfd db) s)
    (hrun : s.status = .running) :
    {fd | s.HoldsOpen fd} = {fd | hasFlag (s.slot fd).flags .isActive = true} ∧
      ∀ fd, s.HoldsOpen fd → s.Listed fd := by
  have hacc : s.status = .running → Accounted s := by
    clear hrun
    induction h with
    | refl => exact fun _ => accounted_boot _ _ _
    | @tail s t hloops hst ih =>
      obtain ⟨hs, -, hrest⟩ := Loops.busy hloops
      rcases hst with ⟨ev, _, hkeep, rfl⟩ | ⟨_, rfl⟩
      · intro hend
        have hrunning := (handleEvent_handling hend).1
        exact accounted_handleEvent (ih hrunning) hs (hrest hrunning) hkeep hend
      · intro hend
        cases hend
  exact ⟨Set.ext (hacc hrun).holdsOpen, (hacc hrun).listed⟩

end Runs

/-- One connection, that has sent one byte. -/
theorem open_descriptors_live_one :
    let s := (accepted 8).handleEvent ⟨5, false, { reads := [.bytes [1]] }⟩
    {fd | s.HoldsOpen fd} = {fd | hasFlag (s.slot fd).flags .isActive = true} ∧ s.HoldsOpen 5 := by
  intro s
  have haccept : KeepsOpen (Server.boot 8 3 .empty)
      ⟨3, false, { accepts := [.conn 5 true true] }⟩ := by
    exact ⟨by simp, by decide, by decide, fun _ h => absurd h List.not_mem_nil, by decide⟩
  have hread : KeepsOpen (accepted 8) ⟨5, false, { reads := [.bytes [1]] }⟩ := by
    exact ⟨by simp, by decide, by decide +kernel, fun _ h => absurd h List.not_mem_nil, by decide⟩
  have hrun : Loops KeepsOpen (Server.boot 8 3 .empty) s :=
    .tail (.single (.inl ⟨_, by simp [Event.Legal, Server.boot, STDIN_FILENO], haccept, rfl⟩))
      (.inl ⟨_, by simp [Event.Legal], hread, rfl⟩)
  have hlive := (open_descriptors_live hrun (by decide +kernel)).1
  have hactive : hasFlag (s.slot 5).flags .isActive = true := by decide +kernel
  exact ⟨hlive, (Set.ext_iff.mp hlive 5).mpr hactive⟩

/-- A connection that ends, and one that cannot be registered: both descriptors stay open. -/
theorem ended_connection_stays_open :
    let s := (accepted INITIAL_CAPACITY).iterate (.ready [⟨5, false, { reads := [.bytes []] }⟩,
      ⟨3, false, { accepts := [.conn 6 true false] }⟩])
    Reaches (Server.boot INITIAL_CAPACITY 3 .empty) s ∧ s.status = .running ∧
      (s.HoldsOpen 5 ∧ hasFlag (s.slot 5).flags .isActive = false) ∧
      s.HoldsOpen 6 ∧ hasFlag (s.slot 6).flags .isActive = false := by
  refine ⟨.tail (reaches_accepted _) ⟨_, ?_, rfl⟩, ?_⟩
  · simp [Wait.Legal, Event.Legal]
    decide
  · unfold Server.HoldsOpen
    decide +kernel

end ChatServer
