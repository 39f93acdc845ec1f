import ChatServer.Audit.Intake

/-!
# Freed slots

`remove_connection` clears the flags of a slot and leaves its two buffers. A run in which
no connection is removed with bytes in its buffers keeps every freed slot clean; any other
end of a connection leaves bytes behind.
-/

namespace ChatServer

open EdgeTrigger (Errno Rv Interest Syscall)

/-- The event does not make the loop remove a connection that has bytes buffered. -/
structure LeavesNothing (s : Server) (ev : Event) : Prop where
  /-- the stream ends, or reading fails, when nothing is buffered -/
  ended : hasFlag (s.slot ev.fd).flags .wantRead = true → readDrains ev.script.reads = false →
    (s.slot ev.fd).incoming ++ readBytes ev.script.reads = [] ∧ (s.slot ev.fd).outgoing = []
  /-- no header announces too large a payload -/
  legalSize : hasFlag (s.slot ev.fd).flags .wantRead = true →
    readDrains ev.script.reads = true →
    requestCut (requestFramer.leftover
      ((s.slot ev.fd).incoming ++ readBytes ev.script.reads)) ≠ .stop
  /-- no write fails, except when the process is killed -/
  writes : ∀ e, .fail e ∈ ev.script.writes → e = .EAGAIN ∨ e = .EPIPE
  /-- an error is reported when only complete requests are buffered, and all output is
  taken -/
  errorRead : ev.epollerr = true → hasFlag (s.slot ev.fd).flags .wantRead = true →
    requestFramer.leftover ((s.slot ev.fd).incoming ++ readBytes ev.script.reads) = []
  errorWrite : ev.epollerr = true → hasFlag (s.slot ev.fd).flags .wantWrite = true →
    (s.slot ev.fd).incoming = []
  errorPending : ev.epollerr = true → .fail .EAGAIN ∉ ev.script.writes

/-- A slot that is not active holds no bytes, and one that is active reads or writes. -/
structure Kept (slot : Slot) : Prop where
  free : hasFlag slot.flags .isActive = false → slot.incoming = [] ∧ slot.outgoing = []
  busy : hasFlag slot.flags .isActive = true →
    hasFlag slot.flags .wantRead = true ∨ hasFlag slot.flags .wantWrite = true

theorem lasting_kept (listenfd : Nat) : Lasting fun d slot => AtRest listenfd d slot ∧ Kept slot where
  untouched hf hi ho h := by
    refine ⟨(lasting_atRest listenfd).untouched hf hi ho h.1, ?_, ?_⟩
    · rw [hf, hi, ho]
      exact h.2.free
    · rw [hf]
      exact h.2.busy
  queued ha ha' hr hw hc hi ho h := by
    refine ⟨(lasting_atRest listenfd).queued ha ha' hr hw hc hi ho h.1, ?_, fun _ => .inr hw⟩
    exact fun hno => absurd (hno.symm.trans ha') (by decide)

/-! ## The stages of an event -/

/-- An active slot in the middle of its event, with all its output written if `Q`. -/
structure Midway (b : Bytes) (Q : Prop) (slot : Slot) : Prop where
  active : hasFlag slot.flags .isActive = true
  stays : hasFlag slot.flags .wantClose = false
  busy : hasFlag slot.flags .wantRead = true ∨ hasFlag slot.flags .wantWrite = true
  incoming : slot.incoming = b
  flushed : Q → slot.outgoing = []

section Stages

variable {s : Server} {c : Nat} {b : Bytes}

theorem midway_reading (ha : hasFlag (s.slot c).flags .isActive = true)
    (hc : hasFlag (s.slot c).flags .wantClose = false) (hb : (s.slot c).incoming = b)
    (hout : (s.slot c).outgoing = []) (Q : Prop) :
    Midway b Q ((s.setConnectionState c .reading).slot c) := by
  rw [Server.slot_setConnectionState_self]
  exact ⟨(isActive_nextFlags _ _).trans ha, (wantClose_reading _).trans hc,
    .inl (wantRead_reading _), hb, fun _ => hout⟩

/-- Writing either flushes the buffer or stops because the socket is full. -/
theorem handleWriteConnection_midway (ha : hasFlag (s.slot c).flags .isActive = true)
    (hc : hasFlag (s.slot c).flags .wantClose = false)
    (hw : hasFlag (s.slot c).flags .wantWrite = true) (hb : (s.slot c).incoming = b)
    {writes : List WriteAnswer} (hfail : ∀ e, .fail e ∈ writes → e = .EAGAIN ∨ e = .EPIPE)
    (hrun : (s.handleWriteConnection c writes).status = .running) :
    Midway b (.fail .EAGAIN ∉ writes) ((s.handleWriteConnection c writes).slot c) := by
  have hslot : ∀ (s : Server) n, (s.written c n).slot c =
      { s.slot c with outgoing := (s.slot c).outgoing.drop n } := by
    intro s n
    rw [slot_written, if_pos rfl]
  induction writes generalizing s with
  | nil =>
    apply midway_reading
    · rw [hslot]
      exact ha
    · rw [hslot]
      exact hc
    · rw [hslot]
      exact hb
    · rw [hslot]
      exact List.drop_length
  | cons answer answers ih =>
    cases answer with
    | took k =>
      simp only [Server.handleWriteConnection] at hrun ⊢
      split
      · rename_i hout
        apply midway_reading
        · rw [hslot]
          exact ha
        · rw [hslot]
          exact hc
        · rw [hslot]
          exact hb
        · exact List.eq_nil_of_length_eq_zero hout
      · rename_i hout
        rw [if_neg hout] at hrun
        have hrest := ih (by rw [hslot]; exact ha) (by rw [hslot]; exact hc)
          (by rw [hslot]; exact hw) (by rw [hslot]; exact hb)
          (fun e he => hfail e (List.mem_cons_of_mem _ he)) hrun
        exact ⟨hrest.active, hrest.stays, hrest.busy, hrest.incoming,
          fun hno => hrest.flushed fun hmem => hno (List.mem_cons_of_mem _ hmem)⟩
    | fail e =>
      simp only [Server.handleWriteConnection] at hrun ⊢
      rcases hfail e List.mem_cons_self with rfl | rfl
      · exact ⟨ha, hc, .inr hw, hb, fun hno => absurd List.mem_cons_self hno⟩
      · cases hrun

/-- Reading and writing leave the connection open, unless the stream has ended. -/
theorem stages_midway {ev : Event} (ha : hasFlag (s.slot ev.fd).flags .isActive = true)
    (hc : hasFlag (s.slot ev.fd).flags .wantClose = false) (hone : OneWay (s.slot ev.fd).flags)
    (hr : hasFlag (s.slot ev.fd).flags .wantRead = true)
    (hdrain : readDrains ev.script.reads = true)
    (hlegal : requestCut (requestFramer.leftover
      ((s.slot ev.fd).incoming ++ readBytes ev.script.reads)) ≠ .stop)
    (hfail : ∀ e, .fail e ∈ ev.script.writes → e = .EAGAIN ∨ e = .EPIPE)
    (hrun : ((s.readStage ev).writeStage ev).status = .running) :
    Midway (requestFramer.leftover ((s.slot ev.fd).incoming ++ readBytes ev.script.reads))
      (.fail .EAGAIN ∉ ev.script.writes) (((s.readStage ev).writeStage ev).slot ev.fd) := by
  obtain ⟨u, hserved, hu⟩ := handleReadConnection_drained s ev.fd ev.script hdrain
  rw [readStage_eq hr, hu] at hrun ⊢
  have hua := (hserved.flags .isActive (by decide) (by decide)).trans ha
  have huc := (hserved.waiting hlegal).trans hc
  have hur := (hserved.flags .wantRead (by decide) (by decide)).trans hr
  have huw := (hserved.flags .wantWrite (by decide) (by decide)).trans (hone hr)
  split at hrun
  · rename_i hout
    have hslot : (u.setConnectionState ev.fd .writing).slot ev.fd =
        { u.slot ev.fd with flags := ConnState.writing.nextFlags (u.slot ev.fd).flags } := by
      rw [Server.slot_setConnectionState_self]
    have hw : hasFlag ((u.setConnectionState ev.fd .writing).slot ev.fd).flags .wantWrite = true := by
      rw [hslot]
      exact wantWrite_writing _
    rw [if_pos hout, writeStage_eq hw]
    rw [writeStage_eq hw] at hrun
    refine handleWriteConnection_midway ?_ ?_ hw ?_ hfail hrun
    · rw [hslot]
      exact (isActive_nextFlags _ _).trans hua
    · rw [hslot]
      exact (wantClose_writing _).trans huc
    · rw [hslot]
      exact hserved.incoming
  · rename_i hout
    rw [if_neg hout, writeStage_skip huw]
    exact ⟨hua, huc, .inl hur, hserved.incoming,
      fun _ => List.eq_nil_of_length_eq_zero (Nat.eq_zero_of_not_pos hout)⟩

/-- A connection that is removed only for a reported error leaves nothing behind. -/
theorem Midway.kept {ev : Event} {Q : Prop} (h : Midway b Q (s.slot ev.fd))
    (hrun : s.status = .running) (herr : ev.epollerr = true → b = [] ∧ Q) :
    Kept ((s.closeStage ev).slot ev.fd) := by
  cases he : ev.epollerr with
  | true =>
    obtain ⟨hb, hq⟩ := herr he
    rw [closeStage_eq hrun (.inl he), slot_removeConnection, if_pos rfl]
    refine ⟨fun _ => ⟨h.incoming.trans hb, h.flushed hq⟩, fun ha => ?_⟩
    rw [hasFlag_none] at ha
    cases ha
  | false =>
    rw [closeStage_skip he h.stays]
    exact ⟨fun ha => absurd (ha.symm.trans h.active) (by decide), fun _ => h.busy⟩

theorem status_stages {ev : Event} (hend : (s.handleConnection ev).status = .running) :
    ((s.readStage ev).writeStage ev).status = .running := by
  unfold Server.handleConnection Server.closeStage at hend
  split at hend <;> exact hend

theorem kept_handleConnection {listenfd : Nat} {ev : Event} (hs : Tidy s)
    (hrest : AtRest listenfd ev.fd (s.slot ev.fd)) (hkept : Kept (s.slot ev.fd))
    (hkeep : LeavesNothing s ev) (hend : (s.handleConnection ev).status = .running) :
    Kept ((s.handleConnection ev).slot ev.fd) := by
  have hstatus := status_stages hend
  unfold Server.handleConnection
  cases ha : hasFlag (s.slot ev.fd).flags .isActive with
  | false =>
    have hflags := hs.idle ev.fd ha
    have hfree := hkept.free ha
    rw [stages_skip hflags]
    rcases closeStage_cases s ev with hclose | ⟨hclose, _⟩ <;> rw [hclose]
    · rw [slot_removeConnection, if_pos rfl]
      refine ⟨fun _ => hfree, fun hno => ?_⟩
      rw [hasFlag_none] at hno
      cases hno
    · exact hkept
  | true =>
    rcases hkept.busy ha with hr | hw
    · cases hdrain : readDrains ev.script.reads with
      | true =>
        exact (stages_midway ha hrest.wantClose hrest.oneWay hr hdrain (hkeep.legalSize hr hdrain)
          hkeep.writes hstatus).kept hstatus
            fun he => ⟨hkeep.errorRead he hr, hkeep.errorPending he⟩
      | false =>
        obtain ⟨hin, hout⟩ := hkeep.ended hr hdrain
        have hslot := slot_readAvailable s ev.fd ev.script.reads ev.fd
        rw [if_pos rfl, hdrain, hin] at hslot
        have hread : s.readStage ev = (s.readAvailable ev.fd ev.script.reads).1 := by
          rw [readStage_eq hr]
          unfold Server.handleReadConnection
          simp only [readAvailable_drained, hdrain, Bool.not_false, ↓reduceIte]
        rw [hread] at hstatus ⊢
        generalize (s.readAvailable ev.fd ev.script.reads).1 = t at hslot hstatus ⊢
        have hflags : (t.slot ev.fd).flags = ConnState.closing.nextFlags (s.slot ev.fd).flags := by
          rw [hslot]
          rfl
        have hskip : t.writeStage ev = t :=
          writeStage_skip (by rw [hflags]; exact (wantWrite_closing _).trans (hrest.oneWay hr))
        rw [hskip] at hstatus ⊢
        rw [closeStage_eq hstatus (.inr (by rw [hflags]; exact wantClose_closing _)),
          slot_removeConnection, if_pos rfl, hslot]
        refine ⟨fun _ => ⟨rfl, hout⟩, fun hno => ?_⟩
        rw [hasFlag_none] at hno
        cases hno
    · have hr : hasFlag (s.slot ev.fd).flags .wantRead = false := by
        by_contra hno
        exact absurd ((hrest.oneWay (by simpa using hno)).symm.trans hw) (by decide)
      rw [readStage_skip hr, writeStage_eq hw] at hstatus ⊢
      exact (handleWriteConnection_midway ha hrest.wantClose hw rfl hkeep.writes hstatus).kept
        hstatus fun he => ⟨hkeep.errorWrite he hw, hkeep.errorPending he⟩

end Stages

/-- **Freed slots are clean** in every run in which no connection is removed with bytes
buffered. -/
theorem freed_slots_clean {capacity listenfd : Nat} {db : Db} {s : Server}
    (h : Loops LeavesNothing (Server.boot capacity listenfd db) s) (hrun : s.status = .running)
    {i : Nat} (hi : hasFlag (s.slot i).flags .isActive = false) :
    (s.slot i).flags = .none ∧ (s.slot i).incoming = [] ∧ (s.slot i).outgoing = [] := by
  have hinv := (lasting_kept listenfd).loops ?_ ?_ ?_ h
  · exact ⟨hinv.1.idle i hi, ((hinv.2.2 hrun i).2).free hi⟩
  · intro fd σ hl h0 hσ
    refine ⟨starts_atRest listenfd fd σ hl h0 hσ.1, ?_, fun _ => .inl wantRead_initial⟩
    exact fun hno => absurd (hno.symm.trans isActive_initial) (by decide)
  · intro d
    refine ⟨atRest_boot _ _ _ d, fun _ => ⟨rfl, rfl⟩, fun ha => ?_⟩
    exact absurd ((hasFlag_none _).symm.trans ha) (by decide)
  · intro s ev hs _ hkeep hrest hl h0 hend
    exact ⟨hrest.1.handleConnection hs hl h0 hend, kept_handleConnection hs hrest.1 hrest.2 hkeep hend⟩

/-- A connection that says nothing before it ends leaves its slot clean. -/
theorem freed_slots_clean_silent :
    let s := (accepted 8).handleEvent ⟨5, false, { reads := [.bytes []] }⟩
    (s.slot 5).flags = .none ∧ (s.slot 5).incoming = [] ∧ (s.slot 5).outgoing = [] := by
  intro s
  have haccept : LeavesNothing (Server.boot 8 3 .empty)
      ⟨3, false, { accepts := [.conn 5 true true] }⟩ := by
    exact ⟨by decide, by decide, fun _ h => absurd h List.not_mem_nil, by decide, by decide,
      by decide⟩
  have hend : LeavesNothing (accepted 8) ⟨5, false, { reads := [.bytes []] }⟩ := by
    exact ⟨by decide +kernel, fun _ h => absurd h (by decide),
      fun _ h => absurd h List.not_mem_nil, by decide, by decide, by decide⟩
  have hrun : Loops LeavesNothing (Server.boot 8 3 .empty) s :=
    .tail (.single (.inl ⟨_, by simp [Event.Legal, Server.boot, STDIN_FILENO], haccept, rfl⟩))
      (.inl ⟨_, by simp [Event.Legal], hend, rfl⟩)
  exact freed_slots_clean hrun (by decide +kernel) (by decide +kernel)

/-- One byte and the end of the stream: the byte stays in the freed slot. -/
theorem freed_slot_keeps_byte :
    let s := (accepted INITIAL_CAPACITY).iterate
      (.ready [⟨5, false, { reads := [.bytes [1], .bytes []] }⟩])
    Reaches (Server.boot INITIAL_CAPACITY 3 .empty) s ∧ s.status = .running ∧
      hasFlag (s.slot 5).flags .isActive = false ∧ (s.slot 5).incoming = [1] := by
  refine ⟨.tail (reaches_accepted _) ⟨_, ?_, rfl⟩, ?_⟩
  · simp [Wait.Legal, Event.Legal]
  · decide +kernel

end ChatServer
