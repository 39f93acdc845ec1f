import ChatServer.Audit.Descriptors
import ChatServer.Audit.Pending
import ChatServer.Audit.Registration

/-!
# The request loop ends, and the backlog is bounded

Every call of `try_one_request` that serves a request takes a whole frame off the buffer, so
the loop ends. At the top of the event loop the buffer of a connection is short of the largest
frame, as long as no descriptor is used twice: a descriptor in use again finds the bytes that
the connection before it has left.
-/

namespace ChatServer

open EdgeTrigger (Errno Rv Interest Syscall)

/-! ## One iteration -/

/-- One frame is taken off the front of the incoming buffer of `c`, and the 32-bit sum by which
the buffer is cut is its length. -/
def TakesFrame (c : Nat) (s t : Server) : Prop :=
  ∃ frame, CompleteFrame frame ∧ MSG_HEADER_SIZE ≤ frame.length ∧
    (s.slot c).incoming = frame ++ (t.slot c).incoming ∧
    (UInt32.ofNat MSG_HEADER_SIZE + (parseMessage (s.slot c).incoming).payloadLength).toNat =
      frame.length

theorem tryOneRequest_takesFrame {s t : Server} {c : Nat} {o : SqlOutcome}
    (h : s.tryOneRequest c o = (t, true)) : TakesFrame c s t := by
  obtain ⟨n, hcut, rfl⟩ := s.tryOneRequest_true c o h
  have hframe := completeFrame_take hcut
  obtain ⟨_, hmax, hn, hle⟩ := requestCut_eq_take.mp hcut
  refine ⟨(s.slot c).incoming.take n, hframe, hframe.header_le, ?_, ?_⟩
  · rw [slot_serve, if_pos rfl, List.take_append_drop]
  · rw [Server.toNat_frameSize hmax, List.length_take_of_le hle, hn]

theorem TakesFrame.length_lt {s t : Server} {c : Nat} (h : TakesFrame c s t) :
    (t.slot c).incoming.length < (s.slot c).incoming.length := by
  obtain ⟨frame, _, h7, hin, _⟩ := h
  rw [hin, List.length_append]
  simp only [MSG_HEADER_SIZE] at h7
  omega

/-! ## The loop -/

/-- The loop of `handle_read_connection` ends in `t`: some calls of `try_one_request` serve a
request, and the one after them does not. -/
inductive LoopEnds (c : Nat) : Server → List SqlOutcome → Server → Prop where
  | stop {s sql t} : s.tryOneRequest c (sql.headD {}) = (t, false) → LoopEnds c s sql t
  | next {s sql t u} : s.tryOneRequest c (sql.headD {}) = (t, true) →
      LoopEnds c t sql.tail u → LoopEnds c s sql u

/-- No run of the loop is endless. -/
theorem tryOneRequest_wellFounded (c : Nat) :
    WellFounded fun t s : Server => ∃ o, s.tryOneRequest c o = (t, true) := by
  refine Subrelation.wf ?_ (measure fun s : Server => (s.slot c).incoming.length).wf
  rintro t s ⟨o, h⟩
  exact (tryOneRequest_takesFrame h).length_lt

theorem serveRequests_loopEnds {c fuel : Nat} {s : Server} {sql : List SqlOutcome}
    (hfuel : (s.slot c).incoming.length < fuel) :
    LoopEnds c s sql (Server.serveRequests c fuel s sql) := by
  induction fuel generalizing s sql with
  | zero => exact absurd hfuel (Nat.not_lt_zero _)
  | succ fuel ih =>
    cases h : s.tryOneRequest c (sql.headD {}) with
    | mk t served =>
      simp only [Server.serveRequests, h]
      cases served with
      | false => exact .stop h
      | true =>
        have hlt := (tryOneRequest_takesFrame h).length_lt
        exact .next h (ih (by omega))

theorem LoopEnds.unique {c : Nat} {s t u : Server} {sql : List SqlOutcome}
    (h : LoopEnds c s sql t) (h' : LoopEnds c s sql u) : t = u := by
  induction h with
  | stop hstop =>
    cases h' with
    | stop hstop' => exact (Prod.ext_iff.mp (hstop.symm.trans hstop')).1
    | next hnext => cases hstop.symm.trans hnext
  | next hnext _ ih =>
    cases h' with
    | stop hstop => cases hnext.symm.trans hstop
    | next hnext' hrest =>
      obtain rfl := (Prod.ext_iff.mp (hnext.symm.trans hnext')).1
      exact ih hrest

/-! ## The backlog -/

def acceptedFd : Syscall UInt8 → Option Nat
  | .accept fd => some fd
  | _ => none

/-- The descriptors that `accept` has returned, in order. -/
def Server.acceptedFds (s : Server) : List Nat := s.calls.filterMap acceptedFd

/-- No descriptor has been accepted twice. -/
def FirstUse (s : Server) : Prop := s.acceptedFds.Nodup

theorem mem_acceptedFds {s : Server} {fd : Nat} : fd ∈ s.acceptedFds ↔ s.HoldsOpen fd := by
  unfold Server.acceptedFds Server.HoldsOpen
  rw [List.mem_filterMap]
  constructor
  · rintro ⟨k, hk, hfd⟩
    cases k with
    | accept d =>
      obtain rfl : d = fd := by simpa [acceptedFd] using hfd
      exact hk
    | _ => cases hfd
  · exact fun h => ⟨_, h, rfl⟩

theorem FirstUse.before {s t : Server} (h : FirstUse t) (hsteps : Steps s t) : FirstUse s := by
  obtain ⟨ks, hks⟩ := calls_grow hsteps
  unfold FirstUse Server.acceptedFds at h ⊢
  rw [hks, List.filterMap_append] at h
  exact (List.nodup_append.mp h).1

/-- A descriptor that is accepted for the first time has not been accepted before. -/
theorem FirstUse.fresh {s t : Server} {fd : Nat} (h : FirstUse t) {ks : List (Syscall UInt8)}
    (hcalls : t.calls = s.calls ++ .accept fd :: ks) : ¬ s.HoldsOpen fd := by
  unfold FirstUse Server.acceptedFds at h
  rw [hcalls, List.filterMap_append] at h
  intro hopen
  exact (List.nodup_append.mp h).2.2 fd (mem_acceptedFds.mpr hopen) fd
    (by simp [acceptedFd]) rfl

/-- A descriptor that was never accepted has an unused slot, and the buffer of a connection is
short of the largest frame. -/
structure Backlog (s : Server) : Prop where
  unused : ∀ d, ¬ s.HoldsOpen d →
    hasFlag (s.slot d).flags .isActive = false ∧ (s.slot d).incoming = []
  bounded : ∀ d, hasFlag (s.slot d).flags .isActive = true →
    (s.slot d).incoming.length < MSG_HEADER_SIZE + MSG_MAX_PAYLOAD_SIZE.toNat

section Backlog

variable {s t : Server} {c : Nat}

/-- Writing leaves the incoming buffers alone. -/
theorem incoming_write (c j : Nat) :
    AlongWrite c fun s t => (t.slot j).incoming = (s.slot j).incoming where
  refl _ := rfl
  trans h h' := h'.trans h
  written s n := by
    rw [slot_written]
    split <;> rfl
  blocked _ := rfl
  ended _ _ := (Server.setConnectionState_keeps _ c j .closing).1
  turned s := (s.setConnectionState_keeps c j .reading).1

theorem incoming_writeStage (s : Server) (ev : Event) (j : Nat) :
    ((s.writeStage ev).slot j).incoming = (s.slot j).incoming :=
  (incoming_write ev.fd j).writeStage s fun _ _ => rfl

theorem wantClose_writeStage {ev : Event}
    (h : hasFlag ((s.writeStage ev).slot ev.fd).flags .wantClose = false) :
    hasFlag (s.slot ev.fd).flags .wantClose = false := by
  by_contra hno
  have hc := (wantClose_write ev.fd).writeStage s (fun _ _ => id) (by simpa using hno)
  exact absurd (h.symm.trans hc) (by decide)

/-- A connection that is not to be closed after reading and writing has a bounded backlog. -/
theorem backlog_stages {ev : Event}
    (hs : (s.slot ev.fd).incoming.length < MSG_HEADER_SIZE + MSG_MAX_PAYLOAD_SIZE.toNat)
    (hopen : hasFlag (((s.readStage ev).writeStage ev).slot ev.fd).flags .wantClose = false) :
    (((s.readStage ev).writeStage ev).slot ev.fd).incoming.length <
      MSG_HEADER_SIZE + MSG_MAX_PAYLOAD_SIZE.toNat := by
  rw [incoming_writeStage]
  have hread := wantClose_writeStage hopen
  cases hr : hasFlag (s.slot ev.fd).flags .wantRead with
  | false =>
    rw [readStage_skip hr]
    exact hs
  | true =>
    rw [readStage_eq hr] at hread ⊢
    obtain ⟨hleft, hin, _⟩ := handleReadConnection_answers hread
    rw [hin]
    exact hleft.length_lt

theorem holdsOpen_removeConnection (s : Server) (c d : Nat) :
    (s.removeConnection c).HoldsOpen d ↔ s.HoldsOpen d := by
  have hcalls : (s.removeConnection c).calls = s.calls ++ [.delete c] := calls_sys _ _
  simp [Server.HoldsOpen, hcalls]

/-- Removing a connection only empties a slot. -/
theorem Backlog.removeConnection (h : Backlog s) (c : Nat) : Backlog (s.removeConnection c) := by
  constructor
  · intro d hd
    rw [holdsOpen_removeConnection] at hd
    rw [slot_removeConnection]
    split
    · exact ⟨hasFlag_none _, (h.unused d hd).2⟩
    · exact h.unused d hd
  · intro d ha
    rw [slot_removeConnection] at ha ⊢
    split at ha
    · rw [hasFlag_none] at ha
      cases ha
    · rename_i hd
      rw [if_neg hd]
      exact h.bounded d ha

theorem Backlog.held (h : Backlog s) {d : Nat}
    (ha : hasFlag (s.slot d).flags .isActive = true) : s.HoldsOpen d := by
  by_contra hno
  exact absurd ((h.unused d hno).1.symm.trans ha) (by decide)

/-- A slot that no step was for stays unused, or short of the largest frame. -/
theorem Backlog.unused_beside (h : Backlog s) {d : Nat} (hb : Beside d s t)
    (hd : ¬ s.HoldsOpen d) :
    hasFlag (t.slot d).flags .isActive = false ∧ (t.slot d).incoming = [] := by
  obtain ⟨ha, hi⟩ := h.unused d hd
  refine ⟨?_, hb.incoming.trans hi⟩
  by_contra hno
  exact absurd (ha.symm.trans (hb.active_iff.mp (by simpa using hno))) (by decide)

theorem Backlog.bounded_beside (h : Backlog s) {d : Nat} (hb : Beside d s t)
    (ha : hasFlag (t.slot d).flags .isActive = true) :
    (t.slot d).incoming.length < MSG_HEADER_SIZE + MSG_MAX_PAYLOAD_SIZE.toNat := by
  rw [hb.incoming]
  exact h.bounded d (hb.active_iff.mp ha)

/-- Only the connection served can get a longer backlog. -/
theorem Backlog.beside (h : Backlog s) (hheld : s.HoldsOpen c)
    (hopen : ∀ d, t.HoldsOpen d ↔ s.HoldsOpen d) (hother : ∀ d, d ≠ c → Beside d s t)
    (hbound : hasFlag (t.slot c).flags .isActive = true →
      (t.slot c).incoming.length < MSG_HEADER_SIZE + MSG_MAX_PAYLOAD_SIZE.toNat) : Backlog t := by
  constructor
  · intro d hd
    rw [hopen] at hd
    exact h.unused_beside (hother d fun hdc => hd (hdc ▸ hheld)) hd
  · intro d ha
    by_cases hdc : d = c
    · subst hdc
      exact hbound ha
    · exact h.bounded_beside (hother d hdc) ha

/-- One event of a connection: either it stays open with a bounded backlog, or it goes with
whatever has been read of it. -/
theorem Backlog.handleConnection (h : Backlog s) (hs : Tidy s) {ev : Event}
    (hend : (s.handleConnection ev).status = .running) : Backlog (s.handleConnection ev) := by
  have hstatus := status_stages hend
  cases ha : hasFlag (s.slot ev.fd).flags .isActive with
  | false =>
    unfold Server.handleConnection
    rw [stages_skip (hs.idle ev.fd ha)]
    rcases closeStage_cases s ev with hclose | ⟨hclose, _⟩ <;> rw [hclose]
    · exact h.removeConnection ev.fd
    · exact h
  | true =>
    have hheld := h.held ha
    have hopen := (keepsDescriptors_stages s ev).holdsOpen
    have hother : ∀ d, d ≠ ev.fd → Beside d s (s.handleConnection ev) :=
      fun d hd => (handleConnection_steps s ev).beside hs hd
    unfold Server.handleConnection at hother ⊢
    rcases closeStage_cases ((s.readStage ev).writeStage ev) ev with hclose | ⟨hclose, hstay⟩ <;>
      rw [hclose] at hother ⊢
    · refine h.beside hheld (fun d => ?_) hother fun hno => ?_
      · rw [holdsOpen_removeConnection]
        exact hopen d
      · rw [slot_removeConnection, if_pos rfl, hasFlag_none] at hno
        cases hno
    · exact h.beside hheld hopen hother
        fun _ => backlog_stages (h.bounded ev.fd ha) (hstay hstatus).2

theorem calls_accept (s : Server) (fd : Nat) (nonblocking registered : Bool) :
    ∃ ks, ((s.sys (.accept fd)).addConnection fd nonblocking registered).calls =
      s.calls ++ .accept fd :: ks ∧ ∀ d, .accept d ∉ ks := by
  unfold Server.addConnection
  split_ifs
  · exact ⟨[], calls_sys s _, fun _ => List.not_mem_nil⟩
  · exact ⟨[], calls_sys s _, fun _ => List.not_mem_nil⟩
  · exact ⟨[.add fd .input], calls_connect s fd, by simp⟩

theorem holdsOpen_accept {fd d : Nat} (nonblocking registered : Bool) :
    ((s.sys (.accept fd)).addConnection fd nonblocking registered).HoldsOpen d ↔
      s.HoldsOpen d ∨ d = fd := by
  obtain ⟨ks, hks, hno⟩ := calls_accept s fd nonblocking registered
  simp [Server.HoldsOpen, hks, hno]

/-- A connection starts with nothing buffered if its descriptor is new. -/
theorem Backlog.accept (h : Backlog s) (hs : Tidy s) {fd : Nat} (hfresh : ¬ s.HoldsOpen fd)
    (nonblocking registered : Bool) :
    Backlog ((s.sys (.accept fd)).addConnection fd nonblocking registered) := by
  have hnew := h.unused fd hfresh
  have hother : ∀ d, d ≠ fd →
      Beside d s ((s.sys (.accept fd)).addConnection fd nonblocking registered) :=
    fun d hd => (addConnection_steps s fd nonblocking registered).beside hs hd
  have hself : (((s.sys (.accept fd)).addConnection fd nonblocking registered).slot
      fd).incoming = [] := by
    unfold Server.addConnection
    split_ifs
    · exact hnew.2
    · exact hnew.2
    · rw [slot_connect, if_pos rfl]
      exact ((hs.step (.call (.accept (c := fd)))).slot_grow fd fd).2.1.trans hnew.2
  constructor
  · intro d hd
    obtain ⟨hd, hne⟩ := not_or.mp ((holdsOpen_accept nonblocking registered).not.mp hd)
    exact h.unused_beside (hother d hne) hd
  · intro d ha
    by_cases hd : d = fd
    · subst hd
      rw [hself]
      decide
    · exact h.bounded_beside (hother d hd) ha

theorem Backlog.acceptAllConnections (h : Backlog s) (hs : Tidy s) (answers : List AcceptAnswer)
    (hfirst : FirstUse (s.acceptAllConnections answers)) :
    Backlog (s.acceptAllConnections answers) := by
  induction answers generalizing s with
  | nil => exact h
  | cons answer answers ih =>
    cases answer with
    | fail e =>
      simp only [Server.acceptAllConnections]
      split <;> exact ⟨h.unused, h.bounded⟩
    | conn fd nonblocking registered =>
      have hsteps := addConnection_steps s fd nonblocking registered
      obtain ⟨ks, hks, _⟩ := calls_accept s fd nonblocking registered
      simp only [Server.acceptAllConnections] at hfirst ⊢
      split
      · rename_i hrun
        rw [if_pos hrun] at hfirst
        have hfresh := (hfirst.before (acceptAllConnections_steps answers)).fresh hks
        exact ih (h.accept hs hfresh nonblocking registered) (hsteps.tidy hs).1 hfirst
      · rename_i hrun
        rw [if_neg hrun] at hfirst
        exact h.accept hs (hfirst.fresh hks) nonblocking registered

end Backlog

/-! ## Whole runs -/

theorem Loops.backlog {capacity listenfd : Nat} {db : Db} {s : Server}
    (h : Loops (fun _ _ => True) (Server.boot capacity listenfd db) s) :
    Tidy s ∧ (FirstUse s → s.status = .running → Backlog s) := by
  induction h with
  | refl =>
    refine ⟨tidy_boot _ _ _, fun _ _ => ⟨fun _ _ => ⟨hasFlag_none _, rfl⟩, fun d ha => ?_⟩⟩
    exact absurd ((hasFlag_none _).symm.trans ha) (by decide)
  | @tail s t _ hst ih =>
    obtain ⟨hs, hinv⟩ := ih
    rcases hst with ⟨ev, _, _, rfl⟩ | ⟨_, rfl⟩
    · have hsteps := handleEvent_steps s ev
      refine ⟨(tidy_of_steps hsteps hs).1, fun hfirst hend => ?_⟩
      obtain ⟨hrun, hhandling⟩ := handleEvent_handling hend
      have hback := hinv (hfirst.before hsteps) hrun
      generalize s.handleEvent ev = t at hhandling hend hfirst ⊢
      cases hhandling with
      | accepting => exact hback.acceptAllConnections hs ev.script.accepts hfirst
      | command => exact hback
      | connection => exact hback.handleConnection hs hend
    · exact ⟨hs.of_slots rfl fun _ => .inl rfl, fun _ hend => by cases hend⟩

/-- **The request loop ends, and the backlog is bounded.** Each iteration that serves a request
takes one whole frame off the buffer; the sum of the header size and a legal length does not
wrap; the loop ends, whatever the buffer holds; and at the top of the event loop no active
connection has as much as one largest frame buffered, as long as no descriptor is used twice. -/
theorem request_loop_bounded (capacity listenfd : Nat) (db : Db) :
    (∀ s c o t, s.tryOneRequest c o = (t, true) → TakesFrame c s t) ∧
      (∀ len : UInt32, ¬ len > MSG_MAX_PAYLOAD_SIZE →
        (UInt32.ofNat MSG_HEADER_SIZE + len).toNat = MSG_HEADER_SIZE + len.toNat) ∧
      (∀ c, WellFounded fun t s : Server => ∃ o, s.tryOneRequest c o = (t, true)) ∧
      (∀ c s sql, ∃ t, LoopEnds c s sql t ∧ (∀ u, LoopEnds c s sql u → u = t) ∧
        ∀ fuel, (s.slot c).incoming.length < fuel → Server.serveRequests c fuel s sql = t) ∧
      ∀ s, Reaches (Server.boot capacity listenfd db) s → s.status = .running → FirstUse s →
        ∀ d, hasFlag (s.slot d).flags .isActive = true →
          (s.slot d).incoming.length < MSG_HEADER_SIZE + MSG_MAX_PAYLOAD_SIZE.toNat := by
  refine ⟨fun s c o t => tryOneRequest_takesFrame, fun len => Server.toNat_frameSize,
    tryOneRequest_wellFounded, fun c s sql => ?_, fun s hreach hrun hfirst => ?_⟩
  · have hend : LoopEnds c s sql _ := serveRequests_loopEnds (Nat.lt_succ_self _)
    exact ⟨_, hend, fun u hu => hu.unique hend,
      fun fuel hfuel => (serveRequests_loopEnds hfuel).unique hend⟩
  · have hloops : Loops (fun _ _ => True) _ s := hreach.loops (tidy_boot _ _ _) fun _ _ => trivial
    exact (hloops.backlog.2 hfirst hrun).bounded

/-- A whole frame and the header of the next. -/
theorem request_loop_bounded_header :
    let s := (accepted 8).iterate (.ready
      [⟨5, false, { reads := [.bytes [1, 9, 0, 0, 0, 0, 1, 42, 1, 9, 0, 0, 0, 16, 0]] }⟩])
    hasFlag (s.slot 5).flags .isActive = true ∧
      (s.slot 5).incoming.length < MSG_HEADER_SIZE + MSG_MAX_PAYLOAD_SIZE.toNat := by
  intro s
  have hreach : Reaches (Server.boot 8 3 .empty) s :=
    .tail (reaches_accepted 8) ⟨_, by simp [Wait.Legal, Event.Legal], rfl⟩
  have hfirst : FirstUse s := by
    unfold FirstUse
    decide +kernel
  have hactive : hasFlag (s.slot 5).flags .isActive = true := by decide +kernel
  exact ⟨hactive,
    (request_loop_bounded 8 3 .empty).2.2.2.2 s hreach (by decide +kernel) hfirst 5 hactive⟩

end ChatServer
