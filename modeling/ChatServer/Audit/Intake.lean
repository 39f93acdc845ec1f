import ChatServer.Audit.Agreement
import ChatServer.Audit.TopOfLoop

/-!
# What one read notification takes in

The request loop serves the frames that the bytes so far divide into, and keeps the rest.
A notification whose writes complete leaves the connection waiting for more, or removed.
-/

namespace ChatServer

open EdgeTrigger (Errno Rv Interest Syscall)

/-! ## The request loop serves the frames of the buffer -/

namespace Server

/-- The frames are served one after another. -/
def serveAll (c : Nat) : List Bytes → List SqlOutcome → Server → Server
  | [], _, s => s
  | frame :: frames, sql, s => serveAll c frames sql.tail (s.serveFrame c frame (sql.headD {}))

end Server

section ServeAll

variable {c : Nat} {s t : Server}

theorem Agree.serveAll (h : Agree c s t) (frames : List Bytes) (sql : List SqlOutcome) :
    Agree c (s.serveAll c frames sql) (t.serveAll c frames sql) := by
  induction frames generalizing s t sql with
  | nil => exact h
  | cons frame frames ih => exact ih (h.serveFrame frame _) sql.tail

theorem serveAll_append (c : Nat) (frames later : List Bytes) (s : Server) :
    s.serveAll c (frames ++ later) [] = (s.serveAll c frames []).serveAll c later [] := by
  induction frames generalizing s with
  | nil => rfl
  | cons frame frames ih => exact ih (s.serveFrame c frame {})

theorem serveAll_frame (s : Server) (c : Nat) (frames : List Bytes) (sql : List SqlOutcome) :
    (s.serveAll c frames sql).status = s.status ∧
      (s.serveAll c frames sql).listenfd = s.listenfd := by
  induction frames generalizing s sql with
  | nil => exact ⟨rfl, rfl⟩
  | cons frame frames ih =>
    obtain ⟨_, hstatus, hlisten⟩ := (dispatch_handled s c (parseMessage frame) (sql.headD {})).frame
    obtain ⟨hrest, hrest'⟩ := ih (s.serveFrame c frame (sql.headD {})) sql.tail
    exact ⟨hrest.trans hstatus, hrest'.trans hlisten⟩

/-- The state `t` has served the frames of `b` on `c`, keeps what is left in the incoming
buffer, and asks to close the connection if that announces too large a payload. -/
structure HasServed (c : Nat) (sql : List SqlOutcome) (b : Bytes) (s t : Server) : Prop where
  agree : Agree c (s.serveAll c (requestFramer.frames b) sql) t
  incoming : (t.slot c).incoming = requestFramer.leftover b
  stopped : requestCut (requestFramer.leftover b) = .stop →
    hasFlag (t.slot c).flags .wantClose = true
  waiting : requestCut (requestFramer.leftover b) ≠ .stop →
    hasFlag (t.slot c).flags .wantClose = hasFlag (s.slot c).flags .wantClose
  flags : ∀ g : ConnFlags, ConnFlags.isAuth.bits &&& g.bits = 0 →
    ConnFlags.wantClose.bits &&& g.bits = 0 →
    hasFlag (t.slot c).flags g = hasFlag (s.slot c).flags g

theorem hasFlag_closing (f : ConnFlags) {g : ConnFlags}
    (hg : ConnFlags.wantClose.bits &&& g.bits = 0) :
    hasFlag (ConnState.closing.nextFlags f) g = hasFlag f g := by
  rw [ConnState.nextFlags, hasFlag_or, hasFlag_disjoint _ hg, Bool.or_false]

theorem serveRequests_hasServed (fuel : Nat) (sql : List SqlOutcome)
    (hfuel : (s.slot c).incoming.length < fuel) :
    HasServed c sql (s.slot c).incoming s (Server.serveRequests c fuel s sql) := by
  induction fuel generalizing s sql with
  | zero => exact absurd hfuel (Nat.not_lt_zero _)
  | succ fuel ih =>
    cases hcut : requestCut (s.slot c).incoming with
    | more =>
      have hno : ∀ n, requestFramer.cut (s.slot c).incoming ≠ .take n := fun n hn => by
        cases hcut.symm.trans hn
      simp only [Server.serveRequests, s.tryOneRequest_more c _ hcut]
      constructor
      · rw [requestFramer.frames_eq_nil hno]
        exact .refl c s
      · rw [requestFramer.leftover_eq_self hno]
      · rw [requestFramer.leftover_eq_self hno, hcut]
        exact fun h => by cases h
      · exact fun _ => rfl
      · exact fun _ _ _ => rfl
    | stop =>
      have hno : ∀ n, requestFramer.cut (s.slot c).incoming ≠ .take n := fun n hn => by
        cases hcut.symm.trans hn
      have hslot : (s.setConnectionState c .closing).slot c =
          { s.slot c with flags := ConnState.closing.nextFlags (s.slot c).flags } :=
        s.slot_setConnectionState_self c .closing
      simp only [Server.serveRequests, s.tryOneRequest_stop c _ hcut]
      constructor
      · rw [requestFramer.frames_eq_nil hno]
        exact agree_setConnectionState c s .closing
      · rw [requestFramer.leftover_eq_self hno, hslot]
      · intro _
        rw [hslot]
        exact wantClose_closing _
      · rw [requestFramer.leftover_eq_self hno]
        exact fun h => absurd hcut h
      · intro g _ hg
        rw [hslot]
        exact hasFlag_closing _ hg
    | take n =>
      simp only [Server.serveRequests, s.tryOneRequest_take c _ hcut]
      have hlt := requestFramer.drop_lt hcut
      have hslot := slot_serve s c c ((s.slot c).incoming.take n) (sql.headD {})
        ((s.slot c).incoming.drop n)
      have hd := dispatch_handled s c (parseMessage ((s.slot c).incoming.take n)) (sql.headD {})
      have hagree := agree_setIncoming c (s.serveFrame c ((s.slot c).incoming.take n) (sql.headD {}))
        ((s.slot c).incoming.drop n)
      generalize (s.serveFrame c ((s.slot c).incoming.take n) (sql.headD {})).setIncoming c
        ((s.slot c).incoming.drop n) = t at hslot hagree ⊢
      simp only [↓reduceIte] at hslot
      have hin : (t.slot c).incoming = (s.slot c).incoming.drop n := by rw [hslot]
      have hflags : ∀ g : ConnFlags, ConnFlags.isAuth.bits &&& g.bits = 0 →
          hasFlag (t.slot c).flags g = hasFlag (s.slot c).flags g := by
        intro g hg
        rw [hslot]
        exact hd.flags_self hg
      have hrest := ih sql.tail (s := t) (by rw [hin]; omega)
      rw [hin] at hrest
      constructor
      · rw [requestFramer.frames_take hcut]
        exact (hagree.serveAll _ _).trans hrest.agree
      · rw [hrest.incoming, requestFramer.leftover_take hcut]
      · rw [requestFramer.leftover_take hcut]
        exact hrest.stopped
      · rw [requestFramer.leftover_take hcut]
        exact fun hne => (hrest.waiting hne).trans (hflags _ (by decide))
      · exact fun g hg hg' => (hrest.flags g hg hg').trans (hflags g hg)

end ServeAll

/-! ## One notification -/

section Notification

variable {c : Nat} {s : Server}

theorem agree_readAvailable (c : Nat) (s : Server) (reads : List (Rv UInt8)) :
    Agree c s (s.readAvailable c reads).1 := by
  fun_induction Server.readAvailable s c reads with
  | case1 => exact agree_sys fun _ => rfl
  | case2 s rvs =>
    exact (agree_sys fun _ => rfl).trans
      (agree_setConnectionState c (s.sys (.read c (.bytes []))) .closing)
  | case3 s b bs rvs t ih => exact ((agree_sys fun _ => rfl).trans (agree_setIncoming c _ _)).trans ih
  | case4 s e rvs t h => exact agree_sys fun _ => rfl
  | case5 s e rvs t h => exact (agree_sys fun _ => rfl).trans (agree_setConnectionState c t .closing)

theorem readBytes_chunks {chunks : List Bytes} (hne : ∀ d ∈ chunks, d ≠ [])
    (last : List (Rv UInt8)) :
    readBytes (chunks.map .bytes ++ last) = chunks.flatten ++ readBytes last ∧
      readDrains (chunks.map .bytes ++ last) = readDrains last := by
  induction chunks with
  | nil => exact ⟨rfl, rfl⟩
  | cons d chunks ih =>
    obtain ⟨h1, h2⟩ := ih fun e he => hne e (List.mem_cons_of_mem _ he)
    match d, hne d List.mem_cons_self with
    | b :: bs, _ =>
      refine ⟨?_, h2⟩
      rw [List.flatten_cons, List.append_assoc, ← h1]
      rfl

/-- A read notification that drains the socket: the frames are served, and output is
wanted if there is any. -/
theorem handleReadConnection_drained (s : Server) (c : Nat) (script : Script)
    (hdrain : readDrains script.reads = true) :
    ∃ u, HasServed c script.sql ((s.slot c).incoming ++ readBytes script.reads) s u ∧
      s.handleReadConnection c script =
        if (u.connManager.outgoingBuffers c).length > 0 then u.setConnectionState c .writing
        else u := by
  have hslot := slot_readAvailable s c script.reads c
  have hagree := agree_readAvailable c s script.reads
  rw [if_pos rfl, hdrain] at hslot
  unfold Server.handleReadConnection
  simp only [readAvailable_drained, hdrain, Bool.not_true, Bool.false_eq_true, ↓reduceIte]
  generalize (s.readAvailable c script.reads).1 = t at hslot hagree ⊢
  have hin : (t.slot c).incoming = (s.slot c).incoming ++ readBytes script.reads := by rw [hslot]
  have hflags : (t.slot c).flags = (s.slot c).flags := by
    rw [hslot]
    rfl
  have hserved := serveRequests_hasServed ((t.connManager.incomingBuffers c).length + 1)
    script.sql (Nat.lt_succ_self (t.slot c).incoming.length)
  refine ⟨_, ?_, rfl⟩
  generalize Server.serveRequests c ((t.connManager.incomingBuffers c).length + 1) t
    script.sql = u at hserved ⊢
  rw [hin] at hserved
  constructor
  · exact (hagree.serveAll _ _).trans hserved.agree
  · exact hserved.incoming
  · exact hserved.stopped
  · exact fun h => (hserved.waiting h).trans (congrArg (hasFlag · .wantClose) hflags)
  · exact fun g hg hg' => (hserved.flags g hg hg').trans (congrArg (hasFlag · g) hflags)

/-- The state `t` has taken in the bytes `b` of connection `c`: the frames are served, as
in `u`, and the connection waits for more or is closed. -/
inductive TookIn (c : Nat) (u : Server) (b : Bytes) (t : Server) : Prop where
  | waiting : requestCut (requestFramer.leftover b) ≠ .stop → Agree c u t →
      (t.slot c).incoming = requestFramer.leftover b →
      hasFlag (t.slot c).flags .wantRead = true → hasFlag (t.slot c).flags .wantWrite = false →
      hasFlag (t.slot c).flags .wantClose = false → TookIn c u b t
  | closed {v} : requestCut (requestFramer.leftover b) = .stop → Agree c u v →
      t = v.removeConnection c → TookIn c u b t

/-- A write that takes the whole buffer. -/
theorem handleWriteConnection_nil (s : Server) (c : Nat) :
    Agree c s (s.handleWriteConnection c []) ∧ (s.handleWriteConnection c []).slot c =
      { s.slot c with
        outgoing := (s.slot c).outgoing.drop (s.slot c).outgoing.length
        flags := ConnState.reading.nextFlags (s.slot c).flags } := by
  constructor
  · exact (agree_written c s _).trans (agree_setConnectionState c _ .reading)
  · refine (Server.slot_setConnectionState (s.written c (s.slot c).outgoing.length) c c
      .reading).trans ?_
    rw [if_pos rfl, slot_written, if_pos rfl]

/-- Whatever is queued is written at once, and then input is wanted again. -/
theorem writeStage_flush {ev : Event} (hw : ev.script.writes = [])
    (hread : hasFlag (s.slot ev.fd).flags .wantRead = true)
    (hwrite : hasFlag (s.slot ev.fd).flags .wantWrite = false) {t : Server}
    (ht : t = (if (s.connManager.outgoingBuffers ev.fd).length > 0 then
      s.setConnectionState ev.fd .writing else s).writeStage ev) :
    Agree ev.fd s t ∧ (t.slot ev.fd).incoming = (s.slot ev.fd).incoming ∧
      hasFlag (t.slot ev.fd).flags .wantRead = true ∧
      hasFlag (t.slot ev.fd).flags .wantWrite = false ∧
      hasFlag (t.slot ev.fd).flags .wantClose = hasFlag (s.slot ev.fd).flags .wantClose := by
  split at ht
  · have hslot : (s.setConnectionState ev.fd .writing).slot ev.fd =
        { s.slot ev.fd with flags := ConnState.writing.nextFlags (s.slot ev.fd).flags } := by
      rw [Server.slot_setConnectionState_self]
    rw [writeStage_eq (by rw [hslot]; exact wantWrite_writing _), hw] at ht
    obtain ⟨hagree, hflush⟩ := handleWriteConnection_nil (s.setConnectionState ev.fd .writing) ev.fd
    rw [← ht] at hagree hflush
    rw [hslot] at hflush
    refine ⟨(agree_setConnectionState _ _ _).trans hagree, ?_, ?_, ?_, ?_⟩
    · rw [hflush]
    · rw [hflush]
      exact wantRead_reading _
    · rw [hflush]
      exact wantWrite_reading _
    · rw [hflush]
      exact (wantClose_reading _).trans (wantClose_writing _)
  · rw [writeStage_skip hwrite] at ht
    subst ht
    exact ⟨.refl _ _, rfl, hread, hwrite, rfl⟩

theorem handleEvent_eq (s : Server) (ev : Event) (hrun : s.status = .running) (hl : ev.fd ≠ s.listenfd)
    (h0 : ev.fd ≠ STDIN_FILENO) : s.handleEvent ev = s.handleConnection ev := by
  unfold Server.handleEvent
  rw [if_neg (not_not.mpr hrun), if_neg hl, if_neg h0]

/-- A connection that has been removed is left alone. -/
theorem handleEvent_removed (v : Server) (ev : Event) (hrun : v.status = .running)
    (hl : ev.fd ≠ v.listenfd) (h0 : ev.fd ≠ STDIN_FILENO) (herr : ev.epollerr = false) :
    (v.removeConnection ev.fd).handleEvent ev = v.removeConnection ev.fd := by
  have hflags : ((v.removeConnection ev.fd).slot ev.fd).flags = .none := by
    rw [slot_removeConnection, if_pos rfl]
  rw [handleEvent_eq (v.removeConnection ev.fd) ev hrun hl h0, Server.handleConnection,
    stages_skip hflags]
  exact closeStage_skip herr (by rw [hflags, hasFlag_none])

/-- **One notification** whose reads end in `EAGAIN` takes in what was read. -/
theorem handleEvent_tookIn (s : Server) (ev : Event) (hrun : s.status = .running)
    (hl : ev.fd ≠ s.listenfd) (h0 : ev.fd ≠ STDIN_FILENO) (herr : ev.epollerr = false)
    (hw : ev.script.writes = [])
    {chunks : List Bytes} (hreads : ev.script.reads = chunks.map .bytes)
    (hne : ∀ d ∈ chunks, d ≠ []) (hread : hasFlag (s.slot ev.fd).flags .wantRead = true)
    (hwrite : hasFlag (s.slot ev.fd).flags .wantWrite = false)
    (hclose : hasFlag (s.slot ev.fd).flags .wantClose = false) :
    TookIn ev.fd (s.serveAll ev.fd
        (requestFramer.frames ((s.slot ev.fd).incoming ++ chunks.flatten)) ev.script.sql)
      ((s.slot ev.fd).incoming ++ chunks.flatten) (s.handleEvent ev) := by
  obtain ⟨hbytes, hdrain⟩ : readBytes ev.script.reads = chunks.flatten ∧
      readDrains ev.script.reads = true := by
    rw [hreads]
    simpa [readBytes, readDrains] using readBytes_chunks hne []
  obtain ⟨u, hserved, hu⟩ := handleReadConnection_drained s ev.fd ev.script hdrain
  rw [hbytes] at hserved
  rw [handleEvent_eq s ev hrun hl h0, Server.handleConnection, readStage_eq hread, hu]
  generalize hv : (if (u.connManager.outgoingBuffers ev.fd).length > 0 then
    u.setConnectionState ev.fd .writing else u).writeStage ev = v
  obtain ⟨hf1, hf2, hf3, hf4, hf5⟩ := writeStage_flush hw
    ((hserved.flags _ (by decide) (by decide)).trans hread)
    ((hserved.flags _ (by decide) (by decide)).trans hwrite) hv.symm
  have hall := hserved.agree.trans hf1
  have hstatus := hall.status.trans ((serveAll_frame _ _ _ _).1.trans hrun)
  by_cases hstop : requestCut (requestFramer.leftover
      ((s.slot ev.fd).incoming ++ chunks.flatten)) = .stop
  · exact .closed hstop hall (closeStage_eq hstatus (.inr (hf5.trans (hserved.stopped hstop))))
  · have hopen := hf5.trans ((hserved.waiting hstop).trans hclose)
    rw [closeStage_skip herr hopen]
    exact .waiting hstop hall (hf2.trans hserved.incoming) hf3 hf4 hopen

end Notification

end ChatServer
