import ChatServer.Audit.RequestStream

/-!
# The event loop as a sequence of small steps

Each iteration of the loop is a chain of ten kinds of step on the tables. What
every step preserves holds of every state the loop reaches, at its top and at
each call of `try_one_request`.
-/

namespace ChatServer

open EdgeTrigger (Errno Rv Interest Syscall)

/-- A call on `c` whose answer changes nothing in the tables. -/
inductive Quiet (c : Nat) : Syscall UInt8 → Prop where
  | accept : Quiet c (.accept c)
  | eof : Quiet c (.read c (.bytes []))
  | readFailed (e) : Quiet c (.read c (.fail e))
  | writeFailed (e) : Quiet c (.write c (.fail e))

/-- A step made for the connection `c`. -/
inductive Step (c : Nat) (s : Server) : Server → Prop where
  | call {k} : Quiet c k → Step c s (s.sys k)
  | halt (st) : st ≠ .running → Step c s (s.setStatus st)
  | connect : Step c s ((s.sys (.add c .input)).activate c)
  | receive (b bs) : hasFlag (s.slot c).flags .wantRead = true →
      Step c s ((s.sys (.read c (.bytes (b :: bs)))).setIncoming c
        ((s.slot c).incoming ++ b :: bs))
  | serve {n} (o) : hasFlag (s.slot c).flags .wantRead = true →
      requestCut (s.slot c).incoming = .take n →
      Step c s ((s.serveFrame c ((s.slot c).incoming.take n) o).setIncoming c
        ((s.slot c).incoming.drop n))
  | closing : hasFlag (s.slot c).flags .wantRead = true ∨
      hasFlag (s.slot c).flags .wantWrite = true → Step c s (s.setConnectionState c .closing)
  | writing : hasFlag (s.slot c).flags .wantRead = true → (s.slot c).outgoing ≠ [] →
      Step c s (s.setConnectionState c .writing)
  | write (n) : hasFlag (s.slot c).flags .wantWrite = true → Step c s (s.written c n)
  | reading : hasFlag (s.slot c).flags .wantWrite = true → (s.slot c).outgoing = [] →
      Step c s (s.setConnectionState c .reading)
  | remove : Step c s (s.removeConnection c)

abbrev StepsOn (c : Nat) : Server → Server → Prop := Relation.ReflTransGen (Step c)

abbrev Steps : Server → Server → Prop := Relation.ReflTransGen fun s t => ∃ c, Step c s t

theorem StepsOn.steps {c : Nat} {s t : Server} (h : StepsOn c s t) : Steps s t := by
  induction h with
  | refl => exact .refl
  | tail _ hst ih => exact ih.tail ⟨c, hst⟩

/-- What every step preserves, every chain of steps preserves. -/
theorem Steps.preserves {P : Server → Prop} (hstep : ∀ c s t, Step c s t → P s → P t)
    {s t : Server} (h : Steps s t) (hs : P s) : P t := by
  induction h with
  | refl => exact hs
  | tail _ hst ih =>
    obtain ⟨c, hst⟩ := hst
    exact hstep c _ _ hst ih

/-! ## Slots after each step -/

section Slots

variable (s : Server) (c j : Nat)

theorem slot_receive (k : Syscall UInt8) (b : Bytes) :
    ((s.sys k).setIncoming c b).slot j =
      if j = c then { s.slot j with incoming := b } else s.slot j := by
  rw [Server.slot_setIncoming]
  split <;> rfl

theorem slot_written (n : Nat) :
    (s.written c n).slot j =
      if j = c then { s.slot j with outgoing := (s.slot j).outgoing.drop n } else s.slot j := by
  unfold Server.written
  rw [Server.slot_setOutgoing]
  split
  · rename_i hj
    subst hj
    rfl
  · rfl

theorem slot_removeConnection :
    (s.removeConnection c).slot j =
      if j = c then { s.slot j with flags := .none } else s.slot j := by
  rw [Server.removeConnection, Server.slot_sys, Server.slot_setFlags]

/-- A table that has to grow forgets what is behind its end. -/
theorem slot_grow (fd : Nat) :
    (s.grow fd).slot j = if s.getSize ≤ fd ∧ s.getSize ≤ j then .blank else s.slot j := by
  unfold Server.grow
  by_cases hfd : s.getSize ≤ fd
  · rw [if_pos hfd]
    refine (s.connManager.slot_resize (fd + 1) j).trans ?_
    show (if j < s.getSize then s.slot j else .blank) = _
    by_cases hj : s.getSize ≤ j
    · rw [if_neg (Nat.not_lt.mpr hj), if_pos ⟨hfd, hj⟩]
    · rw [if_pos (Nat.not_le.mp hj), if_neg (fun h => hj h.2)]
  · rw [if_neg hfd, if_neg (fun h => hfd h.1)]

theorem slot_connect (fd : Nat) :
    ((s.sys (.add fd .input)).activate fd).slot j =
      if j = fd then { (s.grow fd).slot j with flags := .isActive ||| .wantRead }
      else (s.grow fd).slot j := by
  have hgrow : ((s.sys (.add fd .input)).grow fd).slot j = (s.grow fd).slot j := by
    rw [slot_grow, slot_grow]
    rfl
  rw [Server.activate, Server.slot_setFlags, hgrow]

theorem slot_serve (frame : Bytes) (o : SqlOutcome) (rest : Bytes) :
    ((s.serveFrame c frame o).setIncoming c rest).slot j =
      let r := s.dispatch c (parseMessage frame) o
      if j = c then { r.1.slot j with outgoing := (r.1.slot j).outgoing ++ r.2.wire, incoming := rest }
      else r.1.slot j := by
  rw [Server.slot_setIncoming, Server.serveFrame, Server.slot_respond]
  split <;> rfl

theorem db_serve (frame : Bytes) (o : SqlOutcome) (rest : Bytes) :
    ((s.serveFrame c frame o).setIncoming c rest).db =
      (s.dispatch c (parseMessage frame) o).1.db := rfl

theorem log_served (frame : Bytes) (o : SqlOutcome) (rest : Bytes) :
    ((s.serveFrame c frame o).setIncoming c rest).log =
      (s.dispatch c (parseMessage frame) o).1.log ++
        [.served ⟨c, frame, (s.dispatch c (parseMessage frame) o).2, s.view, o⟩] := rfl

theorem serve_frame (frame : Bytes) (o : SqlOutcome) (rest : Bytes) :
    ((s.serveFrame c frame o).setIncoming c rest).getSize = s.getSize ∧
      ((s.serveFrame c frame o).setIncoming c rest).status = s.status ∧
      ((s.serveFrame c frame o).setIncoming c rest).listenfd = s.listenfd :=
  (dispatch_handled s c (parseMessage frame) o).frame

end Slots

/-! ## What the request loop leaves alone -/

section Frames

theorem setConnectionState_globals (s : Server) (c : Nat) (next : ConnState) :
    (s.setConnectionState c next).getSize = s.getSize ∧
      (s.setConnectionState c next).status = s.status ∧
      (s.setConnectionState c next).listenfd = s.listenfd := by
  cases next <;> exact ⟨rfl, rfl, rfl⟩

theorem tryOneRequest_globals (s : Server) (c : Nat) (o : SqlOutcome) :
    (s.tryOneRequest c o).1.getSize = s.getSize ∧ (s.tryOneRequest c o).1.status = s.status ∧
      (s.tryOneRequest c o).1.listenfd = s.listenfd := by
  cases hcut : requestCut (s.slot c).incoming with
  | more =>
    rw [s.tryOneRequest_more c o hcut]
    exact ⟨rfl, rfl, rfl⟩
  | stop =>
    rw [s.tryOneRequest_stop c o hcut]
    exact setConnectionState_globals s c .closing
  | take n =>
    rw [s.tryOneRequest_take c o hcut]
    exact serve_frame s c _ o _

theorem serveRequests_globals (c fuel : Nat) (s : Server) (sql : List SqlOutcome) :
    (Server.serveRequests c fuel s sql).getSize = s.getSize ∧
      (Server.serveRequests c fuel s sql).status = s.status ∧
      (Server.serveRequests c fuel s sql).listenfd = s.listenfd := by
  induction fuel generalizing s sql with
  | zero => exact ⟨rfl, rfl, rfl⟩
  | succ fuel ih =>
    obtain ⟨hsize, hstatus, hlisten⟩ := tryOneRequest_globals s c (sql.headD {})
    cases h : s.tryOneRequest c (sql.headD {}) with
    | mk t served =>
      rw [h] at hsize hstatus hlisten
      simp only [Server.serveRequests, h]
      cases served with
      | false => exact ⟨hsize, hstatus, hlisten⟩
      | true =>
        obtain ⟨hsize', hstatus', hlisten'⟩ := ih t sql.tail
        exact ⟨hsize'.trans hsize, hstatus'.trans hstatus, hlisten'.trans hlisten⟩

end Frames

/-! ## The loops as chains of steps -/

section Loops

variable {s t : Server} {c : Nat}

theorem readAvailable_steps {reads : List (Rv UInt8)} {drained : Bool}
    (hr : hasFlag (s.slot c).flags .wantRead = true)
    (h : s.readAvailable c reads = (t, drained)) :
    StepsOn c s t ∧ hasFlag (t.slot c).flags .wantRead = true ∧
      (t.slot c).outgoing = (s.slot c).outgoing := by
  have hclosing : ∀ k, Quiet c k →
      StepsOn c s ((s.sys k).setConnectionState c .closing) ∧
        hasFlag (((s.sys k).setConnectionState c .closing).slot c).flags .wantRead = true ∧
          (((s.sys k).setConnectionState c .closing).slot c).outgoing = (s.slot c).outgoing := by
    intro k hk
    refine ⟨.tail (.single (.call hk)) (.closing (.inl hr)), ?_⟩
    rw [Server.slot_setConnectionState_self]
    exact ⟨(wantRead_closing _).trans hr, rfl⟩
  induction reads generalizing s with
  | nil =>
    cases h
    exact ⟨.single (.call (.readFailed .EAGAIN)), hr, rfl⟩
  | cons rv rvs ih =>
    match rv with
    | .bytes [] =>
      cases h
      exact hclosing _ .eof
    | .bytes (b :: bs) =>
      have hslot := slot_receive s c c (.read c (.bytes (b :: bs)))
        ((s.slot c).incoming ++ b :: bs)
      rw [if_pos rfl] at hslot
      have hstep := Step.receive b bs hr
      have hr' : hasFlag (((s.sys (.read c (.bytes (b :: bs)))).setIncoming c
          ((s.slot c).incoming ++ b :: bs)).slot c).flags .wantRead = true := by
        rw [hslot]
        exact hr
      obtain ⟨h1, h2, h3⟩ := ih hr' h (fun k hk => by
        refine ⟨.tail (.single (.call hk)) (.closing (.inl hr')), ?_⟩
        rw [Server.slot_setConnectionState_self]
        exact ⟨(wantRead_closing _).trans hr', rfl⟩)
      exact ⟨.head hstep h1, h2, by rw [h3, hslot]⟩
    | .fail e =>
      simp only [Server.readAvailable] at h
      split at h
      · cases h
        exact ⟨.single (.call (.readFailed e)), hr, rfl⟩
      · cases h
        exact hclosing _ (.readFailed e)

/-- Serving a request leaves its connection reading. -/
theorem serve_wantRead (hr : hasFlag (s.slot c).flags .wantRead = true) (frame rest : Bytes)
    (o : SqlOutcome) :
    hasFlag (((s.serveFrame c frame o).setIncoming c rest).slot c).flags .wantRead = true := by
  rw [slot_serve, if_pos rfl]
  exact ((dispatch_handled s c _ o).flags_self (by decide)).trans hr

theorem tryOneRequest_steps {o : SqlOutcome} {served : Bool}
    (hr : hasFlag (s.slot c).flags .wantRead = true) (h : s.tryOneRequest c o = (t, served)) :
    StepsOn c s t ∧ hasFlag (t.slot c).flags .wantRead = true := by
  cases hc : requestCut (s.slot c).incoming with
  | more =>
    rw [s.tryOneRequest_more c o hc] at h
    cases h
    exact ⟨.refl, hr⟩
  | stop =>
    rw [s.tryOneRequest_stop c o hc] at h
    cases h
    refine ⟨.single (.closing (.inl hr)), ?_⟩
    rw [Server.slot_setConnectionState_self]
    exact (wantRead_closing _).trans hr
  | take n =>
    rw [s.tryOneRequest_take c o hc] at h
    cases h
    exact ⟨.single (.serve o hr hc), serve_wantRead hr _ _ o⟩

theorem serveRequests_steps (fuel : Nat) (sql : List SqlOutcome)
    (hr : hasFlag (s.slot c).flags .wantRead = true) :
    StepsOn c s (Server.serveRequests c fuel s sql) ∧
      hasFlag ((Server.serveRequests c fuel s sql).slot c).flags .wantRead = true := by
  induction fuel generalizing s sql with
  | zero => exact ⟨.refl, hr⟩
  | succ fuel ih =>
    cases h : s.tryOneRequest c (sql.headD {}) with
    | mk t served =>
      obtain ⟨h1, h2⟩ := tryOneRequest_steps hr h
      simp only [Server.serveRequests, h]
      cases served with
      | false => exact ⟨h1, h2⟩
      | true =>
        obtain ⟨h3, h4⟩ := ih sql.tail h2
        exact ⟨h1.trans h3, h4⟩

theorem handleReadConnection_steps (hr : hasFlag (s.slot c).flags .wantRead = true)
    (script : Script) : StepsOn c s (s.handleReadConnection c script) := by
  cases h : s.readAvailable c script.reads with
  | mk t drained =>
    obtain ⟨h1, h2, _⟩ := readAvailable_steps hr h
    simp only [Server.handleReadConnection, h]
    cases drained with
    | false => exact h1
    | true =>
      obtain ⟨h3, h4⟩ := serveRequests_steps
        ((t.connManager.incomingBuffers c).length + 1) script.sql h2
      simp only [Bool.not_true, Bool.false_eq_true, ↓reduceIte]
      split
      · rename_i hout
        exact (h1.trans h3).tail (.writing h4 (List.ne_nil_of_length_pos hout))
      · exact h1.trans h3

theorem flags_written (n : Nat) :
    ((s.written c n).slot c).flags = (s.slot c).flags := by
  rw [slot_written, if_pos rfl]

theorem handleWriteConnection_steps (hw : hasFlag (s.slot c).flags .wantWrite = true)
    (writes : List WriteAnswer) : StepsOn c s (s.handleWriteConnection c writes) := by
  induction writes generalizing s with
  | nil =>
    have hout : ((s.written c (s.slot c).outgoing.length).slot c).outgoing = [] := by
      rw [slot_written, if_pos rfl]
      exact List.drop_length
    exact .tail (.single (.write _ hw))
      (.reading ((congrArg (hasFlag · .wantWrite) (flags_written _)).trans hw) hout)
  | cons answer answers ih =>
    cases answer with
    | took k =>
      have hw' : hasFlag ((s.written c (min (k + 1) (s.connManager.outgoingBuffers c).length)).slot
          c).flags .wantWrite = true := by
        rw [flags_written]
        exact hw
      have hstep := Step.write (min (k + 1) (s.connManager.outgoingBuffers c).length) hw
      simp only [Server.handleWriteConnection]
      split
      · rename_i hout
        exact .tail (.single hstep) (.reading hw' (List.eq_nil_of_length_eq_zero hout))
      · exact .head hstep (ih hw')
    | fail e =>
      simp only [Server.handleWriteConnection]
      split_ifs
      · exact .tail (.single (.call (.writeFailed e))) (.halt _ (by decide))
      · exact .single (.call (.writeFailed e))
      · exact .tail (.single (.call (.writeFailed e))) (.closing (.inr hw))

theorem addConnection_steps (s : Server) (fd : Nat) (nonblocking registered : Bool) :
    StepsOn fd s ((s.sys (.accept fd)).addConnection fd nonblocking registered) := by
  refine .head (.call .accept) ?_
  unfold Server.addConnection
  split_ifs
  · exact .single (.halt _ (by simp))
  · exact .refl
  · exact .single .connect

theorem acceptAllConnections_steps (answers : List AcceptAnswer) :
    Steps s (s.acceptAllConnections answers) := by
  induction answers generalizing s with
  | nil => exact .refl
  | cons answer answers ih =>
    cases answer with
    | fail e =>
      simp only [Server.acceptAllConnections]
      split
      · exact .refl
      · exact .single ⟨0, .halt _ (by simp)⟩
    | conn fd nonblocking registered =>
      have hadd := (addConnection_steps s fd nonblocking registered).steps
      simp only [Server.acceptAllConnections]
      split
      · exact hadd.trans ih
      · exact hadd

theorem readStage_steps (s : Server) (ev : Event) : StepsOn ev.fd s (s.readStage ev) := by
  unfold Server.readStage
  split
  · exact handleReadConnection_steps ‹_› ev.script
  · exact .refl

theorem writeStage_steps (s : Server) (ev : Event) : StepsOn ev.fd s (s.writeStage ev) := by
  unfold Server.writeStage
  split
  · exact handleWriteConnection_steps ‹_› ev.script.writes
  · exact .refl

theorem closeStage_steps (s : Server) (ev : Event) : StepsOn ev.fd s (s.closeStage ev) := by
  unfold Server.closeStage
  split
  · exact .single .remove
  · exact .refl

theorem handleConnection_steps (s : Server) (ev : Event) :
    StepsOn ev.fd s (s.handleConnection ev) :=
  ((readStage_steps s ev).trans (writeStage_steps _ ev)).trans (closeStage_steps _ ev)

theorem handleEvent_steps (s : Server) (ev : Event) : Steps s (s.handleEvent ev) := by
  unfold Server.handleEvent
  split_ifs
  · exact .refl
  · exact .single ⟨ev.fd, .halt _ (by simp)⟩
  · exact acceptAllConnections_steps ev.script.accepts
  · exact .single ⟨ev.fd, .halt _ (by simp)⟩
  · exact .refl
  · exact (handleConnection_steps s ev).steps

/-- The state after an event that the process survives: connections are accepted, a command is
read, or the event is one of a connection. -/
inductive Handling (s : Server) (ev : Event) : Server → Prop where
  | accepting : ev.fd = s.listenfd → Handling s ev (s.acceptAllConnections ev.script.accepts)
  | command : ev.fd = STDIN_FILENO → Handling s ev s
  | connection : ev.fd ≠ s.listenfd → ev.fd ≠ STDIN_FILENO → Handling s ev (s.handleConnection ev)

theorem handleEvent_handling {s : Server} {ev : Event}
    (hend : (s.handleEvent ev).status = .running) :
    s.status = .running ∧ Handling s ev (s.handleEvent ev) := by
  have hrun : s.status = .running := by
    by_contra hno
    have hstay : s.handleEvent ev = s := if_pos hno
    exact hno (hstay ▸ hend)
  refine ⟨hrun, ?_⟩
  unfold Server.handleEvent at hend ⊢
  rw [if_neg (not_not.mpr hrun)] at hend ⊢
  split_ifs at hend ⊢ with hl herr h0 herr'
  · cases hend
  · exact .accepting hl
  · cases hend
  · exact .command h0
  · exact .connection hl h0

theorem iterate_steps (s : Server) (w : Wait) : Steps s (s.iterate w) := by
  cases w with
  | ready events =>
    show Steps s (events.foldl Server.handleEvent s)
    induction events generalizing s with
    | nil => exact .refl
    | cons ev events ih => exact (handleEvent_steps s ev).trans (ih _)
  | fail =>
    show Steps s (if s.status = .running then _ else s)
    split
    · exact .single ⟨0, .halt (.exited (-1)) (by simp)⟩
    · exact .refl

end Loops

/-! ## Reachable states -/

theorem Reaches.steps {s₀ s : Server} (h : Reaches s₀ s) : Steps s₀ s := by
  induction h with
  | refl => exact .refl
  | tail _ hst ih =>
    obtain ⟨w, _, rfl⟩ := hst
    exact ih.trans (iterate_steps _ w)

theorem AtRequest.steps {s₀ t : Server} {c : Nat} (h : AtRequest s₀ c t) :
    Steps s₀ t ∧ hasFlag (t.slot c).flags .wantRead = true := by
  induction h with
  | first hs _ _ _ hr hread =>
    obtain ⟨h1, h2, _⟩ := readAvailable_steps hr hread
    exact ⟨hs.steps.trans h1.steps, h2⟩
  | next _ htry ih =>
    obtain ⟨h1, h2⟩ := ih
    obtain ⟨h3, h4⟩ := tryOneRequest_steps h2 htry
    exact ⟨h1.trans h3.steps, h4⟩

/-! ## The shape of the table -/

/-- What holds of the table at all times: a slot that is not active has no flag set,
and so has every slot behind the end, where nothing has been queued either. -/
structure Tidy (s : Server) : Prop where
  idle : ∀ i, hasFlag (s.slot i).flags .isActive = false → (s.slot i).flags = .none
  fresh : ∀ i, s.getSize ≤ i →
    (s.slot i).flags = .none ∧ (s.slot i).incoming = [] ∧ (s.slot i).outgoing = []

theorem hasFlag_none (g : ConnFlags) : hasFlag .none g = false := by
  simp [hasFlag, ConnFlags.none]

theorem isActive_initial : hasFlag (.isActive ||| .wantRead) .isActive = true := by decide
theorem wantRead_initial : hasFlag (.isActive ||| .wantRead) .wantRead = true := by decide
theorem wantWrite_initial : hasFlag (.isActive ||| .wantRead) .wantWrite = false := by decide
theorem wantClose_initial : hasFlag (.isActive ||| .wantRead) .wantClose = false := by decide

section Tidy

variable {s t : Server}

/-- A slot with a flag is active and inside the table. -/
theorem Tidy.active (hs : Tidy s) {c : Nat} {g : ConnFlags}
    (hg : hasFlag (s.slot c).flags g = true) : hasFlag (s.slot c).flags .isActive = true := by
  by_contra h
  rw [hs.idle c (by simpa using h), hasFlag_none] at hg
  cases hg

theorem Tidy.lt_size (hs : Tidy s) {c : Nat} {g : ConnFlags}
    (hg : hasFlag (s.slot c).flags g = true) : c < s.getSize := by
  by_contra h
  rw [(hs.fresh c (Nat.le_of_not_lt h)).1, hasFlag_none] at hg
  cases hg

/-- The table stays tidy when slots change only while they are active, or lose their
flags. -/
theorem Tidy.of_slots (hs : Tidy s) (hsize : t.getSize = s.getSize)
    (hslots : ∀ j, t.slot j = s.slot j ∨ t.slot j = { s.slot j with flags := .none } ∨
      (hasFlag (s.slot j).flags .isActive = true ∧ hasFlag (t.slot j).flags .isActive = true)) :
    Tidy t := by
  constructor
  · intro i hi
    rcases hslots i with h | h | ⟨_, h⟩
    · rw [h] at hi ⊢
      exact hs.idle i hi
    · rw [h]
    · rw [h] at hi
      cases hi
  · intro i hi
    rw [hsize] at hi
    obtain ⟨h1, h2, h3⟩ := hs.fresh i hi
    rcases hslots i with h | h | ⟨h, _⟩
    · rw [h]
      exact ⟨h1, h2, h3⟩
    · rw [h]
      exact ⟨rfl, h2, h3⟩
    · rw [h1, hasFlag_none] at h
      cases h

/-- Growing changes nothing that a connection has left in the table. -/
theorem Tidy.slot_grow (hs : Tidy s) (fd j : Nat) :
    ((s.grow fd).slot j).flags = (s.slot j).flags ∧
      ((s.grow fd).slot j).incoming = (s.slot j).incoming ∧
      ((s.grow fd).slot j).outgoing = (s.slot j).outgoing := by
  rw [ChatServer.slot_grow]
  split
  · rename_i h
    obtain ⟨h1, h2, h3⟩ := hs.fresh j h.2
    rw [h1, h2, h3]
    exact ⟨rfl, rfl, rfl⟩
  · exact ⟨rfl, rfl, rfl⟩

theorem size_activate (s : Server) (fd : Nat) :
    (s.activate fd).getSize = max s.getSize (fd + 1) := by
  show (s.grow fd).getSize = _
  unfold Server.grow
  split
  · rw [Nat.max_eq_right (by omega)]
    rfl
  · rw [Nat.max_eq_left (by omega)]

theorem Tidy.setConnectionState (hs : Tidy s) {c : Nat} {g : ConnFlags}
    (hg : hasFlag (s.slot c).flags g = true) (next : ConnState) :
    Tidy (s.setConnectionState c next) := by
  refine hs.of_slots (by cases next <;> rfl) fun j => ?_
  rw [Server.slot_setConnectionState]
  by_cases hj : j = c
  · subst hj
    rw [if_pos rfl]
    exact .inr (.inr ⟨hs.active hg, (isActive_nextFlags _ _).trans (hs.active hg)⟩)
  · rw [if_neg hj]
    exact .inl rfl

theorem Tidy.step {c : Nat} (hst : Step c s t) (hs : Tidy s) : Tidy t := by
  cases hst with
  | call hk => exact hs.of_slots rfl fun j => .inl rfl
  | halt => exact hs.of_slots rfl fun j => .inl rfl
  | connect =>
    have hflags : ∀ j, j ≠ c → (((s.sys (.add c .input)).activate c).slot j).flags =
        (s.slot j).flags := by
      intro j hj
      rw [slot_connect, if_neg hj]
      exact (hs.slot_grow c j).1
    constructor
    · intro j hj
      by_cases hfd : j = c
      · subst hfd
        have hactive : hasFlag (.isActive ||| .wantRead) .isActive = true := by decide
        rw [slot_connect, if_pos rfl] at hj
        exact absurd (hactive.symm.trans hj) (by decide)
      · rw [hflags j hfd] at hj ⊢
        exact hs.idle j hj
    · intro j hj
      rw [size_activate] at hj
      have hsize : s.getSize ≤ j := Nat.le_trans (Nat.le_max_left _ _) hj
      have hfd : j ≠ c := by
        have := Nat.le_trans (Nat.le_max_right _ _) hj
        omega
      have hslot := hs.slot_grow c j
      refine ⟨(hflags j hfd).trans (hs.fresh j hsize).1, ?_⟩
      rw [slot_connect, if_neg hfd]
      exact ⟨hslot.2.1.trans (hs.fresh j hsize).2.1, hslot.2.2.trans (hs.fresh j hsize).2.2⟩
  | receive b bs hr =>
    refine hs.of_slots rfl fun j => ?_
    rw [slot_receive]
    by_cases hj : j = c
    · subst hj
      rw [if_pos rfl]
      exact .inr (.inr ⟨hs.active hr, hs.active hr⟩)
    · rw [if_neg hj]
      exact .inl rfl
  | @serve n o hr hcut =>
    have hd := dispatch_handled s c (parseMessage ((s.slot c).incoming.take n)) o
    refine hs.of_slots (serve_frame s c _ o _).1 fun j => ?_
    rw [slot_serve]
    by_cases hj : j = c
    · subst hj
      rw [if_pos rfl]
      exact .inr (.inr ⟨hs.active hr, (hd.flags_self (by decide)).trans (hs.active hr)⟩)
    · rw [if_neg hj]
      rcases hd.slot_other hj with h | ⟨hmem, h⟩
      · exact .inl h
      · have hact := hs.active (View.mem_others.mp hmem).2.1
        rw [h]
        exact .inr (.inr ⟨hact, (isActive_nextFlags _ _).trans hact⟩)
  | closing hg => exact hg.elim (hs.setConnectionState · _) (hs.setConnectionState · _)
  | writing hr _ => exact hs.setConnectionState hr _
  | write n hw =>
    refine hs.of_slots rfl fun j => ?_
    rw [slot_written]
    by_cases hj : j = c
    · subst hj
      rw [if_pos rfl]
      exact .inr (.inr ⟨hs.active hw, hs.active hw⟩)
    · rw [if_neg hj]
      exact .inl rfl
  | reading hw _ => exact hs.setConnectionState hw _
  | remove =>
    refine hs.of_slots rfl fun j => ?_
    rw [slot_removeConnection]
    by_cases hj : j = c
    · rw [if_pos hj]
      exact .inr (.inl rfl)
    · rw [if_neg hj]
      exact .inl rfl

theorem Step.listenfd {c : Nat} (hst : Step c s t) : t.listenfd = s.listenfd := by
  cases hst with
  | serve o => exact (serve_frame s c _ o _).2.2
  | connect =>
    show (((s.sys (.add c .input)).grow c).setFlags c _).listenfd = s.listenfd
    unfold Server.grow
    split <;> rfl
  | closing => rfl
  | writing => rfl
  | reading => rfl
  | _ => rfl

/-- The table stays tidy, and the listening socket is always the same. -/
theorem tidy_of_steps (h : Steps s t) (hs : Tidy s) : Tidy t ∧ t.listenfd = s.listenfd :=
  h.preserves (P := fun t => Tidy t ∧ t.listenfd = s.listenfd)
    (fun _ _ _ hst ht => ⟨ht.1.step hst, hst.listenfd.trans ht.2⟩) ⟨hs, rfl⟩

theorem StepsOn.tidy {c : Nat} (h : StepsOn c s t) (hs : Tidy s) :
    Tidy t ∧ t.listenfd = s.listenfd := tidy_of_steps h.steps hs

/-- What the steps for one connection preserve in a tidy table, a chain of them preserves. -/
theorem StepsOn.preserves {c : Nat} {P : Server → Prop}
    (hstep : ∀ t u, Tidy t → Step c t u → P t → P u) (h : StepsOn c s t) (hs : Tidy s)
    (hP : P s) : P t := by
  have hinv : Tidy t ∧ P t := by
    induction h with
    | refl => exact ⟨hs, hP⟩
    | tail _ hst ih => exact ⟨ih.1.step hst, hstep _ _ ih.1 hst ih.2⟩
  exact hinv.2

theorem tidy_boot (capacity listenfd : Nat) (db : Db) : Tidy (Server.boot capacity listenfd db) :=
  ⟨fun _ _ => rfl, fun _ _ => ⟨rfl, rfl, rfl⟩⟩

theorem Steps.tidy {capacity listenfd : Nat} {db : Db}
    (h : Steps (Server.boot capacity listenfd db) s) : Tidy s :=
  (tidy_of_steps h (tidy_boot _ _ _)).1

end Tidy

end ChatServer
