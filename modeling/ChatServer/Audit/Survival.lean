import ChatServer.Audit.Backlog

/-!
# What remote peers can do to the server

A peer that connects, sends anything, and ends its connection in whatever way makes the loop
remove that connection and no other, unless the end is met by `accept` or raises `SIGPIPE`: an
aborted connection and a descriptor table that has filled up make `accept` fail, which ends the
process, and so does a `write` to a connection that was reset.
-/

namespace ChatServer

open EdgeTrigger (Errno Rv Interest Syscall)

/-! ## The other connections -/

theorem nextFlags_writing_writing (f : ConnFlags) :
    ConnState.writing.nextFlags (ConnState.writing.nextFlags f) = ConnState.writing.nextFlags f := by
  have hbits : ∀ a r w : UInt8, ((a &&& ~~~r ||| w) &&& ~~~r) ||| w = (a &&& ~~~r) ||| w := by
    intro a r w
    apply UInt8.toBitVec_inj.mp
    ext i hi
    simp only [UInt8.toBitVec_or, UInt8.toBitVec_and, UInt8.toBitVec_not, BitVec.getElem_or,
      BitVec.getElem_and, BitVec.getElem_not]
    cases a.toBitVec[i] <;> cases r.toBitVec[i] <;> cases w.toBitVec[i] <;> rfl
  exact congrArg ConnFlags.mk (hbits f.bits _ _)

/-- The slot is as it was, or broadcasts were queued behind what it holds and it has been turned
to writing. -/
inductive Spared (σ : Slot) : Slot → Prop where
  | same : Spared σ σ
  | queued (b) : b ≠ [] → Spared σ
      { σ with outgoing := σ.outgoing ++ b, flags := ConnState.writing.nextFlags σ.flags }

theorem Spared.trans {σ τ υ : Slot} (h : Spared σ τ) (h' : Spared τ υ) : Spared σ υ := by
  cases h with
  | same => exact h'
  | queued b hb =>
    cases h' with
    | same => exact .queued b hb
    | queued b' _ =>
      have hslot : Spared σ _ := .queued (b ++ b') (List.append_ne_nil_of_left_ne_nil hb _)
      rw [← List.append_assoc] at hslot
      rw [nextFlags_writing_writing]
      exact hslot

theorem Spared.active {σ τ : Slot} (h : Spared σ τ) :
    hasFlag τ.flags .isActive = hasFlag σ.flags .isActive := by
  cases h with
  | same => rfl
  | queued => exact isActive_nextFlags _ _

section Spared

variable {s t : Server} {c d : Nat}

/-- A step for one connection changes another only if it serves a request that is broadcast. -/
theorem Step.slot_other (hst : Step c s t) (hs : Tidy s) (hd : d ≠ c)
    (ha : hasFlag (s.slot d).flags .isActive = true) :
    t.slot d = s.slot d ∨ servedIn t.log ≠ servedIn s.log ∧ ∃ b, b ≠ [] ∧
      t.slot d = { s.slot d with
        outgoing := (s.slot d).outgoing ++ b
        flags := ConnState.writing.nextFlags (s.slot d).flags } := by
  have hstate : ∀ next, (s.setConnectionState c next).slot d = s.slot d := by
    intro next
    rw [Server.slot_setConnectionState, if_neg hd]
  cases hst with
  | call => exact .inl rfl
  | halt => exact .inl rfl
  | connect =>
    have hlt := hs.lt_size ha
    rw [slot_connect, if_neg hd, slot_grow, if_neg fun hno => Nat.not_lt.mpr hno.2 hlt]
    exact .inl rfl
  | receive =>
    rw [slot_receive, if_neg hd]
    exact .inl rfl
  | @serve n o =>
    obtain ⟨dests, hlog⟩ := log_serve s c ((s.slot c).incoming.take n)
      ((s.slot c).incoming.drop n) o
    rw [slot_serve, if_neg hd]
    rcases (dispatch_handled s c (parseMessage ((s.slot c).incoming.take n)) o).slot_other hd with
      h | ⟨_, h⟩
    · exact .inl h
    · refine .inr ⟨fun hno => ?_, _, wire_ne_nil _, h⟩
      rw [hlog, servedIn_append, servedIn_append, List.append_assoc] at hno
      exact absurd (List.append_right_eq_self.mp hno) (by simp [servedIn, Entry.servedIn])
  | closing => exact .inl (hstate .closing)
  | writing => exact .inl (hstate .writing)
  | write =>
    rw [slot_written, if_neg hd]
    exact .inl rfl
  | reading => exact .inl (hstate .reading)
  | remove =>
    rw [slot_removeConnection, if_neg hd]
    exact .inl rfl

theorem Step.spared (hst : Step c s t) (hs : Tidy s) (hd : d ≠ c)
    (ha : hasFlag (s.slot d).flags .isActive = true) : Spared (s.slot d) (t.slot d) := by
  rcases hst.slot_other hs hd ha with h | ⟨_, b, hb, h⟩
  · rw [h]
    exact .same
  · rw [h]
    exact .queued b hb

theorem StepsOn.spared (h : StepsOn c s t) (hs : Tidy s) (hd : d ≠ c)
    (ha : hasFlag (s.slot d).flags .isActive = true) : Spared (s.slot d) (t.slot d) := by
  refine h.preserves (P := fun u => Spared (s.slot d) (u.slot d)) (fun t u ht hst hspared => ?_) hs
    .same
  exact hspared.trans (hst.spared ht hd (hspared.active.trans ha))

/-- As long as no request is served, the steps for one connection leave every other as it is. -/
theorem StepsOn.slot_same (h : StepsOn c s t) (hs : Tidy s) (hd : d ≠ c)
    (ha : hasFlag (s.slot d).flags .isActive = true)
    (hquiet : servedIn t.log = servedIn s.log) : t.slot d = s.slot d := by
  have hinv : servedIn s.log <+: servedIn t.log ∧
      (servedIn t.log = servedIn s.log → t.slot d = s.slot d) := by
    refine h.preserves (P := fun u => servedIn s.log <+: servedIn u.log ∧
      (servedIn u.log = servedIn s.log → u.slot d = s.slot d)) (fun t u ht hst hinv => ?_) hs
      ⟨List.prefix_refl _, fun _ => rfl⟩
    obtain ⟨hgrows, hsame⟩ := hinv
    obtain ⟨es, hes⟩ := hst.log_grows
    have hnext : servedIn t.log <+: servedIn u.log := by
      rw [← hes, servedIn_append]
      exact List.prefix_append _ _
    refine ⟨hgrows.trans hnext, fun hu => ?_⟩
    have ht' : servedIn t.log = servedIn s.log :=
      (hgrows.eq_of_length_le (hu ▸ hnext.length_le)).symm
    have hslot := hsame ht'
    rcases hst.slot_other ht hd (hslot ▸ ha) with h | ⟨hne, _⟩
    · exact h.trans hslot
    · exact absurd (hu.trans ht'.symm) hne
  exact hinv.2 hquiet

end Spared

/-! ## The connection that ends -/

/-- The answer that ends a connection: the end of the stream, or an error. -/
inductive Ends (c : Nat) : Syscall UInt8 → Prop where
  | eof : Ends c (.read c (.bytes []))
  | readFailed {e} : e ≠ .EAGAIN → Ends c (.read c (.fail e))
  | writeFailed {e} : e ≠ .EAGAIN → Ends c (.write c (.fail e))

/-- If a call from `s` to `t` met the end of the connection, it is to be closed; and if it was to
be closed before, it still is. -/
structure Closes (c : Nat) (s t : Server) : Prop where
  stays : hasFlag (s.slot c).flags .wantClose = true → hasFlag (t.slot c).flags .wantClose = true
  ends : ∃ ks, t.calls = s.calls ++ ks ∧
    ∀ k ∈ ks, Ends c k → hasFlag (t.slot c).flags .wantClose = true

section Closes

variable {s t u : Server} {c : Nat}

theorem Closes.refl (c : Nat) (s : Server) : Closes c s s :=
  ⟨id, [], (List.append_nil _).symm, fun _ hk => absurd hk List.not_mem_nil⟩

theorem Closes.trans (h : Closes c s t) (h' : Closes c t u) : Closes c s u := by
  obtain ⟨ks, hks, hends⟩ := h.ends
  obtain ⟨ks', hks', hends'⟩ := h'.ends
  refine ⟨fun hs => h'.stays (h.stays hs), ks ++ ks', ?_, fun k hk hend => ?_⟩
  · rw [hks', hks, List.append_assoc]
  · rcases List.mem_append.mp hk with hk | hk
    · exact h'.stays (hends k hk hend)
    · exact hends' k hk hend

theorem Closes.of_calls {ks : List (Syscall UInt8)} (hcalls : t.calls = s.calls ++ ks)
    (hks : ∀ k ∈ ks, ¬ Ends c k) (hflags : hasFlag (t.slot c).flags .wantClose =
      hasFlag (s.slot c).flags .wantClose) : Closes c s t :=
  ⟨fun hs => hflags.trans hs, ks, hcalls, fun k hk hend => absurd hend (hks k hk)⟩

theorem closes_sys {k : Syscall UInt8} (hk : ¬ Ends c k) : Closes c s (s.sys k) :=
  .of_calls (calls_sys s k) (fun _ hmem => List.mem_singleton.mp hmem ▸ hk) rfl

/-- Whatever the calls have met, the connection is to be closed. -/
theorem Closes.of_closing {ks : List (Syscall UInt8)} (hcalls : t.calls = s.calls ++ ks)
    (hclose : hasFlag (t.slot c).flags .wantClose = true) : Closes c s t :=
  ⟨fun _ => hclose, ks, hcalls, fun _ _ _ => hclose⟩

theorem closes_closing (s : Server) (c : Nat) (k : Syscall UInt8) :
    Closes c s ((s.sys k).setConnectionState c .closing) :=
  .of_closing (calls_sys s k) (Server.wantClose_setClosing _ c)

theorem not_ends_modify (c d : Nat) (i : Interest) : ¬ Ends c (.modify d i) := fun h => by
  cases h

theorem not_ends_again (c : Nat) :
    ¬ Ends c (.read c (.fail .EAGAIN)) ∧ ¬ Ends c (.write c (.fail .EAGAIN)) := by
  constructor
  · intro h
    cases h with
    | readFailed he => exact he rfl
  · intro h
    cases h with
    | writeFailed he => exact he rfl

theorem closes_setConnectionState (s : Server) (c : Nat) {next : ConnState}
    (hnext : next ≠ .closing) : Closes c s (s.setConnectionState c next) := by
  have hmodify : ∀ i, ∀ k ∈ [Syscall.modify c i], ¬ Ends c k :=
    fun i k hk => List.mem_singleton.mp hk ▸ not_ends_modify c c i
  cases next with
  | reading =>
    refine .of_calls (calls_sys _ (.modify c .input)) (hmodify .input) ?_
    rw [Server.slot_setConnectionState_self]
    exact wantClose_reading _
  | writing =>
    refine .of_calls (calls_sys _ (.modify c .output)) (hmodify .output) ?_
    rw [Server.slot_setConnectionState_self]
    exact wantClose_writing _
  | closing => exact absurd rfl hnext

theorem closes_received (s : Server) (c : Nat) (b : UInt8) (bs buffer : Bytes) :
    Closes c s ((s.sys (.read c (.bytes (b :: bs)))).setIncoming c buffer) := by
  refine .of_calls (calls_sys s _) (fun k hk => ?_) ?_
  · obtain rfl := List.mem_singleton.mp hk
    exact fun h => by cases h
  · rw [Server.slot_setIncoming, if_pos rfl]
    rfl

theorem closes_served (s : Server) (c : Nat) (frame : Bytes) (o : SqlOutcome) (rest : Bytes) :
    Closes c s ((s.serveFrame c frame o).setIncoming c rest) := by
  have hd := dispatch_handled s c (parseMessage frame) o
  obtain ⟨dests, _, hlog⟩ := hd.log
  refine .of_calls (calls_serve rest hlog) (fun k hk => ?_) ?_
  · obtain ⟨d, _, rfl⟩ := List.mem_map.mp hk
    exact not_ends_modify c d .output
  · rw [slot_serve, if_pos rfl]
    exact hd.flags_self (by decide)

theorem closes_read (c : Nat) : AlongRead c (Closes c) where
  refl := .refl c
  trans := .trans
  received s b bs := closes_received s c b bs _
  blocked _ := closes_sys (not_ends_again c).1
  ended s rv := closes_closing s c (.read c rv)
  served s frame o rest := closes_served s c frame o rest
  refused s := .of_closing (List.append_nil _).symm (s.wantClose_setClosing c)
  turned s := closes_setConnectionState s c (by decide)

theorem closes_written (s : Server) (c n : Nat) : Closes c s (s.written c n) := by
  refine .of_calls (calls_written s c n) (fun k hk => ?_) ?_
  · obtain rfl := List.mem_singleton.mp hk
    exact fun h => by cases h
  · rw [flags_written]

theorem closes_write (c : Nat) : AlongWrite c (Closes c) where
  refl := .refl c
  trans := .trans
  written s n := closes_written s c n
  blocked _ := closes_sys (not_ends_again c).2
  ended s e := closes_closing s c (.write c (.fail e))
  turned s := closes_setConnectionState s c (by decide)

theorem closes_stages (s : Server) {ev : Event} (hpipe : .fail .EPIPE ∉ ev.script.writes) :
    Closes ev.fd s ((s.readStage ev).writeStage ev) :=
  ((closes_read ev.fd).readStage s).trans
    ((closes_write ev.fd).writeStage _ fun hmem => absurd hmem hpipe)

/-! ## The process -/

theorem status_read (c : Nat) : AlongRead c fun s t => t.status = s.status where
  refl _ := rfl
  trans h h' := h'.trans h
  received _ _ _ := rfl
  blocked _ := rfl
  ended _ _ := rfl
  served s frame o rest := (serve_frame s c frame o rest).2.1
  refused _ := rfl
  turned _ := rfl

theorem status_write (c : Nat) : AlongWrite c fun s t => t.status = s.status where
  refl _ := rfl
  trans h h' := h'.trans h
  written _ _ := rfl
  blocked _ := rfl
  ended _ _ := rfl
  turned _ := rfl

/-- Only a `write` to a connection that was reset ends the process. -/
theorem status_stages_survive (s : Server) {ev : Event}
    (hpipe : .fail .EPIPE ∉ ev.script.writes) :
    ((s.readStage ev).writeStage ev).status = s.status := by
  have hwrite := (status_write ev.fd).writeStage (s.readStage ev) fun hmem => absurd hmem hpipe
  exact hwrite.trans ((status_read ev.fd).readStage s)

theorem status_closeStage (s : Server) (ev : Event) : (s.closeStage ev).status = s.status := by
  unfold Server.closeStage
  split <;> rfl

/-- A connection that has met its end, or that an error is reported for, is removed. -/
theorem flags_handleConnection {ev : Event} (hpipe : .fail .EPIPE ∉ ev.script.writes)
    (hrun : s.status = .running) {ks : List (Syscall UInt8)}
    (hks : (s.handleConnection ev).calls = s.calls ++ ks)
    (hend : ev.epollerr = true ∨ ∃ k ∈ ks, Ends ev.fd k) :
    ((s.handleConnection ev).slot ev.fd).flags = .none := by
  have hstatus := (status_stages_survive s hpipe).trans hrun
  obtain ⟨ks', hcalls, hends⟩ := (closes_stages s hpipe).ends
  unfold Server.handleConnection at hks ⊢
  rcases closeStage_cases ((s.readStage ev).writeStage ev) ev with hclose | ⟨hclose, hopen⟩
  · rw [hclose, slot_removeConnection, if_pos rfl]
  · rw [hclose] at hks
    obtain rfl : ks' = ks := List.append_cancel_left (hcalls.symm.trans hks)
    obtain ⟨herr, hnot⟩ := hopen hstatus
    rcases hend with he | ⟨k, hk, he⟩
    · exact absurd (herr.symm.trans he) (by decide)
    · exact absurd (hnot.symm.trans (hends k hk he)) (by decide)

end Closes

/-! ## What peers can cause -/

/-- The process has no descriptor left. -/
def EMFILE : Errno := .other 24

/-- The answers of `accept` that peers can cause, when the descriptors in `opened` are open and
there may be `limit`: connections, each on a new descriptor, and in the end none left, one that
was aborted before it was accepted, or no descriptor for it. -/
inductive PeerAccepts (limit : Nat) : List Nat → List AcceptAnswer → Prop where
  | drained {opened} : PeerAccepts limit opened []
  | blocked {opened} : PeerAccepts limit opened [.fail .EAGAIN]
  | aborted {opened} : PeerAccepts limit opened [.fail .ECONNABORTED]
  | exhausted {opened} : limit ≤ opened.length → PeerAccepts limit opened [.fail EMFILE]
  | conn {opened fd answers} : opened.length < limit → fd ∉ opened →
      PeerAccepts limit (opened ++ [fd]) answers →
      PeerAccepts limit opened (.conn fd true true :: answers)

/-- The event comes from remote peers: they connect, send, end their side of the connection and
reset it. -/
structure FromPeers (limit : Nat) (s : Server) (ev : Event) : Prop where
  legal : ev.Legal s.listenfd
  noError : ev.fd = s.listenfd ∨ ev.fd = STDIN_FILENO → ev.epollerr = false
  accepts : ev.fd = s.listenfd → PeerAccepts limit s.acceptedFds ev.script.accepts
  reads : ∀ e, .fail e ∈ ev.script.reads → e = .EAGAIN ∨ e = .ECONNRESET
  writes : ∀ e, .fail e ∈ ev.script.writes → e = .EAGAIN ∨ e = .ECONNRESET ∨ e = .EPIPE

/-- The connections that are live. -/
def Server.live (s : Server) : Nat :=
  s.acceptedFds.countP fun fd => hasFlag (s.connManager.flags fd) .isActive

/-- The runs in which all events come from peers, no more than `live` connections are live at
once, and each event meets `ok`. -/
def Peers (ok : Server → Event → Prop) (limit live : Nat) : Server → Server → Prop :=
  Relation.ReflTransGen fun s t =>
    ∃ ev, FromPeers limit s ev ∧ ok s ev ∧ t = s.handleEvent ev ∧ t.live ≤ live

/-- `accept` fails only because no connection is left, and no `write` meets a connection that
was reset. -/
structure Survivable (s : Server) (ev : Event) : Prop where
  accepts : ev.fd = s.listenfd → ∀ e, .fail e ∈ ev.script.accepts → e = .EAGAIN
  writes : .fail .EPIPE ∉ ev.script.writes

/-- The event leaves the process running and every other connection as it was, but for the
broadcasts of the requests that it serves; and a connection that it has ended is removed. -/
structure Outlives (s : Server) (ev : Event) : Prop where
  running : (s.handleEvent ev).status = .running
  spares : ∀ d, d ≠ ev.fd → hasFlag (s.slot d).flags .isActive = true →
    Spared (s.slot d) ((s.handleEvent ev).slot d)
  same : servedIn (s.handleEvent ev).log = servedIn s.log → ∀ d, d ≠ ev.fd →
    hasFlag (s.slot d).flags .isActive = true → (s.handleEvent ev).slot d = s.slot d
  removes : ev.fd ≠ s.listenfd → ev.fd ≠ STDIN_FILENO →
    ∀ ks, (s.handleEvent ev).calls = s.calls ++ ks →
      (ev.epollerr = true ∨ ∃ k ∈ ks, Ends ev.fd k) →
      ((s.handleEvent ev).slot ev.fd).flags = .none

/-! ## One event -/

section Event

variable {s t : Server} {limit : Nat}

theorem acceptedFds_keeps {ks : List (Syscall UInt8)} (hcalls : t.calls = s.calls ++ ks)
    (hno : ∀ fd, .accept fd ∉ ks) : t.acceptedFds = s.acceptedFds := by
  have hnone : ks.filterMap acceptedFd = [] := by
    rw [List.filterMap_eq_nil_iff]
    intro k hk
    cases k with
    | accept fd => exact absurd hk (hno fd)
    | _ => rfl
  rw [Server.acceptedFds, hcalls, List.filterMap_append, hnone, List.append_nil]
  rfl

theorem acceptedFds_accept (s : Server) (fd : Nat) (nonblocking registered : Bool) :
    ((s.sys (.accept fd)).addConnection fd nonblocking registered).acceptedFds =
      s.acceptedFds ++ [fd] := by
  obtain ⟨ks, hks, hno⟩ := calls_accept s fd nonblocking registered
  have hfirst : (s.sys (.accept fd)).acceptedFds = s.acceptedFds ++ [fd] := by
    rw [Server.acceptedFds, calls_sys, List.filterMap_append]
    rfl
  have hcalls : ((s.sys (.accept fd)).addConnection fd nonblocking registered).calls =
      (s.sys (.accept fd)).calls ++ ks := by
    rw [hks, calls_sys, List.append_assoc]
    rfl
  rw [acceptedFds_keeps hcalls hno, hfirst]

/-- No request is served while a connection is accepted. -/
theorem servedIn_accept (s : Server) (fd : Nat) :
    servedIn ((s.sys (.accept fd)).addConnection fd true true).log = servedIn s.log := by
  have hlog : ((s.sys (.accept fd)).addConnection fd true true).log =
      s.log ++ [.sys (.accept fd)] ++ [.sys (.add fd .input)] := log_connect _ fd
  rw [hlog, servedIn_append, servedIn_append, List.append_assoc]
  exact List.append_nil _

theorem PeerAccepts.survive {answers : List AcceptAnswer}
    (h : PeerAccepts limit s.acceptedFds answers) (hs : Tidy s) (hrun : s.status = .running)
    (hfirst : FirstUse s) (hok : ∀ e, .fail e ∈ answers → e = .EAGAIN) :
    (s.acceptAllConnections answers).status = .running ∧
      FirstUse (s.acceptAllConnections answers) ∧
      ∀ d ∈ s.acceptedFds, hasFlag (s.slot d).flags .isActive = true →
        (s.acceptAllConnections answers).slot d = s.slot d := by
  generalize hopened : s.acceptedFds = opened at h ⊢
  induction h generalizing s with
  | drained => exact ⟨hrun, hfirst, fun _ _ _ => rfl⟩
  | blocked => exact ⟨hrun, hfirst, fun _ _ _ => rfl⟩
  | aborted => exact absurd (hok _ List.mem_cons_self) (by decide)
  | exhausted => exact absurd (hok _ List.mem_cons_self) (by decide)
  | @conn opened fd answers _ hnew _ ih =>
    have hsteps := addConnection_steps s fd true true
    have hnext := acceptedFds_accept s fd true true
    have hstatus : ((s.sys (.accept fd)).addConnection fd true true).status = .running :=
      (status_activate _ fd).trans hrun
    have heq : s.acceptAllConnections (.conn fd true true :: answers) =
        ((s.sys (.accept fd)).addConnection fd true true).acceptAllConnections answers :=
      if_pos hstatus
    have hfirst' : FirstUse ((s.sys (.accept fd)).addConnection fd true true) := by
      unfold FirstUse
      rw [hnext, hopened]
      refine List.nodup_append.mpr ⟨hopened ▸ hfirst, by simp, ?_⟩
      rintro d hd e he rfl
      exact hnew (List.mem_singleton.mp he ▸ hd)
    obtain ⟨h1, h2, h3⟩ := ih (hsteps.tidy hs).1 hstatus hfirst'
      (fun e he => hok e (List.mem_cons_of_mem _ he)) (hopened ▸ hnext)
    rw [heq]
    refine ⟨h1, h2, fun d hd ha => ?_⟩
    have hsame := hsteps.slot_same hs (fun hdf => hnew (hdf ▸ hd)) ha (servedIn_accept s fd)
    exact (h3 d (List.mem_append_left _ hd) (hsame ▸ ha)).trans hsame

theorem acceptedFds_handleConnection (s : Server) (ev : Event) :
    (s.handleConnection ev).acceptedFds = s.acceptedFds := by
  obtain ⟨ks, hks, hno⟩ := keepsDescriptors_stages s ev
  have hstages := acceptedFds_keeps hks fun fd => (hno fd).1
  unfold Server.handleConnection
  rcases closeStage_cases ((s.readStage ev).writeStage ev) ev with hclose | ⟨hclose, _⟩
  · rw [hclose]
    exact (acceptedFds_keeps (calls_sys _ (.delete ev.fd)) (by simp)).trans hstages
  · rw [hclose, hstages]

/-- **One event** that peers can cause, and that meets the condition. -/
theorem FromPeers.outlives {ev : Event} (h : FromPeers limit s ev) (hok : Survivable s ev)
    (hs : Tidy s) (hrun : s.status = .running) (hfirst : FirstUse s) (hback : Backlog s) :
    Outlives s ev ∧ FirstUse (s.handleEvent ev) := by
  have hheld : ∀ d, hasFlag (s.slot d).flags .isActive = true → d ∈ s.acceptedFds :=
    fun d ha => mem_acceptedFds.mpr (hback.held ha)
  by_cases hl : ev.fd = s.listenfd
  · obtain ⟨h1, h2, h3⟩ := (h.accepts hl).survive hs hrun hfirst (hok.accepts hl)
    have heq : s.handleEvent ev = s.acceptAllConnections ev.script.accepts := by
      unfold Server.handleEvent
      rw [if_neg (not_not.mpr hrun), if_pos hl, h.noError (.inl hl)]
      rfl
    rw [heq]
    have hsame : ∀ d, hasFlag (s.slot d).flags .isActive = true →
        (s.acceptAllConnections ev.script.accepts).slot d = s.slot d :=
      fun d ha => h3 d (hheld d ha) ha
    refine ⟨⟨heq ▸ h1, fun d _ ha => ?_, fun _ d _ ha => ?_, fun hno => absurd hl hno⟩, h2⟩
    · rw [heq, hsame d ha]
      exact .same
    · rw [heq, hsame d ha]
  · by_cases h0 : ev.fd = STDIN_FILENO
    · have heq : s.handleEvent ev = s := by
        unfold Server.handleEvent
        rw [if_neg (not_not.mpr hrun), if_neg hl, if_pos h0, h.noError (.inr h0)]
        rfl
      rw [heq]
      exact ⟨⟨heq.symm ▸ hrun, fun d _ _ => heq.symm ▸ .same, fun _ d _ _ => by rw [heq],
        fun _ hno => absurd h0 hno⟩, hfirst⟩
    · have heq := handleEvent_eq s ev hrun hl h0
      have hstatus : (s.handleConnection ev).status = .running :=
        (status_closeStage _ ev).trans ((status_stages_survive s hok.writes).trans hrun)
      have huse : FirstUse (s.handleConnection ev) := by
        unfold FirstUse
        rw [acceptedFds_handleConnection]
        exact hfirst
      rw [heq]
      refine ⟨⟨heq ▸ hstatus, fun d hd ha => ?_, fun hquiet d hd ha => ?_,
        fun _ _ ks hks hend => ?_⟩, huse⟩
      · rw [heq]
        exact (handleConnection_steps s ev).spared hs hd ha
      · rw [heq] at hquiet ⊢
        exact (handleConnection_steps s ev).slot_same hs hd ha hquiet
      · rw [heq] at hks ⊢
        exact flags_handleConnection hok.writes hrun hks hend

end Event

/-! ## Whole runs -/

theorem Peers.keeps {capacity listenfd limit live : Nat} {db : Db} {s : Server}
    (h : Peers Survivable limit live (Server.boot capacity listenfd db) s) :
    Loops (fun _ _ => True) (Server.boot capacity listenfd db) s ∧ s.status = .running ∧
      FirstUse s := by
  induction h with
  | refl => exact ⟨.refl, rfl, List.nodup_nil⟩
  | @tail s t _ hst ih =>
    obtain ⟨hloops, hrun, hfirst⟩ := ih
    obtain ⟨ev, hpeers, hok, rfl, _⟩ := hst
    obtain ⟨hs, hback⟩ := hloops.backlog
    obtain ⟨hout, huse⟩ := hpeers.outlives hok hs hrun hfirst (hback hfirst hrun)
    exact ⟨hloops.tail (.inl ⟨ev, hpeers.legal, trivial, rfl⟩), hout.running, huse⟩

/-- **The server survives its peers** in every run in which `accept` fails only because no
connection is left and no `write` is answered `EPIPE`: the process keeps running, and every
event removes at most its own connection, and that one if it has ended. To another it can only
add a broadcast, when it serves one. -/
theorem server_survives_peers {capacity listenfd limit live : Nat} {db : Db} {s : Server}
    (h : Peers Survivable limit live (Server.boot capacity listenfd db) s) :
    s.status = .running ∧
      ∀ ev, FromPeers limit s ev → Survivable s ev → Outlives s ev := by
  obtain ⟨hloops, hrun, hfirst⟩ := h.keeps
  obtain ⟨hs, hback⟩ := hloops.backlog
  exact ⟨hrun, fun ev hpeers hok =>
    (hpeers.outlives hok hs hrun hfirst (hback hfirst hrun)).1⟩

/-- A connection is accepted. -/
theorem peers_accepted (ok : Server → Event → Prop) {limit : Nat} (hlimit : 0 < limit)
    (capacity : Nat) (hok : ok (Server.boot capacity 3 .empty)
      ⟨3, false, { accepts := [.conn 5 true true] }⟩)
    (hlive : (accepted capacity).live ≤ 1) :
    Peers ok limit 1 (Server.boot capacity 3 .empty) (accepted capacity) := by
  refine .single ⟨⟨3, false, { accepts := [.conn 5 true true] }⟩, ?_, hok, rfl, hlive⟩
  refine ⟨by simp [Event.Legal, Server.boot, STDIN_FILENO], fun _ => rfl, fun _ => ?_, by simp,
    by simp⟩
  exact .conn hlimit List.not_mem_nil .drained

/-- The one connection is reset. -/
theorem server_survives_peers_reset :
    Outlives (accepted 8) ⟨5, true, { reads := [.fail .ECONNRESET] }⟩ := by
  have haccept : Survivable (Server.boot 8 3 .empty)
      ⟨3, false, { accepts := [.conn 5 true true] }⟩ := ⟨by simp, by simp⟩
  have hpeers : FromPeers 100 (accepted 8) ⟨5, true, { reads := [.fail .ECONNRESET] }⟩ := by
    refine ⟨by simp [Event.Legal], fun h => absurd h ?_, fun h => absurd h ?_, by simp, by simp⟩
    · decide
    · decide
  have hrun := peers_accepted Survivable (Nat.zero_lt_succ 99) 8 haccept (by decide +kernel)
  exact (server_survives_peers hrun).2 _ hpeers ⟨by simp, by simp⟩

/-- A connection is aborted before it is accepted; one is reset before its response is written;
and after two connections, one after the other, there is no descriptor left for a third. Each
of them ends the process. -/
theorem peers_stop_server :
    let ok : Server → Event → Prop := fun _ _ => True
    (∃ s, Peers ok 100 1 (Server.boot INITIAL_CAPACITY 3 .empty) s ∧ s.status = .exited (-1)) ∧
      (∃ s, Peers ok 100 1 (Server.boot INITIAL_CAPACITY 3 .empty) s ∧ s.status = .killed) ∧
      ∃ s, Peers ok 2 1 (Server.boot INITIAL_CAPACITY 3 .empty) s ∧ s.status = .exited (-1) := by
  intro ok
  have hone : ∀ limit, 0 < limit →
      Peers ok limit 1 (Server.boot INITIAL_CAPACITY 3 .empty) (accepted INITIAL_CAPACITY) :=
    fun limit hlimit => peers_accepted ok hlimit _ trivial (by decide +kernel)
  refine ⟨?_, ?_, ?_⟩
  · let ev : Event := ⟨3, false, { accepts := [.fail .ECONNABORTED] }⟩
    have hpeers : FromPeers 100 (Server.boot INITIAL_CAPACITY 3 .empty) ev :=
      ⟨by simp [Event.Legal, ev], fun _ => rfl, fun _ => .aborted, by simp [ev], by simp [ev]⟩
    exact ⟨_, .single ⟨ev, hpeers, trivial, rfl, by decide +kernel⟩, by decide +kernel⟩
  · let ev : Event := ⟨5, false,
      { reads := [.bytes [1, 9, 0, 0, 0, 0, 1, 42]], writes := [.fail .EPIPE] }⟩
    have hpeers : FromPeers 100 (accepted INITIAL_CAPACITY) ev := by
      refine ⟨by simp [Event.Legal, ev], fun _ => rfl, fun h => absurd h (by decide), ?_, ?_⟩
      · simp [ev]
      · simp [ev]
    exact ⟨_, (hone 100 (by decide)).tail ⟨ev, hpeers, trivial, rfl, by decide +kernel⟩,
      by decide +kernel⟩
  · let ends (fd : Nat) : Event := ⟨fd, false, { reads := [.bytes []] }⟩
    let connects : Event := ⟨3, false, { accepts := [.conn 6 true true] }⟩
    let fails : Event := ⟨3, false, { accepts := [.fail EMFILE] }⟩
    have hend : ∀ (s : Server) fd, s.listenfd = 3 → fd ≠ 3 → FromPeers 2 s (ends fd) := by
      intro s fd hl hfd
      exact ⟨by simp [Event.Legal, ends], fun _ => rfl, fun h => absurd (h.trans hl) hfd,
        by simp [ends], by simp [ends]⟩
    have h₁ : Peers ok 2 1 (Server.boot INITIAL_CAPACITY 3 .empty)
        ((accepted INITIAL_CAPACITY).handleEvent (ends 5)) :=
      (hone 2 (by decide)).tail ⟨_, hend _ 5 rfl (by decide), trivial, rfl, by decide +kernel⟩
    have hconnect : FromPeers 2 ((accepted INITIAL_CAPACITY).handleEvent (ends 5)) connects := by
      refine ⟨?_, fun _ => rfl, fun _ => ?_, by simp [connects], by simp [connects]⟩
      · simp [Event.Legal, connects]
        decide +kernel
      · exact .conn (by decide +kernel) (by decide +kernel) .drained
    have h₂ := h₁.tail ⟨connects, hconnect, trivial, rfl, by decide +kernel⟩
    have h₃ := h₂.tail ⟨ends 6, hend _ 6 (by decide +kernel) (by decide), trivial, rfl,
      by decide +kernel⟩
    have hfail : FromPeers 2 ((((accepted INITIAL_CAPACITY).handleEvent (ends 5)).handleEvent
        connects).handleEvent (ends 6)) fails := by
      refine ⟨by simp [Event.Legal, fails], fun _ => rfl, fun _ => .exhausted ?_, by simp [fails],
        by simp [fails]⟩
      decide +kernel
    exact ⟨_, h₃.tail ⟨fails, hfail, trivial, rfl, by decide +kernel⟩, by decide +kernel⟩

end ChatServer
