import ChatServer.Audit.Conversation
import ChatServer.Audit.Descriptors
import ChatServer.Audit.Pending

/-!
# The network can finish

Whatever happened before, nothing is stuck: without another line being typed, the server and the
clients can go on to a state in which every request typed at an open connection is served and
every reply to it is shown, where the client has not quit.
-/

namespace ChatServer

open EdgeTrigger (Rv)

/-! ## A connection wants to read or to write -/

section Busy

variable {c d : Nat} {s t : Server}

theorem busy_nextFlags {slot : Slot} (h : Busy slot) (next : ConnState) :
    Busy { slot with flags := next.nextFlags slot.flags } := by
  intro ha
  cases next with
  | reading => exact .inl (wantRead_reading _)
  | writing => exact .inr (wantWrite_writing _)
  | closing =>
    exact (h ((isActive_nextFlags _ _).symm.trans ha)).imp (wantRead_closing _).trans
      (wantWrite_closing _).trans

theorem Step.busy (hst : Step c s t) (hs : Tidy s) (h : Busy (s.slot d)) : Busy (t.slot d) := by
  have hstate : ∀ next, Busy ((s.setConnectionState c next).slot d) := by
    intro next
    rw [Server.slot_setConnectionState]
    split
    · exact busy_nextFlags h next
    · exact h
  cases hst with
  | call => exact h
  | halt => exact h
  | connect =>
    rw [slot_connect]
    split
    · exact fun _ => .inl wantRead_initial
    · unfold Busy
      rw [(hs.slot_grow c d).1]
      exact h
  | receive => rw [slot_receive]; split <;> exact h
  | @serve n o hr =>
    have hd := dispatch_handled s c (parseMessage ((s.slot c).incoming.take n)) o
    rw [slot_serve]
    by_cases hdc : d = c
    · subst hdc
      rw [if_pos rfl]
      exact fun _ => .inl ((hd.flags_self (by decide)).trans hr)
    · rw [if_neg hdc]
      rcases hd.slot_other hdc with he | ⟨_, he⟩ <;> rw [he]
      · exact h
      · exact fun _ => .inr (wantWrite_writing _)
  | closing => exact hstate _
  | writing => exact hstate _
  | write => rw [slot_written]; split <;> exact h
  | reading => exact hstate _
  | remove =>
    rw [slot_removeConnection]
    split
    · exact fun ha => absurd ((hasFlag_none _).symm.trans ha) (by decide)
    · exact h

theorem Steps.busy {capacity listenfd : Nat} {db : Db}
    (h : Steps (Server.boot capacity listenfd db) s) (d : Nat) : Busy (s.slot d) := by
  have hboth : Tidy s ∧ Busy (s.slot d) := by
    refine h.preserves (P := fun s => Tidy s ∧ Busy (s.slot d)) ?_
      ⟨tidy_boot _ _ _, fun ha => absurd ((hasFlag_none _).symm.trans ha) (by decide)⟩
    exact fun c s t hst hs => ⟨hs.1.step hst, hst.busy hs.1 hs.2⟩
  exact hboth.2

end Busy

/-! ## An event that nothing goes wrong in -/

/-- Bytes arrive on the connection, one with each `read`, and `write` takes all it is given. -/
def arrival (c : Nat) (bs : Bytes) : Event := ⟨c, false, { reads := bs.map fun b => .bytes [b] }⟩

theorem arrival_reads (c : Nat) (bs : Bytes) :
    readBytes (arrival c bs).script.reads = bs ∧ readDrains (arrival c bs).script.reads = true := by
  have hreads : (arrival c bs).script.reads = (bs.map fun b => [b]).map .bytes ++ [] := by
    simp [arrival]
  obtain ⟨hbytes, hdrains⟩ := @readBytes_chunks (bs.map fun b => [b]) (by simp) []
  rw [hreads, hbytes, hdrains]
  simp [readBytes, readDrains, ← List.flatMap_def]

/-- From `s` to `t` these frames of `c`, and no others, were served. -/
def ServesFrames (c : Nat) (frames : List Bytes) (s t : Server) : Prop :=
  ∃ served : List Served, (∀ r ∈ served, r.conn = c) ∧ served.map Served.frame = frames ∧
    servedIn t.log = servedIn s.log ++ served

/-- From `s` to `t` the frames of `c` were served, and all that was queued for it was written. -/
structure Settles (c : Nat) (frames : List Bytes) (left : Bytes) (s t : Server) : Prop where
  agree : Agree c (s.serveAll c frames []) t
  serves : ServesFrames c frames s t
  isActive : hasFlag (t.slot c).flags .isActive = true
  incoming : (t.slot c).incoming = left
  outgoing : (t.slot c).outgoing = []

section Events

variable {s : Server} {c : Nat} {bs : Bytes}

theorem servedIn_sys (s : Server) (k : EdgeTrigger.Syscall UInt8) :
    servedIn (s.sys k).log = servedIn s.log :=
  (servedIn_append s.log [.sys k]).trans (List.append_nil _)

theorem servedIn_flush (s : Server) (c : Nat) :
    servedIn (s.handleWriteConnection c []).log = servedIn s.log :=
  (servedIn_sys _ _).trans (servedIn_sys s _)

theorem closeStage_status (s : Server) (ev : Event) : (s.closeStage ev).status = s.status := by
  unfold Server.closeStage
  split <;> rfl

/-- A connection that wants to write writes all it has, and wants to read then. -/
theorem handleEvent_flushes (hrun : s.status = .running) (hl : c ≠ s.listenfd)
    (h0 : c ≠ STDIN_FILENO) (ha : hasFlag (s.slot c).flags .isActive = true)
    (hclose : hasFlag (s.slot c).flags .wantClose = false)
    (hr : hasFlag (s.slot c).flags .wantRead = false)
    (hw : hasFlag (s.slot c).flags .wantWrite = true) :
    Settles c [] (s.slot c).incoming s (s.handleEvent (arrival c [])) ∧
      hasFlag ((s.handleEvent (arrival c [])).slot c).flags .wantRead = true := by
  obtain ⟨hagree, hslot⟩ := handleWriteConnection_nil s c
  have hread : s.readStage (arrival c []) = s := readStage_skip hr
  have hwrite : s.writeStage (arrival c []) = s.handleWriteConnection c [] := writeStage_eq hw
  have hopen : hasFlag ((s.handleWriteConnection c []).slot c).flags .wantClose = false := by
    rw [hslot]
    exact (wantClose_reading _).trans hclose
  have hevent : s.handleEvent (arrival c []) = s.handleWriteConnection c [] := by
    rw [handleEvent_eq s (arrival c []) hrun hl h0, Server.handleConnection, hread, hwrite]
    exact closeStage_skip rfl hopen
  rw [hevent]
  refine ⟨⟨hagree, ⟨[], by simp, rfl, ?_⟩, ?_, ?_, ?_⟩, ?_⟩
  · rw [servedIn_flush, List.append_nil]
  · exact hagree.isActive.trans ha
  · rw [hslot]
  · rw [hslot]
    exact List.drop_length
  · rw [hslot]
    exact wantRead_reading _

/-- A connection that wants to read takes in what arrives, serves every frame of it, and writes
all it has then. -/
theorem handleEvent_takes (hrun : s.status = .running) (hl : c ≠ s.listenfd)
    (h0 : c ≠ STDIN_FILENO) (ha : hasFlag (s.slot c).flags .isActive = true)
    (hclose : hasFlag (s.slot c).flags .wantClose = false)
    (hr : hasFlag (s.slot c).flags .wantRead = true)
    (hw : hasFlag (s.slot c).flags .wantWrite = false)
    (hlegal : requestCut (requestFramer.leftover ((s.slot c).incoming ++ bs)) ≠ .stop) :
    Settles c (requestFramer.frames ((s.slot c).incoming ++ bs))
      (requestFramer.leftover ((s.slot c).incoming ++ bs)) s (s.handleEvent (arrival c bs)) := by
  obtain ⟨hbytes, hdrain⟩ := arrival_reads c bs
  have hchunks : (arrival c bs).script.reads = (bs.map fun b => [b]).map .bytes := by
    simp [arrival]
  have htook := handleEvent_tookIn s (arrival c bs) hrun hl h0 rfl rfl hchunks (by simp) hr hw
    hclose
  have hflat : (bs.map fun b => [b]).flatten = bs := by simp [← List.flatMap_def]
  rw [hflat] at htook
  cases htook with
  | closed hstop => exact absurd hstop hlegal
  | waiting _ hagree hincoming _ _ hopen =>
    have hstages : s.handleEvent (arrival c bs) =
        ((s.readStage (arrival c bs)).writeStage (arrival c bs)).closeStage (arrival c bs) :=
      handleEvent_eq s (arrival c bs) hrun hl h0
    have hstatus : ((s.readStage (arrival c bs)).writeStage (arrival c bs)).status = .running := by
      rw [← closeStage_status _ (arrival c bs), ← hstages]
      exact hagree.status.trans ((serveAll_frame _ _ _ _).1.trans hrun)
    have hmid := @stages_midway s (arrival c bs) ha hclose (fun _ => hw) hr hdrain
      (by rwa [hbytes]) (fun _ h => absurd h List.not_mem_nil) hstatus
    have hskip : s.handleEvent (arrival c bs) =
        (s.readStage (arrival c bs)).writeStage (arrival c bs) := by
      rw [hstages]
      exact closeStage_skip rfl hmid.stays
    have hread : s.readStage (arrival c bs) = s.handleReadConnection c (arrival c bs).script :=
      readStage_eq hr
    -- The read handler leaves the connection open, so every frame is answered.
    obtain ⟨u, hserved, hu⟩ := handleReadConnection_drained s c (arrival c bs).script hdrain
    rw [hbytes] at hserved
    have hkept : hasFlag ((s.handleReadConnection c (arrival c bs).script).slot c).flags
        .wantClose = false := by
      have hclosed := (hserved.waiting hlegal).trans hclose
      rw [hu]
      split
      · rw [Server.slot_setConnectionState_self]
        exact (wantClose_writing _).trans hclosed
      · exact hclosed
    obtain ⟨_, _, served, hanswers⟩ := handleReadConnection_answers hkept
    rw [hbytes] at hanswers
    refine ⟨hagree, ⟨served, hanswers.conn, hanswers.frames, ?_⟩, ?_, hincoming, ?_⟩
    · rw [hskip, hread, ← hanswers.log, Server.writeStage]
      split
      · exact servedIn_flush _ c
      · rfl
    · rw [hskip]
      exact hmid.active
    · rw [hskip]
      exact hmid.flushed List.not_mem_nil

end Events

/-! ## The bytes that were read -/

theorem requestsOn_eq (i : Nat) (log : List Entry) :
    requestsOn i log = ((servedIn log).filter fun r => r.conn = i).map Served.frame := by
  induction log with
  | nil => rfl
  | cons e log ih =>
    have hlog : requestsOn i (e :: log) = e.requestOn i ++ requestsOn i log := List.flatMap_cons
    have hserved : servedIn (e :: log) = e.servedIn ++ servedIn log := List.flatMap_cons
    rw [hlog, hserved, ih, List.filter_append, List.map_append]
    cases e with
    | sys k => rfl
    | served r =>
      rw [Entry.servedIn, Entry.requestOn, List.filter_singleton]
      by_cases hr : r.conn = i
      · simp [hr]
      · simp [hr]

theorem ServesFrames.requestsOn {c : Nat} {frames : List Bytes} {s t : Server}
    (h : ServesFrames c frames s t) (i : Nat) :
    requestsOn i t.log = requestsOn i s.log ++ if i = c then frames else [] := by
  obtain ⟨served, hconn, hframes, hlog⟩ := h
  rw [requestsOn_eq, hlog, List.filter_append, List.map_append, ← requestsOn_eq]
  congr 1
  split
  · rename_i hi
    rw [List.filter_eq_self.mpr fun r hr => decide_eq_true (hi ▸ hconn r hr), hframes]
  · rename_i hi
    have hnone : served.filter (fun r => r.conn = i) = [] := by
      rw [List.filter_eq_nil_iff]
      intro r hr hri
      exact hi ((of_decide_eq_true hri).symm.trans (hconn r hr))
    rw [hnone]
    rfl

/-- On the other connections nothing was read. -/
theorem ServesFrames.bytesRead_other {c d : Nat} {frames : List Bytes} {s t : Server}
    (h : ServesFrames c frames s t) (hd : d ≠ c) (hs : s.InputWhole d) (ht : t.InputWhole d)
    (hin : (t.slot d).incoming = (s.slot d).incoming) :
    bytesRead d t.log = bytesRead d s.log := by
  rw [ht, hs, h.requestsOn, if_neg hd, List.append_nil, hin]

theorem ServesFrames.bytesRead_self {c : Nat} {frames : List Bytes} {s t : Server} {bs : Bytes}
    (h : ServesFrames c frames s t) (hs : s.InputWhole c) (ht : t.InputWhole c)
    (hbytes : frames.flatten ++ (t.slot c).incoming = (s.slot c).incoming ++ bs) :
    bytesRead c t.log = bytesRead c s.log ++ bs := by
  rw [ht, hs, h.requestsOn, if_pos rfl, List.flatten_append, List.append_assoc, hbytes,
    List.append_assoc]

/-! ## Moves without a line -/

namespace Network

/-- No write of the client has failed, and both its threads are at work: the socket thread listens,
and the main thread has neither left its loop nor told the other to stop. -/
structure AtWork (p : Peer) : Prop where
  sends : p.failed = false
  listens : p.listening = true
  stays : p.quit = false
  untold : p.signalled = false

/-- The connection is open at the server, and its client at work. -/
structure Live (n : Network) (c : Nat) : Prop where
  isActive : hasFlag (n.server.slot c).flags .isActive = true
  atWork : AtWork (n.peer c)

/-- Something is to be done for the connection: these bytes have come for it, or it wants to write,
or its buffers hold something. -/
def Wanted (slot : Slot) (bs : Bytes) : Prop :=
  bs ≠ [] ∨ hasFlag slot.flags .wantWrite = true ∨ slot.incoming ≠ [] ∨ slot.outgoing ≠ []

/-- The moves that are due: the server handles the event of a connection for which something is to
be done, in which no call fails, or a client at work handles a message. Nobody types a line. -/
inductive Due (n : Network) : Network → Prop where
  | event (c : Nat) (bs : Bytes) : Wanted (n.server.slot c) bs →
      n.Move { n with server := n.server.iterate (.ready [arrival c bs]) } →
      Due n { n with server := n.server.iterate (.ready [arrival c bs]) }
  | message (c : Nat) (arrived rest : Bytes) (conn : Client) (notice : Notice) :
      AtWork (n.peer c) →
      n.Move (n.setPeer c ((n.peer c).afterMessage conn notice arrived rest)) →
      Due n (n.setPeer c ((n.peer c).afterMessage conn notice arrived rest))

theorem Due.move {n n' : Network} (h : n.Due n') : n.Move n' := by
  cases h with
  | event _ _ _ hmove => exact hmove
  | message _ _ _ _ _ _ hmove => exact hmove

/-- From `n` to `n'` the server went on by what was due, and no connection was lost. -/
structure Goes (n n' : Network) : Prop where
  due : Relation.ReflTransGen Due n n'
  running : n'.server.status = n.server.status
  typed : ∀ c, (n'.peer c).typed = (n.peer c).typed
  live : ∀ c, n.Live c → n'.Live c

theorem Goes.refl (n : Network) : n.Goes n := ⟨.refl, rfl, fun _ => rfl, fun _ h => h⟩

theorem Goes.moves {n n' : Network} (h : n.Goes n') : Moves n n' :=
  Relation.ReflTransGen.mono (fun _ _ => Due.move) _ _ h.due

theorem Goes.trans {n n' n'' : Network} (h : n.Goes n') (h' : n'.Goes n'') : n.Goes n'' :=
  ⟨h.due.trans h'.due, h'.running.trans h.running, fun c => (h'.typed c).trans (h.typed c),
    fun c hc => h'.live c (h.live c hc)⟩

/-- All that the client has sent is read, in whole requests. -/
def TakenIn (n : Network) (c : Nat) : Prop :=
  bytesRead c n.server.log = (n.peer c).sent ∧ (n.server.slot c).incoming = []

section Events

variable {capacity listenfd : Nat} {db : Db} {n : Network} {c : Nat}

/-- What is known of an open connection between two events. -/
structure Waits (s : Server) (c : Nat) : Prop where
  notListening : c ≠ s.listenfd
  notStdin : c ≠ STDIN_FILENO
  wantClose : hasFlag (s.slot c).flags .wantClose = false
  oneWay : OneWay (s.slot c).flags
  busy : Busy (s.slot c)

theorem Sound.waits (h : n.Sound capacity listenfd db) (hrun : n.server.status = .running)
    (hc : n.Live c) : Waits n.server c := by
  have hrest := h.reaches.atRest hrun c
  have hlisten : n.server.listenfd = listenfd :=
    (tidy_of_steps h.reaches.steps (tidy_boot _ _ _)).2
  have hopen : ∀ f : Prop, (f → (n.server.slot c).flags = .none) → ¬ f := fun f hf hyes => by
    have ha := hc.isActive
    rw [hf hyes, hasFlag_none] at ha
    cases ha
  exact ⟨hopen _ fun he => hrest.reserved (.inl (he.trans hlisten)),
    hopen _ fun he => hrest.reserved (.inr he), hrest.wantClose, hrest.oneWay,
    Steps.busy h.reaches.steps c⟩

/-- The server handles an arrival. -/
theorem Sound.handles (h : n.Sound capacity listenfd db) (hrun : n.server.status = .running)
    (hc : n.Live c) {bs : Bytes} {frames : List Bytes} {left : Bytes}
    (hwanted : Wanted (n.server.slot c) bs)
    (hset : Settles c frames left n.server (n.server.handleEvent (arrival c bs)))
    (hbytes : frames.flatten ++ left = (n.server.slot c).incoming ++ bs)
    (hsent : bytesRead c n.server.log ++ bs <+: (n.peer c).sent) :
    let n' : Network := { n with server := n.server.handleEvent (arrival c bs) }
    n.Goes n' ∧ bytesRead c n'.server.log = bytesRead c n.server.log ++ bs ∧
      ∀ d, d ≠ c → bytesRead d n'.server.log = bytesRead d n.server.log ∧
        (n'.server.slot d).incoming = (n.server.slot d).incoming := by
  intro n'
  have hwaits := h.waits hrun hc
  have hlegal : (Wait.ready [arrival c bs]).Legal n.server.listenfd := by
    simp [Wait.Legal, Event.Legal, arrival]
  have hreaches : Reaches (Server.boot capacity listenfd db) n'.server :=
    h.reaches.tail ⟨.ready [arrival c bs], hlegal, rfl⟩
  have hconnection : n'.server = n.server.handleConnection (arrival c bs) :=
    handleEvent_eq n.server (arrival c bs) hrun hwaits.notListening hwaits.notStdin
  have hbeside : ∀ d, d ≠ c → Beside d n.server n'.server := fun d hd => by
    rw [hconnection]
    exact (handleConnection_steps n.server (arrival c bs)).beside (Steps.tidy h.reaches.steps) hd
  have hself : bytesRead c n'.server.log = bytesRead c n.server.log ++ bs :=
    hset.serves.bytesRead_self (h.reaches.steps.whole c).2 (hreaches.steps.whole c).2
      (hset.incoming.symm ▸ hbytes)
  have hother : ∀ d, d ≠ c → bytesRead d n'.server.log = bytesRead d n.server.log := fun d hd =>
    hset.serves.bytesRead_other hd (h.reaches.steps.whole d).2 (hreaches.steps.whole d).2
      (hbeside d hd).incoming
  have hmove : n.Move n' := by
    refine .serve (.ready [arrival c bs]) hlegal fun d => ?_
    by_cases hd : d = c
    · subst hd
      exact (show bytesRead d n'.server.log <+: _ from hself ▸ hsent)
    · exact (show bytesRead d n'.server.log <+: _ from hother d hd ▸ h.delivered d)
  refine ⟨⟨.single (.event c bs hwanted hmove), ?_, fun _ => rfl,
    fun d hd => ⟨?_, hd.atWork⟩⟩, hself,
    fun d hd => ⟨hother d hd, (hbeside d hd).incoming⟩⟩
  · exact hset.agree.status.trans (serveAll_frame _ _ _ _).1
  · by_cases hdc : d = c
    · exact hdc ▸ hset.isActive
    · exact (hbeside d hdc).active_iff.mpr hd.isActive

theorem Sound.moves {n' : Network} (h : n.Sound capacity listenfd db) (hmoves : Moves n n') :
    n'.Sound capacity listenfd db := by
  induction hmoves with
  | refl => exact h
  | tail _ hmove ih => exact hmove.sound ih

theorem TakenIn.congr {n' : Network} (h : n.TakenIn c)
    (hread : bytesRead c n'.server.log = bytesRead c n.server.log)
    (hin : (n'.server.slot c).incoming = (n.server.slot c).incoming)
    (hsent : (n'.peer c).sent = (n.peer c).sent) : n'.TakenIn c :=
  ⟨hread.trans (h.1.trans hsent.symm), hin.trans h.2⟩

/-- The server turns to reading on the connection. -/
theorem Sound.wakes (h : n.Sound capacity listenfd db) (hrun : n.server.status = .running)
    (hc : n.Live c) : ∃ n', n.Goes n' ∧ n'.peer = n.peer ∧
      hasFlag (n'.server.slot c).flags .wantRead = true ∧ ∀ d, n.TakenIn d → n'.TakenIn d := by
  cases hr : hasFlag (n.server.slot c).flags .wantRead with
  | true => exact ⟨n, .refl n, rfl, hr, fun _ hd => hd⟩
  | false =>
    have hwaits := h.waits hrun hc
    have hw : hasFlag (n.server.slot c).flags .wantWrite = true :=
      (hwaits.busy hc.isActive).resolve_left fun hr' => absurd (hr.symm.trans hr') (by decide)
    obtain ⟨hset, hread⟩ := handleEvent_flushes hrun hwaits.notListening hwaits.notStdin
      hc.isActive hwaits.wantClose hr hw
    obtain ⟨hgoes, hself, hother⟩ := h.handles hrun hc (.inr (.inl hw)) hset
      (List.append_nil _).symm (by rw [List.append_nil]; exact h.delivered c)
    refine ⟨_, hgoes, rfl, hread, fun d hd => ?_⟩
    by_cases hdc : d = c
    · subst hdc
      exact hd.congr (hself.trans (List.append_nil _)) hset.incoming rfl
    · exact hd.congr (hother d hdc).1 (hother d hdc).2 rfl

/-- Nothing is left of a stream of requests. -/
theorem leftover_stream (asks : List Ask) : requestFramer.leftover (Ask.stream asks) = [] := by
  induction asks with
  | nil => exact requestFramer.leftover_eq_self fun n hn => by cases hn
  | cons q asks ih =>
    have hcut : requestFramer.cut (q.frame ++ Ask.stream asks) = .take q.frame.length :=
      q.requestCut_frame_append (Ask.stream asks)
    show requestFramer.leftover (q.frame ++ Ask.stream asks) = []
    rw [requestFramer.leftover_take hcut, List.drop_left, ih]

/-- All that a client has sent arrives, and is taken in. -/
theorem Sound.takes_in (h : n.Sound capacity listenfd db) (hrun : n.server.status = .running)
    (hc : n.Live c) : ∃ n', n.Goes n' ∧ n'.TakenIn c ∧ ∀ d, n.TakenIn d → n'.TakenIn d := by
  obtain ⟨m, hgoes, hpeer, hr, htaken⟩ := h.wakes hrun hc
  have hsound := h.moves hgoes.moves
  have hrun' : m.server.status = .running := hgoes.running.trans hrun
  have hlive := hgoes.live c hc
  have hwaits := hsound.waits hrun' hlive
  obtain ⟨served, waiting, flying, htyped, hserved, hsent, _, hwhole⟩ := hsound.requests c
  have hstream := hwhole hlive.atWork.sends
  have hleft : requestFramer.leftover ((m.server.slot c).incoming ++ flying) = [] := by
    rw [hstream, leftover_stream]
  have hlegal :
      requestCut (requestFramer.leftover ((m.server.slot c).incoming ++ flying)) ≠ .stop := by
    rw [hleft]; decide
  -- With nothing on its way and nothing in the buffer there is no event.
  by_cases hidle : flying = [] ∧ (m.server.slot c).incoming = []
  · refine ⟨m, hgoes, ⟨?_, hidle.2⟩, htaken⟩
    rw [hsent, hidle.1, List.append_nil]
  have hwanted : Wanted (m.server.slot c) flying := by
    obtain hne | hne := not_and_or.mp hidle
    · exact .inl hne
    · exact .inr (.inr (.inl hne))
  have hset := handleEvent_takes hrun' hwaits.notListening hwaits.notStdin hlive.isActive
    hwaits.wantClose hr (hwaits.oneWay hr) hlegal
  obtain ⟨hgoes', hself, hother⟩ := hsound.handles hrun' hlive hwanted hset
    (requestFramer.flatten_frames _) (hsent ▸ List.prefix_rfl)
  refine ⟨_, hgoes.trans hgoes', ⟨hself.trans hsent.symm, hset.incoming.trans hleft⟩,
    fun d hd => ?_⟩
  by_cases hdc : d = c
  · subst hdc
    exact ⟨hself.trans hsent.symm, hset.incoming.trans hleft⟩
  · exact (htaken d hd).congr (hother d hdc).1 (hother d hdc).2 rfl

/-- With nothing to take in, what is queued for a connection is written, and nothing new is
queued for any other. -/
theorem Sound.flushes (h : n.Sound capacity listenfd db) (hrun : n.server.status = .running)
    (hc : n.Live c) (hin : (n.server.slot c).incoming = []) :
    ∃ n', n.Goes n' ∧ (n'.server.slot c).outgoing = [] ∧ (∀ d, n.TakenIn d → n'.TakenIn d) ∧
      ∀ d, (n.server.slot d).outgoing = [] → (n'.server.slot d).outgoing = [] := by
  by_cases hout : (n.server.slot c).outgoing = []
  · exact ⟨n, .refl n, hout, fun _ => id, fun _ => id⟩
  have hwaits := h.waits hrun hc
  have hset : Settles c [] [] n.server (n.server.handleEvent (arrival c [])) := by
    cases hr : hasFlag (n.server.slot c).flags .wantRead with
    | true =>
      have hnone : (n.server.slot c).incoming ++ [] = Ask.stream [] := by rw [hin]; rfl
      have hleft : requestFramer.leftover ((n.server.slot c).incoming ++ []) = [] := by
        rw [hnone, leftover_stream]
      have htakes := @handleEvent_takes _ c [] hrun hwaits.notListening hwaits.notStdin
        hc.isActive hwaits.wantClose hr (hwaits.oneWay hr) (by rw [hleft]; decide)
      have hframes : requestFramer.frames ((n.server.slot c).incoming ++ []) = [] := by
        rw [hnone]
        exact requestFramer.frames_eq_nil fun n hn => by cases hn
      rwa [hleft, hframes] at htakes
    | false =>
      have hw : hasFlag (n.server.slot c).flags .wantWrite = true :=
        (hwaits.busy hc.isActive).resolve_left fun hr' => absurd (hr.symm.trans hr') (by decide)
      have hflushes := (handleEvent_flushes hrun hwaits.notListening hwaits.notStdin hc.isActive
        hwaits.wantClose hr hw).1
      rwa [hin] at hflushes
  obtain ⟨hgoes, hself, hother⟩ := h.handles hrun hc (.inr (.inr (.inr hout))) hset
    (by rw [hin]; rfl)
    (by rw [List.append_nil]; exact h.delivered c)
  refine ⟨_, hgoes, hset.outgoing, fun d hd => ?_, fun d hd => ?_⟩
  · by_cases hdc : d = c
    · subst hdc
      exact hd.congr (hself.trans (List.append_nil _)) (hset.incoming.trans hin.symm) rfl
    · exact hd.congr (hother d hdc).1 (hother d hdc).2 rfl
  · by_cases hdc : d = c
    · exact hdc ▸ hset.outgoing
    · have hslot := hset.agree.slot d hdc
      exact (congrArg Slot.outgoing hslot).trans hd

/-- A reply that has arrived whole is read and acted on. -/
theorem handleServerResponse_wire {p : Reply} (hp : p.Fits) (conn : Client) (rest : Bytes) :
    conn.handleServerResponse [] [] (p.wire ++ rest) =
      .handled (conn.told p).1 (conn.told p).2 [] rest := by
  have hnone : ∀ need, spent need [] = [] ∧ unspent need [] = [] := fun need => by
    cases need <;> exact ⟨rfl, rfl⟩
  have hread := @readOneMessage_wire p.message rest [] p.whole
    (fun _ he => absurd he List.not_mem_nil) (by simp [hnone]) []
  rw [(hnone MSG_HEADER_SIZE).2, (hnone _).2] at hread
  rw [Client.handleServerResponse, show p.wire = p.message.wire from rfl, hread]
  simp only [handleResponse_reply hp (readOneMessage_first p.whole List.prefix_rfl hread).1]

/-- A client at work handles a message that has arrived, and is at work then. -/
theorem goes_message {conn : Client} {notice : Notice} {sched : List Transfer}
    {arrived rest : Bytes} (hc : AtWork (n.peer c))
    (harrived : (n.peer c).read ++ arrived <+: bytesWritten c n.server.log)
    (hcall : (n.peer c).conn.handleServerResponse [] [] arrived =
      .handled conn notice sched rest) :
    n.Goes (n.setPeer c ((n.peer c).afterMessage conn notice arrived rest)) := by
  have huntold : (n.peer c).signalled = true → (n.peer c).late = false := fun hs =>
    absurd (hc.untold.symm.trans hs) (by decide)
  have hmove :=
    Move.message c [] [] sched arrived rest conn notice hc.listens huntold harrived hcall
  refine ⟨.single (.message c arrived rest conn notice hc hmove), rfl,
    setPeer_all (P := fun d q => q.typed = (n.peer d).typed) rfl fun _ => rfl,
    fun d hd => ⟨hd.isActive, ?_⟩⟩
  have hself : AtWork (n.peer c) →
      AtWork ((n.peer c).afterMessage conn notice arrived rest) := fun hw =>
    ⟨hw.sends, hw.listens, hw.stays, hw.untold⟩
  exact setPeer_all (P := fun d q => AtWork (n.peer d) → AtWork q) hself (fun _ => id) d hd.atWork

/-- A client that listens takes the replies that were written to it, one after another. -/
theorem Sound.reads (h : n.Sound capacity listenfd db) (hc : n.Live c)
    (hout : (n.server.slot c).outgoing = []) :
    ∃ n', n.Goes n' ∧ n'.server = n.server ∧ (n'.peer c).read = n.server.emitted c ∧
      ∀ d, d ≠ c → n'.peer d = n.peer d := by
  obtain ⟨ps, hps, hframes⟩ := h.reaches.steps.framesFor_replies c
  obtain ⟨done, ⟨left, rfl⟩, hread⟩ := h.follows c ps hps hframes
  have hwritten : bytesWritten c n.server.log = n.server.emitted c := by
    rw [Server.emitted, hout, List.append_nil]
  have hall : (n.peer c).read ++ (left.map Reply.wire).flatten = n.server.emitted c := by
    rw [(h.reaches.steps.whole c).1.1, hframes, List.map_append, List.flatten_append, hread.read]
  have hleft : ∀ p ∈ left, p.Fits := fun p hp => hps p (List.mem_append_right _ hp)
  clear hps hframes hread
  induction left generalizing n with
  | nil => exact ⟨n, .refl n, rfl, (List.append_nil _).symm.trans hall, fun _ _ => rfl⟩
  | cons p left ih =>
    -- The next reply has arrived whole, so the call that reads it returns.
    have harrived : (n.peer c).read ++ (p.wire ++ (left.map Reply.wire).flatten) <+:
        bytesWritten c n.server.log := by
      rw [hwritten, ← hall]
      exact List.prefix_rfl
    have hcall := handleServerResponse_wire (hleft p List.mem_cons_self) (n.peer c).conn
      (left.map Reply.wire).flatten
    obtain ⟨taken, hgoes, hfront⟩ : ∃ taken : Peer, n.Goes (n.setPeer c taken) ∧
        taken.read = (n.peer c).read ++ p.wire :=
      ⟨_, goes_message hc.atWork harrived hcall, by simp [Peer.afterMessage]⟩
    have hnext : ((n.setPeer c taken).peer c).read ++ (left.map Reply.wire).flatten =
        n.server.emitted c := by
      rw [← hall]
      simp [setPeer, hfront]
    obtain ⟨n', hgoes', hserver, hread, hothers⟩ := ih (h.moves hgoes.moves) (hgoes.live c hc)
      hout hwritten hnext fun q hq => hleft q (List.mem_cons_of_mem _ hq)
    refine ⟨n', hgoes.trans hgoes', hserver, hread, fun d hd => (hothers d hd).trans ?_⟩
    simp [setPeer, hd]

/-- With nothing in its buffer and nothing on its way, all that was typed has been served. -/
theorem Sound.all_served (h : n.Sound capacity listenfd db) (hok : (n.peer c).failed = false)
    (ht : n.TakenIn c) :
    List.Forall₂ (Ask.Becomes c) (n.peer c).typed (Chat.requestsOf c n.server.events) := by
  obtain ⟨served, waiting, flying, htyped, hserved, hsent, _, hwhole⟩ := h.requests c
  have hflying : flying = [] := by
    rw [ht.1] at hsent
    exact List.self_eq_append_right.mp hsent
  have hstream := hwhole hok
  rw [ht.2, hflying] at hstream
  have hwaiting : waiting = [] := by
    cases waiting with
    | nil => rfl
    | cons q waiting =>
      have hempty : q.frame ++ Ask.stream waiting = [] := hstream.symm
      exact absurd (List.append_eq_nil_iff.mp hempty).1 q.frame_ne_nil
  rw [hwaiting, List.append_nil] at htyped
  rw [htyped]
  exact h.becomes (htyped.trans (List.append_nil _).symm) hserved

end Events

/-! ## One connection after another -/

/-- What can be reached for each, and is kept while the others reach it, can be reached for all. -/
theorem one_by_one {L : Nat → Prop} {P : Nat → Network → Prop} {I : Network → Prop}
    (hstep : ∀ m c, I m → L c → ∃ m', I m' ∧ P c m' ∧ ∀ d, P d m → P d m') (cs : List Nat)
    {n : Network} (hn : I n) : ∃ n', I n' ∧ ∀ c, L c → P c n ∨ c ∈ cs → P c n' := by
  induction cs generalizing n with
  | nil => exact ⟨n, hn, fun c _ hc => hc.resolve_right List.not_mem_nil⟩
  | cons c cs ih =>
    by_cases hc : L c
    · obtain ⟨m, hm, hself, hkeep⟩ := hstep n c hn hc
      obtain ⟨n', hn', hall⟩ := ih hm
      refine ⟨n', hn', fun d hd hcase => hall d hd ?_⟩
      obtain hd' | hd' := hcase
      · exact .inl (hkeep d hd')
      · obtain rfl | hd' := List.mem_cons.mp hd'
        · exact .inl hself
        · exact .inr hd'
    · obtain ⟨n', hn', hall⟩ := ih hn
      refine ⟨n', hn', fun d hd hcase => hall d hd (hcase.imp_right fun hd' => ?_)⟩
      exact (List.mem_cons.mp hd').resolve_left fun hdc => hc (hdc ▸ hd)

section Finish

variable {capacity listenfd : Nat} {db : Db} {n : Network} {L : Nat → Prop}

/-- The open connections are in the table. -/
theorem Sound.one_by_one (h : n.Sound capacity listenfd db) (hlive : ∀ c, L c → n.Live c)
    {P : Nat → Network → Prop} {I : Network → Prop}
    (hstep : ∀ m c, I m → L c → ∃ m', I m' ∧ P c m' ∧ ∀ d, P d m → P d m') (hn : I n) :
    ∃ n', I n' ∧ ∀ c, L c → P c n' := by
  obtain ⟨n', hn', hall⟩ := Network.one_by_one hstep (List.range n.server.getSize) hn
  refine ⟨n', hn', fun c hc => hall c hc (.inr (List.mem_range.mpr ?_))⟩
  exact (Steps.tidy h.reaches.steps).lt_size (hlive c hc).isActive

/-- Everything that was sent is taken in. -/
theorem Sound.takes_all_in (h : n.Sound capacity listenfd db) (hrun : n.server.status = .running)
    (hlive : ∀ c, L c → n.Live c) : ∃ m, n.Goes m ∧ ∀ c, L c → m.TakenIn c := by
  refine h.one_by_one hlive (P := fun c m => m.TakenIn c) (I := n.Goes) (fun m c hm hc => ?_)
    (.refl n)
  obtain ⟨m', hgoes, hself, hkeep⟩ :=
    (h.moves hm.moves).takes_in (hm.running.trans hrun) (hm.live c (hlive c hc))
  exact ⟨m', hm.trans hgoes, hself, hkeep⟩

/-- Then everything that is queued is written, and nothing more is queued. -/
theorem Sound.flushes_all (h : n.Sound capacity listenfd db) (hrun : n.server.status = .running)
    (hlive : ∀ c, L c → n.Live c) (htaken : ∀ c, L c → n.TakenIn c) :
    ∃ m, (n.Goes m ∧ ∀ c, L c → m.TakenIn c) ∧ ∀ c, L c → (m.server.slot c).outgoing = [] := by
  refine h.one_by_one hlive (P := fun c m => (m.server.slot c).outgoing = [])
    (I := fun m => n.Goes m ∧ ∀ c, L c → m.TakenIn c) (fun m c hm hc => ?_) ⟨.refl n, htaken⟩
  obtain ⟨m', hgoes, hself, hkeep, hothers⟩ := (h.moves hm.1.moves).flushes
    (hm.1.running.trans hrun) (hm.1.live c (hlive c hc)) (hm.2 c hc).2
  exact ⟨m', ⟨hm.1.trans hgoes, fun d hd => hkeep d (hm.2 d hd)⟩, hself, hothers⟩

/-- Then everything that was written is read. -/
theorem Sound.reads_all (h : n.Sound capacity listenfd db) (hlive : ∀ c, L c → n.Live c)
    (hout : ∀ c, L c → (n.server.slot c).outgoing = []) :
    ∃ m, (n.Goes m ∧ m.server = n.server) ∧ ∀ c, L c → (m.peer c).read = m.server.emitted c := by
  refine h.one_by_one hlive (P := fun c m => (m.peer c).read = m.server.emitted c)
    (I := fun m => n.Goes m ∧ m.server = n.server) (fun m c hm hc => ?_) ⟨.refl n, rfl⟩
  obtain ⟨m', hgoes, hserver, hread, hothers⟩ :=
    (h.moves hm.1.moves).reads (hm.1.live c (hlive c hc)) (hm.2.symm ▸ hout c hc)
  have hself : (m'.peer c).read = m'.server.emitted c := hserver.symm ▸ hread
  refine ⟨m', ⟨hm.1.trans hgoes, hserver.trans hm.2⟩, hself, fun d hd => ?_⟩
  by_cases hdc : d = c
  · exact hdc ▸ hself
  · rw [hothers d hdc, hserver]
    exact hd

end Finish

/-- Nothing is ever stuck: while the server runs, the network can go on, by moves that are due, to a
state in which, for every open connection whose client has neither quit nor stopped reading nor
failed to write, all requests are served as they were typed and all replies are read. -/
theorem can_finish {capacity listenfd : Nat} {db : Db} {n : Network}
    (h : Moves (boot capacity listenfd db) n) (hrun : n.server.status = .running) :
    ∃ n', Relation.ReflTransGen Due n n' ∧ (∀ c, (n'.peer c).typed = (n.peer c).typed) ∧
      ∀ c, n.Live c →
        List.Forall₂ (Ask.Becomes c) (n.peer c).typed (Chat.requestsOf c n'.server.events) ∧
          (n'.peer c).read = n'.server.emitted c := by
  have hsound := Moves.sound h
  obtain ⟨n₁, hgoes₁, htaken₁⟩ := hsound.takes_all_in hrun fun _ hc => hc
  have hsound₁ := hsound.moves hgoes₁.moves
  obtain ⟨n₂, ⟨hgoes₂, htaken₂⟩, hout⟩ :=
    hsound₁.flushes_all (hgoes₁.running.trans hrun) hgoes₁.live htaken₁
  have hsound₂ := hsound₁.moves hgoes₂.moves
  obtain ⟨n₃, ⟨hgoes₃, hserver⟩, hread⟩ := hsound₂.reads_all (hgoes₁.trans hgoes₂).live hout
  have hgoes := (hgoes₁.trans hgoes₂).trans hgoes₃
  refine ⟨n₃, hgoes.due, hgoes.typed, fun c hc => ⟨?_, hread c hc⟩⟩
  rw [hserver, ← (hgoes₁.trans hgoes₂).typed c]
  exact hsound₂.all_served ((hgoes₁.trans hgoes₂).live c hc).atWork.sends (htaken₂ c hc)

/-- In the middle of the run of client 5 both replies are still to be read. -/
theorem can_finish_served : (served.peer 5).read = [] ∧
    ∃ n', Relation.ReflTransGen Due served n' ∧ (n'.peer 5).read = n'.server.emitted 5 := by
  obtain ⟨n', hdue, _, hall⟩ := can_finish moves_served (by decide +kernel)
  have hlive : served.Live 5 := ⟨by decide +kernel,
    by decide +kernel, by decide +kernel, by decide +kernel, by decide +kernel⟩
  exact ⟨by decide +kernel, n', hdue, (hall 5 hlive).2⟩

end Network

end ChatServer
