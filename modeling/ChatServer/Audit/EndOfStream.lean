import ChatServer.Audit.OutputStream
import ChatServer.Audit.Segmentation

/-!
# Requests before the end of the stream

The requests served on a connection are the frames of the bytes read from it, as far
as its incoming buffer has been worked off. When the end of the stream is read, the
buffer is dropped as it is, together with the frames that were read just before.
-/

namespace ChatServer

open EdgeTrigger (Errno Rv Interest Syscall)

/-! ## The stream of a connection -/

/-- What has been read divides into the requests served and the frames still buffered. -/
structure Server.Framed (s : Server) (i : Nat) : Prop where
  frames : requestFramer.frames (bytesRead i s.log) =
    requestsOn i s.log ++ requestFramer.frames (s.slot i).incoming
  leftover : requestFramer.leftover (bytesRead i s.log) =
    requestFramer.leftover (s.slot i).incoming

theorem Step.framed {c : Nat} {s t : Server} (hst : Step c s t) (hs : Tidy s) {i : Nat}
    (hf : s.Framed i) : t.Framed i := by
  rcases hst.input hs i with ⟨hr, hq, hslot⟩ | ⟨d, hr, hq, hslot⟩ | ⟨n, hcut, hr, hq, hslot⟩
  · constructor
    · rw [hr, hq, hslot, hf.frames]
    · rw [hr, hslot, hf.leftover]
  · constructor
    · rw [hr, hq, hslot, requestFramer.frames_append, hf.frames, hf.leftover, List.append_assoc,
        ← requestFramer.frames_append]
    · rw [hr, hslot, requestFramer.leftover_append, hf.leftover, ← requestFramer.leftover_append]
  · constructor
    · rw [hr, hq, hslot, hf.frames, requestFramer.frames_take hcut, List.append_assoc]
      rfl
    · rw [hr, hslot, hf.leftover, requestFramer.leftover_take hcut]

theorem Steps.framed {capacity listenfd : Nat} {db : Db} {s : Server}
    (h : Steps (Server.boot capacity listenfd db) s) (i : Nat) : s.Framed i := by
  have hnil : requestFramer.frames [] = [] :=
    requestFramer.frames_eq_nil fun n hn => absurd (requestFramer.take_le hn)
      (Nat.not_le.mpr (requestFramer.take_pos hn))
  have hinv : Tidy s ∧ s.Framed i := by
    refine h.preserves (P := fun s => Tidy s ∧ s.Framed i) ?_ ⟨tidy_boot _ _ _, ?_, rfl⟩
    · rintro c s t hst ⟨hs, hf⟩
      exact ⟨hs.step hst, hst.framed hs hf⟩
    · exact hnil.trans (hnil.symm.trans rfl)
  exact hinv.2

/-- Every complete frame read from the connection, up to the first that announces too
large a payload, has been served. -/
def Server.ServedWhole (s : Server) (c : Nat) : Prop :=
  requestsOn c s.log = requestFramer.frames (bytesRead c s.log)

/-! ## The notification that ends the stream -/

/-- The reads return the chunks and then the end of the stream. -/
def eofEvent (c : Nat) (chunks : List Bytes) (sql : List SqlOutcome) : Event :=
  ⟨c, false, { reads := chunks.map .bytes ++ [.bytes []], sql := sql }⟩

/-- The reads return the chunks and then `EAGAIN`. -/
def dataEvent (c : Nat) (chunks : List Bytes) (sql : List SqlOutcome) : Event :=
  ⟨c, false, { reads := chunks.map .bytes, sql := sql }⟩

section Eof

variable {c : Nat} {s : Server} {chunks : List Bytes}

/-- At the end of the stream the connection is removed, and nothing is served. -/
theorem handleEvent_eof (hrun : s.status = .running) (hl : c ≠ s.listenfd)
    (h0 : c ≠ STDIN_FILENO) (hne : ∀ d ∈ chunks, d ≠ [])
    (hread : hasFlag (s.slot c).flags .wantRead = true)
    (hwrite : hasFlag (s.slot c).flags .wantWrite = false) (sql : List SqlOutcome) :
    ∃ t, Agree c s t ∧ (t.slot c).incoming = (s.slot c).incoming ++ chunks.flatten ∧
      s.handleEvent (eofEvent c chunks sql) = t.removeConnection c := by
  obtain ⟨hbytes, hdrain⟩ : readBytes (chunks.map .bytes ++ [.bytes []]) = chunks.flatten ∧
      readDrains (chunks.map .bytes ++ [.bytes []]) = false := by
    simpa [readBytes, readDrains] using readBytes_chunks hne [.bytes []]
  have hslot := slot_readAvailable s c (chunks.map .bytes ++ [.bytes []]) c
  have hagree := agree_readAvailable c s (chunks.map .bytes ++ [.bytes []])
  rw [if_pos rfl, hbytes, hdrain] at hslot
  have hstage : s.readStage (eofEvent c chunks sql) =
      s.handleReadConnection c (eofEvent c chunks sql).script := if_pos hread
  rw [handleEvent_eq s _ hrun hl h0, Server.handleConnection, hstage]
  unfold Server.handleReadConnection
  simp only [eofEvent, readAvailable_drained, hdrain, Bool.not_false, ↓reduceIte]
  generalize (s.readAvailable c (chunks.map .bytes ++ [.bytes []])).1 = t at hslot hagree ⊢
  have hflags : (t.slot c).flags = ConnState.closing.nextFlags (s.slot c).flags := by
    rw [hslot]
    rfl
  refine ⟨t, hagree, by rw [hslot], ?_⟩
  rw [writeStage_skip (by rw [hflags]; exact (wantWrite_closing _).trans hwrite)]
  exact closeStage_eq (hagree.status.trans hrun)
    (.inr (by rw [hflags]; exact wantClose_closing _))

end Eof

/-- What was sent before the end of the stream takes effect: every complete frame is
served, and the outcome is as if the end had arrived in a later notification. -/
def EndsServed (s : Server) (c : Nat) (chunks : List Bytes) (sql : List SqlOutcome) : Prop :=
  (s.handleEvent (eofEvent c chunks sql)).ServedWhole c ∧
    SameOutcome ((s.handleEvent (dataEvent c chunks sql)).handleEvent (eofEvent c [] []))
      (s.handleEvent (eofEvent c chunks sql))

/-- **Requests before the end of the stream** are served exactly if no complete frame of
legal size is left unserved when the end of the stream is read. -/
theorem end_of_stream_served {capacity listenfd : Nat} {db : Db} {s : Server}
    (h : Reaches (Server.boot capacity listenfd db) s) (hrun : s.status = .running) {c : Nat}
    (hread : hasFlag (s.slot c).flags .wantRead = true) {chunks : List Bytes}
    (hne : ∀ d ∈ chunks, d ≠ []) (sql : List SqlOutcome) :
    EndsServed s c chunks sql ↔
      ∀ n, requestCut ((s.slot c).incoming ++ chunks.flatten) ≠ .take n := by
  obtain ⟨hl, h0, hwrite, hclose⟩ := h.reading hrun hread
  obtain ⟨t, hagree, hin, heof⟩ := handleEvent_eof hrun hl h0 hne hread hwrite sql
  have hframed : (t.removeConnection c).Framed c := by
    rw [← heof]
    exact Steps.framed (h.steps.trans (handleEvent_steps s _)) c
  have hbuffer : ((t.removeConnection c).slot c).incoming =
      (s.slot c).incoming ++ chunks.flatten := by
    rw [slot_removeConnection, if_pos rfl]
    exact hin
  have hframes := hframed.frames
  rw [hbuffer] at hframes
  rw [EndsServed, heof, Server.ServedWhole, hframes]
  constructor
  · rintro ⟨hwhole, _⟩
    have hnil : requestFramer.frames ((s.slot c).incoming ++ chunks.flatten) = [] :=
      List.append_right_eq_self.mp hwhole.symm
    exact requestFramer.frames_eq_nil_iff.mp hnil
  · intro hcut
    have hnil := requestFramer.frames_eq_nil hcut
    refine ⟨by rw [hnil, List.append_nil], ?_⟩
    have htook := handleEvent_tookIn s (dataEvent c chunks sql) hrun hl h0 rfl rfl rfl hne hread
      hwrite hclose
    rw [show (dataEvent c chunks sql).fd = c from rfl, hnil] at htook
    generalize s.handleEvent (dataEvent c chunks sql) = u at htook ⊢
    cases htook with
    | waiting _ hu _ hread' hwrite' _ =>
      have hnone : ∀ d ∈ ([] : List Bytes), d ≠ [] := by simp
      obtain ⟨v, hv, _, heof'⟩ := handleEvent_eof (hu.status.trans hrun)
        (by rw [hu.listenfd]; exact hl) h0 hnone hread' hwrite' []
      rw [heof']
      exact ((hu.trans hv).symm.trans hagree).sameOutcome.removeConnection c
    | @closed v _ hv hu =>
      subst hu
      have hstay : (v.removeConnection c).handleEvent (eofEvent c [] []) =
          v.removeConnection c :=
        handleEvent_removed v (eofEvent c [] []) (hv.status.trans hrun)
          (by exact hv.listenfd ▸ hl) h0 rfl
      rw [hstay]
      exact (hv.symm.trans hagree).sameOutcome.removeConnection c

/-- A partial frame before the end of the stream loses nothing. -/
theorem end_of_stream_served_partial : EndsServed (accepted 8) 5 [[1, 0, 0]] [] := by
  refine (end_of_stream_served (reaches_accepted 8) ?_ ?_ ?_ []).mpr ?_
  · decide +kernel
  · decide +kernel
  · decide
  · have hmore : requestCut (((accepted 8).slot 5).incoming ++ [[1, 0, 0]].flatten) = .more := by
      decide +kernel
    rw [hmore]
    simp

/-- A registration of `a`, read in the same loop as the end of the stream, is lost; read in
an earlier notification it takes effect. -/
theorem end_of_stream_lost :
    let s := accepted INITIAL_CAPACITY
    let chunks : List Bytes := [[1, 0, 0, 0, 0, 0, 6, 0, 1, 97, 1, 1, 98]]
    Reaches (Server.boot INITIAL_CAPACITY 3 .empty) s ∧ s.status = .running ∧
      hasFlag (s.slot 5).flags .wantRead = true ∧ ¬ EndsServed s 5 chunks [] ∧
      (s.handleEvent (eofEvent 5 chunks [])).db.rows.length = 0 ∧
      ((s.handleEvent (dataEvent 5 chunks [])).handleEvent (eofEvent 5 [] [])).db.rows.length =
        1 := by
  intro s chunks
  have hrows : (s.handleEvent (eofEvent 5 chunks [])).db.rows.length = 0 := by decide +kernel
  have hlater : ((s.handleEvent (dataEvent 5 chunks [])).handleEvent
      (eofEvent 5 [] [])).db.rows.length = 1 := by decide +kernel
  refine ⟨reaches_accepted _, by decide +kernel, by decide +kernel, ?_, hrows, hlater⟩
  rintro ⟨_, hsame⟩
  have hlength := congrArg (fun db : Db => db.rows.length) hsame.db
  exact absurd (hrows.symm.trans (hlength.trans hlater)) (by decide)

end ChatServer
