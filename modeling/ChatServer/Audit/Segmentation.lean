import ChatServer.Audit.Intake

/-!
# Segmentation independence

How a stream was divided into notifications, and each of those into reads, makes no
difference to what comes of it.
-/

namespace ChatServer

open EdgeTrigger (Errno Rv Interest Syscall)

/-! ## Many notifications -/

/-- A notification for `c` whose reads return the chunks and then `EAGAIN`; all writes
complete, and the SQLite calls succeed. -/
def Server.notify (s : Server) (c : Nat) (chunks : List Bytes) : Server :=
  s.handleEvent ⟨c, false, { reads := chunks.map .bytes }⟩

section Pieces

variable {c : Nat} {s t u : Server} {b : Bytes}

theorem TookIn.congr {u' : Server} {b' : Bytes} (h : TookIn c u b t) (hu : Agree c u' u)
    (hb : requestFramer.leftover b' = requestFramer.leftover b) : TookIn c u' b' t := by
  cases h with
  | waiting h1 h2 h3 h4 h5 h6 => exact .waiting (hb ▸ h1) (hu.trans h2) (hb ▸ h3) h4 h5 h6
  | closed h1 h2 h3 => exact .closed (hb ▸ h1) (hu.trans h2) h3

/-- What arrives later is taken in from where the earlier notifications stopped. -/
theorem TookIn.notify (h : TookIn c u b t) (hrun : u.status = .running) (hl : c ≠ u.listenfd)
    (h0 : c ≠ STDIN_FILENO) {chunks : List Bytes} (hne : ∀ d ∈ chunks, d ≠ []) :
    TookIn c (u.serveAll c (requestFramer.frames (requestFramer.leftover b ++ chunks.flatten)) [])
      (b ++ chunks.flatten) (t.notify c chunks) := by
  have hleft := requestFramer.leftover_append b chunks.flatten
  cases h with
  | waiting hcut hagree hin hread hwrite hclose =>
    have hnext := handleEvent_tookIn t ⟨c, false, { reads := chunks.map .bytes }⟩
      (hagree.status.trans hrun) (hagree.listenfd ▸ hl) h0 rfl rfl rfl hne hread hwrite hclose
    simp only [hin] at hnext
    exact hnext.congr (hagree.serveAll _ _) hleft
  | @closed v hcut hagree ht =>
    subst ht
    have hstay : (v.removeConnection c).notify c chunks = v.removeConnection c :=
      handleEvent_removed v _ (hagree.status.trans hrun) (by exact hagree.listenfd ▸ hl) h0 rfl
    have hstop := requestFramer.leftover_of_stop hcut chunks.flatten
    rw [hstay, requestFramer.frames_of_stop hcut]
    refine .closed ?_ hagree rfl
    rw [hleft, hstop]
    exact requestFramer.stop_append hcut chunks.flatten

theorem TookIn.notifies (h : TookIn c u b t) (hrun : u.status = .running) (hl : c ≠ u.listenfd)
    (h0 : c ≠ STDIN_FILENO) {pieces : List (List Bytes)}
    (hne : ∀ p ∈ pieces, ∀ d ∈ p, d ≠ []) :
    TookIn c (u.serveAll c
        (requestFramer.frames (requestFramer.leftover b ++ pieces.flatten.flatten)) [])
      (b ++ pieces.flatten.flatten) (pieces.foldl (fun s p => s.notify c p) t) := by
  induction pieces generalizing u b t with
  | nil =>
    rw [List.flatten_nil, List.flatten_nil, List.append_nil, List.append_nil,
      requestFramer.frames_eq_nil (requestFramer.cut_leftover b)]
    exact h
  | cons p pieces ih =>
    have hstep := h.notify hrun hl h0 (hne p List.mem_cons_self)
    obtain ⟨hstatus, hlisten⟩ := serveAll_frame u c
      (requestFramer.frames (requestFramer.leftover b ++ p.flatten)) []
    have hrest := ih hstep (hstatus.trans hrun) (hlisten ▸ hl)
      fun q hq => hne q (List.mem_cons_of_mem _ hq)
    rw [List.flatten_cons, List.flatten_append, ← List.append_assoc, ← List.append_assoc,
      requestFramer.frames_append (requestFramer.leftover b ++ p.flatten), serveAll_append,
      ← requestFramer.leftover_append]
    exact hrest

end Pieces

/-! ## One notification or many -/

/-- The same tables, the same bytes emitted and the same requests served. -/
structure SameOutcome (s t : Server) : Prop where
  db : t.db = s.db
  isActive : ∀ j, hasFlag (t.slot j).flags .isActive = hasFlag (s.slot j).flags .isActive
  isAuth : ∀ j, hasFlag (t.slot j).flags .isAuth = hasFlag (s.slot j).flags .isAuth
  userId : ∀ j, (t.slot j).userId = (s.slot j).userId
  username : ∀ j, (t.slot j).username = (s.slot j).username
  emitted : ∀ j, t.emitted j = s.emitted j
  requests : t.requests = s.requests

section Outcome

variable {c : Nat} {s t u : Server} {b : Bytes}

theorem Agree.sameOutcome (h : Agree c s t) : SameOutcome s t := by
  refine ⟨h.db, fun j => ?_, fun j => ?_, fun j => ?_, fun j => ?_, h.emitted, h.requests⟩ <;>
    by_cases hj : j = c
  · rw [hj, h.isActive]
  · rw [h.slot j hj]
  · rw [hj, h.isAuth]
  · rw [h.slot j hj]
  · rw [hj, h.userId]
  · rw [h.slot j hj]
  · rw [hj, h.username]
  · rw [h.slot j hj]

theorem SameOutcome.removeConnection (h : SameOutcome s t) (c : Nat) :
    SameOutcome (s.removeConnection c) (t.removeConnection c) := by
  have hemitted : ∀ (s : Server) j, (s.removeConnection c).emitted j = s.emitted j := by
    intro s j
    have hout : ((s.removeConnection c).slot j).outgoing = (s.slot j).outgoing := by
      rw [slot_removeConnection]
      split <;> rfl
    rw [Server.emitted, hout]
    exact congrArg (· ++ _) ((bytesWritten_append j s.log [.sys (.delete c)]).trans
      (List.append_nil _))
  refine ⟨h.db, fun j => ?_, fun j => ?_, fun j => ?_, fun j => ?_, fun j => ?_, ?_⟩
  · rw [slot_removeConnection, slot_removeConnection]
    split
    · rfl
    · exact h.isActive j
  · rw [slot_removeConnection, slot_removeConnection]
    split
    · rfl
    · exact h.isAuth j
  · rw [slot_removeConnection, slot_removeConnection]
    split <;> exact h.userId j
  · rw [slot_removeConnection, slot_removeConnection]
    split <;> exact h.username j
  · rw [hemitted, hemitted, h.emitted]
  · exact (requests_sys _ _).trans (h.requests.trans (requests_sys (s.setFlags c .none) _).symm)

/-- The outcome depends on what was taken in, not on how. -/
theorem TookIn.sameOutcome (hs : TookIn c u b s) (ht : TookIn c u b t) :
    SameOutcome s t ∧ (hasFlag (s.slot c).flags .isActive = true →
      (t.slot c).incoming = (s.slot c).incoming) := by
  cases hs with
  | waiting hcut hs hin =>
    cases ht with
    | waiting _ ht hin' => exact ⟨(hs.symm.trans ht).sameOutcome, fun _ => hin'.trans hin.symm⟩
    | closed hcut' => exact absurd hcut' hcut
  | closed hcut hs he =>
    cases ht with
    | waiting hcut' => exact absurd hcut hcut'
    | closed _ ht he' =>
      subst he he'
      refine ⟨(hs.symm.trans ht).sameOutcome.removeConnection c, fun hact => ?_⟩
      rw [slot_removeConnection, if_pos rfl, hasFlag_none] at hact
      cases hact

end Outcome

/-- **Segmentation independence.** From every reachable state, a stream delivered to a
reading connection in any number of notifications gives the tables, the bytes emitted and
the requests served that one notification gives, and the same leftover unless the
connection is closed. -/
theorem segmentation_independence {capacity listenfd : Nat} {db : Db} {s : Server}
    (h : Reaches (Server.boot capacity listenfd db) s) (hrun : s.status = .running) {c : Nat}
    (hread : hasFlag (s.slot c).flags .wantRead = true) {pieces : List (List Bytes)}
    {chunks : List Bytes} (hp : pieces ≠ []) (hpieces : ∀ p ∈ pieces, ∀ d ∈ p, d ≠ [])
    (hchunks : ∀ d ∈ chunks, d ≠ []) (hcat : chunks.flatten = pieces.flatten.flatten) :
    let one := s.notify c chunks
    let many := pieces.foldl (fun s p => s.notify c p) s
    SameOutcome one many ∧ (hasFlag (one.slot c).flags .isActive = true →
      (many.slot c).incoming = (one.slot c).incoming) := by
  intro one many
  obtain ⟨hl, h0, hwrite, hclose⟩ := h.reading hrun hread
  have hnotify : ∀ p : List Bytes, (∀ d ∈ p, d ≠ []) →
      TookIn c (s.serveAll c (requestFramer.frames ((s.slot c).incoming ++ p.flatten)) [])
        ((s.slot c).incoming ++ p.flatten) (s.notify c p) := fun p hp =>
    handleEvent_tookIn s ⟨c, false, { reads := p.map .bytes }⟩ hrun hl h0 rfl rfl rfl hp
      hread hwrite hclose
  cases pieces with
  | nil => exact absurd rfl hp
  | cons p pieces =>
    have hfirst := hnotify p (hpieces p List.mem_cons_self)
    obtain ⟨hstatus, hlisten⟩ := serveAll_frame s c
      (requestFramer.frames ((s.slot c).incoming ++ p.flatten)) []
    have hall := hfirst.notifies (hstatus.trans hrun) (hlisten ▸ hl) h0
      fun q hq => hpieces q (List.mem_cons_of_mem _ hq)
    have hcat' : p.flatten ++ pieces.flatten.flatten = chunks.flatten := by
      rw [hcat, List.flatten_cons, List.flatten_append]
    rw [← serveAll_append, ← requestFramer.frames_append, List.append_assoc, hcat'] at hall
    exact (hnotify chunks hchunks).sameOutcome hall

/-- A frame cut in its header and before its last byte. -/
theorem segmentation_independence_cut :
    let one := (accepted 8).notify 5 [[1, 9, 0, 0, 0, 0, 1, 42]]
    let many := [[[1, 9, 0]], [[0, 0, 0, 1], [42]]].foldl (fun s p => s.notify 5 p) (accepted 8)
    SameOutcome one many ∧ one.requests.length = 1 := by
  intro one many
  refine ⟨(segmentation_independence (reaches_accepted 8) ?_ ?_ ?_ ?_ ?_ ?_).1, ?_⟩
  · decide +kernel
  · decide +kernel
  · decide
  · decide
  · decide
  · decide
  · decide +kernel

end ChatServer
