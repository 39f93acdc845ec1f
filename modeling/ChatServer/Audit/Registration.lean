import ChatServer.Audit.Notification

/-!
# The registration of the connection served

What one event does to the flags, the outgoing buffer and the registration of its own
connection: they agree again at the end, and the last call on the registration leaves no
readiness unreported.
-/

namespace ChatServer

open EdgeTrigger (Errno Rv Interest Syscall Spares)
open EdgeTrigger.Kernel (Settles)

/-- The slot waits for input, or has output left to write. -/
structure Faces (slot : Slot) (i : Interest) : Prop where
  wantRead : hasFlag slot.flags .wantRead = decide (i = .input)
  wantWrite : hasFlag slot.flags .wantWrite = decide (i = .output)
  outgoing : slot.outgoing = [] ↔ i = .input

/-- Connection `c`, facing `i` before, is to be closed, or its calls settle what it
faces now. -/
inductive Turned (c : Nat) (i : Interest) (s t : Server) : Prop where
  | closing : hasFlag (t.slot c).flags .wantClose = true → Turned c i s t
  | settled (j ks) : Faces (t.slot c) j → t.calls = s.calls ++ ks → Settles c i j ks →
      Turned c i s t

section Loops

variable {s t : Server} {c : Nat} {i : Interest}

theorem tryOneRequest_spares {o : SqlOutcome} {served : Bool}
    (h : s.tryOneRequest c o = (t, served)) :
    ∃ ks, t.calls = s.calls ++ ks ∧ Spares c ks ∧
      hasFlag (t.slot c).flags .wantRead = hasFlag (s.slot c).flags .wantRead ∧
      hasFlag (t.slot c).flags .wantWrite = hasFlag (s.slot c).flags .wantWrite := by
  cases hcut : requestCut (s.slot c).incoming with
  | more =>
    rw [s.tryOneRequest_more c o hcut] at h
    cases h
    exact ⟨[], (List.append_nil _).symm, spares_nil, rfl, rfl⟩
  | stop =>
    rw [s.tryOneRequest_stop c o hcut] at h
    cases h
    refine ⟨[], (List.append_nil _).symm, spares_nil, ?_, ?_⟩
    · rw [Server.slot_setConnectionState_self]
      exact wantRead_closing _
    · rw [Server.slot_setConnectionState_self]
      exact wantWrite_closing _
  | take n =>
    rw [s.tryOneRequest_take c o hcut] at h
    cases h
    have hd := dispatch_handled s c (parseMessage ((s.slot c).incoming.take n)) o
    obtain ⟨dests, _, hsub, hlog, _⟩ := hd.deliveries
    refine ⟨_, calls_serve _ hlog, spares_modify fun hc => ?_, ?_, ?_⟩
    · exact (View.mem_others.mp (hsub hc)).2.2 rfl
    · rw [slot_serve, if_pos rfl]
      exact hd.flags_self (by decide)
    · rw [slot_serve, if_pos rfl]
      exact hd.flags_self (by decide)

/-- The request loop leaves the registration of its own connection alone. -/
theorem serveRequests_spares (c fuel : Nat) (s : Server) (sql : List SqlOutcome) :
    ∃ ks, (Server.serveRequests c fuel s sql).calls = s.calls ++ ks ∧ Spares c ks ∧
      hasFlag ((Server.serveRequests c fuel s sql).slot c).flags .wantRead =
        hasFlag (s.slot c).flags .wantRead ∧
      hasFlag ((Server.serveRequests c fuel s sql).slot c).flags .wantWrite =
        hasFlag (s.slot c).flags .wantWrite := by
  induction fuel generalizing s sql with
  | zero => exact ⟨[], (List.append_nil _).symm, spares_nil, rfl, rfl⟩
  | succ fuel ih =>
    cases h : s.tryOneRequest c (sql.headD {}) with
    | mk t served =>
      obtain ⟨ks, hks, hspare, hr, hw⟩ := tryOneRequest_spares h
      simp only [Server.serveRequests, h]
      cases served with
      | false => exact ⟨ks, hks, hspare, hr, hw⟩
      | true =>
        obtain ⟨ks', hks', hspare', hr', hw'⟩ := ih t sql.tail
        refine ⟨ks ++ ks', ?_, hspare.append hspare', hr'.trans hr, hw'.trans hw⟩
        rw [hks', hks, List.append_assoc]

theorem faces_reading (h : (s.slot c).outgoing = []) :
    Faces ((s.setConnectionState c .reading).slot c) .input := by
  rw [Server.slot_setConnectionState_self]
  exact ⟨wantRead_reading _, wantWrite_reading _, iff_of_true h rfl⟩

theorem faces_writing (h : (s.slot c).outgoing ≠ []) :
    Faces ((s.setConnectionState c .writing).slot c) .output := by
  rw [Server.slot_setConnectionState_self]
  exact ⟨wantRead_writing _, wantWrite_writing _, iff_of_false h (by decide)⟩

/-- After reading, the last thing said about the registration is that the socket is
drained, or that output is wanted. -/
theorem handleReadConnection_turned (hs : Faces (s.slot c) .input) (script : Script) :
    Turned c .input s (s.handleReadConnection c script) := by
  have hslot := slot_readAvailable s c script.reads c
  have hcalls := calls_of_log (readAvailable_log s c script.reads)
  rw [if_pos rfl] at hslot
  unfold Server.handleReadConnection
  simp only [readAvailable_drained]
  generalize (s.readAvailable c script.reads).1 = t at hslot hcalls ⊢
  cases hdrain : readDrains script.reads with
  | false =>
    apply Turned.closing
    simp only [Bool.not_false, ↓reduceIte]
    rw [hslot, hdrain]
    exact wantClose_closing _
  | true =>
    obtain ⟨as, has, hspare⟩ := readCalls_eq c hdrain
    have hmap : ∀ ks : List (Syscall UInt8), (ks.map Entry.sys).filterMap Entry.call = ks := by
      intro ks
      rw [List.filterMap_map]
      exact List.filterMap_some
    rw [hmap, has] at hcalls
    rw [hdrain] at hslot
    obtain ⟨bs, hbs, hspare', hr, hw⟩ := serveRequests_spares c
      ((t.connManager.incomingBuffers c).length + 1) t script.sql
    simp only [Bool.not_true, Bool.false_eq_true, ↓reduceIte]
    generalize Server.serveRequests c ((t.connManager.incomingBuffers c).length + 1) t
      script.sql = u at hbs hr hw ⊢
    have hsettle : Settles c .input .input (as ++ .read c (.fail .EAGAIN) :: bs) :=
      .readAgain rfl (hspare c) hspare'
    have hu : u.calls = s.calls ++ (as ++ .read c (.fail .EAGAIN) :: bs) := by
      rw [hbs, hcalls]
      simp only [List.append_assoc, List.cons_append, List.nil_append]
    rw [hslot] at hr hw
    split
    · rename_i hout
      have hmodify : Settles c .input .output
          ((as ++ .read c (.fail .EAGAIN) :: bs) ++ .modify c .output :: []) := .modify spares_nil
      refine .settled .output _ (faces_writing (List.ne_nil_of_length_pos hout)) ?_ hmodify
      show (u.setConnectionState c .writing).calls = _
      rw [← List.append_assoc, ← hu]
      exact calls_sys u _
    · rename_i hout
      refine .settled .input _ ⟨hr.trans hs.wantRead, hw.trans hs.wantWrite, ?_⟩ hu hsettle
      exact iff_of_true (List.eq_nil_of_length_eq_zero (Nat.eq_zero_of_not_pos hout)) rfl

theorem calls_written (s : Server) (c n : Nat) : (s.written c n).calls =
    s.calls ++ [.write c (.bytes ((s.slot c).outgoing.take n))] := calls_sys s _

/-- When all is written the connection is registered for input. -/
theorem turned_written {n : Nat} (hout : ((s.written c n).slot c).outgoing = []) :
    Turned c .output s ((s.written c n).setConnectionState c .reading) := by
  refine .settled .input ([.write c (.bytes ((s.slot c).outgoing.take n))] ++
    .modify c .input :: []) (faces_reading hout) ?_ (.modify spares_nil)
  rw [← List.append_assoc, ← calls_written]
  exact calls_sys _ _

/-- After writing, all is written and input is wanted, or the socket is full. -/
theorem handleWriteConnection_turned (hs : Faces (s.slot c) .output)
    (writes : List WriteAnswer) (hrun : (s.handleWriteConnection c writes).status = .running) :
    Turned c .output s (s.handleWriteConnection c writes) := by
  induction writes generalizing s with
  | nil =>
    apply turned_written
    rw [slot_written, if_pos rfl]
    exact List.drop_length
  | cons answer answers ih =>
    cases answer with
    | took k =>
      simp only [Server.handleWriteConnection] at hrun ⊢
      split
      · rename_i hout
        exact turned_written (List.eq_nil_of_length_eq_zero hout)
      · rename_i hout
        rw [if_neg hout] at hrun
        have hflags := flags_written (s := s) (c := c)
          (min (k + 1) (s.connManager.outgoingBuffers c).length)
        have hfaces : Faces ((s.written c
            (min (k + 1) (s.connManager.outgoingBuffers c).length)).slot c) .output := by
          refine ⟨hflags ▸ hs.wantRead, hflags ▸ hs.wantWrite, iff_of_false ?_ (by decide)⟩
          exact fun hnil => hout (congrArg List.length hnil)
        cases ih hfaces hrun with
        | closing h => exact .closing h
        | settled j ks hj hks hsettle =>
          rw [calls_written, List.append_assoc] at hks
          exact .settled j _ hj hks (hsettle.prepend (spares_singleton id))
    | fail e =>
      simp only [Server.handleWriteConnection] at hrun ⊢
      split
      · rename_i he
        rw [if_pos he] at hrun
        cases hrun
      · split
        · rename_i he
          obtain rfl : e = .EAGAIN := by simpa [isWouldBlock] using he
          exact .settled .output ([] ++ .write c (.fail .EAGAIN) :: []) hs (calls_sys s _)
            (.writeAgain rfl spares_nil spares_nil)
        · exact .closing (Server.wantClose_setClosing _ c)

/-- Writing never takes back that the connection is to be closed. -/
theorem wantClose_write (c : Nat) :
    AlongWrite c fun s t => hasFlag (s.slot c).flags .wantClose = true →
      hasFlag (t.slot c).flags .wantClose = true where
  refl _ := id
  trans h h' hs := h' (h hs)
  written s n hs := by
    rw [flags_written]
    exact hs
  blocked _ := id
  ended _ _ _ := Server.wantClose_setClosing _ c
  turned s := s.wantClose_setConnectionState c .reading

theorem writeStage_turned (hs : Faces (s.slot c) .output) {ev : Event} (hc : ev.fd = c)
    (hrun : (s.writeStage ev).status = .running) : Turned c .output s (s.writeStage ev) := by
  subst hc
  rw [writeStage_eq hs.wantWrite] at hrun ⊢
  exact handleWriteConnection_turned hs ev.script.writes hrun

/-- Reading and writing one after the other. -/
theorem stages_turned (hs : Faces (s.slot c) i) {ev : Event} (hc : ev.fd = c)
    (hrun : ((s.readStage ev).writeStage ev).status = .running) :
    Turned c i s ((s.readStage ev).writeStage ev) := by
  subst hc
  cases i with
  | output =>
    rw [readStage_skip hs.wantRead] at hrun ⊢
    exact writeStage_turned hs rfl hrun
  | input =>
    rw [readStage_eq hs.wantRead] at hrun ⊢
    cases handleReadConnection_turned hs ev.script with
    | closing h => exact .closing ((wantClose_write ev.fd).writeStage _ (fun _ _ => id) h)
    | settled j ks hj hks hsettle =>
      cases j with
      | input =>
        rw [writeStage_skip hj.wantWrite]
        exact .settled .input ks hj hks hsettle
      | output =>
        cases writeStage_turned hj rfl hrun with
        | closing h => exact .closing h
        | settled l ks' hl hks' hsettle' =>
          rw [hks, List.append_assoc] at hks'
          exact .settled l _ hl hks' (hsettle.trans hsettle')

end Loops

end ChatServer
