import ChatServer.Audit.Bystanders

/-!
# One readiness notification

What the read loop takes from the kernel, and the system calls that the three loops
make on the registration of the connection they serve.
-/

namespace ChatServer

open EdgeTrigger (Errno Rv Interest Syscall Spares)

/-! ## The read loop -/

/-- The bytes that the read loop takes. -/
def readBytes : List (Rv UInt8) → Bytes
  | .bytes (b :: bs) :: rvs => b :: bs ++ readBytes rvs
  | _ => []

/-- The read loop stops because the socket is drained. -/
def readDrains : List (Rv UInt8) → Bool
  | [] => true
  | .bytes [] :: _ => false
  | .bytes (_ :: _) :: rvs => readDrains rvs
  | .fail e :: _ => isWouldBlock e

def readCalls (c : Nat) : List (Rv UInt8) → List (Syscall UInt8)
  | [] => [.read c (.fail .EAGAIN)]
  | .bytes [] :: _ => [.read c (.bytes [])]
  | .bytes (b :: bs) :: rvs => .read c (.bytes (b :: bs)) :: readCalls c rvs
  | .fail e :: _ => [.read c (.fail e)]

theorem readAvailable_log (s : Server) (c : Nat) (reads : List (Rv UInt8)) :
    (s.readAvailable c reads).1.log = s.log ++ (readCalls c reads).map .sys := by
  fun_induction Server.readAvailable s c reads with
  | case1 => rfl
  | case2 => rfl
  | case3 s b bs rvs t ih =>
    rw [ih, readCalls, List.map_cons, List.append_cons]
    rfl
  | case4 s e rvs t h => rfl
  | case5 s e rvs t h => rfl

theorem readAvailable_drained (s : Server) (c : Nat) (reads : List (Rv UInt8)) :
    (s.readAvailable c reads).2 = readDrains reads := by
  fun_induction Server.readAvailable s c reads with
  | case1 => rfl
  | case2 => rfl
  | case3 s b bs rvs t ih => exact ih
  | case4 s e rvs t h => exact h.symm
  | case5 s e rvs t h => exact (Bool.eq_false_iff.mpr h).symm

/-- The read loop appends to the incoming buffer, and asks to close the connection unless
it has drained the socket. -/
theorem slot_readAvailable (s : Server) (c : Nat) (reads : List (Rv UInt8)) (j : Nat) :
    (s.readAvailable c reads).1.slot j =
      if j = c then
        { s.slot j with
          incoming := (s.slot j).incoming ++ readBytes reads
          flags := if readDrains reads then (s.slot j).flags
            else ConnState.closing.nextFlags (s.slot j).flags }
      else s.slot j := by
  have hclosing : ∀ s : Server, (s.setConnectionState c .closing).slot j =
      if j = c then
        { s.slot j with
          incoming := (s.slot j).incoming ++ []
          flags := ConnState.closing.nextFlags (s.slot j).flags }
      else s.slot j := by
    intro s
    rw [Server.slot_setConnectionState, List.append_nil]
  have hself : ∀ s : Server, s.slot j =
      if j = c then { s.slot j with incoming := (s.slot j).incoming ++ [] } else s.slot j := by
    intro s
    rw [List.append_nil, ite_self]
  fun_induction Server.readAvailable s c reads with
  | case1 => exact hself _
  | case2 => exact hclosing _
  | case3 s b bs rvs t ih =>
    rw [ih, show t.setIncoming c (bufAppend (t.connManager.incomingBuffers c) (b :: bs)) =
      (s.sys (.read c (.bytes (b :: bs)))).setIncoming c ((s.slot c).incoming ++ b :: bs) from rfl,
      slot_receive]
    by_cases hj : j = c
    · subst hj
      simp only [↓reduceIte, readBytes, readDrains, List.append_assoc]
      rfl
    · simp only [if_neg hj]
  | case4 s e rvs t h =>
    simp only [readDrains, h]
    exact hself s
  | case5 s e rvs t h =>
    simp only [readDrains, h]
    exact hclosing s

/-- A drained socket has answered `EAGAIN` last. -/
theorem readCalls_eq (c : Nat) {reads : List (Rv UInt8)} (h : readDrains reads = true) :
    ∃ ks, readCalls c reads = ks ++ [.read c (.fail .EAGAIN)] ∧ ∀ d, Spares d ks := by
  fun_induction readDrains reads with
  | case1 => exact ⟨[], rfl, fun _ => spares_nil⟩
  | case2 => cases h
  | case3 b bs rvs ih =>
    obtain ⟨ks, hks, hspare⟩ := ih h
    refine ⟨.read c (.bytes (b :: bs)) :: ks, congrArg (_ :: ·) hks, fun d => ?_⟩
    exact (spares_singleton (k := .read c (.bytes (b :: bs))) id).append (hspare d)
  | case4 e rvs =>
    obtain rfl : e = .EAGAIN := by simpa [isWouldBlock] using h
    exact ⟨[], rfl, fun _ => spares_nil⟩

/-! ## The three stages -/

section Stages

variable {s : Server} {ev : Event}

theorem readStage_eq (h : hasFlag (s.slot ev.fd).flags .wantRead = true) :
    s.readStage ev = s.handleReadConnection ev.fd ev.script := if_pos h

theorem readStage_skip (h : hasFlag (s.slot ev.fd).flags .wantRead = false) :
    s.readStage ev = s := if_neg (by simpa using h)

theorem writeStage_eq (h : hasFlag (s.slot ev.fd).flags .wantWrite = true) :
    s.writeStage ev = s.handleWriteConnection ev.fd ev.script.writes := if_pos h

theorem writeStage_skip (h : hasFlag (s.slot ev.fd).flags .wantWrite = false) :
    s.writeStage ev = s := if_neg (by simpa using h)

/-- Nothing is read or written for a slot without flags. -/
theorem stages_skip (h : (s.slot ev.fd).flags = .none) : (s.readStage ev).writeStage ev = s := by
  rw [readStage_skip (by rw [h, hasFlag_none]), writeStage_skip (by rw [h, hasFlag_none])]

theorem closeStage_eq (hrun : s.status = .running)
    (h : ev.epollerr = true ∨ hasFlag (s.slot ev.fd).flags .wantClose = true) :
    s.closeStage ev = s.removeConnection ev.fd := if_pos ⟨hrun, h⟩

theorem closeStage_skip (herr : ev.epollerr = false)
    (h : hasFlag (s.slot ev.fd).flags .wantClose = false) : s.closeStage ev = s := by
  refine if_neg fun hc => ?_
  rcases hc.2 with hc | hc
  · exact absurd (herr.symm.trans hc) (by decide)
  · exact absurd (h.symm.trans hc) (by decide)

/-- A connection either is closed, or is left as it is. -/
theorem closeStage_cases (s : Server) (ev : Event) :
    s.closeStage ev = s.removeConnection ev.fd ∨
      s.closeStage ev = s ∧ (s.status = .running →
        ev.epollerr = false ∧ hasFlag (s.slot ev.fd).flags .wantClose = false) := by
  unfold Server.closeStage
  split
  · exact .inl rfl
  · rename_i h
    refine .inr ⟨rfl, fun hrun => ?_⟩
    obtain ⟨h1, h2⟩ := not_or.mp fun hor => h ⟨hrun, hor⟩
    exact ⟨Bool.eq_false_iff.mpr h1, Bool.eq_false_iff.mpr h2⟩

end Stages

/-! ## Relations along the stages -/

structure Composes (R : Server → Server → Prop) : Prop where
  refl : ∀ s, R s s
  trans : ∀ {s t u}, R s t → R t u → R s u

/-- The relation holds over all that happens to connection `c` when it is read. -/
structure AlongRead (c : Nat) (R : Server → Server → Prop) : Prop extends Composes R where
  received : ∀ s b bs, R s ((s.sys (.read c (.bytes (b :: bs)))).setIncoming c
    (bufAppend (s.connManager.incomingBuffers c) (b :: bs)))
  blocked : ∀ s, R s (s.sys (.read c (.fail .EAGAIN)))
  ended : ∀ s rv, R s ((s.sys (.read c rv)).setConnectionState c .closing)
  served : ∀ s frame o rest, R s ((s.serveFrame c frame o).setIncoming c rest)
  refused : ∀ s, R s (s.setConnectionState c .closing)
  turned : ∀ s, R s (s.setConnectionState c .writing)

/-- The relation holds over all that happens to connection `c` when it is written to, but for the
end of the process. -/
structure AlongWrite (c : Nat) (R : Server → Server → Prop) : Prop extends Composes R where
  written : ∀ s n, R s (s.written c n)
  blocked : ∀ s, R s (s.sys (.write c (.fail .EAGAIN)))
  ended : ∀ s e, R s ((s.sys (.write c (.fail e))).setConnectionState c .closing)
  turned : ∀ s, R s (s.setConnectionState c .reading)

section Along

variable {R : Server → Server → Prop} {c : Nat}

theorem AlongRead.readAvailable (h : AlongRead c R) (s : Server) (reads : List (Rv UInt8)) :
    R s (s.readAvailable c reads).1 := by
  induction reads generalizing s with
  | nil => exact h.blocked s
  | cons rv rvs ih =>
    cases rv with
    | bytes bs =>
      cases bs with
      | nil => exact h.ended s (.bytes [])
      | cons b bs => exact h.trans (h.received s b bs) (ih _)
    | fail e =>
      simp only [Server.readAvailable]
      split
      · rename_i he
        obtain rfl : e = .EAGAIN := by simpa [isWouldBlock] using he
        exact h.blocked s
      · exact h.ended s (.fail e)

theorem AlongRead.serveRequests (h : AlongRead c R) (fuel : Nat) (s : Server)
    (sql : List SqlOutcome) : R s (Server.serveRequests c fuel s sql) := by
  induction fuel generalizing s sql with
  | zero => exact h.refl s
  | succ fuel ih =>
    cases hcut : requestCut (s.slot c).incoming with
    | more =>
      simp only [Server.serveRequests, s.tryOneRequest_more c _ hcut]
      exact h.refl s
    | stop =>
      simp only [Server.serveRequests, s.tryOneRequest_stop c _ hcut]
      exact h.refused s
    | take n =>
      simp only [Server.serveRequests, s.tryOneRequest_take c _ hcut]
      exact h.trans (h.served s _ _ _) (ih _ sql.tail)

theorem AlongRead.readStage {ev : Event} (h : AlongRead ev.fd R) (s : Server) :
    R s (s.readStage ev) := by
  unfold Server.readStage
  split
  · have hread := h.readAvailable s ev.script.reads
    unfold Server.handleReadConnection
    generalize s.readAvailable ev.fd ev.script.reads = drained at hread ⊢
    simp only
    split
    · exact hread
    · have hserve := h.serveRequests ((drained.1.connManager.incomingBuffers ev.fd).length + 1)
        drained.1 ev.script.sql
      split
      · exact h.trans (h.trans hread hserve) (h.turned _)
      · exact h.trans hread hserve
  · exact h.refl s

theorem AlongWrite.handleWriteConnection (h : AlongWrite c R) (s : Server)
    {answers : List WriteAnswer} (hkilled : .fail .EPIPE ∈ answers →
      ∀ s : Server, R s ((s.sys (.write c (.fail .EPIPE))).setStatus .killed)) :
    R s (s.handleWriteConnection c answers) := by
  induction answers generalizing s with
  | nil => exact h.trans (h.written s _) (h.turned _)
  | cons answer answers ih =>
    cases answer with
    | took k =>
      have hwritten := h.written s (min (k + 1) (s.slot c).outgoing.length)
      simp only [Server.handleWriteConnection]
      split
      · exact h.trans hwritten (h.turned _)
      · exact h.trans hwritten (ih _ fun hmem => hkilled (List.mem_cons_of_mem _ hmem))
    | fail e =>
      simp only [Server.handleWriteConnection]
      split_ifs with hpipe hblock
      · subst hpipe
        exact hkilled List.mem_cons_self s
      · obtain rfl : e = .EAGAIN := by simpa [isWouldBlock] using hblock
        exact h.blocked s
      · exact h.ended s e

theorem AlongWrite.writeStage {ev : Event} (h : AlongWrite ev.fd R) (s : Server)
    (hkilled : .fail .EPIPE ∈ ev.script.writes →
      ∀ s : Server, R s ((s.sys (.write ev.fd (.fail .EPIPE))).setStatus .killed)) :
    R s (s.writeStage ev) := by
  unfold Server.writeStage
  split
  · exact h.handleWriteConnection s hkilled
  · exact h.refl s

end Along

end ChatServer
