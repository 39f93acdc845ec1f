import ChatServer.Audit.History

/-!
# What the steps of one connection do to another

A chain of steps for `c` leaves another connection `d` alone, or queues bytes for it
and turns it to writing. In the second case `d` is registered for output, and nothing
later in the chain touches the registration.
-/

namespace ChatServer

open EdgeTrigger (Errno Rv Interest Syscall Spares)

/-! ## The system calls of a run -/

def Entry.call : Entry → Option (Syscall UInt8)
  | .sys k => some k
  | .served _ => none

/-- The system calls made so far. -/
def Server.calls (s : Server) : List (Syscall UInt8) := s.log.filterMap Entry.call

theorem calls_of_log {s t : Server} {es : List Entry} (h : t.log = s.log ++ es) :
    t.calls = s.calls ++ es.filterMap Entry.call := by
  rw [Server.calls, h, List.filterMap_append]
  rfl

theorem calls_sys (s : Server) (k : Syscall UInt8) : (s.sys k).calls = s.calls ++ [k] :=
  calls_of_log (s := s) (t := s.sys k) rfl

/-- A connection that is accepted and registered makes two calls. -/
theorem calls_connect (s : Server) (fd : Nat) :
    (((s.sys (.accept fd)).sys (.add fd .input)).activate fd).calls =
      s.calls ++ [.accept fd, .add fd .input] := by
  rw [calls_of_log (log_connect (s.sys (.accept fd)) fd), calls_sys, List.append_assoc]
  rfl

theorem calls_modify (dests : List Nat) :
    (dests.map fun d => Entry.sys (.modify d .output)).filterMap Entry.call =
      dests.map fun d => .modify d .output := by
  induction dests with
  | nil => rfl
  | cons d dests ih => exact congrArg (_ :: ·) ih

theorem spares_modify {d : Nat} {dests : List Nat} (h : d ∉ dests) :
    Spares d (dests.map fun i => (.modify i .output : Syscall UInt8)) := by
  intro k hk
  obtain ⟨i, hi, rfl⟩ := List.mem_map.mp hk
  intro he
  subst he
  exact h hi

theorem spares_nil {d : Nat} : Spares d ([] : List (Syscall UInt8)) :=
  fun _ h => absurd h List.not_mem_nil

theorem spares_singleton {d : Nat} {k : Syscall UInt8} (h : ¬ k.Registers d) : Spares d [k] :=
  fun _ hk => List.mem_singleton.mp hk ▸ h

theorem Quiet.spares {c d : Nat} {k : Syscall UInt8} (h : Quiet c k) (hd : d ≠ c) :
    Spares d [k] := by
  apply spares_singleton
  cases h with
  | accept => exact Ne.symm hd
  | eof => exact id
  | readFailed => exact id
  | writeFailed => exact id

/-- The calls made while a request is served register recipients for writing. -/
theorem calls_serve {s : Server} {c : Nat} {frame : Bytes} {o : SqlOutcome} (rest : Bytes)
    {dests : List Nat}
    (h : (s.dispatch c (parseMessage frame) o).1.log =
      s.log ++ dests.map fun i => .sys (.modify i .output)) :
    ((s.serveFrame c frame o).setIncoming c rest).calls =
      s.calls ++ dests.map fun i => .modify i .output := by
  have hlog : ((s.serveFrame c frame o).setIncoming c rest).log =
      s.log ++ (dests.map (fun i => Entry.sys (.modify i .output)) ++
        [.served ⟨c, frame, (s.dispatch c (parseMessage frame) o).2, s.view, o⟩]) := by
    rw [← List.append_assoc, ← h]
    rfl
  rw [calls_of_log hlog, List.filterMap_append, calls_modify]
  exact congrArg (s.calls ++ ·) (List.append_nil _)

/-- Calls are only added. -/
theorem calls_grow {s t : Server} (h : Steps s t) : ∃ ks, t.calls = s.calls ++ ks := by
  induction h with
  | refl => exact ⟨[], (List.append_nil _).symm⟩
  | @tail t u _ hst ih =>
    obtain ⟨c, hst⟩ := hst
    obtain ⟨ks, hks⟩ := ih
    have hnew : ∃ ks', u.calls = t.calls ++ ks' := by
      rcases hst.log with ⟨_, hlog, _⟩ | ⟨n, o, _, _, rfl⟩
      · exact ⟨_, calls_of_log hlog⟩
      · obtain ⟨dests, hlog⟩ := log_serve t c ((t.slot c).incoming.take n)
          ((t.slot c).incoming.drop n) o
        rw [List.append_assoc] at hlog
        exact ⟨_, calls_of_log hlog⟩
    obtain ⟨ks', hks'⟩ := hnew
    exact ⟨ks ++ ks', by rw [hks', hks, List.append_assoc]⟩

/-! ## The relation between the states before and after -/

inductive Beside (d : Nat) (s t : Server) : Prop where
  | untouched (ks) : t.calls = s.calls ++ ks → Spares d ks →
      (t.slot d).flags = (s.slot d).flags → (t.slot d).incoming = (s.slot d).incoming →
      (t.slot d).outgoing = (s.slot d).outgoing → Beside d s t
  | queued (as bs) : hasFlag (s.slot d).flags .isActive = true →
      t.calls = s.calls ++ (as ++ .modify d .output :: bs) → Spares d bs →
      hasFlag (t.slot d).flags .isActive = true → hasFlag (t.slot d).flags .wantRead = false →
      hasFlag (t.slot d).flags .wantWrite = true →
      hasFlag (t.slot d).flags .wantClose = hasFlag (s.slot d).flags .wantClose →
      (t.slot d).incoming = (s.slot d).incoming → (t.slot d).outgoing ≠ [] → Beside d s t

section Beside

variable {c d : Nat} {s t u : Server}

theorem Beside.refl (d : Nat) (s : Server) : Beside d s s :=
  .untouched [] (List.append_nil _).symm spares_nil rfl rfl rfl

theorem Beside.incoming (h : Beside d s t) : (t.slot d).incoming = (s.slot d).incoming := by
  cases h with
  | untouched _ _ _ _ hi => exact hi
  | queued _ _ _ _ _ _ _ _ _ hi => exact hi

theorem Beside.trans (h : Beside d s t) (h' : Beside d t u) : Beside d s u := by
  cases h with
  | untouched ks hk hspare hf hi ho =>
    cases h' with
    | untouched ks' hk' hspare' hf' hi' ho' =>
      refine .untouched (ks ++ ks') ?_ (hspare.append hspare') (hf'.trans hf) (hi'.trans hi)
        (ho'.trans ho)
      rw [hk', hk, List.append_assoc]
    | queued as bs ha hk' hspare' ha' hr hw hc hi' ho' =>
      refine .queued (ks ++ as) bs (hf ▸ ha) ?_ hspare' ha' hr hw (hf ▸ hc) (hi'.trans hi) ho'
      rw [hk', hk, List.append_assoc, List.append_assoc]
  | queued as bs ha hk hspare ha₁ hr hw hc hi ho =>
    cases h' with
    | untouched ks' hk' hspare' hf' hi' ho' =>
      rw [← hf'] at ha₁ hr hw hc
      refine .queued as (bs ++ ks') ha ?_ (hspare.append hspare') ha₁ hr hw hc (hi'.trans hi)
        (ho' ▸ ho)
      rw [hk', hk]
      simp only [List.append_assoc, List.cons_append]
    | queued as' bs' _ hk' hspare' ha' hr' hw' hc' hi' ho' =>
      refine .queued (as ++ .modify d .output :: bs ++ as') bs' ha ?_ hspare' ha' hr' hw'
        (hc'.trans hc) (hi'.trans hi) ho'
      rw [hk', hk]
      simp only [List.append_assoc, List.cons_append]

theorem beside_setConnectionState (s : Server) (hd : d ≠ c) (next : ConnState) :
    Beside d s (s.setConnectionState c next) := by
  have hslot : (s.setConnectionState c next).slot d = s.slot d := by
    rw [Server.slot_setConnectionState, if_neg hd]
  have hcalls : ∃ ks, (s.setConnectionState c next).calls = s.calls ++ ks ∧ Spares d ks := by
    cases next with
    | reading => exact ⟨_, calls_sys s _, spares_singleton (Ne.symm hd)⟩
    | writing => exact ⟨_, calls_sys s _, spares_singleton (Ne.symm hd)⟩
    | closing =>
      exact ⟨[], (List.append_nil _).symm, spares_nil⟩
  obtain ⟨ks, hk, hspare⟩ := hcalls
  exact .untouched ks hk hspare (by rw [hslot]) (by rw [hslot]) (by rw [hslot])

/-- A step for `c` leaves `d` alone, unless it serves a broadcast that selects `d`. -/
theorem Step.beside (hst : Step c s t) (hs : Tidy s) (hd : d ≠ c) : Beside d s t := by
  cases hst with
  | @call k hk =>
    exact .untouched [k] (calls_sys s k) (hk.spares hd) rfl rfl rfl
  | halt => exact .untouched [] (List.append_nil _).symm spares_nil rfl rfl rfl
  | connect =>
    have hslot := hs.slot_grow c d
    refine .untouched [.add c .input] (calls_of_log (log_connect s c))
      (spares_singleton (Ne.symm hd)) ?_ ?_ ?_ <;> rw [slot_connect, if_neg hd]
    · exact hslot.1
    · exact hslot.2.1
    · exact hslot.2.2
  | receive b bs =>
    have hslot := slot_receive s c d (.read c (.bytes (b :: bs))) ((s.slot c).incoming ++ b :: bs)
    rw [if_neg hd] at hslot
    refine .untouched [.read c (.bytes (b :: bs))] (calls_sys s _) (spares_singleton id) ?_ ?_ ?_
      <;> rw [hslot]
  | @serve n o =>
    obtain ⟨dests, hnd, hsub, hlog, hslot⟩ :=
      (dispatch_handled s c (parseMessage ((s.slot c).incoming.take n)) o).deliveries
    have hcalls := calls_serve ((s.slot c).incoming.drop n) hlog
    have hd' := hslot d hd
    by_cases hmem : d ∈ dests
    · rw [if_pos hmem] at hd'
      have hact := hs.active (View.mem_others.mp (hsub hmem)).2.1
      obtain ⟨as, bs, rfl⟩ := List.append_of_mem hmem
      have hbs : d ∉ bs := (List.nodup_cons.mp (List.nodup_append.mp hnd).2.1).1
      rw [List.map_append, List.map_cons] at hcalls
      refine .queued _ _ hact hcalls (spares_modify hbs) ?_ ?_ ?_ ?_ ?_ ?_ <;>
        rw [slot_serve, if_neg hd, hd']
      · exact (isActive_nextFlags _ _).trans hact
      · exact wantRead_writing _
      · exact wantWrite_writing _
      · exact wantClose_writing _
      · exact List.append_ne_nil_of_right_ne_nil _ (wire_ne_nil _)
    · rw [if_neg hmem] at hd'
      refine .untouched _ hcalls (spares_modify hmem) ?_ ?_ ?_ <;>
        rw [slot_serve, if_neg hd, hd']
  | closing => exact beside_setConnectionState s hd _
  | writing => exact beside_setConnectionState s hd _
  | write n =>
    refine .untouched [.write c (.bytes ((s.slot c).outgoing.take n))] (calls_sys s _)
      (spares_singleton id) ?_ ?_ ?_ <;> rw [slot_written, if_neg hd]
  | reading => exact beside_setConnectionState s hd _
  | remove =>
    refine .untouched [.delete c] (calls_sys s _) (spares_singleton (Ne.symm hd)) ?_ ?_ ?_ <;>
      rw [slot_removeConnection, if_neg hd]

theorem StepsOn.beside (h : StepsOn c s t) (hs : Tidy s) (hd : d ≠ c) : Beside d s t :=
  h.preserves (P := Beside d s) (fun _ _ ht hst hb => hb.trans (hst.beside ht hd)) hs (.refl d s)

end Beside

end ChatServer
