import ChatServer.Audit.Registration

/-!
# No lost wake-up

The server runs beside a kernel with edge-triggered notification. Whenever control
is back at `epoll_wait`, the flags of a connection, its outgoing buffer and the interest
it is registered for agree, and a readiness for that interest is still to be reported.
-/

namespace ChatServer

open EdgeTrigger (Errno Rv Interest Syscall Kernel Spares)

/-! ## Server and kernel -/

/-- `collected` are the descriptors that `epoll_wait` has returned and the loop has not
come to, each with whether `EPOLLERR` is set. Control is at `epoll_wait` when there are
none. -/
structure World where
  server : Server
  kernel : Kernel UInt8
  collected : List (Nat × Bool)

/-- Network activity, a wait, or one iteration of the loop over the ready events, in
which every `epoll_ctl` succeeds. -/
inductive World.Moves : World → World → Prop where
  | net {s κ κ' p} : κ.Net κ' → Moves ⟨s, κ, p⟩ ⟨s, κ', p⟩
  | wait {s κ κ' p} : s.status = .running → (∀ e ∈ p, κ.Reports e.1 e.2) →
      κ.Disarms (p.map Prod.fst) κ' → Moves ⟨s, κ, []⟩ ⟨s, κ', p⟩
  | handle {s κ κ' fd err p script ks} :
      (∀ d nonblocking registered,
        .conn d nonblocking registered ∈ script.accepts → registered = true) →
      (s.handleEvent ⟨fd, err, script⟩).calls = s.calls ++ ks → κ.Run ks κ' →
      Moves ⟨s, κ, (fd, err) :: p⟩ ⟨s.handleEvent ⟨fd, err, script⟩, κ', p⟩

/-! ## The invariant -/

/-- What holds of descriptor `d` between two events; `Q` says that it has been collected. -/
structure Attended (s : Server) (κ : Kernel UInt8) (Q : Prop) (d : Nat) : Prop where
  unopened : κ d = none → (s.slot d).flags = .none ∧ (s.slot d).outgoing = []
  active : hasFlag (s.slot d).flags .isActive = true →
    hasFlag (s.slot d).flags .wantClose = false ∧
      ∃ i, Faces (s.slot d) i ∧ κ.Registered d i ∧ (¬ Q → κ.Watched d i)

/-- An open descriptor that is no connection. -/
def Reserved (s : Server) (κ : Kernel UInt8) (d : Nat) : Prop :=
  κ d ≠ none ∧ (s.slot d).flags = .none

structure Tended (s : Server) (κ : Kernel UInt8) (p : List Nat) : Prop where
  tidy : Tidy s
  listening : Reserved s κ s.listenfd
  stdin : Reserved s κ STDIN_FILENO
  attended : ∀ d, Attended s κ (d ∈ p) d

section Beside

variable {s t : Server} {κ κ' : Kernel UInt8} {Q : Prop} {d : Nat} {ks : List (Syscall UInt8)}

theorem not_active_of_none {f : ConnFlags} (h : f = .none) : ¬ hasFlag f .isActive = true := by
  rw [h, hasFlag_none]
  decide

/-- What is done for other connections keeps `d` attended. -/
theorem Attended.beside (h : Attended s κ Q d) (hb : Beside d s t)
    (hks : t.calls = s.calls ++ ks) (hrun : κ.Run ks κ') : Attended t κ' Q d := by
  cases hb with
  | untouched ks' hks' hspare hf _ ho =>
    obtain rfl := List.append_cancel_left (hks.symm.trans hks')
    constructor
    · intro hnone
      rw [hf, ho]
      exact h.unopened (hrun.stays_open hnone)
    · intro hact
      rw [hf] at hact ⊢
      obtain ⟨hc, i, hi, hreg, hw⟩ := h.active hact
      refine ⟨hc, i, ⟨?_, ?_, ?_⟩, hrun.registered hspare hreg,
        fun hq => hrun.watched hspare (hw hq)⟩
      · rw [hf]
        exact hi.wantRead
      · rw [hf]
        exact hi.wantWrite
      · rw [ho]
        exact hi.outgoing
  | queued as bs hact hks' hspare _ hr hw hc _ ho =>
    obtain rfl := List.append_cancel_left (hks.symm.trans hks')
    have hwatched : κ'.Watched d .output := by
      obtain ⟨_, i, _, hreg, _⟩ := h.active hact
      exact hrun.watched_of_settles (.modify hspare) hreg
    constructor
    · intro hnone
      exact absurd hact (not_active_of_none (h.unopened (hrun.stays_open hnone)).1)
    · intro _
      refine ⟨hc.trans (h.active hact).1, .output, ⟨hr, hw, iff_of_false ho (by decide)⟩,
        hwatched.registered, fun _ => hwatched⟩

theorem Reserved.beside (h : Reserved s κ d) (hb : Beside d s t) (hrun : κ.Run ks κ') :
    Reserved t κ' d := by
  refine ⟨fun hnone => h.1 (hrun.stays_open hnone), ?_⟩
  cases hb with
  | untouched _ _ _ hf => exact hf.trans h.2
  | queued _ _ hact => exact absurd hact (not_active_of_none h.2)

end Beside

/-- What is done for connection `c` keeps everything tended if it keeps `c` attended. -/
theorem Tended.steps {c : Nat} {s t : Server} {κ κ' : Kernel UInt8} {p p' : List Nat}
    {ks : List (Syscall UInt8)} (h : Tended s κ p) (hsteps : StepsOn c s t)
    (hl : c ≠ s.listenfd) (h0 : c ≠ STDIN_FILENO) (hks : t.calls = s.calls ++ ks)
    (hrun : κ.Run ks κ') (hp : ∀ d, d ≠ c → d ∉ p' → d ∉ p)
    (hc : Attended t κ' (c ∈ p') c) : Tended t κ' p' := by
  obtain ⟨htidy, hlisten⟩ := hsteps.tidy h.tidy
  constructor
  · exact htidy
  · rw [hlisten]
    exact h.listening.beside (hsteps.beside h.tidy (Ne.symm hl)) hrun
  · exact h.stdin.beside (hsteps.beside h.tidy (Ne.symm h0)) hrun
  · intro d
    by_cases hd : d = c
    · subst hd
      exact hc
    · have hbeside := (h.attended d).beside (hsteps.beside h.tidy hd) hks hrun
      refine ⟨hbeside.unopened, fun hact => ?_⟩
      obtain ⟨hclose, i, hi, hreg, hw⟩ := hbeside.active hact
      exact ⟨hclose, i, hi, hreg, fun hq => hw (hp d hd hq)⟩

/-! ## New connections -/

section Accept

variable {s : Server} {κ κ' : Kernel UInt8} {p : List Nat} {ks : List (Syscall UInt8)}

theorem Tended.idle (h : Tended s κ p) (hrun : κ.Run [] κ') : Tended s κ' p := by
  have hks : s.calls = s.calls ++ [] := (List.append_nil _).symm
  constructor
  · exact h.tidy
  · exact h.listening.beside (.refl _ _) hrun
  · exact h.stdin.beside (.refl _ _) hrun
  · exact fun d => (h.attended d).beside (.refl d s) hks hrun

/-- A new connection waits for input, which is reported from the start. -/
theorem Tended.accept (h : Tended s κ p) {fd : Nat}
    (hks : (((s.sys (.accept fd)).sys (.add fd .input)).activate fd).calls = s.calls ++ ks)
    (hrun : κ.Run ks κ') :
    Tended (((s.sys (.accept fd)).sys (.add fd .input)).activate fd) κ' p := by
  have hcalls : (((s.sys (.accept fd)).sys (.add fd .input)).activate fd).calls =
      s.calls ++ ([.accept fd] ++ .add fd .input :: []) := calls_connect s fd
  obtain rfl := List.append_cancel_left (hks.symm.trans hcalls)
  have hwatched : κ'.Watched fd .input := by
    obtain ⟨_, _, _, hadd, hrest⟩ := hrun.at_call
    exact hrest.watched spares_nil (Kernel.watched_of_add hadd)
  have hnone : κ fd = none := by
    obtain ⟨_, _, hbefore, hacc, _⟩ := hrun.head
    exact hbefore.stays_open hacc.1
  have hsteps : StepsOn fd s (((s.sys (.accept fd)).sys (.add fd .input)).activate fd) :=
    .tail (.single (.call .accept)) .connect
  refine h.steps hsteps (fun he => h.listening.1 (he ▸ hnone)) (fun he => h.stdin.1 (he ▸ hnone))
    hks hrun (fun _ _ => id) ⟨fun hclosed => ?_, fun _ => ⟨?_, .input, ?_, hwatched.registered,
      fun _ => hwatched⟩⟩
  · obtain ⟨_, hsome, _⟩ := hwatched
    rw [hclosed] at hsome
    cases hsome
  · rw [slot_connect, if_pos rfl]
    exact wantClose_initial
  · have hout : (((s.sys (.accept fd)).grow fd).slot fd).outgoing = [] :=
      ((h.tidy.step (.call .accept)).slot_grow fd fd).2.2.trans (h.attended fd |>.unopened hnone).2
    rw [slot_connect, if_pos rfl]
    exact ⟨wantRead_initial, wantWrite_initial, iff_of_true hout rfl⟩

theorem Tended.acceptAllConnections (h : Tended s κ p) (answers : List AcceptAnswer)
    (hreg : ∀ d nonblocking registered,
      .conn d nonblocking registered ∈ answers → registered = true)
    (hrunning : s.status = .running)
    (hks : (s.acceptAllConnections answers).calls = s.calls ++ ks) (hrun : κ.Run ks κ')
    (hend : (s.acceptAllConnections answers).status = .running) :
    Tended (s.acceptAllConnections answers) κ' p := by
  induction answers generalizing s κ ks with
  | nil =>
    obtain rfl := List.append_cancel_left (hks.symm.trans (List.append_nil s.calls).symm)
    exact h.idle hrun
  | cons answer answers ih =>
    have hreg' : ∀ d nonblocking registered,
        .conn d nonblocking registered ∈ answers → registered = true :=
      fun d n r hmem => hreg d n r (List.mem_cons_of_mem _ hmem)
    cases answer with
    | fail e =>
      simp only [Server.acceptAllConnections] at hks hend ⊢
      split at hend
      · rename_i he
        rw [if_pos he] at hks ⊢
        obtain rfl := List.append_cancel_left (hks.symm.trans (List.append_nil s.calls).symm)
        exact h.idle hrun
      · cases hend
    | conn fd nonblocking registered =>
      obtain rfl := hreg fd nonblocking registered List.mem_cons_self
      cases nonblocking with
      | false => cases hend
      | true =>
        have hstatus : (((s.sys (.accept fd)).sys (.add fd .input)).activate fd).status =
            .running := (status_activate _ fd).trans hrunning
        have heq : s.acceptAllConnections (.conn fd true true :: answers) =
            (((s.sys (.accept fd)).sys (.add fd .input)).activate fd).acceptAllConnections
              answers := if_pos hstatus
        rw [heq] at hks hend ⊢
        obtain ⟨ks₁, hks₁⟩ := calls_grow (Relation.ReflTransGen.tail (.single ⟨fd, .call .accept⟩)
          ⟨fd, .connect⟩ : Steps s (((s.sys (.accept fd)).sys (.add fd .input)).activate fd))
        obtain ⟨ks₂, hks₂⟩ := calls_grow (acceptAllConnections_steps
          (s := ((s.sys (.accept fd)).sys (.add fd .input)).activate fd) answers)
        rw [hks₂, hks₁, List.append_assoc] at hks
        obtain rfl := List.append_cancel_left hks
        obtain ⟨κ₁, hrun₁, hrun₂⟩ := hrun.split
        exact ih (h.accept hks₁ hrun₁) hreg' hstatus hks₂ hrun₂ hend

end Accept

/-! ## The loop over the ready events -/

section Handle

variable {s : Server} {κ κ' : Kernel UInt8} {p : List Nat} {ks : List (Syscall UInt8)}

/-- After its event a connection that is still open faces what has been settled. -/
theorem Tended.attended_self {ev : Event} (h : Tended s κ (ev.fd :: p))
    (hks : (s.handleConnection ev).calls = s.calls ++ ks) (hrun : κ.Run ks κ')
    (hend : (s.handleConnection ev).status = .running) (Q : Prop) :
    Attended (s.handleConnection ev) κ' Q ev.fd := by
  have hself := h.attended ev.fd
  constructor
  · intro hnone
    obtain ⟨hflags, hout⟩ := hself.unopened (hrun.stays_open hnone)
    unfold Server.handleConnection
    rw [stages_skip hflags]
    rcases closeStage_cases s ev with hclose | ⟨hclose, _⟩ <;> rw [hclose]
    · rw [slot_removeConnection, if_pos rfl]
      exact ⟨rfl, hout⟩
    · exact ⟨hflags, hout⟩
  · intro hact
    unfold Server.handleConnection at hks hend hact ⊢
    rcases closeStage_cases ((s.readStage ev).writeStage ev) ev with hclose | ⟨hclose, hopen⟩
    · rw [hclose, slot_removeConnection, if_pos rfl, hasFlag_none] at hact
      cases hact
    · rw [hclose] at hks hend hact ⊢
      have hwas : hasFlag (s.slot ev.fd).flags .isActive = true := by
        by_contra hno
        have hflags := h.tidy.idle ev.fd (Bool.eq_false_iff.mpr hno)
        rw [stages_skip hflags] at hact
        exact hno hact
      obtain ⟨_, i, hi, hreg, _⟩ := hself.active hwas
      have hnot := (hopen hend).2
      cases stages_turned hi rfl hend with
      | closing hc => exact absurd (hnot.symm.trans hc) (by decide)
      | settled j ks' hj hks' hsettle =>
        obtain rfl := List.append_cancel_left (hks.symm.trans hks')
        have hwatched := hrun.watched_of_settles hsettle hreg
        exact ⟨hnot, j, hj, hwatched.registered, fun _ => hwatched⟩

theorem Tended.handleEvent {fd : Nat} {err : Bool} {script : Script} (h : Tended s κ (fd :: p))
    (hreg : ∀ d nonblocking registered,
      .conn d nonblocking registered ∈ script.accepts → registered = true)
    (hks : (s.handleEvent ⟨fd, err, script⟩).calls = s.calls ++ ks) (hrun : κ.Run ks κ')
    (hend : (s.handleEvent ⟨fd, err, script⟩).status = .running) :
    Tended (s.handleEvent ⟨fd, err, script⟩) κ' p := by
  have hskip : Reserved s κ fd → Tended s κ p := by
    intro hfd
    refine ⟨h.tidy, h.listening, h.stdin, fun d => ⟨(h.attended d).unopened, fun hact => ?_⟩⟩
    obtain ⟨hclose, i, hi, hr, hw⟩ := (h.attended d).active hact
    refine ⟨hclose, i, hi, hr, fun hq => hw fun hmem => ?_⟩
    rcases List.mem_cons.mp hmem with rfl | hmem
    · exact not_active_of_none hfd.2 hact
    · exact hq hmem
  obtain ⟨hrunning, hhandling⟩ := handleEvent_handling hend
  generalize s.handleEvent ⟨fd, err, script⟩ = t at hhandling hks hend ⊢
  cases hhandling with
  | accepting hl =>
    obtain rfl : fd = s.listenfd := hl
    exact (hskip h.listening).acceptAllConnections script.accepts hreg hrunning hks hrun hend
  | command h0 =>
    obtain rfl := List.append_cancel_left (hks.symm.trans (List.append_nil s.calls).symm)
    obtain rfl : fd = STDIN_FILENO := h0
    exact (hskip h.stdin).idle hrun
  | connection hl h0 =>
    refine h.steps (handleConnection_steps s ⟨fd, err, script⟩) hl h0 hks hrun ?_
      (h.attended_self hks hrun hend _)
    intro d hd hmem hin
    rcases List.mem_cons.mp hin with rfl | hin
    · exact hd rfl
    · exact hmem hin

end Handle

theorem Tended.disarms {s : Server} {κ κ' : Kernel UInt8} {p : List Nat} (h : Tended s κ [])
    (hwait : κ.Disarms p κ') : Tended s κ' p := by
  refine ⟨h.tidy, ⟨fun hn => h.listening.1 (hwait.stays_open hn), h.listening.2⟩,
    ⟨fun hn => h.stdin.1 (hwait.stays_open hn), h.stdin.2⟩, fun d => ?_⟩
  refine ⟨fun hn => (h.attended d).unopened (hwait.stays_open hn), fun hact => ?_⟩
  obtain ⟨hclose, i, hi, hr, hw⟩ := (h.attended d).active hact
  exact ⟨hclose, i, hi, hwait.registered hr, fun hq => hwait.watched hq (hw List.not_mem_nil)⟩

/-- As long as the process runs, every move keeps everything tended. -/
theorem World.Moves.tended {w w' : World} (hmove : World.Moves w w')
    (h : w.server.status = .running → Tended w.server w.kernel (w.collected.map Prod.fst))
    (hend : w'.server.status = .running) :
    Tended w'.server w'.kernel (w'.collected.map Prod.fst) := by
  cases hmove with
  | net hnet => exact (h hend).idle (.net hnet (.done _))
  | wait hrunning _ hdisarm => exact (h hrunning).disarms hdisarm
  | @handle s κ κ' fd err p script ks hreg hks hrun =>
    exact (h (handleEvent_handling hend).1).handleEvent hreg hks hrun hend

/-- The world when `main` enters its loop: standard input and the listening socket are
open, and accepted connections will be other descriptors. -/
structure World.Boots (capacity listenfd : Nat) (db : Db) (w : World) : Prop where
  server : w.server = .boot capacity listenfd db
  listening : w.kernel listenfd ≠ none
  stdin : w.kernel STDIN_FILENO ≠ none
  collected : w.collected = []

theorem World.tended {capacity listenfd : Nat} {db : Db} {w₀ w : World}
    (hboot : w₀.Boots capacity listenfd db) (h : Relation.ReflTransGen World.Moves w₀ w) :
    w.server.status = .running → Tended w.server w.kernel (w.collected.map Prod.fst) := by
  induction h with
  | refl =>
    intro _
    obtain ⟨server, kernel, collected⟩ := w₀
    obtain ⟨rfl, hlisten, hstdin, rfl⟩ := hboot
    refine ⟨tidy_boot _ _ _, ⟨hlisten, rfl⟩, ⟨hstdin, rfl⟩, fun d => ⟨fun _ => ⟨rfl, rfl⟩, ?_⟩⟩
    exact fun hact => absurd hact (not_active_of_none rfl)
  | tail _ hmove ih => exact hmove.tended ih

/-- Input is wanted, and will be reported. -/
def World.AwaitsInput (w : World) (c : Nat) : Prop :=
  hasFlag (w.server.slot c).flags .wantRead = true ∧
    hasFlag (w.server.slot c).flags .wantWrite = false ∧ (w.server.slot c).outgoing = [] ∧
    w.kernel.Watched c .input

/-- There is output left, and room for it will be reported. -/
def World.AwaitsOutput (w : World) (c : Nat) : Prop :=
  hasFlag (w.server.slot c).flags .wantWrite = true ∧
    hasFlag (w.server.slot c).flags .wantRead = false ∧ (w.server.slot c).outgoing ≠ [] ∧
    w.kernel.Watched c .output

/-- **No lost wake-up.** In every reachable state in which control is at `epoll_wait`,
every active connection either wants input, has nothing to write, is registered for input
and armed if there is any, or wants output, has something to write, is registered for
output and armed if there is room; and no connection is left to be closed. -/
theorem no_lost_wakeup {capacity listenfd : Nat} {db : Db} {w₀ w : World}
    (hboot : w₀.Boots capacity listenfd db) (h : Relation.ReflTransGen World.Moves w₀ w)
    (hwait : w.collected = []) (hrun : w.server.status = .running) (c : Nat) :
    hasFlag (w.server.slot c).flags .wantClose = false ∧
      (hasFlag (w.server.slot c).flags .isActive = true →
        Xor (w.AwaitsInput c) (w.AwaitsOutput c)) := by
  have htended := World.tended hboot h hrun
  constructor
  · by_cases hact : hasFlag (w.server.slot c).flags .isActive = true
    · exact ((htended.attended c).active hact).1
    · rw [htended.tidy.idle c (Bool.eq_false_iff.mpr hact), hasFlag_none]
  · intro hact
    obtain ⟨_, i, hi, _, hw⟩ := (htended.attended c).active hact
    have hwatched : w.kernel.Watched c i := hw (by rw [hwait]; exact List.not_mem_nil)
    cases i with
    | input =>
      refine .inl ⟨⟨hi.wantRead, hi.wantWrite, hi.outgoing.mpr rfl, hwatched⟩, fun hout => ?_⟩
      exact hout.2.2.1 (hi.outgoing.mpr rfl)
    | output =>
      have hne : (w.server.slot c).outgoing ≠ [] := fun hnil => by
        cases hi.outgoing.mp hnil
      exact .inr ⟨⟨hi.wantWrite, hi.wantRead, hne, hwatched⟩, fun hin => hne hin.2.2.1⟩

/-! ## A run with output pending -/

/-- Standard input, the listening socket, and perhaps descriptor 5. -/
def smallKernel (armed : Bool) (five : Option (EdgeTrigger.Sock UInt8)) : Kernel UInt8 := fun fd =>
  if fd = 5 then five else if fd = 3 then some ⟨[0], false, true, some .input, armed⟩
  else if fd = STDIN_FILENO then some ⟨[], false, false, some .input, false⟩ else none

theorem sets_five {armed : Bool} {five : Option (EdgeTrigger.Sock UInt8)}
    (t : EdgeTrigger.Sock UInt8) :
    (smallKernel armed five).Sets 5 t (smallKernel armed (some t)) :=
  ⟨rfl, fun d hd => by simp [smallKernel, hd]⟩

def firstAccept : Event := ⟨3, false, { accepts := [.conn 5 true true] }⟩

/-- An unknown command, whose response the socket takes four bytes of. -/
def firstCommand : Event :=
  ⟨5, false, { reads := [.bytes [1, 9, 0, 0, 0, 0, 1, 42]], writes := [.took 3, .fail .EAGAIN] }⟩

def pendingWorld : World where
  server := ((Server.boot 8 3 .empty).handleEvent firstAccept).handleEvent firstCommand
  kernel := smallKernel false (some ⟨[], false, false, some .output, true⟩)
  collected := []

theorem moves_accepted : Relation.ReflTransGen World.Moves
    ⟨.boot 8 3 .empty, smallKernel true none, []⟩
    ⟨(Server.boot 8 3 .empty).handleEvent firstAccept,
      smallKernel false (some ⟨[], false, true, some .input, false⟩), []⟩ := by
  have hwait : World.Moves ⟨.boot 8 3 .empty, smallKernel true none, []⟩
      ⟨.boot 8 3 .empty, smallKernel false none, [(3, false)]⟩ := by
    refine .wait rfl (fun e he => ?_) fun d => ?_
    · obtain rfl := List.mem_singleton.mp he
      exact ⟨_, .input, rfl, rfl, .inr ⟨rfl, .inl (by simp)⟩⟩
    · by_cases hd : d = 3
      · subst hd
        rfl
      · simp [smallKernel, hd]
  have haccept : (smallKernel false none).Answers (.accept 5)
      (smallKernel false (some ⟨[], false, true, none, false⟩)) :=
    ⟨rfl, _, rfl, rfl, sets_five _⟩
  have hadd : (smallKernel false (some ⟨[], false, true, none, false⟩)).Answers (.add 5 .input)
      (smallKernel false (some ⟨[], false, true, some .input, false⟩)) :=
    ⟨_, ⟨[], false, true, some .input, false⟩, rfl, rfl,
      ⟨rfl, rfl, rfl, rfl, by simp [EdgeTrigger.Sock.Ready], fun _ => rfl⟩, sets_five _⟩
  have hhandle : World.Moves ⟨.boot 8 3 .empty, smallKernel false none, [(3, false)]⟩
      ⟨(Server.boot 8 3 .empty).handleEvent firstAccept,
        smallKernel false (some ⟨[], false, true, some .input, false⟩), []⟩ := by
    refine .handle ?_ (by decide +kernel : _ = _ ++ [.accept 5, .add 5 .input])
      (.call haccept (.call hadd (.done _)))
    intro d nonblocking registered hmem
    simp only [List.mem_singleton, AcceptAnswer.conn.injEq] at hmem
    exact hmem.2.2
  exact .tail (.single hwait) hhandle

theorem moves_pendingWorld : Relation.ReflTransGen World.Moves
    ⟨.boot 8 3 .empty, smallKernel true none, []⟩ pendingWorld := by
  let s := (Server.boot 8 3 .empty).handleEvent firstAccept
  let frame : Bytes := [1, 9, 0, 0, 0, 0, 1, 42]
  let sock (queue : Bytes) (writable : Bool) (i : Interest) (armed : Bool) :=
    smallKernel false (some ⟨queue, false, writable, some i, armed⟩)
  have harrive : (sock [] true .input false).Net (sock frame true .input true) :=
    ⟨5, _, ⟨frame, false, true, some .input, true⟩, rfl,
      ⟨List.nil_prefix, id, rfl, fun _ => rfl, fun _ _ _ _ => rfl⟩, sets_five _⟩
  have hwait : World.Moves ⟨s, sock frame true .input true, []⟩
      ⟨s, sock frame true .input false, [(5, false)]⟩ := by
    refine .wait (by decide +kernel) (fun e he => ?_) fun d => ?_
    · obtain rfl := List.mem_singleton.mp he
      exact ⟨_, .input, rfl, rfl, .inr ⟨rfl, .inl (by simp [frame])⟩⟩
    · by_cases hd : d = 5
      · subst hd
        rfl
      · simp [sock, smallKernel, hd]
  have hread : (sock frame true .input false).Answers (.read 5 (.bytes frame))
      (sock [] true .input false) := ⟨_, [], rfl, rfl, sets_five _⟩
  have hmodify : (sock [] true .input false).Answers (.modify 5 .output)
      (sock [] true .output true) :=
    ⟨_, ⟨[], false, true, some .output, true⟩, rfl, by simp,
      ⟨rfl, rfl, rfl, rfl, fun _ => rfl, by simp [EdgeTrigger.Sock.Ready]⟩, sets_five _⟩
  have hfull : (sock [] true .output true).Net (sock [] false .output true) :=
    ⟨5, _, ⟨[], false, false, some .output, true⟩, rfl,
      ⟨List.nil_prefix, id, rfl, fun _ => rfl, fun _ _ _ _ => rfl⟩, sets_five _⟩
  have hserve : World.Moves ⟨s, sock frame true .input false, [(5, false)]⟩ pendingWorld := by
    refine .handle (by simp) (by decide +kernel : _ = _ ++ [.read 5 (.bytes frame),
      .read 5 (.fail .EAGAIN), .modify 5 .output, .write 5 (.bytes [1, 9, 6, 0]),
      .write 5 (.fail .EAGAIN)]) ?_
    exact .call hread (.call ⟨_, rfl, rfl, rfl, rfl⟩ (.call hmodify
      (.call ⟨_, rfl, rfl, rfl⟩ (.net hfull (.call ⟨_, rfl, rfl, rfl⟩ (.done _))))))
  exact .tail (.tail (.tail moves_accepted (.net harrive)) hwait) hserve

theorem no_lost_wakeup_pending :
    Xor (pendingWorld.AwaitsInput 5) (pendingWorld.AwaitsOutput 5) ∧
      (pendingWorld.server.slot 5).outgoing ≠ [] := by
  refine ⟨(no_lost_wakeup ⟨rfl, ?_, ?_, rfl⟩
    moves_pendingWorld rfl ?_ 5).2 ?_, ?_⟩
  · decide +kernel
  · decide +kernel
  · decide +kernel
  · decide +kernel
  · decide +kernel

end ChatServer
