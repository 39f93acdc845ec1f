import Mathlib.Logic.Function.Basic
import ChatServer.Model.Startup

/-!
# What a process holds while it starts

The descriptors of a process, followed through the calls it makes. The server asks for nothing that
a descriptor is not ready for, whatever fails and wherever a signal stops it; in its loop it has the
listening socket, the epoll instance and the table, and nothing else is left over.
-/

namespace ChatServer

open Calls

/-! ## The calls as a protocol -/

inductive FdKind where
  | standard
  | created
  | bound (addr : Bytes)
  | listening (addr : Bytes)
  | connected (addr : Bytes)
  | epoll
  deriving DecidableEq, Repr

/-- What the descriptors are, which of them do not block, which the epoll instance watches, and of
which a `close` has failed; whether the address list is allocated; the global `listenfd`; and the
table. -/
structure Process where
  kind : Nat → Option FdKind
  nonblocking : List Nat
  watched : List Nat
  stuck : List Nat
  addrs : Bool
  listenfd : Option Nat
  table : Option DbFile

namespace Process

/-- Only the three standard descriptors are open. -/
def start : Process where
  kind fd := if fd < 3 then some .standard else none
  nonblocking := []
  watched := []
  stuck := []
  addrs := false
  listenfd := none
  table := none

def turn (p : Process) (fd : Nat) (k : Option FdKind) : Process :=
  { p with kind := Function.update p.kind fd k }

/-- What a call makes of a process. -/
def after (p : Process) : Call → Process
  | .createTable path => { p with table := some path }
  | .getaddrinfo => { p with addrs := true }
  | .freeaddrinfo => { p with addrs := false }
  | .socket fd => p.turn fd (some .created)
  | .bind fd addr => p.turn fd (some (.bound addr))
  | .nonblock fd => { p with nonblocking := fd :: p.nonblocking }
  | .listen fd =>
    match p.kind fd with
    | some (.bound addr) => p.turn fd (some (.listening addr))
    | _ => p
  | .connect fd addr => p.turn fd (some (.connected addr))
  | .close fd =>
    { p.turn fd none with
      nonblocking := p.nonblocking.filter (· ≠ fd), watched := p.watched.filter (· ≠ fd) }
  | .closeFailed fd => { p with stuck := fd :: p.stuck }
  | .assign fd => { p with listenfd := some fd }
  | .epollCreate fd => p.turn fd (some .epoll)
  | .watch _ fd => { p with watched := fd :: p.watched }
  | .closeDb => { p with table := none }
  | .removeTestDb => p

/-- A new descriptor is one that was not open. -/
def Promises (p : Process) : Call → Prop
  | .socket fd => p.kind fd = none
  | .epollCreate fd => p.kind fd = none
  | _ => True

/-- What may be asked before the loop. -/
def Permits (p : Process) : Call → Prop
  | .createTable _ => p.table = none
  | .getaddrinfo => p.addrs = false
  | .freeaddrinfo => p.addrs = true
  | .socket _ => True
  | .bind fd _ => p.kind fd = some .created
  | .nonblock fd => p.kind fd ≠ none
  | .listen fd => fd ∈ p.nonblocking ∧ ∃ addr, p.kind fd = some (.bound addr)
  | .connect fd _ => p.kind fd = some .created
  | .close fd => p.kind fd ≠ none ∧ p.kind fd ≠ some .standard ∧ p.listenfd ≠ some fd
  | .closeFailed fd => p.kind fd ≠ none ∧ p.kind fd ≠ some .standard ∧ p.listenfd ≠ some fd
  | .assign fd => fd ∈ p.nonblocking ∧ ∃ addr, p.kind fd = some (.listening addr)
  | .epollCreate _ => True
  | .watch epollfd fd => p.kind epollfd = some .epoll ∧ p.kind fd ≠ none ∧ fd ∈ p.nonblocking
  | .closeDb => False
  | .removeTestDb => False

section Turn

variable (p : Process) (fd : Nat) (k k' : Option FdKind)

@[simp] theorem kind_turn (d : Nat) : (p.turn fd k).kind d = if d = fd then k else p.kind d :=
  Function.update_apply ..

@[simp] theorem turn_turn : (p.turn fd k).turn fd k' = p.turn fd k' := by
  unfold turn
  rw [Function.update_idem]

variable {p fd k}

theorem after_listen {addr : Bytes} (h : p.kind fd = some (.bound addr)) :
    p.after (.listen fd) = p.turn fd (some (.listening addr)) := by
  rw [after, h]

theorem turn_eq_self (h : p.kind fd = k) : p.turn fd k = p := by
  subst h
  unfold turn
  rw [Function.update_eq_self]

/-- One descriptor is all that is turned. -/
theorem eq_of_kind_turn {d : Nat} (h : (p.turn fd k).kind d ≠ p.kind d) : d = fd := by
  by_contra hne
  exact h ((p.kind_turn fd k d).trans (if_neg hne))

/-- A socket that is not published may be closed. -/
theorem may_close {socket : FdKind} (hkind : p.kind fd = some socket) (hsocket : socket ≠ .standard)
    (hlistenfd : p.listenfd = none) :
    p.kind fd ≠ none ∧ p.kind fd ≠ some .standard ∧ p.listenfd ≠ some fd := by
  rw [hkind, hlistenfd]
  exact ⟨Option.some_ne_none _, fun h => hsocket (Option.some.inj h),
    Option.some_ne_none fd ∘ Eq.symm⟩

end Turn

end Process

/-- The calls in front of the loop. -/
def startup : Protocol Call Process := ⟨Process.after, Process.Promises, Process.Permits⟩

/-! ## The listening socket -/

/-- No socket of this address stays. -/
def AddrInfo.Passed (p : AddrInfo) : Prop := p.socket = none ∨ p.bind = false ∧ p.close = true

/-- The first address that a socket can be bound to, with the socket, if the sockets of those before
it could be closed. -/
inductive Chooses (fd : Nat) (addr : Bytes) : List AddrInfo → Prop where
  | here {p listp} : p.socket = some fd → p.bind = true → p.addr = addr →
      Chooses fd addr (p :: listp)
  | later {p listp} : p.Passed → Chooses fd addr listp → Chooses fd addr (p :: listp)

/-- How the search leaves a process that had no socket. -/
def Searched (listp : List AddrInfo) (p : Process) : Except Int Search → Process → Prop
  | .ok (.bound fd), q =>
    ∃ addr, Chooses fd addr listp ∧ p.kind fd = none ∧ q = p.turn fd (some (.bound addr))
  | .ok .closeError, q =>
    ∃ fd, q = { p.turn fd (some .created) with stuck := [fd] }
  | .ok .exhausted, q => q = p
  | .error _, _ => False

/-- A process that has opened nothing yet. -/
structure Process.Idle (p : Process) : Prop where
  kind : p.kind = start.kind
  nonblocking : p.nonblocking = []
  watched : p.watched = []
  stuck : p.stuck = []
  listenfd : p.listenfd = none

section Search

variable {p : Process} {fd : Nat}

theorem Searched.later {a : AddrInfo} {listp : List AddrInfo} {r : Except Int Search} {q : Process}
    (h : Searched listp p r q) (ha : a.Passed) : Searched (a :: listp) p r q := by
  cases r with
  | error code => exact h
  | ok search =>
    cases search with
    | bound fd =>
      obtain ⟨addr, hchoice, hq⟩ := h
      exact ⟨addr, .later ha hchoice, hq⟩
    | closeError => exact h
    | exhausted => exact h

/-- A new socket that is closed again leaves nothing. -/
theorem Process.Idle.reclosed (hp : p.Idle) (hfd : p.kind fd = none) :
    (p.after (.socket fd)).after (.close fd) = p := by
  have hkind : (p.turn fd (some .created)).turn fd none = p := by
    rw [turn_turn, turn_eq_self hfd]
  have hnonblocking : p.nonblocking.filter (· ≠ fd) = p.nonblocking := by rw [hp.nonblocking]; rfl
  have hwatched : p.watched.filter (· ≠ fd) = p.watched := by rw [hp.watched]; rfl
  show { (p.turn fd (some .created)).turn fd none with
    nonblocking := p.nonblocking.filter (· ≠ fd), watched := p.watched.filter (· ≠ fd) } = p
  rw [hkind, hnonblocking, hwatched]

/-- The loop over the addresses, by induction on what is left of them: no socket is open at the
top of it. -/
theorem bindFirst_does (listp : List AddrInfo) (hp : p.Idle) :
    startup.Does p (bindFirst listp) (Searched listp p) := by
  induction listp with
  | nil => exact Protocol.does_value rfl
  | cons a listp ih =>
    rw [bindFirst]
    cases hs : a.socket with
    | none => exact ih.weaken fun r q h => h.later (.inl hs)
    | some fd =>
      refine Protocol.does_call_bind (fun _ => trivial) fun hfree => ?_
      have hopen : (p.after (.socket fd)).kind fd = some .created := by simp [Process.after]
      have hmay := Process.may_close hopen (by decide) hp.listenfd
      cases hb : a.bind with
      | true =>
        refine Protocol.does_call_bind (fun _ => hopen) fun _ => Protocol.does_value ?_
        exact ⟨a.addr, .here hs hb rfl, hfree, Process.turn_turn ..⟩
      | false =>
        cases hc : a.close with
        | true =>
          refine Protocol.does_call_bind (fun _ => hmay) fun _ => ?_
          show startup.Does ((p.after (.socket fd)).after (.close fd)) _ _
          rw [hp.reclosed hfree]
          exact ih.weaken fun r q h => h.later (.inr ⟨hb, hc⟩)
        | false =>
          refine Protocol.does_call_bind (fun _ => hmay) fun _ => Protocol.does_value ?_
          refine ⟨fd, ?_⟩
          show { p.turn fd (some .created) with stuck := fd :: p.stuck } = _
          rw [hp.stuck]

end Search

section Listen

variable {p : Process} {fd : Nat} {sc : StartScript}

/-- The descriptor does not block then, or the process has ended. -/
theorem setNonblockingFd_does (answer : FcntlAnswer) (hfd : p.kind fd ≠ none) :
    startup.Does p (setNonblockingFd fd answer) fun r q =>
      match r with
      | .ok _ => q = p.after (.nonblock fd)
      | .error code => code = -1 := by
  unfold setNonblockingFd
  split
  · exact Protocol.does_exit rfl
  · split
    · exact Protocol.does_exit rfl
    · exact Protocol.does_call (fun _ => hfd) fun _ => rfl

/-- How `open_listenfd` leaves a process that had no socket: with the listening socket, or with
those sockets only of which the `close` has failed. -/
def Opened (sc : StartScript) (p : Process) : Except Int (Option Nat) → Process → Prop
  | .ok (some fd), q => ∃ listp addr, sc.getaddrinfo = some listp ∧ Chooses fd addr listp ∧
      p.kind fd = none ∧ q = { p.turn fd (some (.listening addr)) with nonblocking := [fd] }
  | .ok none, q => (∀ d, q.kind d ≠ p.kind d → d ∈ q.stuck) ∧ (q.addrs = true → q.stuck ≠ []) ∧
      q.listenfd = none
  | .error code, _ => code = -1

/-- Nothing was left, or nothing but a socket whose `close` has failed. -/
theorem opened_none {q : Process} (hkind : ∀ d, q.kind d ≠ p.kind d → d ∈ q.stuck)
    (haddrs : q.addrs = true → q.stuck ≠ []) (hq : q.listenfd = none) : Opened sc p (.ok none) q :=
  ⟨hkind, haddrs, hq⟩

/-- The bound socket is made to listen. -/
theorem Process.Idle.listened (hp : p.Idle) (fd : Nat) (addr : Bytes) :
    (((p.after .getaddrinfo).turn fd (some (.bound addr))).after (.nonblock fd)).after
      (.listen fd) =
    { p.turn fd (some (.listening addr)) with nonblocking := [fd], addrs := true } := by
  have hbound : (((p.after .getaddrinfo).turn fd (some (.bound addr))).after (.nonblock fd)).kind
      fd = some (.bound addr) := Function.update_self ..
  rw [after_listen hbound]
  show { (p.turn fd (some (.bound addr))).turn fd (some (.listening addr)) with
    nonblocking := fd :: p.nonblocking, addrs := true } = _
  rw [turn_turn, hp.nonblocking]

theorem listenOn_does {listp : List AddrInfo} {addr : Bytes} (hp : p.Idle)
    (haddrs : p.addrs = false) (hlist : sc.getaddrinfo = some listp)
    (hchoice : Chooses fd addr listp) (hfree : p.kind fd = none) :
    startup.Does ((p.after .getaddrinfo).turn fd (some (.bound addr))) (listenOn fd sc)
      (Opened sc p) := by
  have hopen : ((p.after .getaddrinfo).turn fd (some (.bound addr))).kind fd =
      some (.bound addr) := by simp
  refine (setNonblockingFd_does sc.listenFcntl (by rw [hopen]; simp)).bind
    (fun _ q hq => ?_) fun code q hq => hq
  obtain rfl := hq
  cases hlisten : sc.listen with
  | false =>
    refine Protocol.does_call_bind (fun _ => rfl) fun _ => ?_
    have hmay := Process.may_close hopen (fun h => by cases h) hp.listenfd
    -- The result of the last `close` does not matter to the caller.
    cases hclose : sc.listenClose with
    | true =>
      refine Protocol.does_call_bind (fun _ => hmay) fun _ => Protocol.does_value ?_
      refine opened_none (fun d hd => absurd ?_ hd) (fun h => by cases h) hp.listenfd
      show ((p.turn fd (some (.bound addr))).turn fd none).kind d = p.kind d
      rw [Process.turn_turn, Process.turn_eq_self hfree]
    | false =>
      refine Protocol.does_call_bind (fun _ => hmay) fun _ => Protocol.does_value ?_
      exact opened_none (fun d hd => List.mem_cons.mpr (.inl (Process.eq_of_kind_turn hd)))
        (fun h => by cases h) hp.listenfd
  | true =>
    refine Protocol.does_call_bind (fun _ => ⟨List.mem_cons_self, addr, hopen⟩) fun _ => ?_
    show startup.Does ((((p.after .getaddrinfo).turn fd (some (.bound addr))).after
      (.nonblock fd)).after (.listen fd)) _ _
    rw [hp.listened]
    refine Protocol.does_call_bind (fun _ => rfl) fun _ => Protocol.does_value ?_
    refine ⟨listp, addr, hlist, hchoice, hfree, ?_⟩
    show { p.turn fd (some (.listening addr)) with nonblocking := [fd], addrs := false } = _
    rw [← haddrs]
    rfl

theorem openListenfd_does (hp : p.Idle) (haddrs : p.addrs = false) :
    startup.Does p (openListenfd sc) (Opened sc p) := by
  unfold openListenfd
  cases hlist : sc.getaddrinfo with
  | none =>
    refine Protocol.does_value (opened_none (fun d h => absurd rfl h) ?_ hp.listenfd)
    rw [haddrs]
    exact fun h => absurd h (by decide)
  | some listp =>
    refine Protocol.does_call_bind (fun _ => haddrs) fun _ => ?_
    have hidle : (p.after .getaddrinfo).Idle := ⟨hp.1, hp.2, hp.3, hp.4, hp.5⟩
    refine (bindFirst_does listp hidle).bind (fun search q hq => ?_) fun code q hq => hq.elim
    cases search with
    | closeError =>
      obtain ⟨fd, rfl⟩ := hq
      exact Protocol.does_value (opened_none
        (fun d hd => List.mem_singleton.mpr (Process.eq_of_kind_turn hd)) (fun _ => by simp)
        hp.listenfd)
    | exhausted =>
      subst hq
      refine Protocol.does_call_bind (fun _ => rfl) fun _ => Protocol.does_value ?_
      exact opened_none (fun d h => absurd rfl h) (fun h => by cases h) hp.listenfd
    | bound fd =>
      obtain ⟨addr, hchoice, hfree, rfl⟩ := hq
      exact listenOn_does hp haddrs hlist hchoice hfree

end Listen

/-! ## The server up to its loop -/

/-- The table that the command line asks for. -/
def DbFile.ofTest (isTest : Int) : DbFile := if isTest ≠ 0 then .test else .app

/-- What the server has in its loop. -/
structure Ready (sc : StartScript) (path : DbFile) (listenfd : Nat) (q : Process) : Prop where
  choice : ∃ listp addr, sc.getaddrinfo = some listp ∧ Chooses listenfd addr listp ∧
    q.kind listenfd = some (.listening addr)
  epoll : ∃ epollfd, epollfd ≠ listenfd ∧ q.kind epollfd = some .epoll ∧
    ∀ d, d ≠ listenfd → d ≠ epollfd → q.kind d = Process.start.kind d
  watched : q.watched = match path with
    | .app => [STDIN_FILENO, listenfd]
    | .test => [listenfd]
  nonblocking : q.nonblocking = q.watched
  stuck : q.stuck = []
  addrs : q.addrs = false
  listenfd : q.listenfd = some listenfd
  table : q.table = some path

section Main

variable {sc : StartScript}

theorem idle_start : Process.start.Idle := ⟨rfl, rfl, rfl, rfl, rfl⟩

theorem initDb_does (path : DbFile) :
    startup.Does .start (initDb path sc) fun r q =>
      r = .ok 0 ∧ q = Process.start.after (.createTable path) ∨ r = .ok (-1) ∧ q = .start := by
  unfold initDb
  split
  · exact Protocol.does_value (.inr ⟨rfl, rfl⟩)
  · split
    · exact Protocol.does_value (.inr ⟨rfl, rfl⟩)
    · exact Protocol.does_call_bind (fun _ => rfl) fun _ => Protocol.does_value (.inl ⟨rfl, rfl⟩)

theorem initServer_does (isTest : Int) :
    startup.Does .start (initServer isTest sc)
      (Opened sc (Process.start.after (.createTable (.ofTest isTest)))) := by
  have hdb : startup.Does .start (if isTest ≠ 0 then initDb .test sc else initDb .app sc) fun r q =>
      r = .ok 0 ∧ q = Process.start.after (.createTable (.ofTest isTest)) ∨
        r = .ok (-1) ∧ q = .start := by
    unfold DbFile.ofTest
    split
    · exact initDb_does .test
    · exact initDb_does .app
  refine hdb.bind (fun rc q hq => ?_) fun code q hq => ?_
  · obtain ⟨hrc, rfl⟩ | ⟨hrc, rfl⟩ := hq
    · obtain rfl := Except.ok.inj hrc
      exact openListenfd_does ⟨rfl, rfl, rfl, rfl, rfl⟩ rfl
    · obtain rfl := Except.ok.inj hrc
      exact Protocol.does_value (opened_none (fun d h => absurd rfl h) (fun h => by cases h) rfl)
  · obtain ⟨h, _⟩ | ⟨h, _⟩ := hq <;> cases h

/-- Beside the standard descriptors there are the listening socket and the epoll instance. -/
structure Polled (addr : Bytes) (listenfd epollfd : Nat) (q : Process) : Prop where
  ne : epollfd ≠ listenfd
  epoll : q.kind epollfd = some .epoll
  listening : q.kind listenfd = some (.listening addr)
  others : ∀ d, d ≠ listenfd → d ≠ epollfd → q.kind d = Process.start.kind d

/-- The new descriptor is none of those that are open. -/
theorem polled_turn {p : Process} {addr : Bytes} {listenfd epollfd : Nat}
    (hp : p.kind = Process.start.kind)
    (hnew : (p.turn listenfd (some (.listening addr))).kind epollfd = none) :
    Polled addr listenfd epollfd
      ((p.turn listenfd (some (.listening addr))).turn epollfd (some .epoll)) := by
  have hne : epollfd ≠ listenfd := by
    rintro rfl
    rw [Process.kind_turn, if_pos rfl] at hnew
    cases hnew
  refine ⟨hne, ?_, ?_, fun d hl he => ?_⟩
  · rw [Process.kind_turn, if_pos rfl]
  · rw [Process.kind_turn, if_neg (Ne.symm hne), Process.kind_turn, if_pos rfl]
  · rw [Process.kind_turn, if_neg he, Process.kind_turn, if_neg hl, hp]

theorem Polled.stdin {addr : Bytes} {listenfd epollfd : Nat} {q : Process}
    (h : Polled addr listenfd epollfd q) : q.kind STDIN_FILENO ≠ none := by
  intro hnone
  by_cases hl : STDIN_FILENO = listenfd
  · rw [hl, h.listening] at hnone
    cases hnone
  · by_cases he : STDIN_FILENO = epollfd
    · rw [he, h.epoll] at hnone
      cases hnone
    · rw [h.others _ hl he] at hnone
      cases hnone

/-- The epoll instance, and what it watches. -/
theorem watchFds_does {listp : List AddrInfo} {addr : Bytes} {listenfd : Nat} (isTest : Int)
    (hlist : sc.getaddrinfo = some listp) (hchoice : Chooses listenfd addr listp) :
    let p := Process.start.after (.createTable (.ofTest isTest))
    startup.Does { p.turn listenfd (some (.listening addr)) with nonblocking := [listenfd] }
      (watchFds listenfd isTest sc) fun r q =>
        match r with
        | .ok fd => fd = listenfd ∧ Ready sc (.ofTest isTest) listenfd q
        | .error code => code = -1 := by
  intro p
  refine Protocol.does_call_bind (fun _ => ⟨List.mem_cons_self, addr, ?_⟩) fun _ => ?_
  · exact (p.kind_turn listenfd _ listenfd).trans (if_pos rfl)
  cases hepoll : sc.epollCreate with
  | none => exact Protocol.does_exit rfl
  | some epollfd =>
    refine Protocol.does_call_bind (fun _ => trivial) fun hnew => ?_
    have hpolled : Polled addr listenfd epollfd
        ((p.turn listenfd (some (.listening addr))).turn epollfd (some .epoll)) :=
      polled_turn rfl hnew
    split
    · exact Protocol.does_exit rfl
    · refine Protocol.does_call_bind (fun _ => ⟨hpolled.epoll, ?_, List.mem_cons_self⟩) fun _ => ?_
      · exact fun h => by cases hpolled.listening.symm.trans h
      split
      · rename_i htest
        have hpath : DbFile.ofTest isTest = .app := if_neg (not_not.mpr htest)
        refine (setNonblockingFd_does sc.stdinFcntl ?_).bind (fun _ q hq => ?_)
          fun code q hq => hq
        · exact hpolled.stdin
        obtain rfl := hq
        split
        · exact Protocol.does_exit rfl
        · refine Protocol.does_call_bind (fun _ => ⟨hpolled.epoll, hpolled.stdin, ?_⟩) fun _ => ?_
          · exact List.mem_cons_self
          refine Protocol.does_value ⟨rfl, ⟨listp, addr, hlist, hchoice, hpolled.listening⟩,
            ⟨epollfd, hpolled.ne, hpolled.epoll, hpolled.others⟩, ?_, rfl, rfl, rfl, rfl, rfl⟩
          rw [hpath]
          rfl
      · rename_i htest
        have hpath : DbFile.ofTest isTest = .test := if_pos htest
        refine Protocol.does_value ⟨rfl, ⟨listp, addr, hlist, hchoice, hpolled.listening⟩,
          ⟨epollfd, hpolled.ne, hpolled.epoll, hpolled.others⟩, ?_, rfl, rfl, rfl, rfl, rfl⟩
        rw [hpath]
        rfl

theorem serverMain_does (argv : List Bytes) :
    startup.Does .start (serverMain argv sc) fun r q =>
      match r with
      | .ok listenfd => ∃ a port isTest logging, argv = [a, port, isTest, logging] ∧
          Ready sc (.ofTest (atoi isTest)) listenfd q
      | .error code => code = -1 := by
  unfold serverMain
  split
  · rename_i a port isTest logging
    split
    · exact Protocol.does_exit rfl
    · refine (initServer_does (atoi isTest)).bind (fun opened q hq => ?_) fun code q hq => hq
      cases opened with
      | none => exact Protocol.does_exit rfl
      | some listenfd =>
        obtain ⟨listp, addr, hlist, hchoice, _, rfl⟩ := hq
        refine (watchFds_does (atoi isTest) hlist hchoice).weaken fun r q hq => ?_
        cases r with
        | ok fd =>
          obtain ⟨rfl, hready⟩ := hq
          exact ⟨a, port, isTest, logging, rfl, hready⟩
        | error code => exact hq
  · exact Protocol.does_exit rfl

end Main

/-! ## The client -/

/-- How `create_client_connection` leaves a process that had no socket. -/
def Connected (p : Process) : Except Int (Option Nat) → Process → Prop
  | .ok (some fd), q => ∃ addr, p.kind fd = none ∧ q = p.turn fd (some (.connected addr))
  | .ok none, q => ∀ d, q.kind d ≠ p.kind d → d ∈ q.stuck
  | .error _, _ => False

/-- The client's socket is connected, or it is closed again. -/
theorem createClientConnection_does {p : Process} {sc : ConnectScript} (hp : p.Idle) :
    startup.Does p (createClientConnection sc) (Connected p) := by
  unfold createClientConnection
  cases hs : sc.socket with
  | none => exact Protocol.does_value fun d h => absurd rfl h
  | some fd =>
    refine Protocol.does_call_bind (fun _ => trivial) fun hfree => ?_
    have hopen : (p.after (.socket fd)).kind fd = some .created := by simp [Process.after]
    have hmay := Process.may_close hopen (by decide) hp.listenfd
    have hgiveUp : startup.Does (p.after (.socket fd))
        (do .call (.closing fd sc.closed); .value none) (Connected p) := by
      cases sc.closed with
      | true =>
        refine Protocol.does_call_bind (fun _ => hmay) fun _ => Protocol.does_value ?_
        show ∀ d, ((p.after (.socket fd)).after (.close fd)).kind d ≠ p.kind d → _
        rw [hp.reclosed hfree]
        exact fun d h => absurd rfl h
      | false =>
        exact Protocol.does_call_bind (fun _ => hmay) fun _ => Protocol.does_value
          fun d hd => List.mem_cons.mpr (.inl (Process.eq_of_kind_turn hd))
    cases sc.inetPton with
    | none => exact hgiveUp
    | some addr =>
      cases hc : sc.connect with
      | false => exact hgiveUp
      | true =>
        refine Protocol.does_call_bind (fun _ => hopen) fun _ => Protocol.does_value ?_
        exact ⟨addr, hfree, Process.turn_turn ..⟩

/-- The client's `main` gets to `run_messaging_loop` with a connected socket, or leaves none. -/
theorem clientMain_does {sc : ConnectScript} :
    startup.Does .start (clientMain sc) fun r q =>
      match r with
      | .ok fd => ∃ addr, Process.start.kind fd = none ∧
          q = Process.start.turn fd (some (.connected addr))
      | .error code => code = 1 ∧ ∀ d, q.kind d ≠ Process.start.kind d → d ∈ q.stuck := by
  unfold clientMain
  split
  · exact Protocol.does_exit ⟨rfl, fun d h => absurd rfl h⟩
  · refine (createClientConnection_does idle_start).bind (fun opened q hq => ?_)
      fun code q hq => hq.elim
    cases opened with
    | none => exact Protocol.does_exit ⟨rfl, hq⟩
    | some fd => exact Protocol.does_value hq

/-! ## When the loop is entered -/

section Result

variable {sc : StartScript} {fd : Nat}

theorem chooses_nil_iff {addr : Bytes} : ¬ Chooses fd addr [] := by
  intro h
  cases h

theorem chooses_cons_iff {addr : Bytes} {a : AddrInfo} {listp : List AddrInfo} :
    Chooses fd addr (a :: listp) ↔
      (a.socket = some fd ∧ a.bind = true ∧ a.addr = addr) ∨ a.Passed ∧ Chooses fd addr listp := by
  constructor
  · intro h
    cases h with
    | here hs hb ha => exact .inl ⟨hs, hb, ha⟩
    | later hp h => exact .inr ⟨hp, h⟩
  · rintro (⟨hs, hb, ha⟩ | ⟨hp, h⟩)
    · exact .here hs hb ha
    · exact .later hp h

theorem bindFirst_bound_iff (listp : List AddrInfo) :
    (bindFirst listp).result = .ok (.bound fd) ↔ ∃ addr, Chooses fd addr listp := by
  induction listp with
  | nil => simp [bindFirst, Ran.value, chooses_nil_iff]
  | cons a listp ih =>
    simp only [chooses_cons_iff]
    rw [bindFirst]
    cases hs : a.socket with
    | none =>
      rw [ih]
      simp [AddrInfo.Passed, hs]
    | some sock =>
      rw [Ran.result_call_bind]
      cases hb : a.bind with
      | true =>
        rw [if_pos rfl, Ran.result_call_bind]
        simp [AddrInfo.Passed, Ran.value, hs, hb]
      | false =>
        rw [if_neg (by decide), Ran.result_call_bind]
        cases hc : a.close with
        | true =>
          rw [if_pos rfl, ih]
          simp [AddrInfo.Passed, hb, hc]
        | false => simp [AddrInfo.Passed, Ran.value, hs, hb, hc]

theorem setNonblockingFd_ok_iff {answer : FcntlAnswer} {u : Unit} :
    (setNonblockingFd fd answer).result = .ok u ↔ answer = ⟨true, true⟩ := by
  obtain ⟨getFlags, setFlags⟩ := answer
  cases getFlags <;> cases setFlags <;> simp [setNonblockingFd, Ran.exit, Ran.call]

theorem listenOn_ok_iff {d : Nat} :
    (listenOn d sc).result = .ok (some fd) ↔
      sc.listenFcntl = ⟨true, true⟩ ∧ sc.listen = true ∧ d = fd := by
  rw [listenOn, Ran.result_bind_eq_ok]
  cases hl : sc.listen with
  | false => simp [Ran.result_call_bind, Ran.value]
  | true => simp [Ran.result_call_bind, Ran.value, setNonblockingFd_ok_iff]

theorem openListenfd_ok_iff :
    (openListenfd sc).result = .ok (some fd) ↔
      (∃ listp addr, sc.getaddrinfo = some listp ∧ Chooses fd addr listp) ∧
        sc.listenFcntl = ⟨true, true⟩ ∧ sc.listen = true := by
  unfold openListenfd
  cases hlist : sc.getaddrinfo with
  | none => simp [Ran.value]
  | some listp =>
    simp only [Ran.result_call_bind, Ran.result_bind_eq_ok]
    constructor
    · rintro ⟨search, hsearch, h⟩
      cases search with
      | closeError => simp [Ran.value] at h
      | exhausted => simp [Ran.result_call_bind, Ran.value] at h
      | bound d =>
        obtain ⟨hfcntl, hlisten, rfl⟩ := listenOn_ok_iff.mp h
        obtain ⟨addr, hchoice⟩ := (bindFirst_bound_iff listp).mp hsearch
        exact ⟨⟨listp, addr, rfl, hchoice⟩, hfcntl, hlisten⟩
    · rintro ⟨⟨_, addr, hsame, hchoice⟩, hfcntl, hlisten⟩
      obtain rfl := Option.some.inj hsame
      exact ⟨.bound fd, (bindFirst_bound_iff _).mpr ⟨addr, hchoice⟩,
        listenOn_ok_iff.mpr ⟨hfcntl, hlisten, rfl⟩⟩

theorem initDb_ok_iff {path : DbFile} {rc : Int} :
    (initDb path sc).result = .ok rc ↔
      rc = if sc.sqliteOpen = true ∧ sc.createTable = true then 0 else -1 := by
  unfold initDb
  cases sc.sqliteOpen <;> cases sc.createTable <;>
    simp [Ran.value, Ran.result_call_bind, eq_comm]

theorem initServer_ok_iff {isTest : Int} :
    (initServer isTest sc).result = .ok (some fd) ↔
      (sc.sqliteOpen = true ∧ sc.createTable = true) ∧
      (openListenfd sc).result = .ok (some fd) := by
  have hdb : ∀ rc, (if isTest ≠ 0 then initDb .test sc else initDb .app sc).result = .ok rc ↔
      rc = if sc.sqliteOpen = true ∧ sc.createTable = true then 0 else -1 := fun rc => by
    split <;> exact initDb_ok_iff
  rw [initServer, Ran.result_bind_eq_ok]
  simp only [hdb, exists_eq_left]
  by_cases h : sc.sqliteOpen = true ∧ sc.createTable = true
  · simp [h]
  · simp [h, Ran.value]

theorem watchFds_ok_iff {isTest : Int} {d : Nat} :
    (watchFds d isTest sc).result = .ok fd ↔
      d = fd ∧ sc.epollCreate ≠ none ∧ sc.watchListenfd = true ∧
        (isTest = 0 → sc.stdinFcntl = ⟨true, true⟩ ∧ sc.watchStdin = true) := by
  rw [watchFds, Ran.result_call_bind]
  cases sc.epollCreate with
  | none => simp [Ran.exit]
  | some epollfd =>
    rw [Ran.result_call_bind]
    cases sc.watchListenfd with
    | false => simp [Ran.exit]
    | true =>
      simp only [Bool.not_true, Bool.false_eq_true, ↓reduceIte, Ran.result_call_bind]
      by_cases htest : isTest = 0
      · rw [if_pos htest, Ran.result_bind_eq_ok]
        cases sc.watchStdin with
        | false => simp [Ran.exit, htest]
        | true =>
          simp [Ran.value, Ran.result_call_bind, setNonblockingFd_ok_iff, htest, and_comm]
      · simp [Ran.value, htest]

/-- The answers with which the server gets to its loop. -/
structure Succeeds (sc : StartScript) (isTest : Int) (listenfd : Nat) : Prop where
  sqlite : sc.sqliteOpen = true ∧ sc.createTable = true
  choice : ∃ listp addr, sc.getaddrinfo = some listp ∧ Chooses listenfd addr listp
  nonblocking : sc.listenFcntl = ⟨true, true⟩
  listen : sc.listen = true
  epollCreate : sc.epollCreate ≠ none
  watchListenfd : sc.watchListenfd = true
  stdin : isTest = 0 → sc.stdinFcntl = ⟨true, true⟩ ∧ sc.watchStdin = true

theorem serverMain_ok_iff {argv : List Bytes} :
    (serverMain argv sc).result = .ok fd ↔
      ∃ a port isTest logging, argv = [a, port, isTest, logging] ∧
        (atoi logging = 0 ∨ atoi logging = 1) ∧ Succeeds sc (atoi isTest) fd := by
  unfold serverMain
  split
  · rename_i a port isTest logging
    have hlogger : initLogger (atoi logging) = 0 ↔ atoi logging = 0 ∨ atoi logging = 1 := by
      simp [initLogger]
      omega
    constructor
    · intro h
      by_cases hlog : initLogger (atoi logging) = 0
      · rw [if_neg (not_not.mpr hlog), Ran.result_bind_eq_ok] at h
        obtain ⟨opened, hopened, h⟩ := h
        cases opened with
        | none => cases h
        | some d =>
          obtain ⟨rfl, hepoll, hwatch, hstdin⟩ := watchFds_ok_iff.mp h
          obtain ⟨hsqlite, hopened⟩ := initServer_ok_iff.mp hopened
          obtain ⟨hchoice, hfcntl, hlisten⟩ := openListenfd_ok_iff.mp hopened
          exact ⟨a, port, isTest, logging, rfl, hlogger.mp hlog, hsqlite, hchoice, hfcntl, hlisten,
            hepoll, hwatch, hstdin⟩
      · rw [if_pos hlog] at h
        cases h
    · rintro ⟨_, _, _, _, hargv, hlog, h⟩
      cases hargv
      rw [if_neg (not_not.mpr (hlogger.mpr hlog)), Ran.result_bind_eq_ok]
      exact ⟨some fd, initServer_ok_iff.mpr ⟨h.sqlite, openListenfd_ok_iff.mpr
        ⟨h.choice, h.nonblocking, h.listen⟩⟩, watchFds_ok_iff.mpr
        ⟨rfl, h.epollCreate, h.watchListenfd, h.stdin⟩⟩
  · rename_i hargv
    constructor
    · intro h
      cases h
    · rintro ⟨a, port, isTest, logging, rfl, _⟩
      exact absurd rfl (hargv a port isTest logging)

end Result

/-! ## A signal on the way -/

/-- The global `listenfd` is `-1` or a listening socket. -/
def Process.Published (p : Process) : Prop :=
  ∀ fd, p.listenfd = some fd → ∃ addr, p.kind fd = some (.listening addr)

section Signal

variable {p : Process}

theorem Process.Published.turn (h : p.Published) {fd : Nat} {k : Option FdKind}
    (hfd : ∀ addr, p.kind fd ≠ some (.listening addr)) : (p.turn fd k).Published := by
  intro d hd
  obtain ⟨addr, hkind⟩ := h d hd
  have hne : d ≠ fd := by
    rintro rfl
    exact hfd addr hkind
  exact ⟨addr, ((p.kind_turn fd k d).trans (if_neg hne)).trans hkind⟩

/-- A permitted call leaves a listening socket in `listenfd`, if there was one or none. -/
theorem published_after {k : Call} (hpromise : p.Promises k) (hpermit : p.Permits k)
    (h : p.Published) : (p.after k).Published := by
  cases k with
  | createTable path => exact h
  | getaddrinfo => exact h
  | freeaddrinfo => exact h
  | socket fd =>
    have hfree : p.kind fd = none := hpromise
    exact h.turn fun addr he => by cases hfree.symm.trans he
  | bind fd addr =>
    have hcreated : p.kind fd = some .created := hpermit
    exact h.turn fun addr he => by cases hcreated.symm.trans he
  | nonblock fd => exact h
  | listen fd =>
    obtain ⟨_, addr, hbound⟩ := hpermit
    rw [Process.after_listen hbound]
    exact h.turn fun addr he => by cases hbound.symm.trans he
  | connect fd addr =>
    have hcreated : p.kind fd = some .created := hpermit
    exact h.turn fun addr he => by cases hcreated.symm.trans he
  | close fd =>
    obtain ⟨_, _, hlisten⟩ := hpermit
    intro d hd
    obtain ⟨addr, hkind⟩ := h d hd
    have hne : d ≠ fd := by
      rintro rfl
      exact hlisten hd
    exact ⟨addr, ((p.kind_turn fd none d).trans (if_neg hne)).trans hkind⟩
  | closeFailed fd => exact h
  | assign fd =>
    intro d hd
    obtain rfl := Option.some.inj hd
    exact hpermit.2
  | epollCreate fd =>
    have hfree : p.kind fd = none := hpromise
    exact h.turn fun addr he => by cases hfree.symm.trans he
  | watch epollfd fd => exact h
  | closeDb => exact hpermit.elim
  | removeTestDb => exact hpermit.elim

/-- The handler closes nothing but what is published. -/
theorem mem_sigintHandler {listenfd : Option Nat} {closed removed ok : Bool} {fd : Nat}
    (h : .closing fd ok ∈ sigintHandler listenfd closed removed) : listenfd = some fd := by
  cases listenfd with
  | none => cases ok <;> cases removed <;> simp [sigintHandler, closeDb, Call.closing] at h
  | some d =>
    cases ok <;> cases closed <;> cases removed <;>
      simp [sigintHandler, closeDb, Call.closing] at h <;> rw [h]

end Signal

/-- While the server starts it asks nothing of a descriptor that it is not ready for, and closes
none that is not open; wherever a signal comes, the handler closes a listening socket or none. If
`init_server` fails, nothing is left but sockets whose `close` has failed. The server gets to its
loop exactly if the calls succeed with one of the addresses, and then has, beside the standard
descriptors, the socket that listens on the first such address and the epoll instance. -/
theorem server_starts {argv : List Bytes} {sc : StartScript}
    (hpromises : Along Process.after Process.Promises .start (serverMain argv sc).calls) :
    Along Process.after Process.Permits .start (serverMain argv sc).calls ∧
    (∀ calls, calls <+: (serverMain argv sc).calls → ∀ fd ok closed removed,
      .closing fd ok ∈ sigintHandler (calls.foldl Process.after .start).listenfd closed removed →
      ∃ addr, (calls.foldl Process.after .start).kind fd = some (.listening addr)) ∧
    (∀ isTest, (initServer isTest sc).result = .ok none →
      (initServer isTest sc).calls <+: (serverMain argv sc).calls →
      let q := (initServer isTest sc).calls.foldl Process.after .start
      (∀ d, q.kind d ≠ Process.start.kind d → d ∈ q.stuck) ∧ (q.addrs = true → q.stuck ≠ [])) ∧
    (∀ fd, (serverMain argv sc).result = .ok fd ↔
      ∃ a port isTest logging, argv = [a, port, isTest, logging] ∧
        (atoi logging = 0 ∨ atoi logging = 1) ∧ Succeeds sc (atoi isTest) fd) ∧
    match (serverMain argv sc).result with
    | .ok fd => ∃ a port isTest logging, argv = [a, port, isTest, logging] ∧
        Ready sc (.ofTest (atoi isTest)) fd ((serverMain argv sc).calls.foldl Process.after .start)
    | .error code => code = -1 := by
  obtain ⟨hpermits, hreached⟩ := serverMain_does argv hpromises
  refine ⟨hpermits, fun calls hpre fd ok closed removed h => ?_,
    fun isTest hfailed hpre => ?_, fun fd => serverMain_ok_iff, hreached⟩
  · have hpublished : (calls.foldl Process.after .start).Published := by
      have hstep : ∀ s k, startup.promises s k → startup.permits s k → Process.Published s →
          Process.Published (startup.next s k) := fun s k => published_after
      exact startup.invariant hstep hpre hpromises hpermits fun fd h => by cases h
    exact hpublished fd (mem_sigintHandler h)
  · obtain ⟨rest, hrest⟩ := hpre
    rw [← hrest, along_append] at hpromises
    obtain ⟨_, hopened⟩ := initServer_does isTest hpromises.1
    rw [hfailed] at hopened
    exact ⟨hopened.1, hopened.2.1⟩

/-- The first address has no socket, the second cannot be bound. -/
def thirdAddress : StartScript where
  sqliteOpen := true
  createTable := true
  getaddrinfo := some
    [⟨[1], none, true, true⟩, ⟨[2], some 3, false, true⟩, ⟨[3], some 3, true, true⟩]
  listenFcntl := ⟨true, true⟩
  listen := true
  listenClose := true
  epollCreate := some 4
  watchListenfd := true
  stdinFcntl := ⟨true, true⟩
  watchStdin := true

theorem server_starts_thirdAddress :
    let argv : List Bytes := [[], [], [48], [49]]
    (serverMain argv thirdAddress).result = .ok 3 ∧
      Along Process.after Process.Permits .start (serverMain argv thirdAddress).calls := by
  intro argv
  refine ⟨by rfl, (@server_starts argv thirdAddress ?_).1⟩
  exact ⟨trivial, trivial, rfl, trivial, rfl, trivial, trivial, trivial, trivial, trivial, rfl,
    trivial, trivial, trivial, trivial⟩

end ChatServer
