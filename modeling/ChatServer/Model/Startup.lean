import ChatServer.Lib.Calls
import ChatServer.Model.EventLoop
import ChatServer.Model.Shell

/-!
# Start and end of the processes (`server.cpp`, `client.cpp`)

What a process does in front of its loop is the list of its calls that had an effect, so that a
signal can come between any two of them. How the calls turn out is in a script; what is only
printed or logged is left out.
-/

namespace ChatServer

/-! ## The process -/

/-- `DB_PATH` and `DB_TEST_PATH`. -/
inductive DbFile where
  | app
  | test
  deriving DecidableEq, Repr

/-- A call that had an effect; `closeFailed` is a `close` that reported an error, and `assign` sets
the global `listenfd` of the server. -/
inductive Call where
  | createTable (path : DbFile)
  | getaddrinfo
  | freeaddrinfo
  | socket (fd : Nat)
  | bind (fd : Nat) (addr : Bytes)
  | nonblock (fd : Nat)
  | listen (fd : Nat)
  | connect (fd : Nat) (addr : Bytes)
  | close (fd : Nat)
  | closeFailed (fd : Nat)
  | assign (fd : Nat)
  | epollCreate (fd : Nat)
  | watch (epollfd fd : Nat)
  | closeDb
  | removeTestDb
  deriving DecidableEq, Repr

/-- `close`, as it turned out. -/
def Call.closing (fd : Nat) (ok : Bool) : Call := if ok then .close fd else .closeFailed fd

/-- What a function of the two programs did, and its result. -/
abbrev Ran (α : Type) := Calls.Ran Call α

/-! ## The answers -/

/-- Whether `fcntl` succeeds with `F_GETFL` and with `F_SETFL`. -/
structure FcntlAnswer where
  getFlags : Bool
  setFlags : Bool
  deriving DecidableEq, Repr

/-- An address that `getaddrinfo` found, and how `socket`, `bind` and `close` turn out for it. -/
structure AddrInfo where
  addr : Bytes
  socket : Option Nat
  bind : Bool
  close : Bool
  deriving DecidableEq, Repr

/-- The answers to the calls of the server's `main` before its loop. -/
structure StartScript where
  sqliteOpen : Bool
  createTable : Bool
  getaddrinfo : Option (List AddrInfo)
  listenFcntl : FcntlAnswer
  listen : Bool
  listenClose : Bool
  epollCreate : Option Nat
  watchListenfd : Bool
  stdinFcntl : FcntlAnswer
  watchStdin : Bool
  deriving DecidableEq, Repr

/-! ## The server -/

/-- `0` to `9`. -/
def isdigit (c : UInt8) : Bool := 48 ≤ c && c ≤ 57

/-- `atoi`; what it makes of a number that is no `int` is undefined. -/
def atoi (s : Bytes) : Int :=
  let number (ds : Bytes) : Int :=
    ((ds.takeWhile isdigit).foldl (fun n d => 10 * n + (d.toNat - 48)) 0 : Nat)
  match (cString s).dropWhile isspace with
  | 45 :: ds => -number ds
  | 43 :: ds => number ds
  | ds => number ds

def initLogger (enableLogging : Int) : Int :=
  if enableLogging ≠ 0 ∧ enableLogging ≠ 1 then -1 else 0

def setNonblockingFd (fd : Nat) (answer : FcntlAnswer) : Ran Unit :=
  if !answer.getFlags then .exit (-1)
  else if !answer.setFlags then .exit (-1)
  else .call (.nonblock fd)

/-- How the loop over the addresses is left. -/
inductive Search where
  | bound (fd : Nat)
  | closeError
  | exhausted
  deriving DecidableEq, Repr

/-- The loop over the addresses. -/
def bindFirst : List AddrInfo → Ran Search
  | [] => .value .exhausted
  | p :: listp =>
    match p.socket with
    | none => bindFirst listp
    | some fd => do
      .call (.socket fd)
      if p.bind then do
        .call (.bind fd p.addr)
        .value (.bound fd)
      else do
        .call (.closing fd p.close)
        if p.close then bindFirst listp else .value .closeError

/-- The tail of `open_listenfd`, after a socket was bound. -/
def listenOn (fd : Nat) (sc : StartScript) : Ran (Option Nat) := do
  setNonblockingFd fd sc.listenFcntl
  if !sc.listen then do
    .call .freeaddrinfo
    .call (.closing fd sc.listenClose)
    .value none
  else do
    .call (.listen fd)
    .call .freeaddrinfo
    .value (some fd)

/-- After a failed `close` the address list is not freed. -/
def openListenfd (sc : StartScript) : Ran (Option Nat) :=
  match sc.getaddrinfo with
  | none => .value none
  | some listp => do
    .call .getaddrinfo
    match ← bindFirst listp with
    | .closeError => .value none
    | .exhausted => do
      .call .freeaddrinfo
      .value none
    | .bound fd => listenOn fd sc

def initDb (path : DbFile) (sc : StartScript) : Ran Int :=
  if !sc.sqliteOpen then .value (-1)
  else if !sc.createTable then .value (-1)
  else do
    .call (.createTable path)
    .value 0

def initServer (isTest : Int) (sc : StartScript) : Ran (Option Nat) := do
  let rc ← (if isTest ≠ 0 then initDb .test sc else initDb .app sc)
  if rc = -1 then .value none else openListenfd sc

/-- The tail of the preparations of `main`, after `init_server`. -/
def watchFds (listenfd : Nat) (isTest : Int) (sc : StartScript) : Ran Nat := do
  .call (.assign listenfd)
  match sc.epollCreate with
  | none => .exit (-1)
  | some epollfd => do
    .call (.epollCreate epollfd)
    if !sc.watchListenfd then .exit (-1)
    else do
      .call (.watch epollfd listenfd)
      if isTest = 0 then do
        setNonblockingFd STDIN_FILENO sc.stdinFcntl
        if !sc.watchStdin then .exit (-1)
        else do
          .call (.watch epollfd STDIN_FILENO)
          .value listenfd
      else .value listenfd

/-- `main` of the server up to its loop, which it enters with this `listenfd`. -/
def serverMain (argv : List Bytes) (sc : StartScript) : Ran Nat :=
  match argv with
  | [_, _, isTest, enableLogging] =>
    if initLogger (atoi enableLogging) ≠ 0 then .exit (-1)
    else do
      match ← initServer (atoi isTest) sc with
      | none => .exit (-1)
      | some listenfd => watchFds listenfd (atoi isTest) sc
  | _ => .exit (-1)

def closeDb (removed : Bool) : List Call :=
  .closeDb :: if removed then [.removeTestDb] else []

/-- The handler of `SIGINT` and `SIGTERM`, after which the process is gone. -/
def sigintHandler (listenfd : Option Nat) (closed removed : Bool) : List Call :=
  (match listenfd with
    | none => []
    | some fd => [.closing fd closed]) ++ closeDb removed

/-! ## The client -/

/-- The answers to the calls of the client's `main` before `run_messaging_loop`. -/
structure ConnectScript where
  sigaction : Bool
  socket : Option Nat
  inetPton : Option Bytes
  connect : Bool
  closed : Bool
  deriving DecidableEq, Repr

def createClientConnection (sc : ConnectScript) : Ran (Option Nat) :=
  match sc.socket with
  | none => .value none
  | some fd => do
    .call (.socket fd)
    match sc.inetPton with
    | none => do
      .call (.closing fd sc.closed)
      .value none
    | some addr =>
      if !sc.connect then do
        .call (.closing fd sc.closed)
        .value none
      else do
        .call (.connect fd addr)
        .value (some fd)

/-- `main` of the client up to `run_messaging_loop`. -/
def clientMain (sc : ConnectScript) : Ran Nat :=
  if !sc.sigaction then .exit 1
  else do
    match ← createClientConnection sc with
    | none => .exit 1
    | some fd => .value fd

end ChatServer
