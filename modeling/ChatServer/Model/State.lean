import ChatServer.Lib.Column
import ChatServer.Lib.EdgeTrigger
import ChatServer.Model.Db
import ChatServer.Model.Protocol

/-!
# The state of the server (`server_utils.hpp`, `server_utils.cpp`)

The connection table is a structure of five arrays indexed by descriptor. Beside
the tables the state keeps the history of the run: every system call on a socket
with its answer, and every request served. The code never reads the history.
-/

namespace ChatServer

open EdgeTrigger (Errno Rv Interest Syscall)

/-- The five arrays always have one length. -/
structure ConnectionManager where
  flags : Column ConnFlags
  incomingBuffers : Column Bytes
  outgoingBuffers : Column Bytes
  userIds : Column UInt32
  usernames : Column Bytes
  aligned : incomingBuffers.size = flags.size ∧ outgoingBuffers.size = flags.size ∧
    userIds.size = flags.size ∧ usernames.size = flags.size

def INITIAL_CAPACITY : Nat := 10000

/-- The string literal `"user"`. -/
def defaultUsername : Bytes := [117, 115, 101, 114]

def createConnectionManager (n : Nat) : ConnectionManager where
  flags := .replicate n .none
  incomingBuffers := .replicate n []
  outgoingBuffers := .replicate n []
  userIds := .replicate n 0
  usernames := .replicate n defaultUsername
  aligned := ⟨rfl, rfl, rfl, rfl⟩

/-- One slot of the table, across the five arrays. -/
structure Slot where
  flags : ConnFlags
  incoming : Bytes
  outgoing : Bytes
  userId : UInt32
  username : Bytes
  deriving DecidableEq, Repr

/-- A slot made by `resize`. -/
def Slot.blank : Slot := ⟨.none, [], [], 0, []⟩

namespace ConnectionManager

def getSize (m : ConnectionManager) : Nat := m.flags.size

def slot (m : ConnectionManager) (i : Nat) : Slot :=
  ⟨m.flags i, m.incomingBuffers i, m.outgoingBuffers i, m.userIds i, m.usernames i⟩

/-- `resize` on each of the five arrays. -/
def resize (m : ConnectionManager) (n : Nat) : ConnectionManager where
  flags := m.flags.resize n .none
  incomingBuffers := m.incomingBuffers.resize n []
  outgoingBuffers := m.outgoingBuffers.resize n []
  userIds := m.userIds.resize n 0
  usernames := m.usernames.resize n []
  aligned := ⟨rfl, rfl, rfl, rfl⟩

theorem slot_resize (m : ConnectionManager) (n i : Nat) :
    (m.resize n).slot i = if i < m.getSize then m.slot i else .blank := by
  obtain ⟨h1, h2, h3, h4⟩ := m.aligned
  unfold slot resize getSize
  simp only [Column.resize_apply, h1, h2, h3, h4]
  split <;> rfl

end ConnectionManager

/-- The tables as the handlers read them. -/
structure View where
  size : Nat
  flags : Nat → ConnFlags
  usernames : Nat → Bytes
  db : Db

/-- A request that was served: on which connection, the frame it was cut from,
the response queued for the sender, the tables just before, and how the SQLite
calls turned out. -/
structure Served where
  conn : Nat
  frame : Bytes
  response : Message
  view : View
  sql : SqlOutcome

inductive Entry where
  | sys (call : Syscall UInt8)
  | served (r : Served)

/-- Whether the process runs, has left through `exit` or the return of `main`, or
was killed by `SIGPIPE`. -/
inductive Status where
  | running
  | exited (code : Int)
  | killed
  deriving DecidableEq, Repr

structure Server where
  listenfd : Nat
  connManager : ConnectionManager
  db : Db
  status : Status
  log : List Entry

namespace Server

def slot (s : Server) (i : Nat) : Slot := s.connManager.slot i

def getSize (s : Server) : Nat := s.connManager.getSize

def view (s : Server) : View :=
  ⟨s.getSize, fun i => s.connManager.flags i, fun i => s.connManager.usernames i, s.db⟩

def record (s : Server) (e : Entry) : Server := { s with log := s.log ++ [e] }

def sys (s : Server) (call : Syscall UInt8) : Server := s.record (.sys call)

def setFlags (s : Server) (i : Nat) (f : ConnFlags) : Server :=
  { s with connManager.flags := s.connManager.flags.set i f }

def setIncoming (s : Server) (i : Nat) (b : Bytes) : Server :=
  { s with connManager.incomingBuffers := s.connManager.incomingBuffers.set i b }

def setOutgoing (s : Server) (i : Nat) (b : Bytes) : Server :=
  { s with connManager.outgoingBuffers := s.connManager.outgoingBuffers.set i b }

def setUserId (s : Server) (i : Nat) (id : UInt32) : Server :=
  { s with connManager.userIds := s.connManager.userIds.set i id }

def setUsername (s : Server) (i : Nat) (name : Bytes) : Server :=
  { s with connManager.usernames := s.connManager.usernames.set i name }

def setDb (s : Server) (db : Db) : Server := { s with db := db }

def setStatus (s : Server) (status : Status) : Server := { s with status := status }

/-- Append bytes to the outgoing buffer of slot `i`. -/
def queueBytes (s : Server) (i : Nat) (b : Bytes) : Server :=
  s.setOutgoing i (bufAppend (s.connManager.outgoingBuffers i) b)

/-! ## Reading a slot after a write -/

section Fields

variable (s : Server) (i j : Nat)

@[simp] theorem flags_eq : s.connManager.flags i = (s.slot i).flags := rfl
@[simp] theorem incoming_eq : s.connManager.incomingBuffers i = (s.slot i).incoming := rfl
@[simp] theorem outgoing_eq : s.connManager.outgoingBuffers i = (s.slot i).outgoing := rfl
@[simp] theorem userId_eq : s.connManager.userIds i = (s.slot i).userId := rfl
@[simp] theorem username_eq : s.connManager.usernames i = (s.slot i).username := rfl

theorem slot_setFlags (f : ConnFlags) :
    (s.setFlags i f).slot j = if j = i then { s.slot j with flags := f } else s.slot j := by
  unfold slot ConnectionManager.slot setFlags
  simp only [Column.set_apply]
  split <;> rfl

theorem slot_setIncoming (b : Bytes) :
    (s.setIncoming i b).slot j = if j = i then { s.slot j with incoming := b } else s.slot j := by
  unfold slot ConnectionManager.slot setIncoming
  simp only [Column.set_apply]
  split <;> rfl

theorem slot_setOutgoing (b : Bytes) :
    (s.setOutgoing i b).slot j = if j = i then { s.slot j with outgoing := b } else s.slot j := by
  unfold slot ConnectionManager.slot setOutgoing
  simp only [Column.set_apply]
  split <;> rfl

theorem slot_setUserId (id : UInt32) :
    (s.setUserId i id).slot j = if j = i then { s.slot j with userId := id } else s.slot j := by
  unfold slot ConnectionManager.slot setUserId
  simp only [Column.set_apply]
  split <;> rfl

theorem slot_setUsername (name : Bytes) :
    (s.setUsername i name).slot j =
      if j = i then { s.slot j with username := name } else s.slot j := by
  unfold slot ConnectionManager.slot setUsername
  simp only [Column.set_apply]
  split <;> rfl

theorem slot_queueBytes (b : Bytes) :
    (s.queueBytes i b).slot j =
      if j = i then { s.slot j with outgoing := (s.slot j).outgoing ++ b } else s.slot j := by
  rw [queueBytes, slot_setOutgoing]
  split
  · rename_i h
    subst h
    rfl
  · rfl

variable (e : Entry) (c : Syscall UInt8)

@[simp] theorem slot_record : (s.record e).slot j = s.slot j := rfl
@[simp] theorem slot_sys : (s.sys c).slot j = s.slot j := rfl
@[simp] theorem slot_setDb (db : Db) : (s.setDb db).slot j = s.slot j := rfl
@[simp] theorem slot_setStatus (st : Status) : (s.setStatus st).slot j = s.slot j := rfl
@[simp] theorem log_record : (s.record e).log = s.log ++ [e] := rfl
@[simp] theorem log_sys : (s.sys c).log = s.log ++ [.sys c] := rfl

end Fields

end Server

end ChatServer
