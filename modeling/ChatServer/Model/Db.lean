import Mathlib.Data.List.TakeWhile
import ChatServer.Model.Shared

/-!
# The user table (`db.hpp`, `db.cpp`)

SQLite itself is outside the repository. What the code relies on is modelled as
documented: binding text with length `-1` takes the bytes up to the first NUL,
`LOWER` folds ASCII letters, `AUTOINCREMENT` hands out the next row id, the
`UNIQUE` constraint compares usernames byte for byte, and a failing statement
changes nothing. Every call can fail, as the outcome of a request says.
-/

namespace ChatServer

structure Row where
  id : Nat
  username : Bytes
  password : Bytes
  deriving DecidableEq, Repr

/-- The `users` table in row-id order, and its `AUTOINCREMENT` sequence. -/
structure Db where
  rows : List Row
  seq : Nat
  deriving DecidableEq, Repr

def Db.empty : Db := ⟨[], 0⟩

/-- The error codes, if any, of the four SQLite calls a request can make. -/
structure SqlOutcome where
  selectPrepare : Option Nat := none
  selectStep : Option Nat := none
  insertPrepare : Option Nat := none
  insertStep : Option Nat := none
  deriving DecidableEq, Repr

/-- What the SQLite calls return. -/
inductive SqliteRc where
  | ok
  | row
  | done
  | error (code : Nat)
  deriving DecidableEq, Repr

def sqlite3Prepare : Option Nat → SqliteRc
  | none => .ok
  | some code => .error code

/-- The bytes of a C string: those before the first NUL. -/
def cString (s : Bytes) : Bytes := s.takeWhile (· != 0)

/-- `LOWER` of SQL. -/
def sqlLower (s : Bytes) : Bytes := s.map fun c => if 65 ≤ c ∧ c ≤ 90 then c + 32 else c

/-- `SELECT id, username, password FROM users WHERE LOWER(username) = ?`. -/
def Db.select (db : Db) (username : Bytes) (fault : Option Nat) : SqliteRc × Option Row :=
  match fault with
  | some code => (.error code, none)
  | none =>
    match db.rows.find? (fun r => sqlLower r.username = username) with
    | some r => (.row, some r)
    | none => (.done, none)

/-- `INSERT INTO users (username, password) VALUES (?, ?)`; 19 is `SQLITE_CONSTRAINT`. -/
def Db.insert (db : Db) (username password : Bytes) (fault : Option Nat) : SqliteRc × Db :=
  match fault with
  | some code => (.error code, db)
  | none =>
    if db.rows.any (fun r => r.username = username) then (.error 19, db)
    else (.done, ⟨db.rows ++ [⟨db.seq + 1, username, password⟩], db.seq + 1⟩)

/-- The return code, the user with its new id, and the table. -/
def insertUser (db : Db) (user : User) (o : SqlOutcome) : Int × User × Db :=
  if sqlite3Prepare o.insertPrepare ≠ .ok then (-1, user, db)
  else
    match db.insert (cString user.username) (cString user.password) o.insertStep with
    | (.done, db') => (0, { user with userId := UInt32.ofNat db'.seq }, db')
    | (_, db') => (-1, user, db')

/-- The return code and the user, filled from the row if one was found. -/
def getUserByUsername (db : Db) (username : Bytes) (user : User) (o : SqlOutcome) : Int × User :=
  if sqlite3Prepare o.selectPrepare ≠ .ok then (-1, user)
  else
    match db.select (cString username) o.selectStep with
    | (.row, some r) => (1, ⟨UInt32.ofNat r.id, cString r.username, cString r.password⟩)
    | _ => (0, user)

theorem sqlLower_eq (s : Bytes) : sqlLower s = stringToLower s := rfl

theorem cString_eq_self {s : Bytes} (h : 0 ∉ s) : cString s = s := by
  apply List.takeWhile_eq_self_iff.mpr
  intro c hc
  simp only [bne_iff_ne, ne_eq]
  rintro rfl
  exact h hc

theorem zero_not_mem_cString (s : Bytes) : (0 : UInt8) ∉ cString s := by
  intro h
  simpa using List.mem_takeWhile_imp h

theorem length_cString_le (s : Bytes) : (cString s).length ≤ s.length :=
  (List.takeWhile_prefix _).length_le

/-- Lowering neither makes nor removes a NUL. -/
theorem cString_stringToLower (s : Bytes) :
    cString (stringToLower s) = stringToLower (cString s) := by
  induction s with
  | nil => rfl
  | cons c s ih =>
    by_cases hc : c = 0
    · subst hc
      rfl
    · have hl := tolower_ne_zero hc
      simp only [cString, stringToLower, List.map_cons, List.takeWhile_cons, bne_iff_ne, ne_eq,
        hc, hl, not_false_eq_true, ↓reduceIte] at ih ⊢
      rw [ih]

/-- An insertion adds one row with a fresh name, or fails and adds nothing. -/
theorem insertUser_cases (db : Db) (user : User) (o : SqlOutcome) :
    ((insertUser db user o).1 = -1 ∧ (insertUser db user o).2.2 = db) ∨
      (∀ r ∈ db.rows, r.username ≠ cString user.username) ∧
        insertUser db user o =
          (0, { user with userId := UInt32.ofNat (db.seq + 1) },
            ⟨db.rows ++ [⟨db.seq + 1, cString user.username, cString user.password⟩],
              db.seq + 1⟩) := by
  unfold insertUser Db.insert
  split
  · exact .inl ⟨rfl, rfl⟩
  · cases o.insertStep with
    | some code => exact .inl ⟨rfl, rfl⟩
    | none =>
      simp only
      by_cases hd : db.rows.any (fun r => r.username = cString user.username) = true
      · rw [if_pos hd]
        exact .inl ⟨rfl, rfl⟩
      · rw [if_neg hd]
        refine .inr ⟨fun r hr he => hd ?_, rfl⟩
        exact List.any_eq_true.mpr ⟨r, hr, by simpa using he⟩

/-- A look-up fails, finds nothing, or finds the first row with that name. -/
theorem getUserByUsername_cases (db : Db) (name : Bytes) (user : User) (o : SqlOutcome) :
    (getUserByUsername db name user o).1 = -1 ∨ getUserByUsername db name user o = (0, user) ∨
      ∃ r, db.rows.find? (fun r => sqlLower r.username = cString name) = some r ∧
        getUserByUsername db name user o =
          (1, ⟨UInt32.ofNat r.id, cString r.username, cString r.password⟩) := by
  unfold getUserByUsername Db.select
  split
  · exact .inl rfl
  · cases o.selectStep with
    | some code => exact .inr (.inl rfl)
    | none =>
      simp only
      cases hf : db.rows.find? (fun r => sqlLower r.username = cString name) with
      | none => exact .inr (.inl rfl)
      | some r => exact .inr (.inr ⟨r, rfl, rfl⟩)

end ChatServer
