import Mathlib.Data.List.Basic

/-!
# Columns of a structure-of-arrays table

A column is a growable array read and written by index without a bounds check.
Its length is kept apart from its contents, so a write outside the length is
visible as such and never moves the length. Growing keeps every old cell and
fills the new ones with a given default.
-/

/-- A growable array: the length, and the contents of every index. -/
structure Column (α : Type*) where
  size : Nat
  cell : Nat → α

namespace Column

variable {α β : Type*}

instance : CoeFun (Column α) fun _ => Nat → α := ⟨Column.cell⟩

/-- `n` cells holding `a`. -/
def replicate (n : Nat) (a : α) : Column α := ⟨n, fun _ => a⟩

/-- Unchecked write. -/
def set (c : Column α) (i : Nat) (a : α) : Column α :=
  ⟨c.size, fun j => if j = i then a else c j⟩

/-- The outcome of an access at `i`, or `none` if that is out of range. -/
def access (c : Column α) (i : Nat) (outcome : β) : Option β :=
  if i < c.size then some outcome else none

/-- Change the length; cells past the old length hold the default `a`. -/
def resize (c : Column α) (n : Nat) (a : α) : Column α :=
  ⟨n, fun j => if j < c.size then c j else a⟩

@[simp] theorem size_replicate (n : Nat) (a : α) : (replicate n a).size = n := rfl

@[simp] theorem replicate_apply (n : Nat) (a : α) (i : Nat) : replicate n a i = a := rfl

@[simp] theorem size_set (c : Column α) (i : Nat) (a : α) : (c.set i a).size = c.size := rfl

theorem set_apply (c : Column α) (i j : Nat) (a : α) :
    c.set i a j = if j = i then a else c j := rfl

@[simp] theorem set_self (c : Column α) (i : Nat) (a : α) : c.set i a i = a := if_pos rfl

/-- The later of two writes to a cell stands. -/
@[simp] theorem set_set (c : Column α) (i : Nat) (a b : α) : (c.set i a).set i b = c.set i b := by
  unfold set
  congr 1
  funext j
  by_cases hj : j = i
  · rw [if_pos hj, if_pos hj]
  · rw [if_neg hj, if_neg hj]
    exact if_neg hj

theorem access_eq (c : Column α) {i : Nat} (h : i < c.size) (outcome : β) :
    c.access i outcome = some outcome := if_pos h

@[simp] theorem size_resize (c : Column α) (n : Nat) (a : α) : (c.resize n a).size = n := rfl

theorem resize_apply (c : Column α) (n i : Nat) (a : α) :
    c.resize n a i = if i < c.size then c i else a := rfl

end Column
