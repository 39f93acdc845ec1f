import ChatServer.Lib.Tlv

/-!
# Reading fields through a pointer

The loop of `Tlv.sweep` as it is written over memory: a position moves through an array, and each
byte is fetched from there. A fetch from outside the array has no result, and neither has a
loop that runs out of fuel. Over an array that holds the fields and nothing else, the walk
ends with the result of the sweep: it stays inside.
-/

namespace Tlv

variable {σ ε : Type*}

/-- `n` bytes of the array from position `p` on. -/
def copyAt (mem : List UInt8) (p n : Nat) : Option (List UInt8) :=
  if p + n ≤ mem.length then some ((mem.drop p).take n) else none

/-- The loop, from position `p` to position `stop`. -/
def walkFrom (malformed : ε) (onField : σ → UInt8 → List UInt8 → Except ε σ) (mem : List UInt8)
    (stop : Nat) : Nat → σ → Nat → Option (σ × Option ε)
  | 0, s, p => if p < stop then none else some (s, none)
  | fuel + 1, s, p =>
    if p < stop then
      if p + 2 > stop then some (s, some malformed)
      else
        mem[p]?.bind fun tag =>
        mem[p + 1]?.bind fun n =>
        if p + 2 + n.toNat > stop then some (s, some malformed)
        else
          (copyAt mem (p + 2) n.toNat).bind fun value =>
          match onField s tag value with
          | .error e => some (s, some e)
          | .ok s' => walkFrom malformed onField mem stop fuel s' (p + 2 + n.toNat)
    else some (s, none)

/-- Walk the whole array. -/
def walk (malformed : ε) (onField : σ → UInt8 → List UInt8 → Except ε σ) (s : σ)
    (mem : List UInt8) : Option (σ × Option ε) :=
  walkFrom malformed onField mem mem.length mem.length s 0

theorem copyAt_of_le {mem : List UInt8} {p n : Nat} (h : p + n ≤ mem.length) :
    copyAt mem p n = some ((mem.drop p).take n) := if_pos h

/-- From any position inside, the walk sweeps the rest of the array. -/
theorem walkFrom_eq (malformed : ε) (onField : σ → UInt8 → List UInt8 → Except ε σ)
    (mem : List UInt8) (fuel : Nat) (s : σ) (p : Nat) (h : mem.length - p ≤ fuel) :
    walkFrom malformed onField mem mem.length fuel s p =
      some (sweepFrom malformed onField fuel s (mem.drop p)) := by
  induction fuel generalizing s p with
  | zero =>
    have hp : mem.length ≤ p := by omega
    rw [walkFrom, if_neg (Nat.not_lt.mpr hp), List.drop_eq_nil_of_le hp]
    rfl
  | succ fuel ih =>
    rw [walkFrom]
    split
    · rename_i hp
      split
      · rename_i hp2
        rw [List.drop_eq_getElem_cons hp, List.drop_eq_nil_of_le (by omega)]
        rfl
      · rename_i hp2
        have hp1 : p + 1 < mem.length := by omega
        rw [List.drop_eq_getElem_cons hp, List.drop_eq_getElem_cons hp1, sweepFrom,
          List.getElem?_eq_getElem hp, List.getElem?_eq_getElem hp1]
        simp only [Option.bind_some, List.length_drop, List.drop_drop]
        by_cases hv : p + 2 + mem[p + 1].toNat > mem.length
        · rw [if_pos hv, if_pos (by omega)]
        · rw [if_neg hv, if_neg (by omega), copyAt_of_le (by omega), Option.bind_some]
          cases onField s mem[p] ((mem.drop (p + 2)).take mem[p + 1].toNat) with
          | error e => rfl
          | ok s' => exact ih s' (p + 2 + mem[p + 1].toNat) (by omega)
    · rename_i hp
      rw [List.drop_eq_nil_of_le (by omega)]
      rfl

/-- The walk comes to its end inside the array, with the result of the sweep. -/
theorem walk_eq (malformed : ε) (onField : σ → UInt8 → List UInt8 → Except ε σ) (s : σ)
    (mem : List UInt8) : walk malformed onField s mem = some (sweep malformed onField s mem) :=
  walkFrom_eq malformed onField mem _ s 0 (Nat.sub_le _ _)

end Tlv
