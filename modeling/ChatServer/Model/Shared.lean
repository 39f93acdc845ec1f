import Mathlib.Data.List.Basic

/-!
# Connection flags, users and strings (`shared.hpp`, `shared.cpp`)

Strings are byte sequences of any length and content. The flags of a connection
are a mask on one byte.
-/

namespace ChatServer

abbrev Bytes := List UInt8

def MAX_USERNAME_SIZE : Nat := 32
def MAX_PASSWORD_SIZE : Nat := 32
def MAX_MSG_CONTENT_SIZE : Nat := 255

/-- `enum class ConnFlags : uint8_t`. -/
structure ConnFlags where
  bits : UInt8
  deriving DecidableEq, Repr

namespace ConnFlags

def none : ConnFlags := ⟨0⟩
def wantRead : ConnFlags := ⟨(1 : UInt8) <<< 0⟩
def wantWrite : ConnFlags := ⟨(1 : UInt8) <<< 1⟩
def wantClose : ConnFlags := ⟨(1 : UInt8) <<< 2⟩
def isActive : ConnFlags := ⟨(1 : UInt8) <<< 3⟩
def isAuth : ConnFlags := ⟨(1 : UInt8) <<< 4⟩

instance : OrOp ConnFlags := ⟨fun lhs rhs => ⟨lhs.bits ||| rhs.bits⟩⟩
instance : AndOp ConnFlags := ⟨fun lhs rhs => ⟨lhs.bits &&& rhs.bits⟩⟩
instance : Complement ConnFlags := ⟨fun flag => ⟨~~~flag.bits⟩⟩

end ConnFlags

def hasFlag (mask flag : ConnFlags) : Bool := mask.bits &&& flag.bits != 0

theorem hasFlag_or (m f g : ConnFlags) : hasFlag (m ||| f) g = (hasFlag m g || hasFlag f g) := by
  have h : (m.bits ||| f.bits) &&& g.bits = (m.bits &&& g.bits) ||| (f.bits &&& g.bits) := by
    apply UInt8.toBitVec_inj.mp
    ext i hi
    simp only [UInt8.toBitVec_and, UInt8.toBitVec_or, BitVec.getElem_and, BitVec.getElem_or,
      Bool.and_or_distrib_right]
  change ((m.bits ||| f.bits) &&& g.bits != 0) = _
  rw [h, Bool.eq_iff_iff]
  simp only [hasFlag, bne_iff_ne, Bool.or_eq_true, ne_eq, UInt8.or_eq_zero_iff]
  exact Decidable.not_and_iff_or_not

/-- Clearing a flag leaves the disjoint ones as they were. -/
theorem hasFlag_clear (m : ConnFlags) {f g : ConnFlags} (h : f.bits &&& g.bits = 0) :
    hasFlag (m &&& ~~~f) g = hasFlag m g := by
  have hg : (m.bits &&& ~~~f.bits) &&& g.bits = m.bits &&& g.bits := by
    apply UInt8.toBitVec_inj.mp
    ext i hi
    have hb := congrArg (fun b : UInt8 => b.toBitVec[i]) h
    simp only [UInt8.toBitVec_and, BitVec.getElem_and, UInt8.toBitVec_zero,
      BitVec.getElem_zero] at hb
    simp only [UInt8.toBitVec_and, UInt8.toBitVec_not, BitVec.getElem_and, BitVec.getElem_not]
    cases hf : f.bits.toBitVec[i] <;> simp_all
  change ((m.bits &&& ~~~f.bits) &&& g.bits != 0) = _
  rw [hg, hasFlag]

theorem hasFlag_clear_self (m f : ConnFlags) : hasFlag (m &&& ~~~f) f = false := by
  have hz : (m.bits &&& ~~~f.bits) &&& f.bits = 0 := by
    apply UInt8.toBitVec_inj.mp
    ext i hi
    simp only [UInt8.toBitVec_and, UInt8.toBitVec_not, BitVec.getElem_and, BitVec.getElem_not,
      UInt8.toBitVec_zero, BitVec.getElem_zero]
    cases f.bits.toBitVec[i] <;> simp
  change ((m.bits &&& ~~~f.bits) &&& f.bits != 0) = false
  rw [hz]
  rfl

/-- `user_t`. -/
structure User where
  userId : UInt32
  username : Bytes
  password : Bytes
  deriving DecidableEq, Repr

/-- The value-initialised `user_t{}`. -/
def User.empty : User := ⟨0, [], []⟩

/-- `std::tolower` in the "C" locale. -/
def tolower (c : UInt8) : UInt8 := if 65 ≤ c ∧ c ≤ 90 then c + 32 else c

def stringToLower (s : Bytes) : Bytes := s.map tolower

@[simp] theorem length_stringToLower (s : Bytes) : (stringToLower s).length = s.length :=
  List.length_map _

theorem tolower_ne_zero {c : UInt8} (h : c ≠ 0) : tolower c ≠ 0 := by
  unfold tolower
  split
  · rename_i hc
    intro he
    have h1 := UInt8.le_iff_toNat_le.mp hc.1
    have h2 := UInt8.le_iff_toNat_le.mp hc.2
    have h3 := congrArg UInt8.toNat he
    rw [UInt8.toNat_add] at h3
    simp only [UInt8.reduceToNat] at h1 h2 h3
    omega
  · exact h

end ChatServer
