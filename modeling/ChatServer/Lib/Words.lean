import Mathlib.Data.List.Basic

/-!
# Four-byte words in memory and on the wire

The host stores a word with its low byte first; the network order is the
reverse. `swap` is the byte swap that takes one order to the other.
-/

namespace Words

/-- The four bytes of a word, low byte first. -/
def le32 (v : UInt32) : List UInt8 :=
  [UInt8.ofNat v.toNat, UInt8.ofNat (v.toNat / 256), UInt8.ofNat (v.toNat / 65536),
    UInt8.ofNat (v.toNat / 16777216)]

/-- The word held by the first four bytes of a memory, low byte first. -/
def ofLe32 (bs : List UInt8) : UInt32 :=
  UInt32.ofNat ((bs.getD 0 0).toNat + 256 * (bs.getD 1 0).toNat + 65536 * (bs.getD 2 0).toNat +
    16777216 * (bs.getD 3 0).toNat)

/-- The four bytes of a word, high byte first. -/
def be32 (v : UInt32) : List UInt8 := (le32 v).reverse

/-- The word that four bytes spell, high byte first. -/
def ofBe32 (bs : List UInt8) : UInt32 := ofLe32 (bs.take 4).reverse

/-- Exchange the two byte orders. -/
def swap (v : UInt32) : UInt32 := ofLe32 (be32 v)

@[simp] theorem length_le32 (v : UInt32) : (le32 v).length = 4 := rfl

@[simp] theorem length_be32 (v : UInt32) : (be32 v).length = 4 := rfl

@[simp] theorem ofLe32_le32 (v : UInt32) : ofLe32 (le32 v) = v := by
  apply UInt32.toNat_inj.mp
  have hv := v.toNat_lt
  simp only [ofLe32, le32, List.getD_cons_zero, List.getD_cons_succ, UInt8.toNat_ofNat',
    UInt32.toNat_ofNat']
  omega

theorem byte_ofNat {n : Nat} {b : UInt8} (h : n % 256 = b.toNat) : UInt8.ofNat n = b := by
  apply UInt8.toNat_inj.mp
  rw [UInt8.toNat_ofNat', h]

/-- The bytes of a word read from memory are the bytes that were there. -/
theorem le32_ofLe32 {bs : List UInt8} (h : bs.length = 4) : le32 (ofLe32 bs) = bs := by
  obtain ⟨a, b, c, d, rfl⟩ : ∃ a b c d, bs = [a, b, c, d] := by
    match bs, h with
    | [a, b, c, d], _ => exact ⟨a, b, c, d, rfl⟩
  have ha := a.toNat_lt
  have hb := b.toNat_lt
  have hc := c.toNat_lt
  have hd := d.toNat_lt
  simp only [ofLe32, le32, List.getD_cons_zero, List.getD_cons_succ, UInt32.toNat_ofNat']
  rw [byte_ofNat (b := a) (by omega), byte_ofNat (b := b) (by omega),
    byte_ofNat (b := c) (by omega), byte_ofNat (b := d) (by omega)]

@[simp] theorem ofBe32_be32 (v : UInt32) : ofBe32 (be32 v) = v := by
  have h : (be32 v).take 4 = be32 v := rfl
  rw [ofBe32, h, be32, List.reverse_reverse, ofLe32_le32]

/-- Storing the swapped word puts the network order in memory. -/
@[simp] theorem le32_swap (v : UInt32) : le32 (swap v) = be32 v := le32_ofLe32 rfl

/-- Swapping a word loaded from memory reads that memory in network order. -/
theorem swap_ofLe32 {bs : List UInt8} (h : bs.length = 4) : swap (ofLe32 bs) = ofBe32 bs := by
  have ht : bs.take 4 = bs := List.take_of_length_le (by omega)
  rw [swap, be32, le32_ofLe32 h, ofBe32, ht]

end Words
