import Mathlib.Data.List.Basic

/-!
# Cutting a byte stream into frames

A framer looks at the bytes received so far and asks for more, cuts a frame off
the front, or stops. Its verdicts to cut and to stop are final: bytes that
arrive later do not change them. For every such framer the frames of a stream are those
of any part of it followed by those of its leftover with the rest.
-/

namespace Framing

/-- The verdict on the bytes received so far. -/
inductive Cut where
  | more
  | take (n : Nat)
  | stop
  deriving DecidableEq, Repr

structure Framer (α : Type*) where
  cut : List α → Cut
  take_pos : ∀ {b n}, cut b = .take n → 0 < n
  take_le : ∀ {b n}, cut b = .take n → n ≤ b.length
  take_append : ∀ {b n}, cut b = .take n → ∀ d, cut (b ++ d) = .take n
  stop_append : ∀ {b}, cut b = .stop → ∀ d, cut (b ++ d) = .stop

namespace Framer

variable {α : Type*} (F : Framer α)

theorem drop_lt {b : List α} {n : Nat} (h : F.cut b = .take n) : (b.drop n).length < b.length := by
  have hpos := F.take_pos h
  have hle := F.take_le h
  rw [List.length_drop]
  omega

/-- The frames cut off the front of `b`, in order. -/
def frames (b : List α) : List (List α) :=
  match _h : F.cut b with
  | .take n => b.take n :: frames (b.drop n)
  | .more => []
  | .stop => []
termination_by b.length
decreasing_by exact F.drop_lt ‹_›

/-- What remains of `b` when no further frame can be cut off. -/
def leftover (b : List α) : List α :=
  match _h : F.cut b with
  | .take n => leftover (b.drop n)
  | .more => b
  | .stop => b
termination_by b.length
decreasing_by exact F.drop_lt ‹_›

theorem frames_take {b : List α} {n : Nat} (h : F.cut b = .take n) :
    F.frames b = b.take n :: F.frames (b.drop n) := by
  rw [frames]; split <;> simp_all

theorem leftover_take {b : List α} {n : Nat} (h : F.cut b = .take n) :
    F.leftover b = F.leftover (b.drop n) := by
  rw [leftover]; split <;> simp_all

theorem frames_eq_nil {b : List α} (h : ∀ n, F.cut b ≠ .take n) : F.frames b = [] := by
  rw [frames]; split <;> simp_all

theorem leftover_eq_self {b : List α} (h : ∀ n, F.cut b ≠ .take n) : F.leftover b = b := by
  rw [leftover]; split <;> simp_all

theorem frames_eq_nil_iff {b : List α} : F.frames b = [] ↔ ∀ n, F.cut b ≠ .take n := by
  constructor
  · intro h n hn
    rw [F.frames_take hn] at h
    cases h
  · exact F.frames_eq_nil

/-- Induction along the cuts of a buffer. -/
theorem cut_induction {P : List α → Prop} (stuck : ∀ b, (∀ n, F.cut b ≠ .take n) → P b)
    (step : ∀ b n, F.cut b = .take n → P (b.drop n) → P b) : ∀ b, P b := by
  intro b
  induction hl : b.length using Nat.strongRecOn generalizing b with
  | ind l ih =>
    by_cases h : ∃ n, F.cut b = .take n
    · obtain ⟨n, hn⟩ := h
      exact step b n hn (ih _ (hl ▸ F.drop_lt hn) _ rfl)
    · exact stuck b (not_exists.mp h)

/-- No frame can be cut off a leftover. -/
theorem cut_leftover (b : List α) : ∀ n, F.cut (F.leftover b) ≠ .take n := by
  induction b using F.cut_induction with
  | stuck b h => rwa [F.leftover_eq_self h]
  | step b n hn ih => rwa [F.leftover_take hn]

theorem drop_append {b : List α} {n : Nat} (h : F.cut b = .take n) (d : List α) :
    (b ++ d).drop n = b.drop n ++ d := List.drop_append_of_le_length (F.take_le h)

/-- Bytes that arrive later only add frames, cut from the leftover onwards. -/
theorem frames_append (b d : List α) :
    F.frames (b ++ d) = F.frames b ++ F.frames (F.leftover b ++ d) := by
  induction b using F.cut_induction with
  | stuck b h => rw [F.frames_eq_nil h, F.leftover_eq_self h]; rfl
  | step b n hn ih =>
    rw [F.frames_take (F.take_append hn d), F.frames_take hn, F.leftover_take hn,
      F.drop_append hn, ih, List.take_append_of_le_length (F.take_le hn), List.cons_append]

theorem leftover_append (b d : List α) :
    F.leftover (b ++ d) = F.leftover (F.leftover b ++ d) := by
  induction b using F.cut_induction with
  | stuck b h => rw [F.leftover_eq_self h]
  | step b n hn ih =>
    rw [F.leftover_take (F.take_append hn d), F.leftover_take hn, F.drop_append hn, ih]

/-- The frames and the leftover are all there was. -/
theorem flatten_frames (b : List α) : (F.frames b).flatten ++ F.leftover b = b := by
  induction b using F.cut_induction with
  | stuck b h =>
    rw [F.frames_eq_nil h, F.leftover_eq_self h]
    rfl
  | step b n hn ih =>
    rw [F.frames_take hn, F.leftover_take hn, List.flatten_cons, List.append_assoc, ih,
      List.take_append_drop]

/-- A frame that can be cut off the front is the first. -/
theorem frames_cons {f d : List α} (h : F.cut (f ++ d) = .take f.length) :
    F.frames (f ++ d) = f :: F.frames d := by
  rw [F.frames_take h, List.take_left, List.drop_left]

/-- Once stopped, a stream yields no further frame. -/
theorem frames_of_stop {b : List α} (h : F.cut b = .stop) (d : List α) :
    F.frames (b ++ d) = [] :=
  F.frames_eq_nil (by rw [F.stop_append h d]; simp)

theorem leftover_of_stop {b : List α} (h : F.cut b = .stop) (d : List α) :
    F.leftover (b ++ d) = b ++ d :=
  F.leftover_eq_self (by rw [F.stop_append h d]; simp)

/-! ## A stream whose frames are known -/

/-- Whatever follows `f`, a frame cut off the front is `f`. -/
def Whole (f : List α) : Prop := ∀ {d n}, F.cut (f ++ d) = .take n → n = f.length

theorem Whole.take_eq {f x rest : List α} {n : Nat} (hf : F.Whole f) (hx : x <+: f ++ rest)
    (h : F.cut x = .take n) : x.take n = f := by
  obtain ⟨d, hd⟩ := hx
  have hcut := F.take_append h d
  rw [hd] at hcut
  have hlen := hf hcut
  have htake : (x ++ d).take n = x.take n := List.take_append_of_le_length (F.take_le h)
  rw [← htake, hd, hlen, List.take_left]

/-- After the first frames of the stream the next one that is cut is the next of the stream. -/
theorem cut_next {fs done : List (List α)} {x tail : List α} {n : Nat}
    (hfs : ∀ f ∈ fs, F.Whole f) (htail : ∀ n, F.cut tail ≠ .take n) (hdone : done <+: fs)
    (hx : done.flatten ++ x <+: fs.flatten ++ tail) (h : F.cut x = .take n) :
    done ++ [x.take n] <+: fs := by
  obtain ⟨later, rfl⟩ := hdone
  rw [List.flatten_append, List.append_assoc, List.prefix_append_right_inj] at hx
  cases later with
  | nil =>
    obtain ⟨d, hd⟩ := hx
    have hcut := F.take_append h d
    rw [hd] at hcut
    exact absurd hcut (htail n)
  | cons f later =>
    rw [List.flatten_cons, List.append_assoc] at hx
    have hf : x.take n = f := Whole.take_eq F (hfs f (by simp)) hx h
    exact ⟨later, by simp [hf]⟩

end Framer

end Framing
