import Mathlib.Data.List.TakeWhile

/-!
# Input streams over a finite sequence

Extraction from a string stream as the C++ library documents it: `operator>>` into a string skips
leading space and reads up to the next one, `ws` only skips, and `getline` reads up to a
delimiter that it drops. A stream that is not good refuses, and leaves the destination alone.
Every operation fails at the end of the sequence only, which the type records.
-/

/-- What is left of the sequence, and the two bits of the stream state. -/
structure Istream (α : Type*) where
  rest : List α
  eofbit : Bool
  failbit : Bool
  drained : eofbit = true ∨ failbit = true → rest = []

namespace Istream

variable {α : Type*}

/-- A stream over a string. -/
def ofList (l : List α) : Istream α := ⟨l, false, false, by rintro (h | h) <;> cases h⟩

def good (s : Istream α) : Bool := !s.eofbit && !s.failbit

theorem rest_of_not_good {s : Istream α} (h : s.good = false) : s.rest = [] := by
  apply s.drained
  cases he : s.eofbit
  · rw [good, he] at h
    exact .inr (by simpa using h)
  · exact .inl rfl

/-- The sentry of a stream that is not good sets `failbit`. -/
def refuse (s : Istream α) (h : s.good = false) : Istream α :=
  ⟨s.rest, s.eofbit, true, fun _ => rest_of_not_good h⟩

/-- A stream at a suffix of the sequence; `eofbit` is set when the end was met. -/
def seek (l : List α) : Istream α :=
  ⟨l, l.isEmpty, false, by rintro (h | h) <;> simp_all⟩

/-- The end was met before anything could be extracted. -/
def atEnd : Istream α := ⟨[], true, true, fun _ => rfl⟩

section Extraction

variable (space : α → Bool)

/-- `operator>>` into the string `str`. -/
def extract (s : Istream α) (str : List α) : Istream α × List α :=
  if h : s.good = false then (s.refuse h, str)
  else
    match s.rest.dropWhile space with
    | [] => (atEnd, str)
    | c :: cs => (seek ((c :: cs).dropWhile (!space ·)), (c :: cs).takeWhile (!space ·))

/-- `ws`. -/
def ws (s : Istream α) : Istream α :=
  if h : s.good = false then s.refuse h else seek (s.rest.dropWhile space)

/-- `getline` into the string `str`. -/
def getline [DecidableEq α] (delim : α) (s : Istream α) (str : List α) : Istream α × List α :=
  if h : s.good = false then (s.refuse h, str)
  else
    match s.rest.dropWhile (· ≠ delim) with
    | [] => (⟨[], true, s.rest.isEmpty, fun _ => rfl⟩, s.rest)
    | _ :: cs =>
      (⟨cs, false, false, by rintro (h | h) <;> cases h⟩, s.rest.takeWhile (· ≠ delim))

/-! ## Words -/

/-- The first word of a sequence; empty when there is none. -/
def word (l : List α) : List α := (l.dropWhile space).takeWhile (!space ·)

/-- What stands behind the first word. -/
def behind (l : List α) : List α := (l.dropWhile space).dropWhile (!space ·)

/-- A word has no space in it. -/
theorem not_space_of_mem_word {l : List α} {c : α} (h : c ∈ word space l) : space c = false := by
  simpa using List.mem_takeWhile_imp h

/-- No word is found exactly if there is nothing but space. -/
theorem word_eq_nil_iff {l : List α} : word space l = [] ↔ ∀ c ∈ l, space c = true := by
  rw [← List.dropWhile_eq_nil_iff]
  constructor
  · intro h
    cases hd : l.dropWhile space with
    | nil => rfl
    | cons c cs =>
      have hc : space c = false := by
        have := List.head?_dropWhile_not space l
        rw [hd] at this
        simpa using this
      rw [word, hd, List.takeWhile_cons, hc] at h
      cases h
  · intro h
    rw [word, h]
    rfl

/-- Leading space is no part of a word. -/
theorem word_append_of_space {gap : List α} (h : ∀ c ∈ gap, space c = true) (l : List α) :
    word space (gap ++ l) = word space l ∧ behind space (gap ++ l) = behind space l := by
  rw [word, behind, List.dropWhile_append_of_pos h]
  exact ⟨rfl, rfl⟩

/-- A word ends at the next space. -/
theorem word_append {w : List α} (hne : w ≠ []) (hw : ∀ c ∈ w, space c = false) {l : List α}
    (hl : ∀ c cs, l = c :: cs → space c = true) :
    word space (w ++ l) = w ∧ behind space (w ++ l) = l := by
  have hstop : l.takeWhile (!space ·) = [] ∧ l.dropWhile (!space ·) = l := by
    cases l with
    | nil => exact ⟨rfl, rfl⟩
    | cons c cs =>
      have hc := hl c cs rfl
      simp [hc]
  have hskip : (w ++ l).dropWhile space = w ++ l := by
    obtain ⟨c, cs, rfl⟩ := List.exists_cons_of_ne_nil hne
    rw [List.cons_append, List.dropWhile_cons, hw c (List.mem_cons_self ..)]
    rfl
  have hpass : ∀ c ∈ w, (!space c) = true := fun c hc => by rw [hw c hc]; rfl
  rw [word, behind, hskip, List.takeWhile_append_of_pos hpass, List.dropWhile_append_of_pos hpass,
    hstop.1, hstop.2, List.append_nil]
  exact ⟨rfl, rfl⟩

/-- The sequence begins, behind leading space, with the word `w`, and `rest` follows it. -/
structure Begins (l w rest : List α) : Prop where
  spelled : ∃ gap, (∀ c ∈ gap, space c = true) ∧ l = gap ++ w ++ rest
  ne_nil : w ≠ []
  not_space : ∀ c ∈ w, space c = false
  ends : ∀ c cs, rest = c :: cs → space c = true

theorem begins_iff {l w rest : List α} :
    Begins space l w rest ↔ w ≠ [] ∧ word space l = w ∧ behind space l = rest := by
  constructor
  · rintro ⟨⟨gap, hgap, rfl⟩, hne, hw, hends⟩
    have hskip := word_append_of_space space hgap (w ++ rest)
    have hword := word_append space hne hw hends
    rw [List.append_assoc, hskip.1, hskip.2]
    exact ⟨hne, hword⟩
  · rintro ⟨hne, rfl, rfl⟩
    refine ⟨⟨l.takeWhile space, fun c hc => List.mem_takeWhile_imp hc, ?_⟩, hne,
      fun c hc => not_space_of_mem_word space hc, fun c cs hc => ?_⟩
    · rw [word, behind, List.append_assoc, List.takeWhile_append_dropWhile,
        List.takeWhile_append_dropWhile]
    · have hnot := List.head?_dropWhile_not (!space ·) (l.dropWhile space)
      rw [behind] at hc
      rw [hc] at hnot
      simpa using hnot

/-- Behind leading space stands the text `m`, up to the delimiter or the end. -/
structure Holds (delim : α) (l m : List α) : Prop where
  spelled : ∃ gap tail, (∀ c ∈ gap, space c = true) ∧ l = gap ++ m ++ tail ∧
    ∀ c cs, tail = c :: cs → c = delim
  ne_nil : m ≠ []
  starts : ∀ c cs, m = c :: cs → space c = false
  one_line : delim ∉ m

theorem holds_iff [DecidableEq α] {delim : α} {l m : List α} :
    Holds space delim l m ↔ m ≠ [] ∧ (l.dropWhile space).takeWhile (· ≠ delim) = m := by
  constructor
  · rintro ⟨⟨gap, tail, hgap, rfl, htail⟩, hne, hstarts, hline⟩
    have hskip : (m ++ tail).dropWhile space = m ++ tail := by
      obtain ⟨c, cs, rfl⟩ := List.exists_cons_of_ne_nil hne
      rw [List.cons_append, List.dropWhile_cons, hstarts c cs rfl]
      rfl
    have hstop : tail.takeWhile (· ≠ delim) = [] := by
      cases tail with
      | nil => rfl
      | cons c cs => simp [htail c cs rfl]
    have hpass : ∀ c ∈ m, decide (c ≠ delim) = true := fun c hc =>
      decide_eq_true fun he => hline (he ▸ hc)
    rw [List.append_assoc, List.dropWhile_append_of_pos hgap, hskip,
      List.takeWhile_append_of_pos hpass, hstop, List.append_nil]
    exact ⟨hne, rfl⟩
  · rintro ⟨hne, rfl⟩
    refine ⟨⟨l.takeWhile space, (l.dropWhile space).dropWhile (· ≠ delim),
      fun c hc => List.mem_takeWhile_imp hc, ?_, fun c cs hc => ?_⟩, hne, fun c cs hc => ?_, ?_⟩
    · rw [List.append_assoc, List.takeWhile_append_dropWhile, List.takeWhile_append_dropWhile]
    · have hnot := List.head?_dropWhile_not (fun c => decide (c ≠ delim)) (l.dropWhile space)
      rw [hc] at hnot
      simpa using hnot
    · have hnot := List.head?_dropWhile_not space l
      cases hd : l.dropWhile space with
      | nil =>
        rw [hd] at hc
        cases hc
      | cons d ds =>
        rw [hd, List.takeWhile_cons] at hc
        rw [hd] at hnot
        split at hc
        · cases hc
          simpa using hnot
        · cases hc
    · intro hmem
      simpa using List.mem_takeWhile_imp hmem

/-! ## What the operations read -/

/-- Into an empty string, extraction reads the next word, whatever the state of the stream. -/
theorem extract_word (s : Istream α) : (s.extract space []).2 = word space s.rest ∧
    (s.extract space []).1.rest = behind space s.rest := by
  rw [extract]
  split
  · rename_i h
    have hrest := rest_of_not_good h
    rw [hrest]
    exact ⟨rfl, hrest⟩
  · rw [word, behind]
    split <;> rename_i hd <;> rw [hd] <;> exact ⟨rfl, rfl⟩

/-- From a fresh stream, extraction fails exactly if there is no word. -/
theorem extract_failbit (l : List α) (str : List α) :
    ((ofList l).extract space str).1.failbit = (word space l).isEmpty := by
  have hgood : ¬ (ofList l).good = false := by simp [good, ofList]
  rw [extract, dif_neg hgood]
  change (match l.dropWhile space with
    | [] => (atEnd, str)
    | c :: cs => (seek ((c :: cs).dropWhile (!space ·)), (c :: cs).takeWhile (!space ·))).1.failbit
      = _
  cases hd : l.dropWhile space with
  | nil =>
    rw [word, hd]
    rfl
  | cons c cs =>
    have hne : word space l ≠ [] := by
      rw [ne_eq, word_eq_nil_iff, ← List.dropWhile_eq_nil_iff, hd]
      exact List.cons_ne_nil c cs
    rw [List.isEmpty_eq_false_iff.mpr hne]
    rfl

/-- `getline` behind `ws` reads the rest of the line, without its leading space. -/
theorem getline_ws [DecidableEq α] (delim : α) (s : Istream α) :
    ((s.ws space).getline delim []).2 = (s.rest.dropWhile space).takeWhile (· ≠ delim) := by
  have hread : ∀ t : Istream α, (t.getline delim []).2 = t.rest.takeWhile (· ≠ delim) := by
    intro t
    rw [getline]
    split
    · rename_i h
      rw [rest_of_not_good h]
      rfl
    · split
      · rename_i hd
        exact (List.takeWhile_eq_self_iff.mpr (List.dropWhile_eq_nil_iff.mp hd)).symm
      · rfl
  rw [hread, ws]
  split
  · rename_i h
    rw [refuse, rest_of_not_good h]
    rfl
  · rfl

end Extraction

end Istream
