import Mathlib.Data.List.Induction

/-!
# Tag-length-value sequences

A field is a tag byte, a length byte and that many value bytes. `scan` is the
loop a reader runs over a byte sequence: it hands each complete field to a
handler that may stop the reading. It accepts exactly the concatenations of
fields, and on those it is the fold of the handler over the fields.
-/

namespace Tlv

/-- A field whose value fits the length byte. -/
structure Field where
  tag : UInt8
  value : List UInt8
  fits : value.length < 256

def Field.encode (f : Field) : List UInt8 := f.tag :: UInt8.ofNat f.value.length :: f.value

def encode (fs : List Field) : List UInt8 := fs.flatMap Field.encode

@[simp] theorem encode_nil : encode [] = [] := rfl

@[simp] theorem encode_cons (f : Field) (fs : List Field) :
    encode (f :: fs) = f.encode ++ encode fs := List.flatMap_cons

theorem encode_append (fs gs : List Field) : encode (fs ++ gs) = encode fs ++ encode gs :=
  List.flatMap_append

theorem Field.length_encode (f : Field) : f.encode.length = f.value.length + 2 := rfl

/-- The length byte of a field. -/
theorem Field.toNat_length (f : Field) : (UInt8.ofNat f.value.length).toNat = f.value.length := by
  rw [UInt8.toNat_ofNat', Nat.mod_eq_of_lt f.fits]

/-- A field is read off the front of a sequence in one way only. -/
theorem Field.encode_append_inj {f g : Field} {bs cs : List UInt8}
    (h : f.encode ++ bs = g.encode ++ cs) : f = g ∧ bs = cs := by
  simp only [Field.encode, List.cons_append, List.cons.injEq] at h
  obtain ⟨htag, hlen, hrest⟩ := h
  have hlength : f.value.length = g.value.length := by
    rw [← f.toNat_length, ← g.toNat_length, hlen]
  obtain ⟨hvalue, hbs⟩ := List.append_inj hrest hlength
  obtain ⟨ft, fv, _⟩ := f
  obtain ⟨gt, gv, _⟩ := g
  simp only at htag hvalue
  subst htag hvalue
  exact ⟨rfl, hbs⟩

/-- A sequence is the concatenation of one list of fields only. -/
theorem encode_injective : Function.Injective encode := by
  intro fs
  induction fs with
  | nil =>
    intro gs h
    cases gs with
    | nil => rfl
    | cons g gs => cases h
  | cons f fs ih =>
    intro gs h
    cases gs with
    | nil => cases h
    | cons g gs =>
      rw [encode_cons, encode_cons] at h
      obtain ⟨rfl, hrest⟩ := Field.encode_append_inj h
      rw [ih hrest]

variable {σ ε : Type*}

/-- The reading loop. Each field takes at least two bytes, so `fuel` as large as
the input never runs out. -/
def scanFrom (malformed : ε) (onField : σ → UInt8 → List UInt8 → Except ε σ) :
    Nat → σ → List UInt8 → Except ε σ
  | _, s, [] => .ok s
  | _, _, [_] => .error malformed
  | 0, _, _ :: _ :: _ => .error malformed
  | fuel + 1, s, tag :: n :: rest =>
    if rest.length < n.toNat then .error malformed
    else
      match onField s tag (rest.take n.toNat) with
      | .error e => .error e
      | .ok s' => scanFrom malformed onField fuel s' (rest.drop n.toNat)

def scan (malformed : ε) (onField : σ → UInt8 → List UInt8 → Except ε σ) (s : σ)
    (bs : List UInt8) : Except ε σ :=
  scanFrom malformed onField bs.length s bs

/-- Reading a concatenation of fields folds the handler over them. -/
theorem scanFrom_encode (malformed : ε) (onField : σ → UInt8 → List UInt8 → Except ε σ)
    (fs : List Field) : ∀ (fuel : Nat) (s : σ), (encode fs).length ≤ fuel →
      scanFrom malformed onField fuel s (encode fs) =
        fs.foldlM (fun s f => onField s f.tag f.value) s := by
  induction fs with
  | nil => intro fuel s _; cases fuel <;> rfl
  | cons f fs ih =>
    intro fuel s hfuel
    have hn := f.toNat_length
    simp only [encode_cons, List.length_append, Field.length_encode] at hfuel
    obtain ⟨fuel, rfl⟩ : ∃ k, fuel = k + 1 := ⟨fuel - 1, by omega⟩
    have hlen : ¬ (f.value ++ encode fs).length < f.value.length := by
      rw [List.length_append]; omega
    rw [encode_cons, Field.encode, List.cons_append, List.cons_append, scanFrom, hn,
      if_neg hlen, List.take_left, List.drop_left, List.foldlM_cons]
    cases onField s f.tag f.value with
    | error e => rfl
    | ok s' => exact ih fuel s' (by omega)

theorem scan_encode (malformed : ε) (onField : σ → UInt8 → List UInt8 → Except ε σ)
    (s : σ) (fs : List Field) :
    scan malformed onField s (encode fs) = fs.foldlM (fun s f => onField s f.tag f.value) s :=
  scanFrom_encode malformed onField fs _ s (Nat.le_refl _)

/-- Fuel above the length of the input makes no difference. -/
theorem scanFrom_enough (malformed : ε) (onField : σ → UInt8 → List UInt8 → Except ε σ) :
    ∀ (fuel fuel' : Nat) (s : σ) (bs : List UInt8), bs.length ≤ fuel → bs.length ≤ fuel' →
      scanFrom malformed onField fuel s bs = scanFrom malformed onField fuel' s bs := by
  intro fuel
  induction fuel with
  | zero =>
    intro fuel' s bs h _
    obtain rfl := List.length_eq_zero_iff.mp (Nat.le_zero.mp h)
    cases fuel' <;> rfl
  | succ fuel ih =>
    intro fuel' s bs h h'
    match fuel', bs with
    | 0, [] => rfl
    | _ + 1, [] => rfl
    | 0, _ :: _ => simp at h'
    | _ + 1, [_] => rfl
    | fuel' + 1, tag :: n :: rest =>
      simp only [List.length_cons] at h h'
      rw [scanFrom, scanFrom]
      split
      · rfl
      · cases onField s tag (rest.take n.toNat) with
        | error e => rfl
        | ok s' =>
          have hdrop : (rest.drop n.toNat).length = rest.length - n.toNat := List.length_drop
          exact ih fuel' s' _ (by omega) (by omega)

/-- The handler gets the first field, and the reading goes on behind it. -/
theorem scan_cons (malformed : ε) (onField : σ → UInt8 → List UInt8 → Except ε σ) (s : σ)
    (f : Field) (rest : List UInt8) :
    scan malformed onField s (f.encode ++ rest) =
      (onField s f.tag f.value).bind fun s' => scan malformed onField s' rest := by
  have hlen : ¬ (f.value ++ rest).length < f.value.length := by
    rw [List.length_append]
    omega
  rw [scan, List.length_append, Field.length_encode, Field.encode, List.cons_append,
    List.cons_append, show f.value.length + 2 + rest.length = f.value.length + 1 + rest.length + 1 by
      omega, scanFrom, f.toNat_length, if_neg hlen, List.take_left, List.drop_left]
  cases onField s f.tag f.value with
  | error e => rfl
  | ok s' => exact scanFrom_enough malformed onField _ _ s' rest (by omega) (Nat.le_refl _)

/-- A tag and a length byte with enough bytes behind them are the front of a field. -/
theorem exists_front_field (tag : UInt8) {n : UInt8} {rest : List UInt8}
    (h : ¬ rest.length < n.toNat) :
    ∃ f : Field, f.tag = tag ∧ f.value = rest.take n.toNat ∧
      tag :: n :: rest = f.encode ++ rest.drop n.toNat := by
  have hn := n.toNat_lt
  have htake : (rest.take n.toNat).length = n.toNat := by
    rw [List.length_take]; omega
  refine ⟨⟨tag, rest.take n.toNat, by omega⟩, rfl, rfl, ?_⟩
  simp only [Field.encode, htake, UInt8.ofNat_toNat, List.cons_append, List.take_append_drop]

/-- Only a concatenation of fields is read to its end. -/
theorem fields_of_scanFrom (malformed : ε) (onField : σ → UInt8 → List UInt8 → Except ε σ) :
    ∀ (fuel : Nat) (s : σ) (bs : List UInt8) (t : σ),
      scanFrom malformed onField fuel s bs = .ok t → ∃ fs, bs = encode fs := by
  intro fuel
  induction fuel with
  | zero =>
    intro s bs t h
    match bs with
    | [] => exact ⟨[], rfl⟩
    | [_] => simp [scanFrom] at h
    | _ :: _ :: _ => simp [scanFrom] at h
  | succ fuel ih =>
    intro s bs t h
    match bs with
    | [] => exact ⟨[], rfl⟩
    | [_] => simp [scanFrom] at h
    | tag :: n :: rest =>
      rw [scanFrom] at h
      split at h
      · cases h
      · rename_i hlen
        obtain ⟨f, -, -, hf⟩ := exists_front_field tag hlen
        cases ho : onField s tag (rest.take n.toNat) with
        | error e => rw [ho] at h; cases h
        | ok s' =>
          rw [ho] at h
          obtain ⟨fs, hfs⟩ := ih s' _ t h
          exact ⟨f :: fs, by rw [hf, hfs, encode_cons]⟩

theorem fields_of_scan {malformed : ε} {onField : σ → UInt8 → List UInt8 → Except ε σ}
    {s t : σ} {bs : List UInt8} (h : scan malformed onField s bs = .ok t) :
    ∃ fs, bs = encode fs := fields_of_scanFrom malformed onField _ s bs t h

/-- What the handler preserves holds of the final state. -/
theorem scan_preserves {malformed : ε} {onField : σ → UInt8 → List UInt8 → Except ε σ}
    {P : σ → Prop} (hstep : ∀ s (f : Field) s', P s → onField s f.tag f.value = .ok s' → P s')
    {s t : σ} {bs : List UInt8} (hs : P s) (h : scan malformed onField s bs = .ok t) : P t := by
  obtain ⟨fs, rfl⟩ := fields_of_scan h
  rw [scan_encode] at h
  induction fs generalizing s with
  | nil => cases h; exact hs
  | cons f fs ih =>
    rw [List.foldlM_cons] at h
    cases ho : onField s f.tag f.value with
    | error e => rw [ho] at h; cases h
    | ok s' => rw [ho] at h; exact ih (hstep s f s' hs ho) h

/-- A reading that fails reports a malformed sequence or the handler's own error. -/
theorem error_of_scan {malformed : ε} {onField : σ → UInt8 → List UInt8 → Except ε σ}
    {Q : ε → Prop} (hmalformed : Q malformed)
    (hstep : ∀ s tag value e, onField s tag value = .error e → Q e)
    {s : σ} {bs : List UInt8} {e : ε} (h : scan malformed onField s bs = .error e) : Q e := by
  unfold scan at h
  generalize bs.length = fuel at h
  induction fuel generalizing s bs with
  | zero =>
    match bs with
    | [] => simp [scanFrom] at h
    | [_] => cases h; exact hmalformed
    | _ :: _ :: _ => cases h; exact hmalformed
  | succ fuel ih =>
    match bs with
    | [] => simp [scanFrom] at h
    | [_] => cases h; exact hmalformed
    | tag :: n :: rest =>
      rw [scanFrom] at h
      split at h
      · cases h; exact hmalformed
      · cases ho : onField s tag (rest.take n.toNat) with
        | error e' => rw [ho] at h; cases h; exact hstep _ _ _ _ ho
        | ok s' => rw [ho] at h; exact ih h

/-- An error other than a malformed sequence comes from the handler, at the first field that it
refuses. -/
theorem exists_field_of_scan_error {malformed : ε} {onField : σ → UInt8 → List UInt8 → Except ε σ}
    {s : σ} {bs : List UInt8} {e : ε} (h : scan malformed onField s bs = .error e)
    (he : e ≠ malformed) :
    ∃ fs f rest t, bs = encode fs ++ (Field.encode f ++ rest) ∧
      scan malformed onField s (encode fs) = .ok t ∧ onField t f.tag f.value = .error e := by
  unfold scan at h
  generalize bs.length = fuel at h
  induction fuel generalizing s bs with
  | zero =>
    match bs with
    | [] => simp [scanFrom] at h
    | [_] => cases h; exact absurd rfl he
    | _ :: _ :: _ => cases h; exact absurd rfl he
  | succ fuel ih =>
    match bs with
    | [] => simp [scanFrom] at h
    | [_] => cases h; exact absurd rfl he
    | tag :: n :: rest =>
      rw [scanFrom] at h
      split at h
      · cases h; exact absurd rfl he
      · rename_i hlen
        obtain ⟨f₀, rfl, hvalue, hbs⟩ := exists_front_field tag hlen
        rw [← hvalue] at h
        cases ho : onField s f₀.tag f₀.value with
        | error e' =>
          rw [ho] at h
          cases h
          exact ⟨[], f₀, _, s, hbs, rfl, ho⟩
        | ok s' =>
          rw [ho] at h
          obtain ⟨fs, f, later, t, hlater, hscan, herror⟩ := ih h
          refine ⟨f₀ :: fs, f, later, t, ?_, ?_, herror⟩
          · rw [hbs, hlater, encode_cons, List.append_assoc]
          · rw [encode_cons, scan_cons, ho]
            exact hscan

/-! ## The last field of a tag -/

/-- The value of the last field with this tag. -/
def last (tag : UInt8) (fs : List Field) : Option (List UInt8) :=
  fs.foldl (fun v f => if f.tag = tag then some f.value else v) none

@[simp] theorem last_nil (tag : UInt8) : last tag [] = none := rfl

theorem last_concat (tag : UInt8) (fs : List Field) (f : Field) :
    last tag (fs ++ [f]) = if f.tag = tag then some f.value else last tag fs := by
  rw [last, List.foldl_append]
  rfl

theorem last_filter {p : Field → Bool} {tag : UInt8} (hp : ∀ f : Field, f.tag = tag → p f = true)
    (fs : List Field) : last tag (fs.filter p) = last tag fs := by
  induction fs using List.reverseRecOn with
  | nil => rfl
  | append_singleton fs f ih =>
    rw [List.filter_append, last_concat]
    cases hpf : p f with
    | true =>
      rw [List.filter_cons_of_pos hpf, List.filter_nil, last_concat, ih]
    | false =>
      have hf : f.tag ≠ tag := fun hf => by rw [hp f hf] at hpf; cases hpf
      rw [List.filter_cons_of_neg (by simp [hpf]), List.filter_nil, List.append_nil, if_neg hf, ih]

theorem exists_last_iff (tag : UInt8) (fs : List Field) :
    (∃ v, last tag fs = some v) ↔ ∃ f ∈ fs, f.tag = tag := by
  induction fs using List.reverseRecOn with
  | nil => simp
  | append_singleton fs f ih =>
    rw [last_concat]
    by_cases hf : f.tag = tag
    · simp [hf]
    · simp [hf, ih]

/-- With one field of the tag, the order of the fields makes no difference to its value. -/
theorem last_perm {tag : UInt8} {fs gs : List Field} (h : fs.Perm gs)
    (hone : (fs.filter fun f => f.tag = tag).length = 1) : last tag fs = last tag gs := by
  obtain ⟨f, hf⟩ := List.length_eq_one_iff.mp hone
  have hg : gs.filter (fun f => f.tag = tag) = [f] := by
    have hperm := h.filter fun f => f.tag = tag
    rw [hf] at hperm
    exact List.perm_singleton.mp hperm.symm
  have hp : ∀ f : Field, f.tag = tag → decide (f.tag = tag) = true := fun _ => decide_eq_true
  rw [← last_filter hp fs, ← last_filter hp gs, hf, hg]

section Last

variable {malformed : ε} {onField : σ → UInt8 → List UInt8 → Except ε σ}

/-- The handler is handed the fields in turn. -/
theorem scan_concat (s : σ) (fs : List Field) (f : Field) :
    scan malformed onField s (encode (fs ++ [f])) =
      (scan malformed onField s (encode fs)).bind fun t => onField t f.tag f.value := by
  rw [scan_encode, scan_encode, List.foldlM_append]
  cases List.foldlM (fun s f => onField s f.tag f.value) s fs with
  | error e => rfl
  | ok t =>
    show (onField t f.tag f.value).bind pure = onField t f.tag f.value
    cases onField t f.tag f.value <;> rfl

/-- What the handler overwrites with each field of a tag has the value of the last, if it does
so for the fields that there are. -/
theorem scan_last_of {β : Type*} {p : σ → β} {g : List UInt8 → β} {tag : UInt8} {P : Field → Prop}
    (hstep : ∀ s (f : Field) s', P f → onField s f.tag f.value = .ok s' →
      p s' = if f.tag = tag then g f.value else p s)
    {s s' : σ} {fs : List Field} (hall : ∀ f ∈ fs, P f)
    (h : scan malformed onField s (encode fs) = .ok s') :
    p s' = ((last tag fs).map g).getD (p s) := by
  induction fs using List.reverseRecOn generalizing s' with
  | nil => cases h; rfl
  | append_singleton fs f ih =>
    rw [scan_concat] at h
    cases ht : scan malformed onField s (encode fs) with
    | error e => rw [ht] at h; cases h
    | ok t =>
      rw [ht] at h
      have hP := hall f (List.mem_append_right _ List.mem_cons_self)
      rw [hstep t f s' hP h, last_concat, ih (fun f' hf' => hall f' (List.mem_append_left _ hf')) ht]
      by_cases hf : f.tag = tag
      · rw [if_pos hf, if_pos hf]
        rfl
      · rw [if_neg hf, if_neg hf]

theorem scan_last {β : Type*} {p : σ → β} {g : List UInt8 → β} {tag : UInt8}
    (hstep : ∀ s t v s', onField s t v = .ok s' → p s' = if t = tag then g v else p s)
    {s s' : σ} {fs : List Field} (h : scan malformed onField s (encode fs) = .ok s') :
    p s' = ((last tag fs).map g).getD (p s) :=
  scan_last_of (P := fun _ => True) (fun s f s' _ => hstep s f.tag f.value s')
    (fun _ _ => trivial) h

/-- If the handler refuses a field for its tag and value alone, a concatenation of fields is
read to its end exactly if none is refused. -/
theorem scan_ok_iff {fits : UInt8 → List UInt8 → Prop}
    (hstep : ∀ s t v, (∃ s', onField s t v = .ok s') ↔ fits t v) (s : σ) (fs : List Field) :
    (∃ s', scan malformed onField s (encode fs) = .ok s') ↔ ∀ f ∈ fs, fits f.tag f.value := by
  induction fs using List.reverseRecOn with
  | nil => exact ⟨fun _ f hf => absurd hf List.not_mem_nil, fun _ => ⟨s, rfl⟩⟩
  | append_singleton fs f ih =>
    rw [scan_concat]
    constructor
    · rintro ⟨s', h⟩
      cases ht : scan malformed onField s (encode fs) with
      | error e => rw [ht] at h; cases h
      | ok t =>
        rw [ht] at h
        intro f' hf'
        rcases List.mem_append.mp hf' with hold | hnew
        · exact ih.mp ⟨t, ht⟩ f' hold
        · obtain rfl := List.mem_singleton.mp hnew
          exact (hstep t f'.tag f'.value).mp ⟨s', h⟩
    · intro h
      obtain ⟨t, ht⟩ := ih.mpr fun f' hf' => h f' (List.mem_append_left _ hf')
      obtain ⟨s', hs'⟩ := (hstep t f.tag f.value).mpr
        (h f (List.mem_append_right _ List.mem_cons_self))
      exact ⟨s', by rw [ht]; exact hs'⟩

end Last

/-! ## Readings that are cut short -/

/-- The reading loop of a caller that looks at the state also when the reading failed: the
state reached, and the error if there was one. -/
def sweepFrom (malformed : ε) (onField : σ → UInt8 → List UInt8 → Except ε σ) :
    Nat → σ → List UInt8 → σ × Option ε
  | _, s, [] => (s, none)
  | _, s, [_] => (s, some malformed)
  | 0, s, _ :: _ :: _ => (s, some malformed)
  | fuel + 1, s, tag :: n :: rest =>
    if rest.length < n.toNat then (s, some malformed)
    else
      match onField s tag (rest.take n.toNat) with
      | .error e => (s, some e)
      | .ok s' => sweepFrom malformed onField fuel s' (rest.drop n.toNat)

def sweep (malformed : ε) (onField : σ → UInt8 → List UInt8 → Except ε σ) (s : σ)
    (bs : List UInt8) : σ × Option ε :=
  sweepFrom malformed onField bs.length s bs

/-- The state and the error of a sweep, as a result. -/
def outcome (r : σ × Option ε) : Except ε σ := r.2.elim (.ok r.1) .error

theorem scanFrom_eq (malformed : ε) (onField : σ → UInt8 → List UInt8 → Except ε σ) :
    ∀ (fuel : Nat) (s : σ) (bs : List UInt8),
      scanFrom malformed onField fuel s bs = outcome (sweepFrom malformed onField fuel s bs) := by
  intro fuel
  induction fuel with
  | zero =>
    intro s bs
    match bs with
    | [] => rfl
    | [_] => rfl
    | _ :: _ :: _ => rfl
  | succ fuel ih =>
    intro s bs
    match bs with
    | [] => rfl
    | [_] => rfl
    | tag :: n :: rest =>
      rw [scanFrom, sweepFrom]
      split
      · rfl
      · cases onField s tag (rest.take n.toNat) with
        | error e => rfl
        | ok s' => exact ih s' _

/-- A scan is a sweep that forgets the state it reached before an error. -/
theorem scan_eq (malformed : ε) (onField : σ → UInt8 → List UInt8 → Except ε σ) (s : σ)
    (bs : List UInt8) :
    scan malformed onField s bs = outcome (sweep malformed onField s bs) :=
  scanFrom_eq malformed onField _ s bs

theorem sweep_of_scan {malformed : ε} {onField : σ → UInt8 → List UInt8 → Except ε σ} {s t : σ}
    {bs : List UInt8} (h : scan malformed onField s bs = .ok t) :
    sweep malformed onField s bs = (t, none) := by
  rw [scan_eq] at h
  cases hr : sweep malformed onField s bs with
  | mk s' e =>
    rw [hr] at h
    cases e with
    | none => exact congrArg (·, none) (Except.ok.inj h)
    | some e => cases h

theorem sweep_of_scan_error {malformed : ε} {onField : σ → UInt8 → List UInt8 → Except ε σ}
    {s : σ} {e : ε} {bs : List UInt8} (h : scan malformed onField s bs = .error e) :
    ∃ t, sweep malformed onField s bs = (t, some e) := by
  rw [scan_eq] at h
  cases hr : sweep malformed onField s bs with
  | mk t e' =>
    rw [hr] at h
    cases e' with
    | none => cases h
    | some e' =>
      obtain rfl := Except.error.inj h
      exact ⟨t, rfl⟩

end Tlv
