import Mathlib.Order.Basic

/-!
# Programs that make calls, and what they may rely on

A program is the list of the calls it made, and its result, unless it ended the process. A caller
and its surroundings have a protocol: the surroundings answer each call as they promise, and the
program makes only calls that are permitted where it makes them. The rules below derive, for a
program put together from smaller ones, that it keeps to the protocol and what it has reached.
-/

namespace Calls

/-- What a program did, and its result, unless it ended the process with an exit code. -/
structure Ran (κ α : Type) where
  calls : List κ
  result : Except Int α

namespace Ran

variable {κ α β : Type}

/-- Nothing more is done. -/
def value (a : α) : Ran κ α := ⟨[], .ok a⟩

def call (k : κ) : Ran κ Unit := ⟨[k], .ok ()⟩

/-- The process ends. -/
def exit (code : Int) : Ran κ α := ⟨[], .error code⟩

def andThen (r : Ran κ α) (f : α → Ran κ β) : Ran κ β :=
  match r.result with
  | .ok a => ⟨r.calls ++ (f a).calls, (f a).result⟩
  | .error code => ⟨r.calls, .error code⟩

instance : Monad (Ran κ) where
  pure := value
  bind := andThen

theorem result_bind_eq_ok {r : Ran κ α} {f : α → Ran κ β} {b : β} :
    (r >>= f).result = .ok b ↔ ∃ a, r.result = .ok a ∧ (f a).result = .ok b := by
  show (r.andThen f).result = _ ↔ _
  unfold andThen
  cases r.result with
  | ok a => simp
  | error code => simp

theorem result_call_bind {k : κ} {f : Unit → Ran κ β} :
    (call k >>= f).result = (f ()).result := rfl

end Ran

/-! ## Protocols -/

variable {κ σ α β : Type}

/-- A state of the surroundings, what each call makes of it, what they promise about the answer
that the call records, and which calls are permitted. -/
structure Protocol (κ σ : Type) where
  next : σ → κ → σ
  promises : σ → κ → Prop
  permits : σ → κ → Prop

/-- `P` holds of each call in the state in which it is made. -/
def Along (next : σ → κ → σ) (P : σ → κ → Prop) : σ → List κ → Prop
  | _, [] => True
  | s, k :: ks => P s k ∧ Along next P (next s k) ks

theorem along_append {next : σ → κ → σ} {P : σ → κ → Prop} {s : σ} {ks ks' : List κ} :
    Along next P s (ks ++ ks') ↔ Along next P s ks ∧ Along next P (ks.foldl next s) ks' := by
  induction ks generalizing s with
  | nil => simp [Along]
  | cons k ks ih => simp only [List.cons_append, Along, ih, and_assoc, List.foldl_cons]

namespace Protocol

variable (p : Protocol κ σ)

/-- If its answers are as promised, the program makes permitted calls only, and ends with `Q`. -/
def Does (s : σ) (r : Ran κ α) (Q : Except Int α → σ → Prop) : Prop :=
  Along p.next p.promises s r.calls →
    Along p.next p.permits s r.calls ∧ Q r.result (r.calls.foldl p.next s)

variable {p} {s : σ} {Q : Except Int α → σ → Prop}

theorem does_value {a : α} (h : Q (.ok a) s) : p.Does s (.value a) Q := fun _ => ⟨trivial, h⟩

theorem does_exit {code : Int} (h : Q (.error code) s) : p.Does s (.exit code) Q :=
  fun _ => ⟨trivial, h⟩

/-- A call, and then the rest in the state that it leads to. -/
theorem does_call_bind {k : κ} {f : Unit → Ran κ α} (hk : p.promises s k → p.permits s k)
    (h : p.promises s k → p.Does (p.next s k) (f ()) Q) : p.Does s (.call k >>= f) Q := by
  rintro ⟨hpromise, hrest⟩
  obtain ⟨hpermits, hQ⟩ := h hpromise hrest
  exact ⟨⟨hk hpromise, hpermits⟩, hQ⟩

theorem does_call {k : κ} {Q : Except Int Unit → σ → Prop} (hk : p.promises s k → p.permits s k)
    (h : p.promises s k → Q (.ok ()) (p.next s k)) : p.Does s (.call k) Q := by
  rintro ⟨hpromise, _⟩
  exact ⟨⟨hk hpromise, trivial⟩, h hpromise⟩

theorem Does.bind {R : Except Int β → σ → Prop} {r : Ran κ β} {f : β → Ran κ α}
    (h : p.Does s r R) (hok : ∀ b t, R (.ok b) t → p.Does t (f b) Q)
    (herror : ∀ code t, R (.error code) t → Q (.error code) t) : p.Does s (r >>= f) Q := by
  obtain ⟨calls, result⟩ := r
  cases result with
  | ok b =>
    intro hpromises
    obtain ⟨hfirst, hrest⟩ := along_append.mp hpromises
    obtain ⟨hpermits, hR⟩ := h hfirst
    obtain ⟨hpermits', hQ⟩ := hok b _ hR hrest
    refine ⟨along_append.mpr ⟨hpermits, hpermits'⟩, ?_⟩
    show Q _ ((calls ++ (f b).calls).foldl p.next s)
    rw [List.foldl_append]
    exact hQ
  | error code =>
    intro hpromises
    obtain ⟨hpermits, hR⟩ := h hpromises
    exact ⟨hpermits, herror code _ hR⟩

theorem Does.weaken {R : Except Int α → σ → Prop} {r : Ran κ α} (h : p.Does s r R)
    (hQ : ∀ a t, R a t → Q a t) : p.Does s r Q := fun hpromises =>
  ⟨(h hpromises).1, hQ _ _ (h hpromises).2⟩

/-- What the protocol keeps holds between any two calls. -/
theorem invariant {I : σ → Prop}
    (hstep : ∀ s k, p.promises s k → p.permits s k → I s → I (p.next s k)) {ks ks' : List κ}
    (hpre : ks' <+: ks) (hpromises : Along p.next p.promises s ks)
    (hpermits : Along p.next p.permits s ks) (hs : I s) : I (ks'.foldl p.next s) := by
  induction ks' generalizing s ks with
  | nil => exact hs
  | cons k ks' ih =>
    obtain ⟨rest, rfl⟩ := hpre
    exact ih (List.prefix_append ks' rest) hpromises.2 hpermits.2
      (hstep s k hpromises.1 hpermits.1 hs)

end Protocol

end Calls
