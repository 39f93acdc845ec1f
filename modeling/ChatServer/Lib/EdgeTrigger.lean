import Mathlib.Data.List.Basic

/-!
# Sockets under edge-triggered readiness notification

Each open descriptor has a receive queue with an end-of-stream flag, a writable
bit, the interest it is registered for and an armed bit. Registering arms the
descriptor if it is ready for the interest, and so does each change from unready
to ready; a wait hands out armed ready descriptors and disarms them. A process
is seen through its system calls: `Kernel.Run` says which sequences of calls and
answers the kernel allows, with network activity at any point between them.
-/

namespace EdgeTrigger

inductive Errno where
  | EAGAIN
  | EINTR
  | ECONNABORTED
  | ECONNRESET
  | EPIPE
  | other (code : Nat)
  deriving DecidableEq, Repr

/-- What `read` or `write` returned: the bytes transferred, or `-1` with an
error. A read of no bytes is the end of the stream. -/
inductive Rv (α : Type*) where
  | bytes (bs : List α)
  | fail (e : Errno)
  deriving DecidableEq, Repr

inductive Interest where
  | input
  | output
  deriving DecidableEq, Repr

/-- A system call of the process together with its answer. -/
inductive Syscall (α : Type*) where
  | accept (fd : Nat)
  | add (fd : Nat) (i : Interest)
  | modify (fd : Nat) (i : Interest)
  | delete (fd : Nat)
  | read (fd : Nat) (rv : Rv α)
  | write (fd : Nat) (rv : Rv α)
  deriving DecidableEq, Repr

variable {α : Type*}

/-- The call sets or clears the interest registered for `fd`, or opens `fd`. -/
def Syscall.Registers (fd : Nat) : Syscall α → Prop
  | .accept d => d = fd
  | .add d _ => d = fd
  | .modify d _ => d = fd
  | .delete d => d = fd
  | .read _ _ => False
  | .write _ _ => False

/-- The calls leave the registration of `fd` alone. -/
abbrev Spares (fd : Nat) (cs : List (Syscall α)) : Prop := ∀ c ∈ cs, ¬ c.Registers fd

theorem Spares.append {fd : Nat} {cs ds : List (Syscall α)} (h : Spares fd cs)
    (h' : Spares fd ds) : Spares fd (cs ++ ds) := by
  intro c hc
  rcases List.mem_append.mp hc with hm | hm
  · exact h c hm
  · exact h' c hm

structure Sock (α : Type*) where
  queue : List α
  eof : Bool
  writable : Bool
  interest : Option Interest
  armed : Bool

def Sock.Ready (s : Sock α) : Interest → Prop
  | .input => s.queue ≠ [] ∨ s.eof = true
  | .output => s.writable = true

/-- Every readiness for interest `i` has armed the socket. -/
def Sock.Watched (s : Sock α) (i : Interest) : Prop :=
  s.interest = some i ∧ (s.Ready i → s.armed = true)

/-- Set the interest, arming the socket if it is ready. -/
def Sock.Register (s : Sock α) (i : Interest) (t : Sock α) : Prop :=
  t.queue = s.queue ∧ t.eof = s.eof ∧ t.writable = s.writable ∧ t.interest = some i ∧
    (s.Ready i → t.armed = true) ∧ (¬ s.Ready i → t.armed = s.armed)

/-- Network activity: the queue only grows at its end, the stream may end, the
send buffer may fill or drain. A change from unready to ready arms the socket. -/
def Sock.Activity (s t : Sock α) : Prop :=
  s.queue <+: t.queue ∧ (s.eof = true → t.eof = true) ∧ t.interest = s.interest ∧
    (s.armed = true → t.armed = true) ∧
    ∀ i, s.interest = some i → ¬ s.Ready i → t.Ready i → t.armed = true

/-- The open descriptors. -/
abbrev Kernel (α : Type*) := Nat → Option (Sock α)

namespace Kernel

/-- `k'` differs from `k` at `fd` only, where it holds `t`. -/
def Sets (k : Kernel α) (fd : Nat) (t : Sock α) (k' : Kernel α) : Prop :=
  k' fd = some t ∧ ∀ d, d ≠ fd → k' d = k d

/-- Network activity on one open descriptor. -/
def Net (k k' : Kernel α) : Prop :=
  ∃ fd s t, k fd = some s ∧ s.Activity t ∧ k.Sets fd t k'

/-- The kernel may answer the call so, and is then in state `k'`. -/
def Answers (k : Kernel α) : Syscall α → Kernel α → Prop
  | .accept fd, k' => k fd = none ∧
      ∃ t : Sock α, t.interest = none ∧ t.armed = false ∧ k.Sets fd t k'
  | .add fd i, k' => ∃ s t, k fd = some s ∧ s.interest = none ∧ s.Register i t ∧ k.Sets fd t k'
  | .modify fd i, k' => ∃ s t, k fd = some s ∧ s.interest ≠ none ∧ s.Register i t ∧
      k.Sets fd t k'
  | .delete fd, k' => ∃ s, k fd = some s ∧
      k.Sets fd { s with interest := none, armed := false } k'
  | .read fd (.bytes []), k' => ∃ s, k fd = some s ∧ s.queue = [] ∧ s.eof = true ∧ k' = k
  | .read fd (.bytes (b :: bs)), k' => ∃ s rest, k fd = some s ∧ s.queue = b :: bs ++ rest ∧
      k.Sets fd { s with queue := rest } k'
  | .read fd (.fail .EAGAIN), k' => ∃ s, k fd = some s ∧ s.queue = [] ∧ s.eof = false ∧ k' = k
  | .read _ (.fail _), k' => k' = k
  | .write fd (.bytes _), k' => ∃ s, k fd = some s ∧ s.writable = true ∧ k' = k
  | .write fd (.fail .EAGAIN), k' => ∃ s, k fd = some s ∧ s.writable = false ∧ k' = k
  | .write _ (.fail _), k' => k' = k

/-- The kernel goes from `k` to `k'` while the process makes the calls, with any
network activity before, between and after them. -/
inductive Run : Kernel α → List (Syscall α) → Kernel α → Prop where
  | done (k) : Run k [] k
  | net {k k₁ k' cs} : k.Net k₁ → Run k₁ cs k' → Run k cs k'
  | call {k k₁ k' c cs} : k.Answers c k₁ → Run k₁ cs k' → Run k (c :: cs) k'

/-- `epoll_wait` disarms the descriptors it returns. -/
def Disarms (k : Kernel α) (fds : List Nat) (k' : Kernel α) : Prop :=
  ∀ d, k' d = if d ∈ fds then (k d).map (fun s => { s with armed := false }) else k d

def Registered (k : Kernel α) (fd : Nat) (i : Interest) : Prop :=
  ∃ s, k fd = some s ∧ s.interest = some i

def Watched (k : Kernel α) (fd : Nat) (i : Interest) : Prop :=
  ∃ s, k fd = some s ∧ s.Watched i

theorem Watched.registered {k : Kernel α} {fd : Nat} {i : Interest} (h : k.Watched fd i) :
    k.Registered fd i := by
  obtain ⟨s, hs, hi, _⟩ := h
  exact ⟨s, hs, hi⟩

/-! ## What one step preserves -/

theorem Net.registered {k k' : Kernel α} (h : k.Net k') {fd : Nat} {i : Interest}
    (hr : k.Registered fd i) : k'.Registered fd i := by
  obtain ⟨d, s, t, hs, ⟨_, _, hi, _⟩, ht, hother⟩ := h
  obtain ⟨u, hu, hui⟩ := hr
  by_cases hd : fd = d
  · subst hd
    rw [hs] at hu
    cases hu
    exact ⟨t, ht, hi.trans hui⟩
  · exact ⟨u, (hother fd hd).trans hu, hui⟩

theorem Net.watched {k k' : Kernel α} (h : k.Net k') {fd : Nat} {i : Interest}
    (hw : k.Watched fd i) : k'.Watched fd i := by
  obtain ⟨d, s, t, hs, ⟨_, _, hi, ha, hedge⟩, ht, hother⟩ := h
  obtain ⟨u, hu, hui, hua⟩ := hw
  by_cases hd : fd = d
  · subst hd
    rw [hs] at hu
    cases hu
    refine ⟨t, ht, hi.trans hui, fun hready => ?_⟩
    by_cases hbefore : s.Ready i
    · exact ha (hua hbefore)
    · exact hedge i hui hbefore hready
  · exact ⟨u, (hother fd hd).trans hu, hui, hua⟩

/-- A call that does not register `fd` leaves it as it was, except that a read
may shorten its queue. -/
theorem Answers.frame {k k' : Kernel α} {c : Syscall α} (h : k.Answers c k') {fd : Nat}
    (hc : ¬ c.Registers fd) {s : Sock α} (hs : k fd = some s) :
    ∃ q, k' fd = some { s with queue := q } ∧ (q ≠ [] → s.queue ≠ []) := by
  have hother : ∀ d t, fd ≠ d → k.Sets d t k' →
      ∃ q, k' fd = some { s with queue := q } ∧ (q ≠ [] → s.queue ≠ []) :=
    fun d t hd hset => ⟨s.queue, (hset.2 fd hd).trans hs, id⟩
  have hsame : k' = k → ∃ q, k' fd = some { s with queue := q } ∧ (q ≠ [] → s.queue ≠ []) :=
    fun he => ⟨s.queue, by rw [he, hs], id⟩
  cases c with
  | accept d => obtain ⟨_, t, _, _, hset⟩ := h; exact hother d t (Ne.symm hc) hset
  | add d i => obtain ⟨_, t, _, _, _, hset⟩ := h; exact hother d t (Ne.symm hc) hset
  | modify d i => obtain ⟨_, t, _, _, _, hset⟩ := h; exact hother d t (Ne.symm hc) hset
  | delete d => obtain ⟨_, _, hset⟩ := h; exact hother d _ (Ne.symm hc) hset
  | read d rv =>
    match rv, h with
    | .bytes [], h => obtain ⟨_, _, _, _, he⟩ := h; exact hsame he
    | .bytes (b :: bs), h =>
      obtain ⟨u, rest, hu, hq, hset⟩ := h
      by_cases hd : fd = d
      · subst hd
        rw [hs] at hu
        cases hu
        exact ⟨rest, hset.1, fun _ => by rw [hq]; simp⟩
      · exact hother d _ hd hset
    | .fail .EAGAIN, h => obtain ⟨_, _, _, _, he⟩ := h; exact hsame he
    | .fail .EINTR, h => exact hsame h
    | .fail .ECONNABORTED, h => exact hsame h
    | .fail .ECONNRESET, h => exact hsame h
    | .fail .EPIPE, h => exact hsame h
    | .fail (.other _), h => exact hsame h
  | write d rv =>
    match rv, h with
    | .bytes _, h => obtain ⟨_, _, _, he⟩ := h; exact hsame he
    | .fail .EAGAIN, h => obtain ⟨_, _, _, he⟩ := h; exact hsame he
    | .fail .EINTR, h => exact hsame h
    | .fail .ECONNABORTED, h => exact hsame h
    | .fail .ECONNRESET, h => exact hsame h
    | .fail .EPIPE, h => exact hsame h
    | .fail (.other _), h => exact hsame h

theorem Answers.registered {k k' : Kernel α} {c : Syscall α} (h : k.Answers c k') {fd : Nat}
    (hc : ¬ c.Registers fd) {i : Interest} (hr : k.Registered fd i) : k'.Registered fd i := by
  obtain ⟨s, hs, hi⟩ := hr
  obtain ⟨q, hq, _⟩ := h.frame hc hs
  exact ⟨_, hq, hi⟩

theorem Answers.watched {k k' : Kernel α} {c : Syscall α} (h : k.Answers c k') {fd : Nat}
    (hc : ¬ c.Registers fd) {i : Interest} (hw : k.Watched fd i) : k'.Watched fd i := by
  obtain ⟨s, hs, hi, ha⟩ := hw
  obtain ⟨q, hq, hshrink⟩ := h.frame hc hs
  refine ⟨_, hq, hi, fun hready => ha ?_⟩
  cases i with
  | input => exact hready.imp hshrink id
  | output => exact hready

theorem Register.watched {s t : Sock α} {i : Interest} (h : s.Register i t) : t.Watched i := by
  obtain ⟨hq, he, hw, hi, hon, _⟩ := h
  refine ⟨hi, fun hready => hon ?_⟩
  cases i with
  | input => simpa only [Sock.Ready, hq, he] using hready
  | output => simpa only [Sock.Ready, hw] using hready

/-- Registering an interest leaves no readiness unreported. -/
theorem watched_of_modify {k k' : Kernel α} {fd : Nat} {i : Interest}
    (h : k.Answers (.modify fd i) k') : k'.Watched fd i := by
  obtain ⟨_, t, _, _, hreg, hset⟩ := h
  exact ⟨t, hset.1, Register.watched hreg⟩

theorem watched_of_add {k k' : Kernel α} {fd : Nat} {i : Interest}
    (h : k.Answers (.add fd i) k') : k'.Watched fd i := by
  obtain ⟨_, t, _, _, hreg, hset⟩ := h
  exact ⟨t, hset.1, Register.watched hreg⟩

/-- A read that would block found nothing to report. -/
theorem watched_of_read_again {k k' : Kernel α} {fd : Nat}
    (h : k.Answers (.read fd (.fail .EAGAIN)) k') (hr : k.Registered fd .input) :
    k'.Watched fd .input := by
  obtain ⟨s, hs, hq, he, rfl⟩ := h
  obtain ⟨t, ht, hi⟩ := hr
  rw [hs] at ht
  cases ht
  exact ⟨s, hs, hi, fun hready => by simp [Sock.Ready, hq, he] at hready⟩

theorem watched_of_write_again {k k' : Kernel α} {fd : Nat}
    (h : k.Answers (.write fd (.fail .EAGAIN)) k') (hr : k.Registered fd .output) :
    k'.Watched fd .output := by
  obtain ⟨s, hs, hw, rfl⟩ := h
  obtain ⟨t, ht, hi⟩ := hr
  rw [hs] at ht
  cases ht
  exact ⟨s, hs, hi, fun hready => by simp [Sock.Ready, hw] at hready⟩

/-! ## What a run preserves -/

theorem Run.append {k k₁ k₂ : Kernel α} {cs ds : List (Syscall α)} (h : Run k cs k₁)
    (h' : Run k₁ ds k₂) : Run k (cs ++ ds) k₂ := by
  induction h with
  | done => exact h'
  | net hn _ ih => exact .net hn (ih h')
  | call hc _ ih => exact .call hc (ih h')

theorem Run.split {k k₂ : Kernel α} {cs ds : List (Syscall α)} (h : Run k (cs ++ ds) k₂) :
    ∃ k₁, Run k cs k₁ ∧ Run k₁ ds k₂ := by
  generalize he : cs ++ ds = es at h
  induction h generalizing cs with
  | done k =>
    obtain ⟨rfl, rfl⟩ := List.append_eq_nil_iff.mp he
    exact ⟨k, .done k, .done k⟩
  | net hn _ ih =>
    obtain ⟨k₁, h₁, h₂⟩ := ih he
    exact ⟨k₁, .net hn h₁, h₂⟩
  | @call k k' k'' c es' hc hrest ih =>
    cases cs with
    | nil =>
      rw [List.nil_append] at he
      subst he
      exact ⟨k, .done k, .call hc hrest⟩
    | cons c' cs =>
      rw [List.cons_append] at he
      obtain ⟨rfl, he'⟩ := List.cons.inj he
      obtain ⟨k₁, h₁, h₂⟩ := ih he'
      exact ⟨k₁, .call hc h₁, h₂⟩

theorem Run.registered {k k' : Kernel α} {cs : List (Syscall α)} (h : Run k cs k') {fd : Nat}
    (hc : Spares fd cs) {i : Interest} (hr : k.Registered fd i) : k'.Registered fd i := by
  induction h with
  | done => exact hr
  | net hn _ ih => exact ih hc (hn.registered hr)
  | call ha _ ih =>
    exact ih (fun c hm => hc c (List.mem_cons_of_mem _ hm))
      (ha.registered (hc _ List.mem_cons_self) hr)

/-- While the process leaves the registration of `fd` alone, no readiness of `fd`
goes unreported. -/
theorem Run.watched {k k' : Kernel α} {cs : List (Syscall α)} (h : Run k cs k') {fd : Nat}
    (hc : Spares fd cs) {i : Interest} (hw : k.Watched fd i) : k'.Watched fd i := by
  induction h with
  | done => exact hw
  | net hn _ ih => exact ih hc (hn.watched hw)
  | call ha _ ih =>
    exact ih (fun c hm => hc c (List.mem_cons_of_mem _ hm))
      (ha.watched (hc _ List.mem_cons_self) hw)

theorem Run.head {k k' : Kernel α} {ds : List (Syscall α)} {c : Syscall α}
    (h : Run k (c :: ds) k') : ∃ k₁ k₂, Run k [] k₁ ∧ k₁.Answers c k₂ ∧ Run k₂ ds k' := by
  generalize he : c :: ds = es at h
  induction h with
  | done => cases he
  | net hn _ ih =>
    obtain ⟨k₁, k₂, h₁, hc, h₂⟩ := ih he
    exact ⟨k₁, k₂, .net hn h₁, hc, h₂⟩
  | call hc hrest _ =>
    cases he
    exact ⟨_, _, .done _, hc, hrest⟩

/-- The states around one call of a run. -/
theorem Run.at_call {k k' : Kernel α} {cs ds : List (Syscall α)} {c : Syscall α}
    (h : Run k (cs ++ c :: ds) k') :
    ∃ k₁ k₂, Run k cs k₁ ∧ k₁.Answers c k₂ ∧ Run k₂ ds k' := by
  obtain ⟨k₀, h₀, hrest⟩ := h.split
  obtain ⟨k₁, k₂, hnet, hc, h₂⟩ := hrest.head
  exact ⟨k₁, k₂, by simpa using h₀.append hnet, hc, h₂⟩

/-- An open descriptor stays open. -/
theorem Net.stays_open {k k' : Kernel α} (h : k.Net k') {fd : Nat} (hk : k' fd = none) :
    k fd = none := by
  obtain ⟨d, s, t, _, _, ht, hother⟩ := h
  by_cases hd : fd = d
  · subst hd
    rw [ht] at hk
    cases hk
  · rw [← hother fd hd, hk]

theorem Answers.stays_open {k k' : Kernel α} {c : Syscall α} (h : k.Answers c k') {fd : Nat}
    (hk : k' fd = none) : k fd = none := by
  have hset : ∀ d t, k.Sets d t k' → k fd = none := by
    intro d t hset
    by_cases hd : fd = d
    · subst hd
      rw [hset.1] at hk
      cases hk
    · rw [← hset.2 fd hd, hk]
  by_cases hc : c.Registers fd
  · cases c with
    | accept d => obtain ⟨_, t, _, _, h⟩ := h; exact hset d t h
    | add d i => obtain ⟨_, t, _, _, _, h⟩ := h; exact hset d t h
    | modify d i => obtain ⟨_, t, _, _, _, h⟩ := h; exact hset d t h
    | delete d => obtain ⟨_, _, h⟩ := h; exact hset d _ h
    | read => exact absurd hc id
    | write => exact absurd hc id
  · by_contra hsome
    obtain ⟨s, hs⟩ := Option.ne_none_iff_exists'.mp hsome
    obtain ⟨q, hq, _⟩ := h.frame hc hs
    rw [hq] at hk
    cases hk

theorem Run.stays_open {k k' : Kernel α} {cs : List (Syscall α)} (h : Run k cs k') {fd : Nat}
    (hk : k' fd = none) : k fd = none := by
  induction h with
  | done => exact hk
  | net hn _ ih => exact hn.stays_open (ih hk)
  | call hc _ ih => exact hc.stays_open (ih hk)

/-! ## The last registration of a run -/

/-- The calls end with no readiness of `fd` for `j` unreported, if it was registered for
`i` before: they register it for `j`, or find it not ready for the interest it has. -/
inductive Settles (fd : Nat) (i : Interest) : Interest → List (Syscall α) → Prop where
  | modify {j cs ds} : Spares fd ds → Settles fd i j (cs ++ .modify fd j :: ds)
  | readAgain {cs ds} : i = .input → Spares fd cs → Spares fd ds →
      Settles fd i .input (cs ++ .read fd (.fail .EAGAIN) :: ds)
  | writeAgain {cs ds} : i = .output → Spares fd cs → Spares fd ds →
      Settles fd i .output (cs ++ .write fd (.fail .EAGAIN) :: ds)

section Settles

variable {k k' : Kernel α} {fd : Nat} {i j l : Interest} {cs ds : List (Syscall α)}

theorem Settles.prepend (h : Settles fd i j ds) (hcs : Spares fd cs) :
    Settles fd i j (cs ++ ds) := by
  cases h with
  | modify h =>
    rw [← List.append_assoc]
    exact .modify h
  | readAgain hi h h' =>
    rw [← List.append_assoc]
    exact .readAgain hi (hcs.append h) h'
  | writeAgain hi h h' =>
    rw [← List.append_assoc]
    exact .writeAgain hi (hcs.append h) h'

/-- What settles after a registration settles whatever was registered before it. -/
theorem Settles.after_modify (h : Settles fd i j ds) :
    Settles fd l j (cs ++ .modify fd i :: ds) := by
  cases h with
  | modify h =>
    rw [← List.cons_append, ← List.append_assoc]
    exact .modify h
  | readAgain hi h h' =>
    subst hi
    refine .modify (h.append ?_)
    exact fun c hc => (List.mem_cons.mp hc).elim (fun he => he ▸ id) (h' c)
  | writeAgain hi h h' =>
    subst hi
    refine .modify (h.append ?_)
    exact fun c hc => (List.mem_cons.mp hc).elim (fun he => he ▸ id) (h' c)

theorem Settles.trans (h : Settles fd i j cs) (h' : Settles fd j l ds) :
    Settles fd i l (cs ++ ds) := by
  cases h with
  | modify h =>
    rw [List.append_assoc, List.cons_append]
    exact (h'.prepend h).after_modify
  | @readAgain as bs hi h₁ h₂ =>
    subst hi
    refine h'.prepend (h₁.append ?_)
    exact fun c hc => (List.mem_cons.mp hc).elim (fun he => he ▸ id) (h₂ c)
  | @writeAgain as bs hi h₁ h₂ =>
    subst hi
    refine h'.prepend (h₁.append ?_)
    exact fun c hc => (List.mem_cons.mp hc).elim (fun he => he ▸ id) (h₂ c)

theorem Run.watched_of_settles (h : Run k cs k') (hs : Settles fd i j cs)
    (hr : k.Registered fd i) : k'.Watched fd j := by
  cases hs with
  | modify hds =>
    obtain ⟨_, _, _, hc, hrest⟩ := h.at_call
    exact hrest.watched hds (watched_of_modify hc)
  | readAgain hi hcs hds =>
    obtain ⟨_, _, hbefore, hc, hrest⟩ := h.at_call
    exact hrest.watched hds (watched_of_read_again hc (hbefore.registered hcs (hi ▸ hr)))
  | writeAgain hi hcs hds =>
    obtain ⟨_, _, hbefore, hc, hrest⟩ := h.at_call
    exact hrest.watched hds (watched_of_write_again hc (hbefore.registered hcs (hi ▸ hr)))

end Settles

/-! ## What a wait preserves -/

/-- The descriptor is armed and ready for its interest, or has an error to report. -/
def Reports (k : Kernel α) (fd : Nat) (err : Bool) : Prop :=
  ∃ s i, k fd = some s ∧ s.interest = some i ∧ (err = true ∨ s.armed = true ∧ s.Ready i)

section Disarms

variable {k k' : Kernel α} {fds : List Nat} {fd : Nat} {i : Interest}

theorem Disarms.stays_open (h : k.Disarms fds k') (hk : k' fd = none) : k fd = none := by
  rw [h fd] at hk
  split at hk
  · exact Option.map_eq_none_iff.mp hk
  · exact hk

theorem Disarms.registered (h : k.Disarms fds k') (hr : k.Registered fd i) :
    k'.Registered fd i := by
  obtain ⟨s, hs, hi⟩ := hr
  unfold Registered
  rw [h fd, hs]
  split
  · exact ⟨_, rfl, hi⟩
  · exact ⟨s, rfl, hi⟩

theorem Disarms.watched (h : k.Disarms fds k') (hfd : fd ∉ fds) (hw : k.Watched fd i) :
    k'.Watched fd i := by
  unfold Watched
  rw [h fd, if_neg hfd]
  exact hw

end Disarms

end Kernel

end EdgeTrigger
