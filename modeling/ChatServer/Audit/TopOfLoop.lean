import ChatServer.Audit.Notification

/-!
# Invariants of the slots between events

A property of single slots holds between any two events if new connections have it and
the event of a connection keeps it for that connection: what an event does to other slots
is known once and for all.
-/

namespace ChatServer

open EdgeTrigger (Errno Rv Interest Syscall)

/-- The runs in which every event meets `ok` in the state it is handled in. -/
def Loops (ok : Server → Event → Prop) : Server → Server → Prop :=
  Relation.ReflTransGen fun s t =>
    (∃ ev : Event, ev.Legal s.listenfd ∧ ok s ev ∧ t = s.handleEvent ev) ∨
      s.status = .running ∧ t = s.setStatus (.exited (-1))

theorem Loops.events {ok : Server → Event → Prop} {s : Server} (hok : ∀ s ev, ok s ev)
    (hs : Tidy s) (events : List Event) (hlegal : ∀ ev ∈ events, ev.Legal s.listenfd) :
    Loops ok s (events.foldl Server.handleEvent s) := by
  induction events generalizing s with
  | nil => exact .refl
  | cons ev events ih =>
    have htidy := tidy_of_steps (handleEvent_steps s ev) hs
    refine .head (.inl ⟨ev, hlegal ev List.mem_cons_self, hok s ev, rfl⟩) (ih htidy.1 fun e he => ?_)
    rw [htidy.2]
    exact hlegal e (List.mem_cons_of_mem _ he)

/-- Every state at the top of the loop is one between two events. -/
theorem Reaches.loops {s₀ s : Server} (h : Reaches s₀ s) (hs : Tidy s₀)
    {ok : Server → Event → Prop} (hok : ∀ s ev, ok s ev) : Loops ok s₀ s := by
  induction h with
  | refl => exact .refl
  | @tail s t hreach hst ih =>
    obtain ⟨w, hlegal, rfl⟩ := hst
    refine ih.trans ?_
    cases w with
    | ready events => exact Loops.events hok (tidy_of_steps (Reaches.steps hreach) hs).1 events hlegal
    | fail =>
      show Loops ok s (if s.status = .running then _ else s)
      split
      · exact .single (.inr ⟨‹_›, rfl⟩)
      · exact .refl

/-! ## The rule -/

/-- A property of slots that the events of other connections keep. -/
structure Lasting (P : Nat → Slot → Prop) : Prop where
  untouched : ∀ {d σ τ}, τ.flags = σ.flags → τ.incoming = σ.incoming →
    τ.outgoing = σ.outgoing → P d σ → P d τ
  queued : ∀ {d σ τ}, hasFlag σ.flags .isActive = true → hasFlag τ.flags .isActive = true →
    hasFlag τ.flags .wantRead = false → hasFlag τ.flags .wantWrite = true →
    hasFlag τ.flags .wantClose = hasFlag σ.flags .wantClose → τ.incoming = σ.incoming →
    τ.outgoing ≠ [] → P d σ → P d τ

section Rule

variable {P : Nat → Slot → Prop} {s t : Server} {c d : Nat}

theorem Lasting.beside (hP : Lasting P) (hb : Beside d s t) (h : P d (s.slot d)) :
    P d (t.slot d) := by
  cases hb with
  | untouched _ _ _ hf hi ho => exact hP.untouched hf hi ho h
  | queued _ _ ha _ _ ha' hr hw hc hi ho => exact hP.queued ha ha' hr hw hc hi ho h

theorem Lasting.steps (hP : Lasting P) (hsteps : StepsOn c s t) (hs : Tidy s)
    (h : ∀ d, P d (s.slot d)) (hc : P c (t.slot c)) (d : Nat) : P d (t.slot d) := by
  by_cases hd : d = c
  · subst hd
    exact hc
  · exact hP.beside (hsteps.beside hs hd) (h d)

/-- New connections have the property, other than the two descriptors always open. -/
def Starts (P : Nat → Slot → Prop) (listenfd : Nat) : Prop :=
  ∀ fd σ, fd ≠ listenfd → fd ≠ STDIN_FILENO → P fd σ →
    P fd { σ with flags := .isActive ||| .wantRead }

theorem Lasting.acceptAllConnections (hP : Lasting P) (hstart : Starts P s.listenfd)
    (answers : List AcceptAnswer) (hs : Tidy s) (h : ∀ d, P d (s.slot d))
    (hlegal : ∀ fd nonblocking registered, .conn fd nonblocking registered ∈ answers →
      fd ≠ STDIN_FILENO ∧ fd ≠ s.listenfd) (d : Nat) :
    P d ((s.acceptAllConnections answers).slot d) := by
  induction answers generalizing s with
  | nil => exact h d
  | cons answer answers ih =>
    cases answer with
    | fail e =>
      simp only [Server.acceptAllConnections]
      split <;> exact h d
    | conn fd nonblocking registered =>
      obtain ⟨h0, hl⟩ := hlegal fd nonblocking registered List.mem_cons_self
      have hsteps := addConnection_steps s fd nonblocking registered
      have htidy := hsteps.tidy hs
      have hself : P fd (((s.sys (.accept fd)).addConnection fd nonblocking registered).slot fd) := by
        unfold Server.addConnection
        split_ifs
        · exact h fd
        · exact h fd
        · have hgrow := (hs.step (.call (.accept (c := fd)))).slot_grow fd fd
          rw [slot_connect, if_pos rfl]
          exact hstart fd _ hl h0 (hP.untouched hgrow.1 hgrow.2.1 hgrow.2.2 (h fd))
      have hall := hP.steps hsteps hs h hself
      simp only [Server.acceptAllConnections]
      split
      · refine ih (htidy.2 ▸ hstart) htidy.1 hall fun fd' n r hmem => ?_
        rw [htidy.2]
        exact hlegal fd' n r (List.mem_cons_of_mem _ hmem)
      · exact hall d

/-- **Invariant rule.** A lasting property that holds at the start holds between any two
events, if new connections have it and each event keeps it for its own connection. -/
theorem Lasting.loops {ok : Server → Event → Prop} {capacity listenfd : Nat} {db : Db}
    (hP : Lasting P) (hstart : Starts P listenfd)
    (hboot : ∀ d, P d ((Server.boot capacity listenfd db).slot d))
    (hself : ∀ {s : Server} {ev : Event}, Tidy s → s.status = .running → ok s ev →
      P ev.fd (s.slot ev.fd) → ev.fd ≠ listenfd → ev.fd ≠ STDIN_FILENO →
      (s.handleConnection ev).status = .running → P ev.fd ((s.handleConnection ev).slot ev.fd))
    (h : Loops ok (Server.boot capacity listenfd db) s) :
    Tidy s ∧ s.listenfd = listenfd ∧ (s.status = .running → ∀ d, P d (s.slot d)) := by
  induction h with
  | refl => exact ⟨tidy_boot _ _ _, rfl, fun _ => hboot⟩
  | @tail s t _ hst ih =>
    obtain ⟨hs, hl, hinv⟩ := ih
    rcases hst with ⟨ev, hlegal, hok, rfl⟩ | ⟨_, rfl⟩
    · have htidy := tidy_of_steps (handleEvent_steps s ev) hs
      refine ⟨htidy.1, htidy.2.trans hl, fun hend => ?_⟩
      obtain ⟨hrun, hhandling⟩ := handleEvent_handling hend
      generalize s.handleEvent ev = t at hhandling hend ⊢
      cases hhandling with
      | accepting =>
        exact hP.acceptAllConnections (hl ▸ hstart) ev.script.accepts hs (hinv hrun) hlegal
      | command => exact hinv hrun
      | connection hfd h0 =>
        exact hP.steps (handleConnection_steps s ev) hs (hinv hrun)
          (hself hs hrun hok (hinv hrun ev.fd) (hl ▸ hfd) h0 hend)
    · exact ⟨hs.of_slots rfl fun _ => .inl rfl, hl, fun hend => by cases hend⟩

end Rule

/-! ## What the flags say at the top of the loop -/

/-- A connection does not want to read and to write at once. -/
def OneWay (f : ConnFlags) : Prop := hasFlag f .wantRead = true → hasFlag f .wantWrite = false

theorem oneWay_nextFlags {f : ConnFlags} (h : OneWay f) (next : ConnState) :
    OneWay (next.nextFlags f) := by
  cases next with
  | reading => exact fun _ => wantWrite_reading f
  | writing => exact fun hr => absurd ((wantRead_writing f).symm.trans hr) (by decide)
  | closing => exact fun hr => (wantWrite_closing f).trans (h ((wantRead_closing f).symm.trans hr))

theorem oneWay_none : OneWay .none := fun h => absurd ((hasFlag_none _).symm.trans h) (by decide)

theorem Step.oneWay {c d : Nat} {s t : Server} (hst : Step c s t) (hs : Tidy s)
    (h : OneWay (s.slot d).flags) : OneWay (t.slot d).flags := by
  have hstate : ∀ next, OneWay ((s.setConnectionState c next).slot d).flags := by
    intro next
    rw [Server.slot_setConnectionState]
    split
    · exact oneWay_nextFlags h next
    · exact h
  cases hst with
  | call => exact h
  | halt => exact h
  | connect =>
    rw [slot_connect]
    split
    · exact fun _ => wantWrite_initial
    · rw [(hs.slot_grow c d).1]
      exact h
  | receive => rw [slot_receive]; split <;> exact h
  | @serve n o =>
    have hd := dispatch_handled s c (parseMessage ((s.slot c).incoming.take n)) o
    rw [slot_serve]
    by_cases hdc : d = c
    · subst hdc
      rw [if_pos rfl]
      intro hr
      exact (hd.flags_self (by decide)).trans (h ((hd.flags_self (by decide)).symm.trans hr))
    · rw [if_neg hdc]
      rcases hd.slot_other hdc with he | ⟨_, he⟩ <;> rw [he]
      · exact h
      · exact oneWay_nextFlags h .writing
  | closing => exact hstate _
  | writing => exact hstate _
  | write => rw [slot_written]; split <;> exact h
  | reading => exact hstate _
  | remove =>
    rw [slot_removeConnection]
    split
    · exact oneWay_none
    · exact h

theorem StepsOn.oneWay {c d : Nat} {s t : Server} (h : StepsOn c s t) (hs : Tidy s)
    (hd : OneWay (s.slot d).flags) : OneWay (t.slot d).flags :=
  h.preserves (P := fun u => OneWay (u.slot d).flags) (fun _ _ ht hst hu => hst.oneWay ht hu) hs hd

/-- Between two events no connection waits to be closed, and the two descriptors that are
always open hold none. -/
structure AtRest (listenfd d : Nat) (slot : Slot) : Prop where
  reserved : d = listenfd ∨ d = STDIN_FILENO → slot.flags = .none
  wantClose : hasFlag slot.flags .wantClose = false
  oneWay : OneWay slot.flags

theorem lasting_atRest (listenfd : Nat) : Lasting (AtRest listenfd) where
  untouched hf _ _ h := by
    constructor <;> rw [hf]
    · exact h.reserved
    · exact h.wantClose
    · exact h.oneWay
  queued ha _ hr _ hc _ _ h := by
    refine ⟨fun hd => ?_, hc.trans h.wantClose, fun hr' => absurd (hr.symm.trans hr') (by decide)⟩
    rw [h.reserved hd, hasFlag_none] at ha
    cases ha

theorem starts_atRest (listenfd : Nat) : Starts (AtRest listenfd) listenfd := by
  intro fd σ hl h0 _
  exact ⟨fun hd => (hd.elim hl h0).elim, wantClose_initial, fun _ => wantWrite_initial⟩

theorem atRest_boot (capacity listenfd : Nat) (db : Db) (d : Nat) :
    AtRest listenfd d ((Server.boot capacity listenfd db).slot d) :=
  ⟨fun _ => rfl, hasFlag_none _, oneWay_none⟩

/-- The event of a connection leaves it at rest: what is to be closed is removed. -/
theorem AtRest.handleConnection {listenfd : Nat} {s : Server} {ev : Event} (hs : Tidy s)
    (hrest : AtRest listenfd ev.fd (s.slot ev.fd)) (hl : ev.fd ≠ listenfd)
    (h0 : ev.fd ≠ STDIN_FILENO) (hend : (s.handleConnection ev).status = .running) :
    AtRest listenfd ev.fd ((s.handleConnection ev).slot ev.fd) := by
  have hone := (handleConnection_steps s ev).oneWay hs hrest.oneWay
  refine ⟨fun hd => (hd.elim hl h0).elim, ?_, hone⟩
  unfold Server.handleConnection at hend ⊢
  rcases closeStage_cases ((s.readStage ev).writeStage ev) ev with hclose | ⟨hclose, hopen⟩ <;>
    rw [hclose] at hend ⊢
  · rw [slot_removeConnection, if_pos rfl, hasFlag_none]
  · exact (hopen hend).2

theorem Reaches.atRest {capacity listenfd : Nat} {db : Db} {s : Server}
    (h : Reaches (Server.boot capacity listenfd db) s) (hrun : s.status = .running) (d : Nat) :
    AtRest listenfd d (s.slot d) := by
  have hloops : Loops (fun _ _ => True) _ s := h.loops (tidy_boot _ _ _) fun _ _ => trivial
  exact ((lasting_atRest listenfd).loops (starts_atRest listenfd) (atRest_boot _ _ _)
    (fun hs _ _ hrest hl h0 hend => hrest.handleConnection hs hl h0 hend) hloops).2.2 hrun d

/-- A reading connection at the top of the loop. -/
theorem Reaches.reading {capacity listenfd : Nat} {db : Db} {s : Server}
    (h : Reaches (Server.boot capacity listenfd db) s) (hrun : s.status = .running) {c : Nat}
    (hread : hasFlag (s.slot c).flags .wantRead = true) :
    c ≠ s.listenfd ∧ c ≠ STDIN_FILENO ∧ hasFlag (s.slot c).flags .wantWrite = false ∧
      hasFlag (s.slot c).flags .wantClose = false := by
  have hrest := h.atRest hrun c
  have hlisten : s.listenfd = listenfd := (tidy_of_steps h.steps (tidy_boot _ _ _)).2
  have hconn : ¬ (c = listenfd ∨ c = STDIN_FILENO) := fun hc => by
    rw [hrest.reserved hc, hasFlag_none] at hread
    cases hread
  obtain ⟨hl, h0⟩ := not_or.mp hconn
  exact ⟨hlisten ▸ hl, h0, hrest.oneWay hread, hrest.wantClose⟩

/-! A run that accepts one connection. -/

def accepted (capacity : Nat) : Server :=
  (Server.boot capacity 3 .empty).iterate (.ready [⟨3, false, { accepts := [.conn 5 true true] }⟩])

theorem reaches_accepted (capacity : Nat) :
    Reaches (Server.boot capacity 3 .empty) (accepted capacity) :=
  .single ⟨_, by simp [Wait.Legal, Event.Legal, Server.boot, STDIN_FILENO], rfl⟩

end ChatServer
