import ChatServer.Audit.Steps

/-!
# The history of a run

The history gives, for each connection, the bytes that were read from it and written
to it, the requests served on it and the frames queued for it. `AtEach` is the
property of a history that says something of every request served and of what
went before it.
-/

namespace ChatServer

open EdgeTrigger (Errno Rv Interest Syscall)

/-! ## The history seen from one connection -/

def Entry.writtenTo (i : Nat) : Entry → Bytes
  | .sys (.write d (.bytes bs)) => if d = i then bs else []
  | _ => []

def Entry.receivedOn (i : Nat) : Entry → Bytes
  | .sys (.read d (.bytes bs)) => if d = i then bs else []
  | _ => []

/-- One response frame for the sender; for a successful broadcast of another
connection one notification frame, if it selects `i`. -/
def Served.framesTo (i : Nat) (r : Served) : List Bytes :=
  if r.conn = i then [r.response.wire]
  else if r.response.type = MsgType.chat.code ∧ r.response.rc = 0 ∧
      i ∈ r.view.recipients r.conn (parseMessage r.frame) then [r.response.wire]
  else []

def Entry.framesTo (i : Nat) : Entry → List Bytes
  | .served r => r.framesTo i
  | .sys _ => []

def Entry.requestOn (i : Nat) : Entry → List Bytes
  | .served r => if r.conn = i then [r.frame] else []
  | .sys _ => []

def Entry.servedIn : Entry → List Served
  | .served r => [r]
  | .sys _ => []

/-- The requests served, on any connection. -/
def servedIn (log : List Entry) : List Served := log.flatMap Entry.servedIn

/-- The bytes that `write` has accepted on `i`. -/
def bytesWritten (i : Nat) (log : List Entry) : Bytes := log.flatMap (Entry.writtenTo i)

/-- The bytes that `read` has returned on `i`. -/
def bytesRead (i : Nat) (log : List Entry) : Bytes := log.flatMap (Entry.receivedOn i)

/-- The frames queued for `i`, in the order in which the requests were served. -/
def framesFor (i : Nat) (log : List Entry) : List Bytes := log.flatMap (Entry.framesTo i)

/-- The requests served on `i`. -/
def requestsOn (i : Nat) (log : List Entry) : List Bytes := log.flatMap (Entry.requestOn i)

/-- The bytes emitted to `i`, whether written or still queued. -/
def Server.emitted (s : Server) (i : Nat) : Bytes := bytesWritten i s.log ++ (s.slot i).outgoing

section History

variable (i : Nat) (log : List Entry) (e : Entry)

theorem bytesWritten_append (es : List Entry) :
    bytesWritten i (log ++ es) = bytesWritten i log ++ bytesWritten i es := List.flatMap_append

theorem bytesRead_append (es : List Entry) :
    bytesRead i (log ++ es) = bytesRead i log ++ bytesRead i es := List.flatMap_append

theorem framesFor_append (es : List Entry) :
    framesFor i (log ++ es) = framesFor i log ++ framesFor i es := List.flatMap_append

theorem requestsOn_append (es : List Entry) :
    requestsOn i (log ++ es) = requestsOn i log ++ requestsOn i es := List.flatMap_append

theorem bytesWritten_singleton : bytesWritten i [e] = e.writtenTo i := List.flatMap_singleton ..

theorem bytesRead_singleton : bytesRead i [e] = e.receivedOn i := List.flatMap_singleton ..

theorem framesFor_singleton : framesFor i [e] = e.framesTo i := List.flatMap_singleton ..

theorem requestsOn_singleton : requestsOn i [e] = e.requestOn i := List.flatMap_singleton ..

end History

theorem mem_servedIn {log : List Entry} {r : Served} : r ∈ servedIn log ↔ .served r ∈ log := by
  unfold servedIn
  rw [List.mem_flatMap]
  constructor
  · rintro ⟨e, he, hr⟩
    cases e with
    | sys k => exact absurd hr List.not_mem_nil
    | served r' =>
      obtain rfl := List.mem_singleton.mp hr
      exact he
  · exact fun h => ⟨_, h, List.mem_singleton_self r⟩

instance (log : List Entry) (P : Served → Prop) [DecidablePred P] :
    Decidable (∀ r, .served r ∈ log → P r) :=
  decidable_of_iff (∀ r ∈ servedIn log, P r) (by simp only [mem_servedIn])

instance (log : List Entry) (P : Served → Prop) [DecidablePred P] :
    Decidable (∃ r, .served r ∈ log ∧ P r) :=
  decidable_of_iff (∃ r ∈ servedIn log, P r) (by simp only [mem_servedIn])

/-- Registrations are invisible in every stream. -/
theorem flatMap_modify {β : Type*} {f : Entry → List β}
    (hf : ∀ d, f (.sys (.modify d .output)) = []) (dests : List Nat) :
    (dests.map fun d => Entry.sys (.modify d .output)).flatMap f = [] := by
  rw [List.flatMap_eq_nil_iff]
  intro e he
  obtain ⟨d, _, rfl⟩ := List.mem_map.mp he
  exact hf d

theorem map_modify (dests : List Nat) :
    dests.map (fun d => Entry.sys (.modify d .output)) =
      (dests.map fun d => Syscall.modify d .output).map .sys := by
  rw [List.map_map]
  rfl

/-! ## The history after one step -/

section Steps

variable {s t : Server} {c : Nat}

theorem log_serve (s : Server) (c : Nat) (frame rest : Bytes) (o : SqlOutcome) :
    ∃ dests : List Nat, ((s.serveFrame c frame o).setIncoming c rest).log =
      s.log ++ dests.map (fun d => .sys (.modify d .output)) ++
        [.served ⟨c, frame, (s.dispatch c (parseMessage frame) o).2, s.view, o⟩] := by
  obtain ⟨dests, _, hlog⟩ := (dispatch_handled s c (parseMessage frame) o).log
  exact ⟨dests, by rw [log_served, hlog]⟩

theorem log_connect (s : Server) (fd : Nat) :
    ((s.sys (.add fd .input)).activate fd).log = s.log ++ [.sys (.add fd .input)] := by
  show (((s.sys (.add fd .input)).grow fd).setFlags fd _).log = _
  unfold Server.grow
  split <;> rfl

theorem db_connect (s : Server) (fd : Nat) : (s.activate fd).db = s.db := by
  show ((s.grow fd).setFlags fd _).db = s.db
  unfold Server.grow
  split <;> rfl

theorem status_activate (s : Server) (fd : Nat) : (s.activate fd).status = s.status := by
  show (s.grow fd).status = s.status
  unfold Server.grow
  split <;> rfl

/-- A step makes at most one system call and leaves the user table alone, or serves one
request. -/
theorem Step.log (hst : Step c s t) :
    (∃ ks : List (Syscall UInt8), t.log = s.log ++ ks.map .sys ∧ t.db = s.db) ∨
    ∃ n o, hasFlag (s.slot c).flags .wantRead = true ∧
      requestCut (s.slot c).incoming = .take n ∧
      t = (s.serveFrame c ((s.slot c).incoming.take n) o).setIncoming c
        ((s.slot c).incoming.drop n) := by
  have hnone : s.log = s.log ++ ([] : List (Syscall UInt8)).map .sys := (List.append_nil _).symm
  cases hst with
  | @call k _ => exact .inl ⟨[k], rfl, rfl⟩
  | halt => exact .inl ⟨[], hnone, rfl⟩
  | connect => exact .inl ⟨[.add c .input], log_connect s c, db_connect _ c⟩
  | receive b bs => exact .inl ⟨[.read c (.bytes (b :: bs))], rfl, rfl⟩
  | @serve n o hr hcut => exact .inr ⟨n, o, hr, hcut, rfl⟩
  | closing => exact .inl ⟨[], hnone, rfl⟩
  | writing => exact .inl ⟨[.modify c .output], rfl, rfl⟩
  | write n => exact .inl ⟨[.write c (.bytes ((s.slot c).outgoing.take n))], rfl, rfl⟩
  | reading => exact .inl ⟨[.modify c .input], rfl, rfl⟩
  | remove => exact .inl ⟨[.delete c], rfl, rfl⟩

/-- The history only grows. -/
theorem Step.log_grows (hst : Step c s t) : s.log <+: t.log := by
  rcases hst.log with ⟨ks, h, _⟩ | ⟨n, o, _, _, rfl⟩
  · rw [h]
    exact List.prefix_append _ _
  · obtain ⟨dests, h⟩ := log_serve s c ((s.slot c).incoming.take n) ((s.slot c).incoming.drop n) o
    rw [h, List.append_assoc]
    exact List.prefix_append _ _

theorem Steps.log_grows (h : Steps s t) : s.log <+: t.log :=
  h.preserves (P := fun u => s.log <+: u.log) (fun _ _ _ hst hu => hu.trans hst.log_grows)
    (List.prefix_refl _)

/-! ## Properties of every request served -/

/-- `P` holds of every request served and of the history before it. -/
def AtEach (P : List Entry → Served → Prop) (log : List Entry) : Prop :=
  ∀ pre r post, log = pre ++ .served r :: post → P pre r

theorem atEach_nil (P : List Entry → Served → Prop) : AtEach P [] := by
  intro pre r post h
  exact absurd h.symm (List.append_ne_nil_of_right_ne_nil _ (List.cons_ne_nil _ _))

theorem AtEach.append_sys {P : List Entry → Served → Prop} {log : List Entry} (h : AtEach P log)
    (ks : List (Syscall UInt8)) : AtEach P (log ++ ks.map .sys) := by
  intro pre r post heq
  rcases List.append_eq_append_iff.mp heq with ⟨as, rfl, hks⟩ | ⟨as, hlog, hks⟩
  · have hmem : Entry.served r ∈ ks.map Entry.sys := by
      rw [hks]
      exact List.mem_append_right _ List.mem_cons_self
    obtain ⟨k, _, hk⟩ := List.mem_map.mp hmem
    cases hk
  · cases as with
    | nil =>
      rw [List.nil_append] at hks
      have hmem : Entry.served r ∈ ks.map Entry.sys := hks ▸ List.mem_cons_self
      obtain ⟨k, _, hk⟩ := List.mem_map.mp hmem
      cases hk
    | cons a as =>
      obtain ⟨rfl, _⟩ := List.cons.inj hks
      exact h pre r as hlog

theorem AtEach.append_served {P : List Entry → Served → Prop} {log : List Entry} {r : Served}
    (h : AtEach P log) (hr : P log r) : AtEach P (log ++ [.served r]) := by
  intro pre r' post heq
  rcases List.append_eq_append_iff.mp heq with ⟨as, rfl, has⟩ | ⟨as, hlog, has⟩
  · cases as with
    | nil =>
      obtain ⟨hr', _⟩ := List.cons.inj has
      cases hr'
      rwa [List.append_nil]
    | cons a as => exact absurd (List.cons.inj has).2 (by simp)
  · cases as with
    | nil =>
      obtain ⟨hr', _⟩ := List.cons.inj has
      cases hr'
      rw [List.append_nil] at hlog
      exact hlog ▸ hr
    | cons a as =>
      obtain ⟨rfl, _⟩ := List.cons.inj has
      exact h pre r' as hlog

/-- A property of every request served is kept if the next request served has it. -/
theorem Step.atEach {P : List Entry → Served → Prop} (hst : Step c s t) (hs : AtEach P s.log)
    (hserve : ∀ n o (dests : List Nat), hasFlag (s.slot c).flags .wantRead = true →
      requestCut (s.slot c).incoming = .take n →
      P (s.log ++ dests.map fun d => .sys (.modify d .output)) ⟨c, (s.slot c).incoming.take n,
        (s.dispatch c (parseMessage ((s.slot c).incoming.take n)) o).2, s.view, o⟩) :
    AtEach P t.log := by
  rcases hst.log with ⟨ks, h, _⟩ | ⟨n, o, hr, hcut, rfl⟩
  · rw [h]
    exact hs.append_sys ks
  · obtain ⟨dests, h⟩ := log_serve s c ((s.slot c).incoming.take n) ((s.slot c).incoming.drop n) o
    rw [h]
    refine AtEach.append_served ?_ (hserve n o dests hr hcut)
    rw [map_modify]
    exact hs.append_sys _

end Steps

end ChatServer
