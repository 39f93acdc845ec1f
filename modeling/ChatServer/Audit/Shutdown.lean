import ChatServer.Model.Messaging
import ChatServer.Model.Transport

/-!
# How a client ends

Over every order of the steps of the two threads: what one of them uses the other has not closed,
the main thread returns with everything closed once, and after the user quits at most one more
message is handled. The main thread gets past the join unless the socket thread waits for the rest
of a message that it had begun.
-/

namespace ChatServer

namespace Messaging

/-! ## The invariant -/

/-- The socket thread is running. -/
def Running (s : Messaging) : Prop := s.thread ≠ .unborn ∧ s.thread ≠ .finished

/-- The socket thread is inside `handle_server_response`. -/
def Handling (s : Messaging) : Prop := s.Running ∧ s.thread ≠ .poll

instance (s : Messaging) : Decidable s.Handling :=
  inferInstanceAs (Decidable ((_ ∧ _) ∧ _))

/-- The main thread is in front of a line, or in one. -/
def InLine (s : Messaging) : Prop := s.main = .getline ∨ s.main = .shell

instance (s : Messaging) : Decidable s.InLine := inferInstanceAs (Decidable (_ ∨ _))

/-- What the place of the main thread says about the rest. -/
def AtPoint (s : Messaging) : MainPoint → Prop
  | .pipe => s.thread = .unborn ∧ s.readEnd = .absent ∧ s.writeEnd = .absent ∧
      s.conn = .opened ∧ s.signalled = false
  | .test | .getline | .shell | .signal | .terminated => s.thread ≠ .unborn ∧
      s.readEnd = .opened ∧ s.writeEnd = .opened ∧ s.conn = .opened ∧ s.signalled = false
  | .join => s.thread ≠ .unborn ∧ s.readEnd = .opened ∧ s.writeEnd = .opened ∧
      s.conn = .opened ∧ s.signalled = true
  | .closeRead => s.thread = .finished ∧ s.readEnd = .opened ∧ s.writeEnd = .opened ∧
      s.conn = .opened ∧ s.signalled = true
  | .closeWrite => s.thread = .finished ∧ s.readEnd = .closed ∧ s.writeEnd = .opened ∧
      s.conn = .opened ∧ s.signalled = true
  | .lock | .closeConn => s.thread = .finished ∧ s.readEnd = .closed ∧ s.writeEnd = .closed ∧
      s.conn = .opened ∧ s.signalled = true
  | .returned => s.thread = .finished ∧ s.readEnd = .closed ∧ s.writeEnd = .closed ∧
        s.conn = .closed ∧ s.signalled = true ∨
      s.thread = .unborn ∧ s.readEnd = .absent ∧ s.writeEnd = .absent ∧
        s.conn = .opened ∧ s.signalled = false

/-- One message at most is handled after the byte was written: the one that the thread is in. -/
structure FewMessages (s : Messaging) : Prop where
  early : s.signalled = false → s.lateMessages = 0
  handling : s.Handling → s.lateMessages = 0
  late : s.lateMessages ≤ 1

/-- One line at most is handled after the interrupt: the one that the main thread waits for. -/
structure FewLines (s : Messaging) : Prop where
  running : s.keepRunning = true → s.lateLines = 0
  inLine : s.InLine → s.lateLines = 0
  late : s.lateLines ≤ 1

/-- The invariant of the two threads. -/
structure Sound (s : Messaging) : Prop where
  point : s.AtPoint s.main
  mutex : s.mutex = true ↔ s.thread = .locked ∨ s.main = .closeConn
  header : ∀ got, s.thread = .header got → got.length ≤ MSG_HEADER_SIZE
  messages : s.FewMessages
  lines : s.FewLines

theorem sound_start : start.Sound where
  point := ⟨rfl, rfl, rfl, rfl, rfl⟩
  mutex := by decide
  header _ h := by cases h
  messages := ⟨fun _ => rfl, fun _ => rfl, by decide⟩
  lines := ⟨fun _ => rfl, fun _ => rfl, by decide⟩

section Steps

variable {s t : Messaging}

theorem MainStep.point (hst : MainStep s t) (h : s.AtPoint s.main) : t.AtPoint t.main := by
  cases hst <;> simp_all [AtPoint, countLine]

/-- The main thread has the mutex for one step. -/
theorem MainStep.mutex (hst : MainStep s t) (h : s.Sound) :
    t.mutex = true ↔ t.thread = .locked ∨ t.main = .closeConn := by
  have hp := h.point
  have hm := h.mutex
  cases hst <;> simp_all [AtPoint, countLine]

theorem MainStep.header (hst : MainStep s t) (h : s.Sound) (got : Bytes)
    (ht : t.thread = .header got) : got.length ≤ MSG_HEADER_SIZE := by
  have hsame : t.thread = s.thread ∨ t.thread = .poll := by
    cases hst <;> first | exact .inl rfl | exact .inr rfl
  obtain hsame | hpoll := hsame
  · exact h.header got (hsame.symm.trans ht)
  · cases hpoll.symm.trans ht

theorem MainStep.messages (hst : MainStep s t) (h : s.FewMessages) : t.FewMessages := by
  obtain ⟨hearly, hhandling, hlate⟩ := h
  cases hst <;> constructor <;> simp_all [countLine, Handling, Running]

theorem countLine_le (h : s.lateLines = 0) : s.countLine.lateLines ≤ 1 := by
  show s.lateLines + (if s.keepRunning then 0 else 1) ≤ 1
  rw [h]
  split <;> decide

/-- A line is counted when it is left, and none is begun then. -/
theorem FewLines.count (h : s.FewLines) (hl : s.InLine)
    (hlate : t.lateLines = s.countLine.lateLines) (hkeep : t.keepRunning = s.keepRunning)
    (ht : ¬ t.InLine) : t.FewLines := by
  have hzero := h.inLine hl
  refine ⟨fun hr => ?_, fun hl => absurd hl ht, hlate ▸ countLine_le hzero⟩
  rw [hlate]
  simp [countLine, hkeep.symm.trans hr, hzero]

/-- The next line is read while the loop goes on. -/
theorem MainStep.lines (hst : MainStep s t) (h : s.FewLines) : t.FewLines := by
  cases hst with
  | proceed hm => exact h.count (.inr hm) rfl rfl (by simp [InLine])
  | quit hm => exact h.count (.inr hm) rfl rfl (by simp [InLine])
  | goOn _ hk => exact ⟨h.running, fun _ => h.running hk, h.late⟩
  | line hm => exact ⟨h.running, fun _ => h.inLine (.inl hm), h.late⟩
  | _ => exact ⟨h.running, fun hl => by simp [InLine] at hl, h.late⟩

theorem MainStep.sound (hst : MainStep s t) (h : s.Sound) : t.Sound :=
  ⟨hst.point h.point, hst.mutex h, hst.header h, hst.messages h.messages, hst.lines h.lines⟩

theorem Reading.handling (h : s.Reading) : s.Handling := by
  cases h <;> simp_all [Handling, Running]

/-- The main thread and the descriptors are as they were, and the socket thread is where it was or
has been running. -/
structure Aside (s t : Messaging) : Prop where
  thread : t.thread = s.thread ∨ s.Running ∧ t.thread ≠ .unborn
  main : t.main = s.main
  readEnd : t.readEnd = s.readEnd
  writeEnd : t.writeEnd = s.writeEnd
  conn : t.conn = s.conn
  signalled : t.signalled = s.signalled
  keepRunning : t.keepRunning = true → s.keepRunning = true
  lateLines : t.lateLines = s.lateLines

theorem ThreadStep.running (hst : ThreadStep s t) : s.Running := by
  cases hst with
  | readFails hr => exact hr.handling.1
  | _ => simp_all [Running]

theorem ThreadStep.aside (hst : ThreadStep s t) : s.Aside t := by
  have hborn : s.Running ∧ t.thread ≠ .unborn := by
    refine ⟨hst.running, ?_⟩
    cases hst <;> simp_all
  cases hst <;> exact ⟨.inr hborn, rfl, rfl, rfl, rfl, rfl, id, rfl⟩

theorem Outside.aside (hst : Outside s t) : s.Aside t := by
  cases hst with
  | arrive => exact ⟨.inl rfl, rfl, rfl, rfl, rfl, rfl, id, rfl⟩
  | ends => exact ⟨.inl rfl, rfl, rfl, rfl, rfl, rfl, id, rfl⟩
  | sigint => exact ⟨.inl rfl, rfl, rfl, rfl, rfl, rfl, fun h => absurd h Bool.false_ne_true, rfl⟩
  | pollInterrupted ht =>
    exact ⟨.inr ⟨by simp [Running, ht], by simp⟩, rfl, rfl, rfl, rfl, rfl,
      fun h => absurd h Bool.false_ne_true, rfl⟩
  | readInterrupted ht =>
    exact ⟨.inr ⟨by simp [Running, ht], by simp⟩, rfl, rfl, rfl, rfl, rfl,
      fun h => absurd h Bool.false_ne_true, rfl⟩

/-- While the socket thread runs the main thread is in front of the join. -/
theorem Aside.point (ha : s.Aside t) (h : s.AtPoint s.main) : t.AtPoint t.main := by
  obtain ⟨hthread, hmain, hread, hwrite, hconn, hs, _⟩ := ha
  rw [hmain]
  obtain hsame | ⟨⟨hborn, hends⟩, hborn'⟩ := hthread
  · cases hm : s.main <;> simp_all [AtPoint]
  · cases hm : s.main <;> simp_all [AtPoint]

theorem Aside.lines (ha : s.Aside t) (h : s.FewLines) : t.FewLines :=
  ⟨fun hr => ha.lateLines.trans (h.running (ha.keepRunning hr)),
    fun hl => ha.lateLines.trans (h.inLine (by rwa [InLine, ha.main] at hl)),
    Nat.le_trans (Nat.le_of_eq ha.lateLines) h.late⟩

/-- The mutex is the main thread's only behind the join. -/
theorem Sound.mutex_iff (h : s.Sound) (hr : s.Running) :
    s.main ≠ .closeConn ∧ (s.mutex = true ↔ s.thread = .locked) := by
  have hmain : s.main ≠ .closeConn := fun he => by
    have hp := h.point
    rw [he] at hp
    exact hr.2 hp.1
  exact ⟨hmain, h.mutex.trans (or_iff_left hmain)⟩

theorem ThreadStep.mutex (hst : ThreadStep s t) (h : s.Sound) :
    t.mutex = true ↔ t.thread = .locked ∨ t.main = .closeConn := by
  obtain ⟨hmain, hm⟩ := h.mutex_iff hst.running
  cases hst with
  | readFails hr => cases hr <;> simp_all
  | _ => simp_all [countMessage]

theorem Outside.mutex (hst : Outside s t) (h : s.Sound) :
    t.mutex = true ↔ t.thread = .locked ∨ t.main = .closeConn := by
  have hm := h.mutex
  cases hst <;> simp_all

theorem ThreadStep.header (hst : ThreadStep s t) (h : s.Sound) (got : Bytes)
    (ht : t.thread = .header got) : got.length ≤ MSG_HEADER_SIZE := by
  cases hst with
  | ready =>
    cases ht
    exact Nat.zero_le _
  | readHeader _ _ _ hle =>
    cases ht
    exact hle
  | other => exact h.header got ht
  | _ => cases ht

theorem Outside.header (hst : Outside s t) (h : s.Sound) (got : Bytes)
    (ht : t.thread = .header got) : got.length ≤ MSG_HEADER_SIZE := by
  cases hst with
  | pollInterrupted => cases ht
  | readInterrupted => cases ht
  | _ => exact h.header got ht

theorem FewMessages.keep (h : s.FewMessages) (hlate : t.lateMessages = s.lateMessages)
    (hs : t.signalled = s.signalled) (hh : t.Handling → s.Handling) : t.FewMessages :=
  ⟨fun hearly => hlate.trans (h.early (hs.symm.trans hearly)),
    fun hl => hlate.trans (h.handling (hh hl)), Nat.le_trans (Nat.le_of_eq hlate) h.late⟩

theorem countMessage_le (h : s.lateMessages = 0) : s.countMessage.lateMessages ≤ 1 := by
  show s.lateMessages + (if s.signalled then 1 else 0) ≤ 1
  rw [h]
  split <;> decide

/-- A message is counted when it is left, and nothing is begun then. -/
theorem FewMessages.count (h : s.FewMessages) (hh : s.Handling)
    (hlate : t.lateMessages = s.countMessage.lateMessages) (hs : t.signalled = s.signalled)
    (ht : t.thread = .poll) : t.FewMessages := by
  have hzero := h.handling hh
  refine ⟨fun hearly => ?_, fun hl => absurd ht hl.2, hlate ▸ countMessage_le hzero⟩
  rw [hlate]
  simp [countMessage, hs.symm.trans hearly, hzero]

/-- The next message is begun only without the byte. -/
theorem ThreadStep.messages (hst : ThreadStep s t) (h : s.FewMessages) : t.FewMessages := by
  cases hst with
  | handled ht => exact h.count (by simp [Handling, Running, ht]) rfl rfl rfl
  | unlock ht => exact h.count (by simp [Handling, Running, ht]) rfl rfl rfl
  | ready _ hs => exact ⟨h.early, fun _ => h.early hs, h.late⟩
  | readFails => exact h.keep rfl rfl fun hl => absurd rfl hl.1.2
  | other => exact h
  | _ => exact h.keep rfl rfl (by simp_all [Handling, Running])

theorem Outside.messages (hst : Outside s t) (h : s.FewMessages) : t.FewMessages := by
  cases hst with
  | pollInterrupted => exact h.keep rfl rfl fun hl => absurd rfl hl.1.2
  | readInterrupted => exact h.keep rfl rfl fun hl => absurd rfl hl.1.2
  | _ => exact h.keep rfl rfl id

theorem Advance.sound (hst : Advance s t) (h : s.Sound) : t.Sound := by
  cases hst with
  | main hst => exact hst.sound h
  | thread _ hst =>
    exact ⟨hst.aside.point h.point, hst.mutex h, hst.header h, hst.messages h.messages,
      hst.aside.lines h.lines⟩

theorem Outside.sound (hst : Outside s t) (h : s.Sound) : t.Sound :=
  ⟨hst.aside.point h.point, hst.mutex h, hst.header h, hst.messages h.messages,
    hst.aside.lines h.lines⟩

theorem Step.sound (hst : Step s t) (h : s.Sound) : t.Sound := by
  cases hst with
  | advance hst => exact hst.sound h
  | outside _ hst => exact hst.sound h

theorem Steps.sound (h : Steps start s) : s.Sound := by
  induction h with
  | refl => exact sound_start
  | tail _ hst ih => exact hst.sound ih

end Steps

/-! ## What the threads share -/

/-- Neither thread uses or closes what the other has closed or still uses; the mutex is held by
one of them; and the main thread returns when the other one has finished and everything is
closed, or there never was another. At most one message is handled after the user has quit, and
at most one line after an interrupt. -/
theorem shutdown_safe {s : Messaging} (h : Steps start s) :
    (s.Running → s.conn = .opened ∧ s.readEnd = .opened) ∧
    (s.main = .signal → s.writeEnd = .opened) ∧
    (s.main = .closeRead → s.readEnd = .opened ∧ ¬ s.Running) ∧
    (s.main = .closeWrite → s.writeEnd = .opened ∧ ¬ s.Running) ∧
    (s.main = .closeConn → s.conn = .opened ∧ s.thread = .finished) ∧
    (s.main = .returned → s.mutex = false ∧
      (s.thread = .finished ∧ s.readEnd = .closed ∧ s.writeEnd = .closed ∧ s.conn = .closed ∨
        s.thread = .unborn ∧ s.readEnd = .absent ∧ s.writeEnd = .absent)) ∧
    s.lateMessages ≤ 1 ∧ s.lateLines ≤ 1 := by
  obtain ⟨hp, hmutex, _, hmessages, hlines⟩ := Steps.sound h
  refine ⟨fun hr => ?_, fun hm => ?_, fun hm => ?_, fun hm => ?_, fun hm => ?_, fun hm => ?_,
    hmessages.late, hlines.late⟩
  · obtain ⟨hborn, hends⟩ := hr
    cases hm : s.main <;> simp_all [AtPoint]
  · rw [hm] at hp
    exact hp.2.2.1
  · rw [hm] at hp
    exact ⟨hp.2.1, by simp [Running, hp.1]⟩
  · rw [hm] at hp
    exact ⟨hp.2.2.1, by simp [Running, hp.1]⟩
  · rw [hm] at hp
    exact ⟨hp.2.2.2.1, hp.1⟩
  · rw [hm] at hp hmutex
    obtain ⟨ht, hr, hw, hc, _⟩ | ⟨ht, hr, hw, _⟩ := hp
    · exact ⟨by simpa [ht] using hmutex, .inl ⟨ht, hr, hw, hc⟩⟩
    · exact ⟨by simpa [ht] using hmutex, .inr ⟨ht, hr, hw⟩⟩

/-! ## After the byte was written -/

def mainRemaining : MainPoint → Nat
  | .join => 5
  | .closeRead => 4
  | .closeWrite => 3
  | .lock => 2
  | .closeConn => 1
  | _ => 0

def threadRemaining : ThreadPoint → Nat
  | .header got => MSG_HEADER_SIZE - got.length + MSG_MAX_PAYLOAD_SIZE.toNat + 6
  | .payload bytesToRead => bytesToRead + 5
  | .response => 4
  | .locking => 3
  | .locked => 2
  | .poll => 1
  | _ => 0

/-- The steps that the threads have left, if no new message is begun. -/
def remaining (s : Messaging) : Nat := mainRemaining s.main + threadRemaining s.thread

/-- The socket thread is in a read that has nothing to return. -/
def Waiting (s : Messaging) : Prop := s.Reading ∧ ¬ s.Readable

/-- The bytes begin with a message, or with a header that is refused. -/
def Complete (bs : Bytes) : Prop :=
  MSG_HEADER_SIZE ≤ bs.length ∧ (payloadLength (bs.take MSG_HEADER_SIZE) ≤ MSG_MAX_PAYLOAD_SIZE →
    MSG_HEADER_SIZE + (payloadLength (bs.take MSG_HEADER_SIZE)).toNat ≤ bs.length)

/-- Calls that transfer all they are asked for. -/
theorem readLoop_nil (retryEintr : Bool) (need : Nat) (stream : Bytes) :
    readLoop retryEintr need [] stream =
      if stream.length < need then none else some (stream.take need, [], stream.drop need) := by
  cases need <;> rfl

/-- These are the bytes from which `read_one_message` gets a message. -/
theorem complete_iff {bs : Bytes} (buffer : Bytes)
    (hle : payloadLength (bs.take MSG_HEADER_SIZE) ≤ MSG_MAX_PAYLOAD_SIZE) :
    Complete bs ↔ ∃ message rest, readOneMessage buffer [] bs = .ok (message, [], rest) := by
  have hsmall : ¬ payloadLength (bs.take MSG_HEADER_SIZE) > MSG_MAX_PAYLOAD_SIZE :=
    UInt32.not_lt.mpr hle
  rw [Complete, and_congr_right_iff.mpr fun _ => forall_prop_of_true hle, readOneMessage,
    readLoop_nil]
  unfold payloadLength at hsmall ⊢
  by_cases hlen : bs.length < MSG_HEADER_SIZE
  · simp [hlen, Nat.not_le.mpr hlen]
  · simp only [if_neg hlen, if_neg hsmall, readLoop_nil, List.length_drop]
    generalize htonl (Words.ofLe32 (((bs.take MSG_HEADER_SIZE).drop 3).take 4)) = len
    by_cases hall : bs.length - MSG_HEADER_SIZE < len.toNat
    · simp only [if_pos hall]
      constructor
      · omega
      · rintro ⟨_, _, h⟩
        cases h
    · simp only [if_neg hall]
      exact ⟨fun _ => ⟨_, _, rfl⟩, fun _ => by omega⟩

/-- The message that the socket thread reads has arrived to its end, or the stream is over. -/
def Supplied (s : Messaging) : Prop :=
  s.inflow ≠ .going ∨ match s.thread with
    | .header got => Complete (got ++ s.arrived)
    | .payload bytesToRead => bytesToRead ≤ s.arrived.length
    | _ => True

section Ending

variable {s t : Messaging}

/-- With the byte in the pipe the main thread is at the join or behind it. -/
theorem Sound.joins (h : s.Sound) (hs : s.signalled = true) : s.main = .join ∨
    s.thread = .finished ∧ (s.main = .closeRead ∨ s.main = .closeWrite ∨ s.main = .lock ∨
      s.main = .closeConn ∨ s.main = .returned) := by
  have hp := h.point
  cases hm : s.main <;> simp_all [AtPoint]

theorem MainStep.remaining (hst : MainStep s t) (h : s.Sound) (hs : s.signalled = true) :
    t.signalled = true ∧ t.remaining < s.remaining := by
  obtain hj | ⟨ht, hj⟩ := h.joins hs
  · cases hst <;> simp_all [Messaging.remaining, mainRemaining]
  · cases hst <;> simp_all [Messaging.remaining, mainRemaining]

/-- Every call of `read` that returns bytes makes what is left of the message shorter. -/
theorem ThreadStep.remaining (hst : ThreadStep s t) (hs : s.signalled = true) :
    threadRemaining t.thread < threadRemaining s.thread := by
  cases hst with
  | readHeader ht _ hne hle =>
    have hpos := List.length_pos_iff.mpr hne
    rw [List.length_append] at hle
    simp only [ht, threadRemaining, List.length_append]
    omega
  | sized ht _ hle =>
    have hlen := UInt32.le_iff_toNat_le.mp hle
    simp only [ht, threadRemaining]
    omega
  | readPayload ht _ hne hle =>
    have hpos := List.length_pos_iff.mpr hne
    simp only [ht, threadRemaining]
    omega
  | readFails hr => cases hr <;> simp_all [threadRemaining]
  | _ => simp_all [threadRemaining]

theorem Advance.remaining (hst : Advance s t) (h : s.Sound) (hs : s.signalled = true) :
    t.signalled = true ∧ t.remaining < s.remaining := by
  cases hst with
  | main hst => exact hst.remaining h hs
  | thread _ hst =>
    have hless := hst.remaining hs
    refine ⟨hst.aside.signalled.trans hs, ?_⟩
    rw [Messaging.remaining, hst.aside.main]
    exact Nat.add_lt_add_left hless _

/-- Nothing from outside gives the threads more to do. -/
theorem Outside.remaining (hst : Outside s t) : t.remaining ≤ s.remaining := by
  cases hst <;> simp_all [Messaging.remaining, threadRemaining]

theorem Step.signalled (hst : Step s t) (h : s.Sound) (hs : s.signalled = true) :
    t.signalled = true := by
  cases hst with
  | advance hst => exact (hst.remaining h hs).1
  | outside _ hst => exact hst.aside.signalled.trans hs

/-- In front of the join one of the two can go on, but for a read that waits. -/
theorem Sound.progress (h : s.Sound) (hj : s.main = .join) (hs : s.signalled = true)
    (hwait : ¬ s.Waiting) : ∃ t, Advance s t := by
  have halive : s.main ≠ .terminated := by simp [hj]
  have hgo : ∀ {t}, ThreadStep s t → ∃ t, Advance s t := fun hst => ⟨_, .thread halive hst⟩
  have hread : s.Reading → s.arrived = [] → ∃ t, Advance s t := fun hr hnil => by
    refine hgo (.readFails hr hnil fun hgoing => hwait ⟨hr, ?_⟩)
    simp [Readable, hnil, hgoing]
  cases ht : s.thread with
  | unborn =>
    have hp := h.point
    rw [hj] at hp
    exact absurd ht hp.1
  | poll => exact hgo (.told ht hs)
  | header got =>
    obtain hlt | hlen := Nat.lt_or_eq_of_le (h.header got ht)
    · cases harr : s.arrived with
      | nil => exact hread (.header ht hlt) harr
      | cons b bs =>
        refine hgo (@ThreadStep.readHeader s got [b] bs ht harr (List.cons_ne_nil b []) ?_)
        rw [List.length_append]
        exact hlt
    · by_cases hbig : payloadLength got ≤ MSG_MAX_PAYLOAD_SIZE
      · exact hgo (.sized ht hlen hbig)
      · exact hgo (.tooBig ht hlen (UInt32.not_le.mp hbig))
  | payload n =>
    cases n with
    | zero => exact hgo (.whole ht)
    | succ n =>
      cases harr : s.arrived with
      | nil => exact hread (.payload ht) harr
      | cons b bs =>
        exact hgo (@ThreadStep.readPayload s (n + 1) [b] bs ht harr (List.cons_ne_nil b [])
          (Nat.succ_le_succ (Nat.zero_le n)))
  | response => exact hgo (.handled ht)
  | locking =>
    have hfree : s.mutex = false := by
      have hm := (h.mutex_iff (by simp [Running, ht])).2
      simpa [ht] using hm
    exact hgo (.lock ht hfree)
  | locked => exact hgo (.unlock ht)
  | finished => exact ⟨_, .main (.join hj ht)⟩

theorem Waiting.blocked (h : s.Waiting) : ¬ ThreadStep s t := by
  obtain ⟨hread, hno⟩ := h
  simp only [Readable, not_or, not_not] at hno
  intro hst
  cases hst with
  | readHeader _ harr hne => exact hne (List.append_eq_nil_iff.mp (harr.symm.trans hno.1)).1
  | readPayload _ harr hne => exact hne (List.append_eq_nil_iff.mp (harr.symm.trans hno.1)).1
  | readFails _ _ hover => exact hover hno.2
  | _ => cases hread <;> simp_all

/-- Neither thread can go on: the main thread has returned, or the read waits. -/
theorem Sound.stuck_iff (h : s.Sound) (hs : s.signalled = true) :
    (∀ t, ¬ Advance s t) ↔ s.main = .returned ∨ s.main = .join ∧ s.Waiting := by
  constructor
  · intro hstuck
    have hm : ∀ {t}, ¬ MainStep s t := fun hst => hstuck _ (.main hst)
    obtain hj | ⟨ht, hj | hj | hj | hj | hj⟩ := h.joins hs
    · refine .inr ⟨hj, Classical.byContradiction fun hwait => ?_⟩
      obtain ⟨t, hst⟩ := h.progress hj hs hwait
      exact hstuck t hst
    · exact absurd (.closeRead hj) hm
    · exact absurd (.closeWrite hj) hm
    · have hfree : s.mutex = false := by simpa [ht, hj] using h.mutex
      exact absurd (.lock hj hfree) hm
    · exact absurd (.closeConn hj) hm
    · exact .inl hj
  · rintro (hj | ⟨hj, hwait⟩) t hst
    · have hends : s.thread = .finished := by
        obtain he | ⟨ht, _⟩ := h.joins hs
        · cases hj.symm.trans he
        · exact ht
      cases hst with
      | main hst => cases hst <;> simp_all
      | thread _ hst => exact hst.running.2 hends
    · cases hst with
      | main hst =>
        have hrun := hwait.1.handling.1.2
        cases hst <;> simp_all
      | thread _ hst => exact hwait.blocked hst

theorem Complete.append {bs : Bytes} (h : Complete bs) (more : Bytes) : Complete (bs ++ more) := by
  obtain ⟨hlen, hall⟩ := h
  rw [Complete, List.take_append_of_le_length hlen, List.length_append]
  exact ⟨Nat.le_add_right_of_le hlen, fun hle => Nat.le_add_right_of_le (hall hle)⟩

theorem Supplied.not_waiting (h : s.Supplied) : ¬ s.Waiting := by
  rintro ⟨hread, hno⟩
  simp only [Readable, not_or, not_not] at hno
  obtain hover | hmessage := h
  · exact hover hno.2
  · cases hread with
    | header ht hlt =>
      simp only [ht, hno.1, List.append_nil] at hmessage
      exact absurd hmessage.1 (Nat.not_le.mpr hlt)
    | payload ht => simp [ht, hno.1] at hmessage

/-- Whatever the socket thread has taken of a message, the rest of it is there. -/
theorem ThreadStep.supplied (hst : ThreadStep s t) (hs : s.signalled = true) (h : s.Supplied) :
    t.Supplied := by
  obtain hover | hmessage := h
  · left
    cases hst <;> exact hover
  · right
    cases hst with
    | ready _ hno => exact absurd (hno.symm.trans hs) Bool.false_ne_true
    | other _ hno => exact absurd (hno.symm.trans hs) Bool.false_ne_true
    | readHeader ht harr =>
      simpa [ht, harr] using hmessage
    | sized ht hlen hle =>
      simp only [ht] at hmessage
      have hall := hmessage.2
      rw [List.take_append_of_le_length (Nat.le_of_eq hlen.symm), List.take_of_length_le
        (Nat.le_of_eq hlen), List.length_append, hlen] at hall
      exact Nat.le_of_add_le_add_left (hall hle)
    | readPayload ht harr =>
      simp only [ht, harr, List.length_append] at hmessage
      exact Nat.sub_le_iff_le_add'.mpr hmessage
    | _ => trivial

theorem Outside.supplied (hst : Outside s t) (h : s.Supplied) : t.Supplied := by
  cases hst with
  | arrive bs hgoing =>
    obtain hover | hmessage := h
    · exact absurd hgoing hover
    · right
      cases ht : s.thread with
      | header got =>
        simp only [ht] at hmessage ⊢
        rw [← List.append_assoc]
        exact hmessage.append bs
      | payload n =>
        simp only [ht] at hmessage ⊢
        rw [List.length_append]
        exact Nat.le_add_right_of_le hmessage
      | _ => trivial
  | ends how hgoing =>
    obtain hover | hmessage := h
    · exact absurd hgoing hover
    · exact .inr hmessage
  | sigint => exact h
  | pollInterrupted => exact .inr trivial
  | readInterrupted => exact .inr trivial

theorem Step.supplied (hst : Step s t) (hsound : s.Sound) (hs : s.signalled = true)
    (h : s.Supplied) : t.Supplied := by
  cases hst with
  | outside _ hst => exact hst.supplied h
  | advance hst =>
    cases hst with
    | thread _ hst => exact hst.supplied hs h
    | main hst =>
      have hp := hsound.point
      cases hst with
      | spawn hm =>
        rw [hm] at hp
        exact absurd (hp.2.2.2.2.symm.trans hs) Bool.false_ne_true
      | _ => exact h

end Ending

/-- Once the byte is in the pipe the threads come to the end of their steps in every order, however
much arrives from the server in between. They end when the main thread has returned, or while the
socket thread waits for the rest of a message; if that has arrived, or the stream is over, only
when the main thread has returned. -/
theorem quit_ends {s : Messaging} (h : Steps start s) (hs : s.signalled = true) :
    Acc (fun t s => ∃ u, Relation.ReflTransGen Outside s u ∧ Advance u t) s ∧
      (∀ t, Steps s t →
        ((∀ u, ¬ Advance t u) ↔ t.main = .returned ∨ t.main = .join ∧ t.Waiting)) ∧
      (s.Supplied → ∀ t, Steps s t → (∀ u, ¬ Advance t u) → t.main = .returned) := by
  have hsound := Steps.sound h
  have hkept : ∀ {t}, Steps s t → t.Sound ∧ t.signalled = true := fun hsteps => by
    induction hsteps with
    | refl => exact ⟨hsound, hs⟩
    | tail _ hst ih => exact ⟨hst.sound ih.1, hst.signalled ih.1 ih.2⟩
  refine ⟨?_, fun t hsteps => ?_, fun hsupplied t hsteps hstuck => ?_⟩
  · clear hkept h
    induction hk : s.remaining using Nat.strongRecOn generalizing s with
    | ind k ih =>
      refine ⟨_, fun t ⟨u, hout, hst⟩ => ?_⟩
      have hwait : u.Sound ∧ u.signalled = true ∧ u.remaining ≤ s.remaining := by
        clear hst
        induction hout with
        | refl => exact ⟨hsound, hs, Nat.le_refl _⟩
        | tail _ hst ih =>
          exact ⟨hst.sound ih.1, hst.aside.signalled.trans ih.2.1,
            Nat.le_trans hst.remaining ih.2.2⟩
      obtain ⟨hs', hlt⟩ := hst.remaining hwait.1 hwait.2.1
      exact ih _ (hk ▸ Nat.lt_of_lt_of_le hlt hwait.2.2) hs' (hst.sound hwait.1) rfl
  · exact (hkept hsteps).1.stuck_iff (hkept hsteps).2
  · have hthere : t.Supplied := by
      clear hstuck
      induction hsteps with
      | refl => exact hsupplied
      | tail hsteps hst ih => exact hst.supplied (hkept hsteps).1 (hkept hsteps).2 ih
    obtain hm | ⟨_, hwait⟩ := ((hkept hsteps).1.stuck_iff (hkept hsteps).2).mp hstuck
    · exact hm
    · exact absurd hwait hthere.not_waiting

/-- A user who quits at once, while the socket thread is in a message of which one byte has
arrived. -/
def quitting : Messaging :=
  ⟨.join, .header [1], .opened, .opened, true, .opened, [], .going, false, true, 0, 0⟩

/-- Then the server closes the connection. -/
def closing : Messaging := { quitting with inflow := .ended }

theorem steps_quitting : Steps start quitting :=
  .tail (.tail (.tail (.tail (.tail (.tail (.tail (.single
    (.advance (.main (.spawn rfl))))
    (.advance (.main (.goOn rfl rfl))))
    (.advance (.main (.line rfl))))
    (.advance (.main (.quit rfl))))
    (.outside (by decide) (.arrive [1] rfl)))
    (.advance (.thread (by decide) (.ready rfl rfl (.inl (by decide))))))
    (.advance (.thread (by decide)
      (@ThreadStep.readHeader _ [] [1] [] rfl rfl (by decide) (by decide)))))
    (.advance (.main (.signal rfl)))

theorem shutdown_safe_quitting : quitting.conn = .opened ∧ quitting.readEnd = .opened :=
  (shutdown_safe steps_quitting).1 (by simp [Running, quitting])

/-- The threads cannot go on by themselves here, and get to the end when the server closes. -/
theorem quit_ends_quitting : (∀ u, ¬ Advance quitting u) ∧
    ∀ t, Steps closing t → (∀ u, ¬ Advance t u) → t.main = .returned := by
  have hclosing : Steps start closing :=
    steps_quitting.tail (.outside (by decide) (.ends .ended rfl))
  refine ⟨((quit_ends steps_quitting rfl).2.1 quitting .refl).mpr (.inr ⟨rfl, ?_, ?_⟩),
    (quit_ends hclosing rfl).2.2 (.inl (by decide))⟩
  · exact .header rfl (by decide)
  · simp [Readable, quitting]

end Messaging

end ChatServer
