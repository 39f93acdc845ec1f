import ChatServer.Audit.Codec
import ChatServer.Model.Transport

/-!
# Blocking transfers under short and interrupted calls

A loop that reads so many bytes uses up a part of the schedule that depends on their number
only. Short calls make no difference to what it returns. An interrupted one makes none in the
header of a message, and ends the reading in its payload.
-/

namespace ChatServer

open EdgeTrigger (Errno)

/-! ## What a loop uses up -/

/-- The calls that a loop makes to get this many bytes. -/
def spent : Nat → List Transfer → List Transfer
  | 0, _ => []
  | _ + 1, [] => []
  | need + 1, .upTo k :: sched => .upTo k :: spent (need - k) sched
  | need + 1, .fail e :: sched => .fail e :: spent (need + 1) sched

/-- The calls that are left to the loops after it. -/
def unspent : Nat → List Transfer → List Transfer
  | 0, sched => sched
  | _ + 1, [] => []
  | need + 1, .upTo k :: sched => unspent (need - k) sched
  | need + 1, .fail _ :: sched => unspent (need + 1) sched

theorem spent_append_unspent (need : Nat) (sched : List Transfer) :
    spent need sched ++ unspent need sched = sched := by
  induction sched generalizing need with
  | nil => cases need <;> rfl
  | cons t sched ih =>
    cases need with
    | zero => rfl
    | succ need =>
      cases t with
      | upTo k => exact congrArg (Transfer.upTo k :: ·) (ih (need - k))
      | fail e => exact congrArg (Transfer.fail e :: ·) (ih (need + 1))

section ReadLoop

variable (retryEintr : Bool)

/-- A loop that gets all its bytes, and is stopped by none of its calls, returns them. -/
theorem readLoop_some {need : Nat} {sched : List Transfer} {stream : Bytes}
    (hlen : need ≤ stream.length)
    (hpass : ∀ e, .fail e ∈ spent need sched → retryEintr = true ∧ e = .EINTR) :
    readLoop retryEintr need sched stream =
      some (stream.take need, unspent need sched, stream.drop need) := by
  induction sched generalizing need stream with
  | nil =>
    cases need with
    | zero => rfl
    | succ need => exact if_neg (Nat.not_lt.mpr hlen)
  | cons t sched ih =>
    cases need with
    | zero => rfl
    | succ need =>
      cases t with
      | fail e =>
        obtain ⟨hretry, he⟩ := hpass e List.mem_cons_self
        subst he
        have hrest := ih hlen fun e he => hpass e (List.mem_cons_of_mem _ he)
        rw [readLoop, hretry]
        rw [hretry] at hrest
        exact hrest
      | upTo k =>
        have hgot : (stream.take (min (k + 1) (need + 1))).length = min (k + 1) (need + 1) := by
          rw [List.length_take]
          omega
        have hne : stream.take (min (k + 1) (need + 1)) ≠ [] := by
          apply List.ne_nil_of_length_pos
          omega
        have hleft : need + 1 - min (k + 1) (need + 1) = need - k := by omega
        have hdroplen : need - k ≤ (stream.drop (min (k + 1) (need + 1))).length := by
          rw [List.length_drop]
          omega
        have hrest := ih hdroplen fun e he => hpass e (List.mem_cons_of_mem _ he)
        have htake : stream.take (need + 1) = stream.take (min (k + 1) (need + 1)) ++
            (stream.drop (min (k + 1) (need + 1))).take (need - k) := by
          rw [← List.take_add]
          congr 1
          omega
        have hdrop : min (k + 1) (need + 1) + (need - k) = need + 1 := by omega
        simp only [readLoop, if_neg hne, hgot, hleft, hrest, List.drop_drop]
        rw [← htake, hdrop]
        rfl

/-- A loop that meets the end of the stream fails. -/
theorem readLoop_short {need : Nat} {sched : List Transfer} {stream : Bytes}
    (h : stream.length < need) : readLoop retryEintr need sched stream = none := by
  induction sched generalizing need stream with
  | nil =>
    cases need with
    | zero => exact absurd h (Nat.not_lt_zero _)
    | succ need => exact if_pos h
  | cons t sched ih =>
    cases need with
    | zero => exact absurd h (Nat.not_lt_zero _)
    | succ need =>
      cases t with
      | fail e =>
        rw [readLoop]
        split
        · exact ih h
        · rfl
      | upTo k =>
        simp only [readLoop]
        split
        · rfl
        · have hleft : (stream.drop (stream.take (min (k + 1) (need + 1))).length).length <
              need + 1 - (stream.take (min (k + 1) (need + 1))).length := by
            rw [List.length_drop, List.length_take]
            omega
          rw [ih hleft]

/-- A loop that is stopped by one of its calls fails. -/
theorem readLoop_stopped {need : Nat} {sched : List Transfer} {stream : Bytes} {e : Errno}
    (h : .fail e ∈ spent need sched) (hstop : ¬ (retryEintr = true ∧ e = .EINTR)) :
    readLoop retryEintr need sched stream = none := by
  by_cases hlen : need ≤ stream.length
  · induction sched generalizing need stream with
    | nil => cases need <;> exact absurd h List.not_mem_nil
    | cons t sched ih =>
      cases need with
      | zero => exact absurd h List.not_mem_nil
      | succ need =>
        cases t with
        | fail e' =>
          rw [readLoop]
          split
          · rename_i hretry
            have hmem : .fail e ∈ spent (need + 1) sched := by
              rcases List.mem_cons.mp h with he | hmem
              · cases he
                exact absurd (by simpa using hretry) hstop
              · exact hmem
            exact ih hmem hlen
          · rfl
        | upTo k =>
          have hmem : .fail e ∈ spent (need - k) sched := by
            rcases List.mem_cons.mp h with he | hmem
            · cases he
            · exact hmem
          have hgot : (stream.take (min (k + 1) (need + 1))).length = min (k + 1) (need + 1) := by
            rw [List.length_take]
            omega
          have hleft : need + 1 - min (k + 1) (need + 1) = need - k := by omega
          have hdroplen : need - k ≤ (stream.drop (min (k + 1) (need + 1))).length := by
            rw [List.length_drop]
            omega
          have hrest := ih hmem hdroplen
          simp only [readLoop, hgot, hleft, hrest]
          split <;> rfl
  · exact readLoop_short retryEintr (Nat.lt_of_not_le hlen)

end ReadLoop

/-! ## Sending -/

/-- A message is sent whole if no call that sends it meets a real error. -/
theorem writeLoop_all {message : Bytes} {sched : List Transfer}
    (h : ∀ e, .fail e ∈ spent message.length sched → e = .EINTR) :
    writeLoop message sched = (true, message, unspent message.length sched) := by
  induction sched generalizing message with
  | nil => cases message <;> rfl
  | cons t sched ih =>
    cases message with
    | nil => rfl
    | cons b bs =>
      cases t with
      | fail e =>
        have he := h e List.mem_cons_self
        subst he
        rw [writeLoop]
        exact ih fun e he => h e (List.mem_cons_of_mem _ he)
      | upTo k =>
        have hlen : ((b :: bs).drop (k + 1)).length = bs.length - k := by simp
        have hpass : ∀ e, .fail e ∈ spent ((b :: bs).drop (k + 1)).length sched → e = .EINTR :=
          fun e he => h e (List.mem_cons_of_mem _ (by rwa [hlen] at he))
        have hrest := ih hpass
        simp only [writeLoop, hrest, hlen, List.take_append_drop]
        rfl

/-- It is not sent whole if one does. -/
theorem writeLoop_stopped {message : Bytes} {sched : List Transfer} {e : Errno}
    (h : .fail e ∈ spent message.length sched) (he : e ≠ .EINTR) :
    (writeLoop message sched).1 = false := by
  induction sched generalizing message with
  | nil => cases message <;> exact absurd h List.not_mem_nil
  | cons t sched ih =>
    cases message with
    | nil => exact absurd h List.not_mem_nil
    | cons b bs =>
      cases t with
      | fail e' =>
        rw [writeLoop]
        split
        · rename_i heq
          rcases List.mem_cons.mp h with hhead | hmem
          · cases hhead
            exact absurd (by simpa using heq) he
          · exact ih hmem
        · rfl
      | upTo k =>
        have hlen : ((b :: bs).drop (k + 1)).length = bs.length - k := by simp
        rcases List.mem_cons.mp h with hhead | hmem
        · cases hhead
        · exact ih (by rwa [hlen])

/-- `write_one_message` gives up at a real error, and only there. -/
theorem writeOneMessage_fails_iff (sched : List Transfer) (message : Bytes) :
    (writeOneMessage sched message).1 = -1 ↔
      ∃ e, e ≠ .EINTR ∧ .fail e ∈ spent message.length sched := by
  constructor
  · intro h
    by_contra hno
    have hall := writeLoop_all fun e he => Classical.byContradiction fun hne => hno ⟨e, hne, he⟩
    simp only [writeOneMessage, hall, if_true] at h
    omega
  · rintro ⟨e, he, hmem⟩
    simp [writeOneMessage, writeLoop_stopped hmem he]

/-! ## Receiving -/

/-- The end of the stream, a real error, or a length field above the maximum. -/
inductive ReadFails (sched : List Transfer) (stream : Bytes) : Prop
  | headerEnds (h : stream.length < MSG_HEADER_SIZE)
  | headerError (e : Errno) (he : e ≠ .EINTR) (h : .fail e ∈ spent MSG_HEADER_SIZE sched)
  | tooLong (h : (parseMessage stream).payloadLength > MSG_MAX_PAYLOAD_SIZE)
  | payloadEnds
      (h : stream.length < MSG_HEADER_SIZE + (parseMessage stream).payloadLength.toNat)
  | payloadError (e : Errno) (he : e ≠ .EINTR)
      (h : .fail e ∈ spent (parseMessage stream).payloadLength.toNat
        (unspent MSG_HEADER_SIZE sched))

/-- A signal arrives while the payload of the message is read. -/
def PayloadInterrupted (sched : List Transfer) (stream : Bytes) : Prop :=
  .fail .EINTR ∈ spent (parseMessage stream).payloadLength.toNat (unspent MSG_HEADER_SIZE sched)

section ReadOneMessage

variable {buffer stream : Bytes} {sched : List Transfer}

/-- The length field is within the header. -/
theorem lengthField_header (stream : Bytes) :
    htonl (Words.ofLe32 (((stream.take MSG_HEADER_SIZE).drop 3).take 4)) =
      (parseMessage stream).payloadLength := by
  rw [List.drop_take, List.take_take]
  rfl

theorem readOneMessage_ok (hfails : ¬ ReadFails sched stream)
    (hsig : ¬ PayloadInterrupted sched stream) :
    readOneMessage buffer sched stream =
      .ok (⟨(parseMessage stream).payloadLength, (parseMessage stream).version,
        (parseMessage stream).type, (parseMessage stream).rc,
        some ((parseMessage stream).payloadBytes ++
          buffer.drop (parseMessage stream).payloadBytes.length)⟩,
        unspent (parseMessage stream).payloadLength.toNat (unspent MSG_HEADER_SIZE sched),
        stream.drop (MSG_HEADER_SIZE + (parseMessage stream).payloadLength.toNat)) := by
  have hheader : MSG_HEADER_SIZE ≤ stream.length :=
    Nat.le_of_not_lt fun h => hfails (.headerEnds h)
  have hread₁ := readLoop_some true hheader fun e (he : .fail e ∈ spent _ sched) =>
    ⟨rfl, Classical.byContradiction fun hne => hfails (.headerError e hne he)⟩
  have hpayload : (parseMessage stream).payloadLength.toNat ≤
      (stream.drop MSG_HEADER_SIZE).length := by
    have hends := Nat.le_of_not_lt fun h => hfails (.payloadEnds h)
    rw [List.length_drop]
    omega
  have hread₂ := @readLoop_some false _ (unspent MSG_HEADER_SIZE sched) _ hpayload fun e he => by
    by_cases hne : e = .EINTR
    · subst hne
      exact absurd he hsig
    · exact absurd (.payloadError e hne he) hfails
  have hmax : ¬ (parseMessage stream).payloadLength > MSG_MAX_PAYLOAD_SIZE :=
    fun h => hfails (.tooLong h)
  have hbyte : ∀ i < MSG_HEADER_SIZE, (stream.take MSG_HEADER_SIZE).getD i 0 = stream.getD i 0 := by
    intro i hi
    simp [List.getD_eq_getElem?_getD, hi]
  simp only [readOneMessage, hread₁, lengthField_header, if_neg hmax, hread₂, List.drop_drop]
  rw [hbyte 0 (by decide), hbyte 1 (by decide), hbyte 2 (by decide)]
  rfl

theorem readOneMessage_fails (h : ReadFails sched stream ∨ PayloadInterrupted sched stream) :
    readOneMessage buffer sched stream = .error (-1) := by
  by_cases hhead : MSG_HEADER_SIZE ≤ stream.length ∧
      ∀ e, .fail e ∈ spent MSG_HEADER_SIZE sched → e = .EINTR
  · have hread := readLoop_some true hhead.1 fun e he => ⟨rfl, hhead.2 e he⟩
    simp only [readOneMessage, hread, lengthField_header]
    have hdrop : (stream.drop MSG_HEADER_SIZE).length = stream.length - MSG_HEADER_SIZE :=
      List.length_drop
    have hstop : ∀ e, .fail e ∈ spent (parseMessage stream).payloadLength.toNat
        (unspent MSG_HEADER_SIZE sched) →
        readLoop false (parseMessage stream).payloadLength.toNat (unspent MSG_HEADER_SIZE sched)
          (stream.drop MSG_HEADER_SIZE) = none :=
      fun e he => readLoop_stopped false he fun hretry => Bool.false_ne_true hretry.1
    rcases h with (h | ⟨e, hne, he⟩ | h | h | ⟨e, hne, he⟩) | h
    · omega
    · exact absurd (hhead.2 e he) hne
    · rw [if_pos h]
    · rw [readLoop_short false (by omega)]
      split <;> rfl
    · rw [hstop e he]
      split <;> rfl
    · rw [hstop .EINTR h]
      split <;> rfl
  · have hread : readLoop true MSG_HEADER_SIZE sched stream = none := by
      by_cases hlen : MSG_HEADER_SIZE ≤ stream.length
      · simp only [hlen, true_and, not_forall] at hhead
        obtain ⟨e, he, hne⟩ := hhead
        exact readLoop_stopped true he fun hretry => hne hretry.2
      · exact readLoop_short true (Nat.lt_of_not_le hlen)
    simp only [readOneMessage, hread]

/-- `read_one_message` fails as documented, or at a signal in the payload. -/
theorem readOneMessage_error_iff (buffer : Bytes) (rc : Int) :
    readOneMessage buffer sched stream = .error rc ↔
      rc = -1 ∧ (ReadFails sched stream ∨ PayloadInterrupted sched stream) := by
  by_cases h : ReadFails sched stream ∨ PayloadInterrupted sched stream
  · simp only [readOneMessage_fails h, Except.error.injEq, h, and_true]
    exact eq_comm
  · obtain ⟨hfails, hsig⟩ := not_or.mp h
    simp only [readOneMessage_ok hfails hsig, h, and_false, reduceCtorEq]

end ReadOneMessage

/-! ## Whole messages -/

/-- The length field is the number of payload bytes, and within the maximum. -/
def Message.Whole (m : Message) : Prop :=
  m.payloadBytes.length = m.payloadLength.toNat ∧ ¬ m.payloadLength > MSG_MAX_PAYLOAD_SIZE

/-- What a reader is to find out about a message. -/
def Message.content (m : Message) : UInt8 × UInt8 × UInt8 × UInt32 × Bytes :=
  (m.version, m.type, m.rc, m.payloadLength, m.payloadBytes)

/-- No call meets a real error. -/
def OnlyInterrupted (sched : List Transfer) : Prop := ∀ e, .fail e ∈ sched → e = .EINTR

theorem OnlyInterrupted.spent {sched : List Transfer} (h : OnlyInterrupted sched) (need : Nat) :
    OnlyInterrupted (spent need sched) := fun e he =>
  h e (spent_append_unspent need sched ▸ List.mem_append_left _ he)

theorem OnlyInterrupted.unspent {sched : List Transfer} (h : OnlyInterrupted sched) (need : Nat) :
    OnlyInterrupted (unspent need sched) := fun e he =>
  h e (spent_append_unspent need sched ▸ List.mem_append_right _ he)

section Whole

variable {m : Message} {rest : Bytes} {sched : List Transfer}

theorem length_wire (h : m.Whole) : m.wire.length = MSG_HEADER_SIZE + m.payloadLength.toNat := by
  simp only [Message.wire, List.length_append, Words.length_be32, h.1]
  rfl

theorem parseMessage_wire : parseMessage (m.wire ++ rest) =
    ⟨m.payloadLength, m.version, m.type, m.rc, some (m.payloadBytes ++ rest)⟩ := by
  rw [Message.wire, parseMessage_append]

/-- On the stream of a whole message, without real errors, there is nothing to fail for. -/
theorem not_readFails_wire (h : m.Whole) (hs : OnlyInterrupted sched) :
    ¬ ReadFails sched (m.wire ++ rest) := by
  have hlen : (m.wire ++ rest).length = MSG_HEADER_SIZE + m.payloadLength.toNat + rest.length := by
    rw [List.length_append, length_wire h]
  rintro (hf | ⟨e, he, hf⟩ | hf | hf | ⟨e, he, hf⟩)
  · omega
  · exact he (hs.spent _ e hf)
  · rw [parseMessage_wire] at hf
    exact h.2 hf
  · rw [parseMessage_wire] at hf
    dsimp only at hf
    omega
  · exact he ((hs.unspent _).spent _ e hf)

theorem payloadInterrupted_wire_iff : PayloadInterrupted sched (m.wire ++ rest) ↔
    .fail .EINTR ∈ spent m.payloadLength.toNat (unspent MSG_HEADER_SIZE sched) := by
  rw [PayloadInterrupted, parseMessage_wire]

/-- Without real errors a whole message is read, unless its payload is interrupted. -/
theorem readOneMessage_wire (h : m.Whole) (hs : OnlyInterrupted sched)
    (hsig : .fail .EINTR ∉ spent m.payloadLength.toNat (unspent MSG_HEADER_SIZE sched))
    (buffer : Bytes) :
    readOneMessage buffer sched (m.wire ++ rest) =
      .ok (⟨m.payloadLength, m.version, m.type, m.rc,
        some (m.payloadBytes ++ buffer.drop m.payloadBytes.length)⟩,
        unspent m.payloadLength.toNat (unspent MSG_HEADER_SIZE sched), rest) := by
  have hbytes : Message.payloadBytes
      ⟨m.payloadLength, m.version, m.type, m.rc, some (m.payloadBytes ++ rest)⟩ =
        m.payloadBytes := payloadBytes_append h.1
  rw [readOneMessage_ok (not_readFails_wire h hs) (payloadInterrupted_wire_iff.not.mpr hsig),
    parseMessage_wire, hbytes, List.drop_left' (length_wire h)]

end Whole

/-- Reading a frame off the front of a stream. -/
theorem readOneMessage_frame (type rc : UInt8) {len : UInt32} {payload : Bytes}
    (hlen : payload.length = len.toNat) (hmax : ¬ len > MSG_MAX_PAYLOAD_SIZE) (buffer rest : Bytes)
    {sched : List Transfer} (hs : ∀ e, .fail e ∉ sched) :
    ∃ sched', readOneMessage buffer sched ([1, type, rc] ++ Words.be32 len ++ payload ++ rest) =
      .ok (⟨len, 1, type, rc, some (payload ++ buffer.drop payload.length)⟩, sched', rest) := by
  have hbytes : Message.payloadBytes ⟨len, 1, type, rc, some payload⟩ = payload :=
    List.take_of_length_le (Nat.le_of_eq hlen)
  have hwhole : Message.Whole ⟨len, 1, type, rc, some payload⟩ :=
    ⟨(congrArg List.length hbytes).trans hlen, hmax⟩
  have honly : OnlyInterrupted sched := fun e he => absurd he (hs e)
  have hsig : .fail .EINTR ∉ spent len.toNat (unspent MSG_HEADER_SIZE sched) := by
    intro he
    have hmem := List.mem_append_left (unspent len.toNat (unspent MSG_HEADER_SIZE sched)) he
    rw [spent_append_unspent] at hmem
    have hmem := List.mem_append_right (spent MSG_HEADER_SIZE sched) hmem
    rw [spent_append_unspent] at hmem
    exact hs .EINTR hmem
  have hread := @readOneMessage_wire _ rest _ hwhole honly hsig buffer
  rw [Message.wire, hbytes] at hread
  exact ⟨_, hread⟩

/-! ## A sequence of messages -/

/-- Sent one after another, each message is put on the stream as it is, and its length is
returned. -/
def Transmits : List Transfer → List Message → Prop
  | _, [] => True
  | sched, m :: ms =>
    ∃ sched', writeOneMessage sched (writeMessageToBuffer [] m) =
        (((MSG_HEADER_SIZE + m.payloadLength.toNat : Nat) : Int), m.wire, sched') ∧
      Transmits sched' ms

/-- Successive calls return these messages, and use up just their bytes. -/
def Receives : List Transfer → List Message → Bytes → Prop
  | _, [], _ => True
  | sched, m :: ms, stream =>
    ∃ sched', (∀ buffer, ∃ m', readOneMessage buffer sched stream =
        .ok (m', sched', stream.drop (MSG_HEADER_SIZE + m.payloadLength.toNat)) ∧
          m'.content = m.content) ∧
      Receives sched' ms (stream.drop (MSG_HEADER_SIZE + m.payloadLength.toNat))

/-- No signal arrives while the payload of one of the messages is read. -/
def PayloadsUninterrupted : List Transfer → List Message → Prop
  | _, [] => True
  | sched, m :: ms =>
    .fail .EINTR ∉ spent m.payloadLength.toNat (unspent MSG_HEADER_SIZE sched) ∧
      PayloadsUninterrupted (unspent m.payloadLength.toNat (unspent MSG_HEADER_SIZE sched)) ms

theorem transmits {sched : List Transfer} {ms : List Message} (hms : ∀ m ∈ ms, m.Whole)
    (hs : OnlyInterrupted sched) : Transmits sched ms := by
  induction ms generalizing sched with
  | nil => trivial
  | cons m ms ih =>
    have hbuffer : writeMessageToBuffer [] m = m.wire := writeMessageToBuffer_eq [] m
    have hall : writeLoop m.wire sched = (true, m.wire, unspent m.wire.length sched) :=
      writeLoop_all (hs.spent _)
    refine ⟨unspent m.wire.length sched, ?_,
      ih (fun m hm => hms m (List.mem_cons_of_mem _ hm)) (hs.unspent _)⟩
    rw [hbuffer, writeOneMessage, hall]
    simp only [if_true, length_wire (hms m List.mem_cons_self)]

theorem receives_iff {sched : List Transfer} {ms : List Message} (hms : ∀ m ∈ ms, m.Whole)
    (hs : OnlyInterrupted sched) (rest : Bytes) :
    Receives sched ms ((ms.map Message.wire).flatten ++ rest) ↔ PayloadsUninterrupted sched ms := by
  induction ms generalizing sched with
  | nil => exact Iff.rfl
  | cons m ms ih =>
    have hm := hms m List.mem_cons_self
    have hstream : ((m :: ms).map Message.wire).flatten ++ rest =
        m.wire ++ ((ms.map Message.wire).flatten ++ rest) := by simp
    have hdrop : (m.wire ++ ((ms.map Message.wire).flatten ++ rest)).drop
        (MSG_HEADER_SIZE + m.payloadLength.toNat) = (ms.map Message.wire).flatten ++ rest :=
      List.drop_left' (length_wire hm)
    have hrest := ih (fun m hm => hms m (List.mem_cons_of_mem _ hm))
      ((hs.unspent MSG_HEADER_SIZE).unspent m.payloadLength.toNat)
    rw [hstream, Receives, PayloadsUninterrupted, hdrop]
    constructor
    · rintro ⟨sched', hread, hreceives⟩
      have hsig : .fail .EINTR ∉
          spent m.payloadLength.toNat (unspent MSG_HEADER_SIZE sched) := by
        intro hsig
        obtain ⟨m', hok, -⟩ := hread []
        rw [readOneMessage_fails (.inr (payloadInterrupted_wire_iff.mpr hsig))] at hok
        cases hok
      obtain ⟨m', hok, -⟩ := hread []
      rw [readOneMessage_wire hm hs hsig] at hok
      cases hok
      exact ⟨hsig, hrest.mp hreceives⟩
    · rintro ⟨hsig, hreceives⟩
      refine ⟨_, fun buffer => ⟨_, readOneMessage_wire hm hs hsig buffer, ?_⟩, hrest.mpr hreceives⟩
      simp only [Message.content, payloadBytes_append hm.1]

/-- Whole messages arrive whatever the calls transfer and wherever they are interrupted, except
in a payload. Only there does a reader fail for anything but the end of the stream, a real
error or a length field above the maximum; a writer fails at a real error only. -/
theorem blocking_transfers {ms : List Message} {writes reads : List Transfer}
    (hms : ∀ m ∈ ms, m.Whole) (hw : OnlyInterrupted writes) (hr : OnlyInterrupted reads)
    (rest : Bytes) :
    Transmits writes ms ∧
      (Receives reads ms ((ms.map Message.wire).flatten ++ rest) ↔
        PayloadsUninterrupted reads ms) ∧
      (∀ sched message, (writeOneMessage sched message).1 = -1 ↔
        ∃ e, e ≠ .EINTR ∧ .fail e ∈ spent message.length sched) ∧
      ∀ buffer sched stream,
        (∀ rc, readOneMessage buffer sched stream = .error rc →
          rc = -1 ∧ ReadFails sched stream) ↔
          (ReadFails sched stream ∨ ¬ PayloadInterrupted sched stream) := by
  refine ⟨transmits hms hw, receives_iff hms hr rest, writeOneMessage_fails_iff,
    fun buffer sched stream => ?_⟩
  simp only [readOneMessage_error_iff]
  constructor
  · intro h
    by_cases hsig : PayloadInterrupted sched stream
    · exact .inl (h (-1) ⟨rfl, .inr hsig⟩).2
    · exact .inr hsig
  · rintro h rc ⟨rfl, hfails | hsig⟩
    · exact ⟨rfl, hfails⟩
    · exact ⟨rfl, h.resolve_right (not_not.mpr hsig)⟩

/-- A message of one byte, written in two calls and read in four. -/
theorem blocking_transfers_split :
    Transmits [.fail .EINTR, .upTo 3] [⟨1, 1, 2, 0, some [65]⟩] ∧
      Receives [.upTo 2, .fail .EINTR, .upTo 9] [⟨1, 1, 2, 0, some [65]⟩]
        ([1, 2, 0, 0, 0, 0, 1, 65] ++ []) := by
  have hwhole : ∀ m ∈ [(⟨1, 1, 2, 0, some [65]⟩ : Message)], m.Whole := by
    simp [Message.Whole, Message.payloadBytes, MSG_MAX_PAYLOAD_SIZE]
  have hwrites : OnlyInterrupted [.fail .EINTR, .upTo 3] := by simp [OnlyInterrupted]
  have hreads : OnlyInterrupted [.upTo 2, .fail .EINTR, .upTo 9] := by simp [OnlyInterrupted]
  obtain ⟨hwrite, hread, -⟩ := blocking_transfers hwhole hwrites hreads []
  exact ⟨hwrite, hread.mpr ⟨by simp [spent, unspent, MSG_HEADER_SIZE], trivial⟩⟩

/-- A signal between the header and the payload, and nothing else: the message is lost. -/
theorem interrupted_payload_lost :
    Message.Whole ⟨1, 1, 2, 0, some [65]⟩ ∧ OnlyInterrupted [.upTo 6, .fail .EINTR] ∧
      readOneMessage [] [.upTo 6, .fail .EINTR] (Message.wire ⟨1, 1, 2, 0, some [65]⟩) =
        .error (-1) ∧
      ¬ ReadFails [.upTo 6, .fail .EINTR] (Message.wire ⟨1, 1, 2, 0, some [65]⟩) := by
  have hwhole : Message.Whole ⟨1, 1, 2, 0, some [65]⟩ := ⟨rfl, by decide⟩
  have honly : OnlyInterrupted [.upTo 6, .fail .EINTR] := by simp [OnlyInterrupted]
  have hnone := @not_readFails_wire _ [] _ hwhole honly
  rw [List.append_nil] at hnone
  exact ⟨hwhole, honly, rfl, hnone⟩

end ChatServer
