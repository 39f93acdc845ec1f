import ChatServer.Audit.FieldOrder
import ChatServer.Audit.RoundTrip
import ChatServer.Audit.Transfers
import ChatServer.Model.Shell

/-!
# What is typed is what the server reads

A line of the shell asks for nothing or for one request. The grammar of the lines is stated
apart from the code that extracts words from a stream. What the shell puts on the socket is the
frame of the request asked for, which the server cuts off whole and parses into the words that
were typed.
-/

namespace ChatServer

open Tlv (Field)
open Istream (Begins Holds word behind)

/-! ## Requests of the client -/

/-- What a line asks the server for. -/
inductive Ask where
  | register (credentials : Credentials)
  | login (credentials : Credentials)
  | world (broadcast : WorldBroadcast)
  | p2p (broadcast : P2pBroadcast)
  deriving DecidableEq, Repr

namespace Ask

def command : Ask → ShellCommand
  | .register _ => .register
  | .login _ => .login
  | .world _ => .world
  | .p2p _ => .p2p

def type : Ask → MsgType
  | .register _ => .register
  | .login _ => .login
  | .world _ => .chat
  | .p2p _ => .chat

def fields : Ask → List Field
  | .register c => credentialFields c
  | .login c => credentialFields c
  | .world b => worldFields b
  | .p2p b => p2pFields b

/-- The limits of the builders. -/
def Fits : Ask → Prop
  | .register c => c.Fits
  | .login c => c.Fits
  | .world b => b.Fits
  | .p2p b => b.Fits

def frame (q : Ask) : Bytes := requestFrame 1 q.type 0 q.fields

/-- The builder that the handler of the command calls. -/
def build (requestBuffer : Bytes) : Ask → Except Int (Bytes × UInt32)
  | .register c => buildRegisterRequest requestBuffer c
  | .login c => buildLoginRequest requestBuffer c
  | .world b => buildWorldBroadcastRequest requestBuffer b
  | .p2p b => buildP2pBroadcastRequest requestBuffer b

/-- The server's parser of this kind of request reads these fields from the message. -/
def ReadFrom (m : Message) : Ask → Prop
  | .register c => m.type = MsgType.register.code ∧ parseRegisterRequest m = .ok c
  | .login c => m.type = MsgType.login.code ∧ parseLoginRequest m = .ok c
  | .world b => m.type = MsgType.chat.code ∧
      peekBroadcastType m = TlvTag.worldBroadcast.code ∧ parseWorldBroadcast m = .ok b
  | .p2p b => m.type = MsgType.chat.code ∧
      peekBroadcastType m = TlvTag.p2pBroadcast.code ∧ parseP2pBroadcast m = .ok b

/-- A message is read in one way. -/
theorem ReadFrom.unique {m : Message} {q q' : Ask} (h : q.ReadFrom m) (h' : q'.ReadFrom m) :
    q = q' := by
  have hcode : ∀ a b : MsgType, a ≠ b → m.type = a.code → m.type = b.code → False := by
    intro a b hne ha hb
    rw [ha] at hb
    revert hne hb
    cases a <;> cases b <;> decide
  cases q <;> cases q' <;>
    first
    | exact congrArg _ (Except.ok.inj (h.2.symm.trans h'.2))
    | exact congrArg _ (Except.ok.inj (h.2.2.symm.trans h'.2.2))
    | exact (hcode _ _ (by decide) h.1 h'.1).elim
    | exact absurd (h.2.1.symm.trans h'.2.1) (by decide)

theorem length_fields (q : Ask) : 2 ≤ q.fields.length ∧ q.fields.length ≤ 4 := by
  cases q <;> simp [fields, credentialFields, worldFields, p2pFields]

theorem length_encode_fields (q : Ask) :
    (Tlv.encode q.fields).length ≤ MSG_MAX_PAYLOAD_SIZE.toNat := by
  have h := length_encode_le q.fields
  have hq := q.length_fields
  have hmax : MSG_MAX_PAYLOAD_SIZE.toNat = 4096 := rfl
  omega

theorem completeFrame (q : Ask) : CompleteFrame q.frame :=
  completeFrame_requestFrame 1 0 q.type q.length_encode_fields

/-- The buffer on the stack is large enough. -/
theorem length_frame_le (q : Ask) :
    q.frame.length ≤ MSG_HEADER_SIZE + MSG_MAX_PAYLOAD_SIZE.toNat := by
  rw [frame, length_requestFrame]
  exact Nat.add_le_add_left q.length_encode_fields _

theorem header_lt (q : Ask) (rest : Bytes) :
    MSG_HEADER_SIZE + 1 ≤ (q.frame ++ rest).length := by
  have hq := q.length_fields
  obtain ⟨f, hf⟩ := List.exists_mem_of_length_pos (l := q.fields) (by omega)
  exact header_lt_requestFrame 1 0 q.type hf rest

theorem frame_ne_nil (q : Ask) : q.frame ≠ [] := by
  intro h
  have hlen := q.header_lt []
  rw [h] at hlen
  exact absurd hlen (by decide)

/-- The server cuts the frame off whole. -/
theorem requestCut_frame_append (q : Ask) (rest : Bytes) :
    requestCut (q.frame ++ rest) = .take q.frame.length :=
  requestCut_frame q.completeFrame (q.header_lt rest)

/-- The server reads the fields back. -/
theorem readFrom_frame {q : Ask} (h : q.Fits) (rest : Bytes) :
    q.ReadFrom (parseMessage (q.frame ++ rest)) := by
  have hparse := parseMessage_requestFrame_append 1 0 q.type q.fields rest
  have hpayload : (parseMessage (q.frame ++ rest)).payloadBytes = Tlv.encode q.fields := by
    rw [frame, hparse]
    exact payloadBytes_append (toNat_payload q.length_encode_fields).symm
  have htype : (parseMessage (q.frame ++ rest)).type = q.type.code := by
    rw [frame, hparse]
  cases q with
  | register c => exact ⟨htype, parseCredentials_credentialFields hpayload h.1 h.2⟩
  | login c => exact ⟨htype, parseCredentials_credentialFields hpayload h.1 h.2⟩
  | world b =>
    refine ⟨htype, ?_, parseWorldBroadcast_worldFields hpayload h.1 h.2⟩
    rw [frame, hparse]
    rfl
  | p2p b =>
    refine ⟨htype, ?_, parseP2pBroadcast_p2pFields hpayload h.1 h.2.1 h.2.2.2⟩
    rw [frame, hparse]
    rfl

theorem buildCredentialsRequest_fits (type : MsgType) (requestBuffer : Bytes) {c : Credentials}
    (h : c.Fits) : buildCredentialsRequest type requestBuffer c =
      writeRequest type requestBuffer (Tlv.encode (credentialFields c)) := by
  simp only [buildCredentialsRequest, if_neg (Nat.not_lt.mpr h.1), if_neg (Nat.not_lt.mpr h.2),
    gt_iff_lt, writeTlv_text]
  simp [credentialFields]

/-- What fits is built as one frame at the front of the buffer, and what does not is refused. -/
theorem build_cases (q : Ask) (requestBuffer : Bytes) :
    (q.Fits ∧ ∃ messageLen,
      q.build requestBuffer =
        .ok (q.frame ++ requestBuffer.drop q.frame.length, messageLen) ∧
      messageLen.toNat = q.frame.length) ∨
    (¬ q.Fits ∧ q.build requestBuffer = .error (-1)) := by
  by_cases h : q.Fits
  · left
    obtain ⟨messageLen, hwrite, hlen⟩ :=
      writeRequest_encode q.type requestBuffer q.length_fields.2
    have hbuild : q.build requestBuffer =
        writeRequest q.type requestBuffer (Tlv.encode q.fields) := by
      cases q with
      | register c => exact buildCredentialsRequest_fits .register requestBuffer h
      | login c => exact buildCredentialsRequest_fits .login requestBuffer h
      | world b =>
        simp only [build, buildWorldBroadcastRequest, if_neg (Nat.not_lt.mpr h.1),
          if_neg (Nat.not_lt.mpr h.2), gt_iff_lt, writeTlv_world]
        rfl
      | p2p b =>
        simp only [build, buildP2pBroadcastRequest, if_neg (Nat.not_lt.mpr h.1),
          if_neg (Nat.not_lt.mpr h.2.1), if_neg h.2.2.1, if_neg (Nat.not_lt.mpr h.2.2.2),
          gt_iff_lt, writeTlv_p2p]
        rfl
    exact ⟨h, messageLen, hbuild.trans hwrite, hlen⟩
  · right
    refine ⟨h, ?_⟩
    cases q with
    | register c => exact buildCredentialsRequest_refused .register requestBuffer h
    | login c => exact buildCredentialsRequest_refused .login requestBuffer h
    | world b => exact buildWorldBroadcastRequest_refused requestBuffer h
    | p2p b => exact buildP2pBroadcastRequest_refused requestBuffer h

end Ask

/-! ## The grammar of the lines -/

/-- The first word of the line, in any case, is the command, and `args` follows it. -/
def CommandLine (command : ShellCommand) (line args : Bytes) : Prop :=
  ∃ w, Begins isspace line w args ∧ stringToLower w = command.text

/-- The line asks for this request, in the state of the connection: credentials are asked to be
registered or logged in before a login, and messages are sent after one. -/
inductive Client.Asks (conn : Client) (line : Bytes) : Ask → Prop where
  | register {args username behindName password tail} :
      hasFlag conn.flags .isAuth = false → CommandLine .register line args →
      Begins isspace args username behindName → Begins isspace behindName password tail →
      Asks conn line (.register ⟨username, password⟩)
  | login {args username behindName password tail} :
      hasFlag conn.flags .isAuth = false → CommandLine .login line args →
      Begins isspace args username behindName → Begins isspace behindName password tail →
      Asks conn line (.login ⟨username, password⟩)
  | world {args message} : hasFlag conn.flags .isAuth = true → CommandLine .world line args →
      Holds isspace newline args message → Asks conn line (.world ⟨conn.user.username, message⟩)
  | p2p {args recipient behindName message} :
      hasFlag conn.flags .isAuth = true → CommandLine .p2p line args →
      Begins isspace args recipient behindName → Holds isspace newline behindName message →
      Asks conn line (.p2p ⟨conn.user.username, recipient, message⟩)

/-- The text of a message: the rest of the line without its leading space. -/
def lineText (l : Bytes) : Bytes := (l.dropWhile isspace).takeWhile (· ≠ newline)

theorem commandLine_iff {command : ShellCommand} {line args : Bytes} :
    CommandLine command line args ↔
      stringToLower (word isspace line) = command.text ∧ behind isspace line = args := by
  have hne : ∀ w : Bytes, stringToLower w = command.text → w ≠ [] := by
    rintro w hw rfl
    revert hw
    cases command <;> decide
  constructor
  · rintro ⟨w, hw, htext⟩
    obtain ⟨_, rfl, hargs⟩ := (Istream.begins_iff isspace).mp hw
    exact ⟨htext, hargs⟩
  · rintro ⟨htext, hargs⟩
    exact ⟨_, (Istream.begins_iff isspace).mpr ⟨hne _ htext, rfl, hargs⟩, htext⟩

theorem ShellCommand.text_inj {a b : ShellCommand} (h : a.text = b.text) : a = b := by
  revert h
  cases a <;> cases b <;> decide

section Lines

variable {conn : Client} {line : Bytes}

/-- The words that the shell extracts, by command. -/
theorem asks_iff {q : Ask} : conn.Asks line q ↔
    stringToLower (word isspace line) = q.command.text ∧
    match q with
    | .register c => hasFlag conn.flags .isAuth = false ∧
        c = ⟨word isspace (behind isspace line),
          word isspace (behind isspace (behind isspace line))⟩ ∧
        c.username ≠ [] ∧ c.password ≠ []
    | .login c => hasFlag conn.flags .isAuth = false ∧
        c = ⟨word isspace (behind isspace line),
          word isspace (behind isspace (behind isspace line))⟩ ∧
        c.username ≠ [] ∧ c.password ≠ []
    | .world b => hasFlag conn.flags .isAuth = true ∧
        b = ⟨conn.user.username, lineText (behind isspace line)⟩ ∧ b.messageContent ≠ []
    | .p2p b => hasFlag conn.flags .isAuth = true ∧
        b = ⟨conn.user.username, word isspace (behind isspace line),
          lineText (behind isspace (behind isspace line))⟩ ∧
        b.recipientUsername ≠ [] ∧ b.messageContent ≠ [] := by
  constructor
  · rintro (⟨ha, hline, hu, hp⟩ | ⟨ha, hline, hu, hp⟩ | ⟨ha, hline, hm⟩ | ⟨ha, hline, hr, hm⟩) <;>
      obtain ⟨htext, rfl⟩ := commandLine_iff.mp hline
    · obtain ⟨hne, rfl, rfl⟩ := (Istream.begins_iff isspace).mp hu
      obtain ⟨hne', rfl, _⟩ := (Istream.begins_iff isspace).mp hp
      exact ⟨htext, ha, rfl, hne, hne'⟩
    · obtain ⟨hne, rfl, rfl⟩ := (Istream.begins_iff isspace).mp hu
      obtain ⟨hne', rfl, _⟩ := (Istream.begins_iff isspace).mp hp
      exact ⟨htext, ha, rfl, hne, hne'⟩
    · obtain ⟨hne, rfl⟩ := (Istream.holds_iff isspace).mp hm
      exact ⟨htext, ha, rfl, hne⟩
    · obtain ⟨hne, rfl, rfl⟩ := (Istream.begins_iff isspace).mp hr
      obtain ⟨hne', rfl⟩ := (Istream.holds_iff isspace).mp hm
      exact ⟨htext, ha, rfl, hne, hne'⟩
  · intro h
    cases q with
    | register c =>
      obtain ⟨htext, ha, rfl, hne, hne'⟩ := h
      exact .register ha (commandLine_iff.mpr ⟨htext, rfl⟩)
        ((Istream.begins_iff isspace).mpr ⟨hne, rfl, rfl⟩)
        ((Istream.begins_iff isspace).mpr ⟨hne', rfl, rfl⟩)
    | login c =>
      obtain ⟨htext, ha, rfl, hne, hne'⟩ := h
      exact .login ha (commandLine_iff.mpr ⟨htext, rfl⟩)
        ((Istream.begins_iff isspace).mpr ⟨hne, rfl, rfl⟩)
        ((Istream.begins_iff isspace).mpr ⟨hne', rfl, rfl⟩)
    | world b =>
      obtain ⟨htext, ha, rfl, hne⟩ := h
      exact .world ha (commandLine_iff.mpr ⟨htext, rfl⟩)
        ((Istream.holds_iff isspace).mpr ⟨hne, rfl⟩)
    | p2p b =>
      obtain ⟨htext, ha, rfl, hne, hne'⟩ := h
      exact .p2p ha (commandLine_iff.mpr ⟨htext, rfl⟩)
        ((Istream.begins_iff isspace).mpr ⟨hne, rfl, rfl⟩)
        ((Istream.holds_iff isspace).mpr ⟨hne', rfl⟩)

/-- A line asks for one thing. -/
theorem Client.Asks.unique {q q' : Ask} (h : conn.Asks line q) (h' : conn.Asks line q') :
    q = q' := by
  have hcommand := ShellCommand.text_inj ((asks_iff.mp h).1.symm.trans (asks_iff.mp h').1)
  have hargs := (asks_iff.mp h).2
  have hargs' := (asks_iff.mp h').2
  cases q <;> cases q' <;> cases hcommand <;> rw [hargs.2.1, hargs'.2.1]

end Lines

/-! ## What the shell does with a line -/

section Shell

variable (conn : Client) (requestBuffer line : Bytes) (sched : List Transfer)

/-- Nothing is written, and the schedule is as it was. -/
def ShellResult.Silent (r : ShellResult) (sched : List Transfer) : Prop :=
  r.sent = [] ∧ r.sched = sched

/-- The line asks for a request, which its builder and the writing loop get, or for none, and the
shell is silent. -/
def Client.Answers (r : ShellResult) : Prop :=
  (∃ q, conn.Asks line q ∧ r = sendRequest q.command (q.build requestBuffer) sched) ∨
    (∀ q, ¬ conn.Asks line q) ∧ r.Silent sched

variable {conn requestBuffer line sched}

/-- A command is checked against the state of the connection and then for its arguments. -/
theorem answers_command {state usage : Prop} [Decidable state] [Decidable usage] {q : Ask}
    {notice notice' : Option ShellNotice}
    (htext : stringToLower (word isspace line) = q.command.text)
    (h : ∀ q' : Ask, q'.command = q.command →
      (conn.Asks line q' ↔ ¬ state ∧ ¬ usage ∧ q' = q)) :
    conn.Answers requestBuffer line sched
      (if state then .shows notice sched else if usage then .shows notice' sched
        else sendRequest q.command (q.build requestBuffer) sched) := by
  have only : ∀ q', conn.Asks line q' → ¬ state ∧ ¬ usage ∧ q' = q := by
    intro q' hasks
    have hcommand := ShellCommand.text_inj ((asks_iff.mp hasks).1.symm.trans htext)
    exact (h q' hcommand).mp hasks
  by_cases hstate : state
  · rw [if_pos hstate]
    exact .inr ⟨fun q' hasks => (only q' hasks).1 hstate, rfl, rfl⟩
  · rw [if_neg hstate]
    by_cases husage : usage
    · rw [if_pos husage]
      exact .inr ⟨fun q' hasks => (only q' hasks).2.1 husage, rfl, rfl⟩
    · rw [if_neg husage]
      exact .inl ⟨q, (h q rfl).mpr ⟨hstate, husage, rfl⟩, rfl⟩

variable (conn requestBuffer line sched)

theorem commandShell_answers : conn.Answers requestBuffer line sched
    (conn.commandShell requestBuffer sched line) := by
  -- The streams behind the first word and behind the second are replaced by what is read there.
  have hfail := Istream.extract_failbit isspace line []
  obtain ⟨hword, hrest⟩ := Istream.extract_word isspace (Istream.ofList line)
  obtain ⟨hname, hbehind⟩ :=
    Istream.extract_word isspace ((Istream.ofList line).extract isspace []).1
  have hpassword := (Istream.extract_word isspace
    (((Istream.ofList line).extract isspace []).1.extract isspace []).1).1
  have hcontent := Istream.getline_ws isspace newline ((Istream.ofList line).extract isspace []).1
  have hmessage := Istream.getline_ws isspace newline
    (((Istream.ofList line).extract isspace []).1.extract isspace []).1
  rw [hbehind, hrest] at hpassword hmessage
  rw [hrest] at hname hcontent
  have hline : (Istream.ofList line).rest = line := rfl
  simp only [Client.commandShell, hword, hfail, hname, hpassword, hcontent, hmessage, hline,
    List.isEmpty_iff, Bool.or_eq_true, Bool.not_eq_true']
  by_cases hnone : word isspace line = []
  · rw [if_pos hnone]
    refine .inr ⟨fun q hasks => ?_, rfl, rfl⟩
    have htext := (asks_iff.mp hasks).1
    rw [hnone] at htext
    cases q <;> cases htext
  rw [if_neg hnone]
  split
  · rename_i htext
    refine answers_command (q := .p2p _) htext fun q hq => ?_
    cases q <;> cases hq
    rw [asks_iff, not_or]
    constructor
    · rintro ⟨_, ha, rfl, hr, hm⟩
      exact ⟨by simp [ha], ⟨hr, hm⟩, rfl⟩
    · rintro ⟨ha, ⟨hr, hm⟩, he⟩
      cases he
      exact ⟨htext, by simpa using ha, rfl, hr, hm⟩
  split
  · rename_i htext
    refine answers_command (q := .world _) htext fun q hq => ?_
    cases q <;> cases hq
    rw [asks_iff]
    constructor
    · rintro ⟨_, ha, rfl, hm⟩
      exact ⟨by simp [ha], hm, rfl⟩
    · rintro ⟨ha, hm, he⟩
      cases he
      exact ⟨htext, by simpa using ha, rfl, hm⟩
  split
  · rename_i htext
    refine answers_command (q := .login _) htext fun q hq => ?_
    cases q <;> cases hq
    rw [asks_iff, not_or]
    constructor
    · rintro ⟨_, ha, rfl, hu, hp⟩
      exact ⟨by simp [ha], ⟨hu, hp⟩, rfl⟩
    · rintro ⟨ha, ⟨hu, hp⟩, he⟩
      cases he
      exact ⟨htext, by simpa using ha, rfl, hu, hp⟩
  split
  · rename_i htext
    refine answers_command (q := .register _) htext fun q hq => ?_
    cases q <;> cases hq
    rw [asks_iff, not_or]
    constructor
    · rintro ⟨_, ha, rfl, hu, hp⟩
      exact ⟨by simp [ha], ⟨hu, hp⟩, rfl⟩
    · rintro ⟨ha, ⟨hu, hp⟩, he⟩
      cases he
      exact ⟨htext, by simpa using ha, rfl, hu, hp⟩
  -- What is left is `/quit` and the unknown commands.
  rename_i hp2p hworld hlogin hregister
  refine .inr ⟨fun q hasks => ?_, ?_⟩
  · have htext := (asks_iff.mp hasks).1
    cases q
    · exact hregister htext
    · exact hlogin htext
    · exact hworld htext
    · exact hp2p htext
  · split <;> exact ⟨rfl, rfl⟩

end Shell

/-! ## What goes onto the socket -/

section Sending

variable {sched : List Transfer} {q : Ask} {requestBuffer : Bytes}

theorem writeLoop_sent (message : Bytes) (sched : List Transfer) :
    (writeLoop message sched).2.1 <+: message ∧
      ((writeLoop message sched).1 = true → (writeLoop message sched).2.1 = message) := by
  induction message, sched using writeLoop.induct with
  | case1 sched =>
    rw [writeLoop]
    exact ⟨List.prefix_rfl, fun _ => rfl⟩
  | case2 b bs =>
    rw [writeLoop]
    exact ⟨List.prefix_rfl, fun _ => rfl⟩
  | case3 b bs k sched ih =>
    have hsplit := List.take_append_drop (k + 1) (b :: bs)
    have hcut := (List.prefix_append_right_inj ((b :: bs).take (k + 1))).mpr ih.1
    rw [hsplit] at hcut
    rw [writeLoop]
    refine ⟨hcut, fun h => ?_⟩
    show (b :: bs).take (k + 1) ++ _ = _
    rw [ih.2 h, hsplit]
  | case4 b bs e sched he ih =>
    rw [writeLoop, if_pos he]
    exact ih
  | case5 b bs e sched he =>
    rw [writeLoop, if_neg he]
    exact ⟨List.nil_prefix, fun h => by cases h⟩

/-- However the calls of `write` turn out, the bytes sent are the first ones of the message, and
all of them unless the return code is `-1`. -/
theorem writeOneMessage_sent (sched : List Transfer) (message : Bytes) :
    (writeOneMessage sched message).2.1 <+: message ∧
      ((writeOneMessage sched message).1 ≠ -1 → (writeOneMessage sched message).2.1 = message) := by
  obtain ⟨hfirst, hall⟩ := writeLoop_sent message sched
  refine ⟨hfirst, fun hrc => hall ?_⟩
  cases hdone : (writeLoop message sched).1 with
  | true => rfl
  | false => simp [writeOneMessage, hdone] at hrc

/-- The bytes of a request are those of its frame, from the front, and all of them go out unless
the shell reports a failed write. -/
theorem sendRequest_sent (h : q.Fits) :
    let r := sendRequest q.command (q.build requestBuffer) sched
    r.sent <+: q.frame ∧ (r.notice ≠ some (.writeFailed q.command) → r.sent = q.frame) := by
  obtain ⟨_, messageLen, hbuild, hlen⟩ | ⟨hnot, _⟩ := q.build_cases requestBuffer
  · have hmessage : (q.frame ++ requestBuffer.drop q.frame.length).take messageLen.toNat =
        q.frame := by
      rw [hlen]
      exact List.take_left
    obtain ⟨hfirst, hall⟩ := writeOneMessage_sent sched q.frame
    simp only [hbuild, sendRequest, hmessage]
    split
    · exact ⟨hfirst, fun hn => absurd rfl hn⟩
    · rename_i hrc
      exact ⟨hfirst, fun _ => hall hrc⟩
  · exact absurd h hnot

theorem sendRequest_refused (h : ¬ q.Fits) :
    sendRequest q.command (q.build requestBuffer) sched =
      .shows (some (.buildFailed q.command)) sched := by
  obtain ⟨hfits, _⟩ | ⟨_, hbuild⟩ := q.build_cases requestBuffer
  · exact absurd hfits h
  · rw [hbuild, sendRequest]

/-- Interrupted and short calls are made up for. -/
theorem sendRequest_interrupted (h : OnlyInterrupted sched) :
    (sendRequest q.command (q.build requestBuffer) sched).notice ≠
      some (.writeFailed q.command) := by
  obtain ⟨_, messageLen, hbuild, _⟩ | ⟨hnot, _⟩ := q.build_cases requestBuffer
  · have hall := @writeLoop_all ((q.frame ++ requestBuffer.drop q.frame.length).take
      messageLen.toNat) sched fun e he => h.spent _ e he
    rw [hbuild, sendRequest]
    simp only [writeOneMessage, hall, if_true]
    rw [if_neg (by omega)]
    exact fun hn => by cases hn
  · rw [sendRequest_refused hnot]
    exact fun hn => by cases hn

end Sending

/-- The bytes are one frame, which fits the buffer it was built in; in front of any others, the
server cuts it off whole and reads the request from it. -/
structure Ask.OnWire (q : Ask) (sent : Bytes) : Prop where
  room : sent.length ≤ MSG_HEADER_SIZE + MSG_MAX_PAYLOAD_SIZE.toNat
  whole : ∀ rest, requestCut (sent ++ rest) = .take sent.length
  reads : ∀ rest, q.ReadFrom (parseMessage (sent ++ rest))

theorem Ask.onWire_frame {q : Ask} (h : q.Fits) : q.OnWire q.frame :=
  ⟨q.length_frame_le, q.requestCut_frame_append, q.readFrom_frame h⟩

/-- Whatever is typed, the shell sends one frame or nothing. A request reaches the server's parser
exactly if the line asks for it and it is within the limits. -/
theorem shell_sends_asked (conn : Client) (requestBuffer line : Bytes) {sched : List Transfer}
    (h : OnlyInterrupted sched) :
    (∀ q, q.OnWire (conn.commandShell requestBuffer sched line).sent ↔
      conn.Asks line q ∧ q.Fits) ∧
    ((∀ q, conn.Asks line q → ¬ q.Fits) →
      (conn.commandShell requestBuffer sched line).sent = []) := by
  have hnothing : ∀ q : Ask, ¬ q.OnWire [] := fun q hq => by
    have hcut := requestCut_take_pos (hq.whole [])
    exact absurd hcut (by decide)
  have hunique : ∀ q q' : Ask, q.OnWire q'.frame → q'.Fits → q = q' := fun q q' hq hfits =>
    (hq.reads []).unique (q'.readFrom_frame hfits [])
  obtain ⟨q', hasks, hr⟩ | ⟨hnone, hsilent⟩ :=
    commandShell_answers conn requestBuffer line sched
  · rw [hr]
    by_cases hfits : q'.Fits
    · have hsent := (@sendRequest_sent sched q' requestBuffer hfits).2
        (sendRequest_interrupted h)
      rw [hsent]
      refine ⟨fun q => ⟨fun hq => ?_, fun hq => ?_⟩, fun hq => absurd hfits (hq q' hasks)⟩
      · rw [hunique q q' hq hfits]
        exact ⟨hasks, hfits⟩
      · rw [hq.1.unique hasks]
        exact Ask.onWire_frame hfits
    · rw [sendRequest_refused hfits]
      refine ⟨fun q => ⟨fun hq => absurd hq (hnothing q), fun hq => ?_⟩, fun _ => rfl⟩
      exact absurd (hq.1.unique hasks ▸ hq.2) hfits
  · rw [hsilent.1]
    exact ⟨fun q => ⟨fun hq => absurd hq (hnothing q), fun hq => absurd hq.1 (hnone q)⟩,
      fun _ => rfl⟩

/-- `/P2P bob  hi there`, typed after a login as `al` into an interrupted socket. -/
theorem shell_sends_asked_p2p :
    let line : Bytes :=
      [47, 80, 50, 80, 32, 98, 111, 98, 32, 32, 104, 105, 32, 116, 104, 101, 114, 101]
    let q := Ask.p2p ⟨[97, 108], [98, 111, 98], [104, 105, 32, 116, 104, 101, 114, 101]⟩
    let r := Client.commandShell ⟨⟨1, [97, 108], []⟩, .isAuth⟩ [] [.fail .EINTR, .upTo 4] line
    r.sent = q.frame ∧ q.OnWire r.sent := by
  intro line q r
  have hsent : r.sent = q.frame := by decide
  refine ⟨hsent, ((shell_sends_asked ⟨⟨1, [97, 108], []⟩, .isAuth⟩ [] line
    (by simp [OnlyInterrupted])).1 q).mpr ⟨?_, ?_⟩⟩
  · exact asks_iff.mpr (by decide)
  · exact ⟨by decide, by decide, by decide, by decide⟩

end ChatServer
