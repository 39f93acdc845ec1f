import ChatServer.Audit.FrameLocality
import ChatServer.Audit.Intake

/-!
# No complete request is left waiting

When the request loop stops and the connection stays open, what is left in the incoming buffer
is the front of a frame that has not arrived yet. The loop wants one byte behind the header of
a frame, so a frame without a payload waits until something follows it.
-/

namespace ChatServer

open EdgeTrigger (Errno Rv Interest Syscall)

/-- Not yet a header and one byte more, or a legal header with a part of its payload. -/
def Unfinished (b : Bytes) : Prop :=
  b.length < MSG_HEADER_SIZE + 1 ∨
    ¬ (parseMessage b).payloadLength > MSG_MAX_PAYLOAD_SIZE ∧
      b.length < MSG_HEADER_SIZE + (parseMessage b).payloadLength.toNat

theorem unfinished_iff {b : Bytes} : Unfinished b ↔ requestCut b = .more := by
  unfold Unfinished requestCut
  constructor
  · rintro (h | ⟨hmax, h⟩)
    · rw [if_pos h]
    · rw [if_neg hmax, if_pos h, ite_self]
  · intro h
    split_ifs at h with h1 h2 h3
    · exact .inl h1
    · exact .inr ⟨h2, h3⟩

theorem Unfinished.of_leftover {b : Bytes}
    (h : requestCut (requestFramer.leftover b) ≠ .stop) : Unfinished (requestFramer.leftover b) := by
  rw [unfinished_iff]
  cases hcut : requestCut (requestFramer.leftover b) with
  | more => rfl
  | take n => exact absurd hcut (requestFramer.cut_leftover b n)
  | stop => exact absurd hcut h

/-- What is unfinished is short of the largest frame. -/
theorem Unfinished.length_lt {b : Bytes} (h : Unfinished b) :
    b.length < MSG_HEADER_SIZE + MSG_MAX_PAYLOAD_SIZE.toNat := by
  rcases h with h | ⟨hmax, h⟩
  · have hpos : 1 ≤ MSG_MAX_PAYLOAD_SIZE.toNat := by decide
    omega
  · have hle := UInt32.le_iff_toNat_le.mp (UInt32.not_lt.mp hmax)
    omega

/-! ## The frames of a buffer -/

theorem completeFrame_take {b : Bytes} {n : Nat} (h : requestCut b = .take n) :
    CompleteFrame (b.take n) := by
  obtain ⟨h1, h2, hn, hle⟩ := requestCut_eq_take.mp h
  have hlen : (b.take n).length = n := List.length_take_of_le hle
  have h7 : MSG_HEADER_SIZE ≤ (b.take n).length := by omega
  have hsame : (parseMessage (b.take n)).payloadLength = (parseMessage b).payloadLength := by
    rw [← payloadLength_append h7 (b.drop n), List.take_append_drop]
  refine ⟨?_, ?_⟩
  · rw [hlen, hsame]
    exact hn
  · rw [hsame]
    exact h2

theorem completeFrame_of_frames (b : Bytes) : ∀ f ∈ requestFramer.frames b, CompleteFrame f := by
  induction b using requestFramer.cut_induction with
  | stuck b h =>
    rw [requestFramer.frames_eq_nil h]
    exact fun _ hf => absurd hf List.not_mem_nil
  | step b n hn ih =>
    rw [requestFramer.frames_take hn]
    intro f hf
    rcases List.mem_cons.mp hf with rfl | hf
    · exact completeFrame_take hn
    · exact ih f hf

/-- Complete frames at the front of a buffer are its first frames, if the last of them has a
payload or is followed by a byte. -/
theorem prefix_frames {fs : List Bytes} {f d : Bytes} (hfs : ∀ g ∈ fs ++ [f], CompleteFrame g)
    (hlast : MSG_HEADER_SIZE < f.length ∨ d ≠ []) :
    fs ++ [f] <+: requestFramer.frames ((fs ++ [f]).flatten ++ d) := by
  have hbehind : ∀ rest : Bytes, rest ≠ [] → ∀ g, CompleteFrame g →
      requestCut (g ++ rest) = .take g.length := by
    intro rest hrest g hg
    have hpos := List.length_pos_of_ne_nil hrest
    have h7 := hg.header_le
    exact requestCut_frame hg (by rw [List.length_append]; omega)
  induction fs with
  | nil =>
    have hf := hfs f (by simp)
    have hcut : requestCut (f ++ d) = .take f.length := by
      rcases hlast with hlong | hne
      · exact requestCut_frame hf (by rw [List.length_append]; omega)
      · exact hbehind d hne f hf
    rw [List.nil_append, List.flatten_singleton, requestFramer.frames_cons hcut]
    exact ⟨_, rfl⟩
  | cons g fs ih =>
    have hrest : (fs ++ [f]).flatten ++ d ≠ [] := by
      have h7 := (hfs f (by simp)).header_le
      apply List.ne_nil_of_length_pos
      simp only [List.flatten_append, List.flatten_singleton, List.length_append]
      simp only [MSG_HEADER_SIZE] at h7
      omega
    have hcut := hbehind _ hrest g (hfs g (by simp))
    have hfirst := ih fun k hk => hfs k (List.mem_cons_of_mem _ hk)
    rw [List.cons_append, List.flatten_cons, List.append_assoc, requestFramer.frames_cons hcut]
    exact (List.cons_prefix_cons).mpr ⟨rfl, hfirst⟩

/-! ## The requests served -/

/-- From `s` to `t` the frames were served on `c`, each as one request, and answered in turn. -/
structure Answers (c : Nat) (frames : List Bytes) (s t : Server) (served : List Served) : Prop where
  conn : ∀ r ∈ served, r.conn = c
  frames : served.map Served.frame = frames
  log : servedIn t.log = servedIn s.log ++ served
  outgoing : (t.slot c).outgoing =
    (s.slot c).outgoing ++ (served.map fun r => r.response.wire).flatten

section Answers

variable {c : Nat} {s t : Server}

theorem servedIn_append (log es : List Entry) :
    servedIn (log ++ es) = servedIn log ++ servedIn es := List.flatMap_append

theorem servedIn_calls (ks : List (Syscall UInt8)) : servedIn (ks.map .sys) = [] := by
  unfold servedIn
  rw [List.flatMap_eq_nil_iff]
  intro e he
  obtain ⟨k, _, rfl⟩ := List.mem_map.mp he
  rfl

theorem Answers.none (hlog : servedIn t.log = servedIn s.log)
    (hout : (t.slot c).outgoing = (s.slot c).outgoing) : Answers c [] s t [] := by
  refine ⟨fun _ h => absurd h List.not_mem_nil, rfl, ?_, ?_⟩
  · rw [hlog, List.append_nil]
  · rw [hout]
    exact (List.append_nil _).symm

theorem answers_serve (s : Server) (c : Nat) (frame rest : Bytes) (o : SqlOutcome)
    {frames : List Bytes} {served : List Served}
    (h : Answers c frames ((s.serveFrame c frame o).setIncoming c rest) t served) :
    Answers c (frame :: frames) s t
      (⟨c, frame, (s.dispatch c (parseMessage frame) o).2, s.view, o⟩ :: served) := by
  obtain ⟨dests, hlog⟩ := log_serve s c frame rest o
  have hmodify : servedIn (dests.map fun d => .sys (.modify d .output)) = [] :=
    flatMap_modify (fun _ => rfl) dests
  constructor
  · intro r hr
    rcases List.mem_cons.mp hr with rfl | hr
    · rfl
    · exact h.conn r hr
  · rw [List.map_cons, h.frames]
  · rw [h.log, hlog, servedIn_append, servedIn_append, hmodify, List.append_nil, List.append_assoc]
    rfl
  · rw [h.outgoing, slot_serve, if_pos rfl, List.map_cons, List.flatten_cons,
      ← List.append_assoc, (dispatch_handled s c (parseMessage frame) o).outgoing_self]

theorem serveRequests_answers (fuel : Nat) (sql : List SqlOutcome)
    (hfuel : (s.slot c).incoming.length < fuel) :
    ∃ served, Answers c (requestFramer.frames (s.slot c).incoming) s
      (Server.serveRequests c fuel s sql) served := by
  induction fuel generalizing s sql with
  | zero => exact absurd hfuel (Nat.not_lt_zero _)
  | succ fuel ih =>
    cases hcut : requestCut (s.slot c).incoming with
    | more =>
      have hno : ∀ n, requestFramer.cut (s.slot c).incoming ≠ .take n := fun n hn => by
        cases hcut.symm.trans hn
      simp only [Server.serveRequests, s.tryOneRequest_more c _ hcut]
      rw [requestFramer.frames_eq_nil hno]
      exact ⟨[], .none rfl rfl⟩
    | stop =>
      have hno : ∀ n, requestFramer.cut (s.slot c).incoming ≠ .take n := fun n hn => by
        cases hcut.symm.trans hn
      simp only [Server.serveRequests, s.tryOneRequest_stop c _ hcut]
      rw [requestFramer.frames_eq_nil hno]
      exact ⟨[], .none rfl (s.setConnectionState_keeps c c .closing).2.1⟩
    | take n =>
      simp only [Server.serveRequests, s.tryOneRequest_take c _ hcut]
      have hlt := requestFramer.drop_lt hcut
      have hin : (((s.serveFrame c ((s.slot c).incoming.take n) (sql.headD {})).setIncoming c
          ((s.slot c).incoming.drop n)).slot c).incoming = (s.slot c).incoming.drop n := by
        rw [slot_serve, if_pos rfl]
      have hrest := ih (s := (s.serveFrame c ((s.slot c).incoming.take n)
        (sql.headD {})).setIncoming c ((s.slot c).incoming.drop n)) sql.tail (by rw [hin]; omega)
      rw [hin] at hrest
      obtain ⟨served, hserved⟩ := hrest
      rw [requestFramer.frames_take hcut]
      exact ⟨_, answers_serve s c _ _ _ hserved⟩

end Answers

/-! ## One notification -/

section Notification

variable {c : Nat} {s : Server} {script : Script}

/-- A connection that the read handler leaves open has been drained. -/
theorem drained_of_open
    (hopen : hasFlag ((s.handleReadConnection c script).slot c).flags .wantClose = false) :
    readDrains script.reads = true := by
  by_contra hno
  have hdrain : readDrains script.reads = false := by simpa using hno
  have hslot := slot_readAvailable s c script.reads c
  rw [if_pos rfl, hdrain] at hslot
  unfold Server.handleReadConnection at hopen
  simp only [readAvailable_drained, hdrain, Bool.not_false, ↓reduceIte] at hopen
  rw [hslot] at hopen
  exact absurd (hopen.symm.trans (wantClose_closing _)) (by decide)

/-- To turn to writing changes neither what is left nor what was answered. -/
theorem handleReadConnection_answers
    (hopen : hasFlag ((s.handleReadConnection c script).slot c).flags .wantClose = false) :
    let stream := (s.slot c).incoming ++ readBytes script.reads
    Unfinished (requestFramer.leftover stream) ∧
      ((s.handleReadConnection c script).slot c).incoming = requestFramer.leftover stream ∧
      ∃ served, Answers c (requestFramer.frames stream) s (s.handleReadConnection c script)
        served := by
  intro stream
  have hdrain := drained_of_open hopen
  have hslot := slot_readAvailable s c script.reads c
  have hlog := readAvailable_log s c script.reads
  rw [if_pos rfl, hdrain] at hslot
  unfold Server.handleReadConnection at hopen ⊢
  simp only [readAvailable_drained, hdrain, Bool.not_true, Bool.false_eq_true, ↓reduceIte]
    at hopen ⊢
  generalize (s.readAvailable c script.reads).1 = t at hslot hlog hopen ⊢
  have hin : (t.slot c).incoming = stream := by rw [hslot]
  have hout : (t.slot c).outgoing = (s.slot c).outgoing := by rw [hslot]
  have hread : servedIn t.log = servedIn s.log := by
    rw [hlog, servedIn_append, servedIn_calls, List.append_nil]
  have hfuel : (t.slot c).incoming.length < (t.connManager.incomingBuffers c).length + 1 :=
    Nat.lt_succ_self _
  have hserved := serveRequests_hasServed _ script.sql hfuel
  obtain ⟨served, hanswers⟩ := serveRequests_answers _ script.sql hfuel
  generalize Server.serveRequests c ((t.connManager.incomingBuffers c).length + 1) t
    script.sql = u at hserved hanswers hopen ⊢
  rw [hin] at hserved hanswers
  have hfrom : Answers c (requestFramer.frames stream) s u served :=
    ⟨hanswers.conn, hanswers.frames, by rw [hanswers.log, hread], by rw [hanswers.outgoing, hout]⟩
  have hclose : hasFlag (u.slot c).flags .wantClose = false := by
    split at hopen
    · rw [Server.slot_setConnectionState_self] at hopen
      exact (wantClose_writing _).symm.trans hopen
    · exact hopen
  refine ⟨.of_leftover fun hstop => ?_, ?_⟩
  · exact absurd (hclose.symm.trans (hserved.stopped hstop)) (by decide)
  · have hkeeps := u.setConnectionState_keeps c c .writing
    have hquiet : servedIn (u.setConnectionState c .writing).log = servedIn u.log :=
      (servedIn_append u.log [.sys (.modify c .output)]).trans (List.append_nil _)
    split
    · exact ⟨hkeeps.1.trans hserved.incoming, served, hfrom.conn, hfrom.frames,
        hquiet.trans hfrom.log, hkeeps.2.1.trans hfrom.outgoing⟩
    · exact ⟨hserved.incoming, served, hfrom⟩

end Notification

/-- **No complete request is left waiting**, except one without a payload while nothing follows
it: when the read handler returns and the connection stays open, every other frame that has
arrived whole has been served and answered, and what is left is unfinished. -/
theorem requests_not_left_waiting (s : Server) (c : Nat) (script : Script)
    (hopen : hasFlag ((s.handleReadConnection c script).slot c).flags .wantClose = false) :
    let t := s.handleReadConnection c script
    let stream := (s.slot c).incoming ++ readBytes script.reads
    Unfinished (t.slot c).incoming ∧
      ∃ frames served, Answers c frames s t served ∧ (∀ f ∈ frames, CompleteFrame f) ∧
        stream = frames.flatten ++ (t.slot c).incoming ∧
        ∀ fs f d, (∀ g ∈ fs ++ [f], CompleteFrame g) → stream = (fs ++ [f]).flatten ++ d →
          MSG_HEADER_SIZE < f.length ∨ d ≠ [] → fs ++ [f] <+: frames := by
  intro t stream
  obtain ⟨hleft, hin, served, hanswers⟩ := handleReadConnection_answers hopen
  refine ⟨hin ▸ hleft, _, served, hanswers, completeFrame_of_frames stream, ?_, ?_⟩
  · exact (requestFramer.flatten_frames stream).symm.trans (congrArg _ hin.symm)
  · intro fs f d hfs hstream hlast
    have hprefix := prefix_frames hfs hlast
    rwa [← hstream] at hprefix

/-- An unknown command with one byte of payload, and the first byte of the next frame. -/
theorem requests_not_left_waiting_one :
    let t := (accepted 8).handleReadConnection 5
      { reads := [.bytes [1, 9, 0, 0, 0, 0, 1, 42], .bytes [1]] }
    Unfinished (t.slot 5).incoming := by
  intro t
  exact (requests_not_left_waiting (accepted 8) 5
    { reads := [.bytes [1, 9, 0, 0, 0, 0, 1, 42], .bytes [1]] } (by decide +kernel)).1

/-- An unknown command without a payload: all its seven bytes have arrived, and it is neither
answered nor is the connection closed. -/
theorem empty_request_left_waiting :
    let t := (accepted 8).handleReadConnection 5 { reads := [.bytes [1, 9, 0, 0, 0, 0, 0]] }
    hasFlag (t.slot 5).flags .wantClose = false ∧ servedIn t.log = [] ∧
      (t.slot 5).outgoing = [] ∧ CompleteFrame (t.slot 5).incoming ∧
      ¬ ((t.slot 5).incoming.length < MSG_HEADER_SIZE ∨
        ¬ (parseMessage (t.slot 5).incoming).payloadLength > MSG_MAX_PAYLOAD_SIZE ∧
          (t.slot 5).incoming.length <
            MSG_HEADER_SIZE + (parseMessage (t.slot 5).incoming).payloadLength.toNat) := by
  intro t
  have hin : (t.slot 5).incoming = [1, 9, 0, 0, 0, 0, 0] := by decide +kernel
  have hserved : servedIn t.log = [] :=
    List.eq_nil_of_length_eq_zero (by decide +kernel)
  rw [hin]
  exact ⟨by decide +kernel, hserved, by decide +kernel, by decide +kernel, by decide +kernel⟩

end ChatServer
