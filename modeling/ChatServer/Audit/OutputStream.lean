import ChatServer.Audit.History

/-!
# The streams of a connection

Every step keeps the two streams of a connection whole: what was read is the
requests served followed by the incoming buffer, and what was written followed by
the outgoing buffer is the frames queued.
-/

namespace ChatServer

open EdgeTrigger (Errno Rv Interest Syscall)

/-! ## What one step adds to the streams -/

section Step

variable {s t : Server} {c : Nat}

/-- The frames a served request queues are the bytes it adds to the outgoing buffers. -/
theorem Handled.framesTo {c : Nat} {frame : Bytes} {o : SqlOutcome} {r : Server × Message}
    (h : Handled s c (parseMessage frame) o r) (i : Nat) :
    (r.1.slot i).outgoing ++ (if c = i then r.2.wire else []) =
      (s.slot i).outgoing ++ (Served.framesTo i ⟨c, frame, r.2, s.view, o⟩).flatten := by
  by_cases hi : c = i
  · subst hi
    rw [h.outgoing_self]
    simp [Served.framesTo]
  · have hsilent : (r.1.slot i).outgoing = (s.slot i).outgoing →
        ¬ (r.2.type = MsgType.chat.code ∧ r.2.rc = 0) →
        (r.1.slot i).outgoing ++ (if c = i then r.2.wire else []) =
          (s.slot i).outgoing ++ (Served.framesTo i ⟨c, frame, r.2, s.view, o⟩).flatten := by
      intro hout hm
      have hno : Served.framesTo i ⟨c, frame, r.2, s.view, o⟩ = [] := by
        simp only [Served.framesTo, if_neg hi]
        exact if_neg fun hc => hm ⟨hc.1, hc.2.1⟩
      rw [hno, hout, if_neg hi, List.flatten_nil]
    cases h with
    | rejected code hc => exact hsilent rfl fun hm => rc_header hc hm.2
    | registered => exact hsilent rfl fun hm => register_ne_chat hm.1
    | loggedIn =>
      refine hsilent ?_ fun hm => login_ne_chat hm.1
      rw [slot_signIn, if_neg (Ne.symm hi)]
    | @announced m _ _ hm =>
      have hframes : Served.framesTo i ⟨c, frame, m, s.view, o⟩ =
          if i ∈ s.view.recipients c (parseMessage frame) then [m.wire] else [] := by
        simp only [Served.framesTo, if_neg hi, hm.type_rc.1, hm.type_rc.2, true_and]
      rw [hframes, Server.slot_deliverAll _ _ _ (View.nodup_recipients _ _ _), if_neg hi]
      split <;> simp

/-- A served request queues whole frames for `i`. -/
theorem serve_emitted (s : Server) (c : Nat) (frame rest : Bytes) (o : SqlOutcome) (i : Nat) :
    let t := (s.serveFrame c frame o).setIncoming c rest
    ∃ frames, framesFor i t.log = framesFor i s.log ++ frames ∧
      t.emitted i = s.emitted i ++ frames.flatten ∧ ∀ f ∈ frames, IsFrame f := by
  intro t
  have hd := dispatch_handled s c (parseMessage frame) o
  obtain ⟨dests, hlog⟩ := log_serve s c frame rest o
  refine ⟨Served.framesTo i ⟨c, frame, (s.dispatch c (parseMessage frame) o).2, s.view, o⟩,
    ?_, ?_, ?_⟩
  · rw [hlog, framesFor_append, framesFor_append, framesFor_singleton,
      show framesFor i (dests.map fun d => .sys (.modify d .output)) = [] from
        flatMap_modify (fun _ => rfl) dests, List.append_nil]
    rfl
  · have hout : (t.slot i).outgoing = ((s.dispatch c (parseMessage frame) o).1.slot i).outgoing ++
        (if c = i then (s.dispatch c (parseMessage frame) o).2.wire else []) := by
      rw [slot_serve]
      by_cases hi : c = i
      · rw [if_pos hi.symm, if_pos hi]
      · rw [if_neg (Ne.symm hi), if_neg hi, List.append_nil]
    rw [Server.emitted, Server.emitted, hlog, bytesWritten_append, bytesWritten_append,
      bytesWritten_singleton, hout, hd.framesTo i,
      show bytesWritten i (dests.map fun d => .sys (.modify d .output)) = [] from
        flatMap_modify (fun _ => rfl) dests]
    simp only [Entry.writtenTo, List.append_nil, List.append_assoc]
  · intro f hf
    unfold Served.framesTo at hf
    split_ifs at hf
    · obtain rfl := List.mem_singleton.mp hf
      exact hd.sound.isFrame
    · obtain rfl := List.mem_singleton.mp hf
      exact hd.sound.isFrame
    · exact absurd hf List.not_mem_nil

/-- Whatever one step queues for `i` are whole frames, behind all that was queued before. -/
theorem Step.emitted (hst : Step c s t) (hs : Tidy s) (i : Nat) :
    ∃ frames, framesFor i t.log = framesFor i s.log ++ frames ∧
      t.emitted i = s.emitted i ++ frames.flatten ∧ ∀ f ∈ frames, IsFrame f := by
  have hquiet : ∀ es, t.log = s.log ++ es → bytesWritten i es = [] → framesFor i es = [] →
      (t.slot i).outgoing = (s.slot i).outgoing →
      ∃ frames, framesFor i t.log = framesFor i s.log ++ frames ∧
        t.emitted i = s.emitted i ++ frames.flatten ∧ ∀ f ∈ frames, IsFrame f := by
    intro es hlog hw hf hout
    refine ⟨[], ?_, ?_, fun _ h => absurd h List.not_mem_nil⟩
    · rw [hlog, framesFor_append, hf]
    · rw [Server.emitted, Server.emitted, hlog, bytesWritten_append, hw, hout, List.append_nil,
        List.flatten_nil, List.append_nil]
  have hstate := fun next => (s.setConnectionState_keeps c i next).2.1
  cases hst with
  | @call k hk => exact hquiet [.sys k] rfl (by cases hk <;> rfl) rfl rfl
  | halt => exact hquiet [] (List.append_nil _).symm rfl rfl rfl
  | connect =>
    refine hquiet [.sys (.add c .input)] (log_connect s c) rfl rfl ?_
    rw [slot_connect]
    split <;> exact (hs.slot_grow c i).2.2
  | receive b bs =>
    refine hquiet [.sys (.read c (.bytes (b :: bs)))] rfl rfl rfl ?_
    rw [slot_receive]
    split <;> rfl
  | serve o => exact serve_emitted s c _ _ o i
  | closing => exact hquiet [] (List.append_nil _).symm rfl rfl (hstate _)
  | writing => exact hquiet [.sys (.modify c .output)] rfl rfl rfl (hstate _)
  | write n =>
    refine ⟨[], ?_, ?_, fun _ h => absurd h List.not_mem_nil⟩
    · exact (framesFor_append i s.log [.sys (.write c _)]).trans rfl
    · have hlog : (s.written c n).log =
          s.log ++ [.sys (.write c (.bytes ((s.slot c).outgoing.take n)))] := rfl
      rw [Server.emitted, Server.emitted, hlog, bytesWritten_append, bytesWritten_singleton,
        slot_written, Entry.writtenTo, List.flatten_nil, List.append_nil]
      by_cases hi : c = i
      · subst hi
        rw [if_pos rfl, if_pos rfl, List.append_assoc, List.take_append_drop]
      · rw [if_neg hi, if_neg (Ne.symm hi), List.append_nil]
  | reading => exact hquiet [.sys (.modify c .input)] rfl rfl rfl (hstate _)
  | remove =>
    refine hquiet [.sys (.delete c)] rfl rfl rfl ?_
    rw [slot_removeConnection]
    split <;> rfl

/-- A step takes bytes in on `i`, serves a request on `i`, or leaves the input of `i`. -/
theorem Step.input (hst : Step c s t) (hs : Tidy s) (i : Nat) :
    (bytesRead i t.log = bytesRead i s.log ∧ requestsOn i t.log = requestsOn i s.log ∧
      (t.slot i).incoming = (s.slot i).incoming) ∨
    (∃ d, bytesRead i t.log = bytesRead i s.log ++ d ∧ requestsOn i t.log = requestsOn i s.log ∧
      (t.slot i).incoming = (s.slot i).incoming ++ d) ∨
    ∃ n, requestCut (s.slot i).incoming = .take n ∧ bytesRead i t.log = bytesRead i s.log ∧
      requestsOn i t.log = requestsOn i s.log ++ [(s.slot i).incoming.take n] ∧
      (t.slot i).incoming = (s.slot i).incoming.drop n := by
  have hquiet : ∀ es, t.log = s.log ++ es → bytesRead i es = [] → requestsOn i es = [] →
      (t.slot i).incoming = (s.slot i).incoming →
      bytesRead i t.log = bytesRead i s.log ∧ requestsOn i t.log = requestsOn i s.log ∧
        (t.slot i).incoming = (s.slot i).incoming := by
    intro es hlog hr hq hslot
    rw [hlog, bytesRead_append, requestsOn_append, hr, hq, List.append_nil, List.append_nil]
    exact ⟨rfl, rfl, hslot⟩
  have hstate := fun next => (s.setConnectionState_keeps c i next).1
  cases hst with
  | @call k hk =>
    left
    cases hk with
    | eof =>
      refine hquiet [.sys (.read c (.bytes []))] rfl ?_ rfl rfl
      rw [bytesRead_singleton, Entry.receivedOn, ite_self]
    | _ => exact hquiet [.sys _] rfl rfl rfl rfl
  | halt => exact .inl (hquiet [] (List.append_nil _).symm rfl rfl rfl)
  | connect =>
    refine .inl (hquiet [.sys (.add c .input)] (log_connect s c) rfl rfl ?_)
    rw [slot_connect]
    split <;> exact (hs.slot_grow c i).2.1
  | receive b bs =>
    have hlog : ((s.sys (.read c (.bytes (b :: bs)))).setIncoming c
        ((s.slot c).incoming ++ b :: bs)).log = s.log ++ [.sys (.read c (.bytes (b :: bs)))] := rfl
    rw [hlog, bytesRead_append, requestsOn_append, bytesRead_singleton, requestsOn_singleton,
      Entry.receivedOn, Entry.requestOn, List.append_nil, slot_receive]
    by_cases hi : c = i
    · subst hi
      rw [if_pos rfl, if_pos rfl]
      exact .inr (.inl ⟨b :: bs, rfl, rfl, rfl⟩)
    · rw [if_neg hi, if_neg (Ne.symm hi), List.append_nil]
      exact .inl ⟨rfl, rfl, rfl⟩
  | @serve n o _ hcut =>
    have hd := dispatch_handled s c (parseMessage ((s.slot c).incoming.take n)) o
    obtain ⟨dests, hlog⟩ := log_serve s c ((s.slot c).incoming.take n)
      ((s.slot c).incoming.drop n) o
    rw [hlog, bytesRead_append, bytesRead_append, requestsOn_append, requestsOn_append,
      bytesRead_singleton, requestsOn_singleton, slot_serve,
      show bytesRead i (dests.map fun d => .sys (.modify d .output)) = [] from
        flatMap_modify (fun _ => rfl) dests,
      show requestsOn i (dests.map fun d => .sys (.modify d .output)) = [] from
        flatMap_modify (fun _ => rfl) dests]
    simp only [Entry.receivedOn, Entry.requestOn, List.append_nil]
    by_cases hi : c = i
    · subst hi
      rw [if_pos rfl, if_pos rfl]
      exact .inr (.inr ⟨n, hcut, trivial, rfl, rfl⟩)
    · rw [if_neg hi, if_neg (Ne.symm hi), List.append_nil, hd.incoming]
      exact .inl ⟨trivial, rfl, rfl⟩
  | closing => exact .inl (hquiet [] (List.append_nil _).symm rfl rfl (hstate _))
  | writing => exact .inl (hquiet [.sys (.modify c .output)] rfl rfl rfl (hstate _))
  | write n =>
    refine .inl (hquiet [.sys (.write c (.bytes ((s.slot c).outgoing.take n)))] rfl rfl rfl ?_)
    rw [slot_written]
    split <;> rfl
  | reading => exact .inl (hquiet [.sys (.modify c .input)] rfl rfl rfl (hstate _))
  | remove =>
    refine .inl (hquiet [.sys (.delete c)] rfl rfl rfl ?_)
    rw [slot_removeConnection]
    split <;> rfl

/-- The bytes read so far are the requests served and the incoming buffer. -/
def Server.InputWhole (s : Server) (i : Nat) : Prop :=
  bytesRead i s.log = (requestsOn i s.log).flatten ++ (s.slot i).incoming

theorem Step.incoming (hst : Step c s t) (hs : Tidy s) {i : Nat} (hin : s.InputWhole i) :
    t.InputWhole i := by
  unfold Server.InputWhole at hin ⊢
  rcases hst.input hs i with ⟨hr, hq, hslot⟩ | ⟨d, hr, hq, hslot⟩ | ⟨n, _, hr, hq, hslot⟩
  · rw [hr, hq, hslot, hin]
  · rw [hr, hq, hslot, hin, List.append_assoc]
  · rw [hr, hq, hslot, hin, List.flatten_append, List.flatten_singleton, List.append_assoc,
      List.take_append_drop]

end Step

/-! ## The streams of a run -/

/-- What has been queued for `i`, as whole frames. -/
def Server.OutputWhole (s : Server) (i : Nat) : Prop :=
  s.emitted i = (framesFor i s.log).flatten ∧ ∀ f ∈ framesFor i s.log, IsFrame f

theorem Step.outputWhole {s t : Server} {c : Nat} (hst : Step c s t) (hs : Tidy s) {i : Nat}
    (hout : s.OutputWhole i) : t.OutputWhole i := by
  obtain ⟨frames, hf, he, hframes⟩ := hst.emitted hs i
  constructor
  · rw [he, hf, List.flatten_append, hout.1]
  · intro f hmem
    rw [hf] at hmem
    rcases List.mem_append.mp hmem with h | h
    · exact hout.2 f h
    · exact hframes f h

theorem Steps.whole {capacity listenfd : Nat} {db : Db} {s : Server}
    (h : Steps (Server.boot capacity listenfd db) s) (i : Nat) :
    s.OutputWhole i ∧ s.InputWhole i := by
  have hinv : Tidy s ∧ s.OutputWhole i ∧ s.InputWhole i := by
    refine h.preserves (P := fun s => Tidy s ∧ s.OutputWhole i ∧ s.InputWhole i) ?_
      ⟨tidy_boot _ _ _, ⟨rfl, fun _ hf => absurd hf List.not_mem_nil⟩, rfl⟩
    rintro c s t hst ⟨hs, hout, hin⟩
    exact ⟨hs.step hst, hst.outputWhole hs hout, hst.incoming hs hin⟩
  exact hinv.2

/-- **Output-stream integrity.** In every run, what `write` has accepted on a
connection followed by its outgoing buffer is the concatenation of the frames queued for
it: a response for each request served on it, in the order its bytes arrived, and a
notification for each successful broadcast of another connection that selects it. Each
of them is whole. -/
theorem output_stream_integrity {capacity listenfd : Nat} {db : Db} {s : Server}
    (h : Reaches (Server.boot capacity listenfd db) s) (i : Nat) :
    bytesWritten i s.log ++ (s.slot i).outgoing = (framesFor i s.log).flatten ∧
      (∀ f ∈ framesFor i s.log, IsFrame f) ∧
      bytesRead i s.log = (requestsOn i s.log).flatten ++ (s.slot i).incoming := by
  obtain ⟨⟨hout, hframes⟩, hin⟩ := h.steps.whole i
  exact ⟨hout, hframes, hin⟩

/-- A connection is accepted, an unknown command arrives, and five bytes of the
response are taken. -/
theorem output_stream_integrity_partial :
    let s := (Server.boot 8 3 .empty).iterate (.ready
      [⟨3, false, { accepts := [.conn 5 true true] }⟩,
        ⟨5, false, { reads := [.bytes [1, 9, 0, 0, 0, 0, 1, 42]],
                     writes := [.took 4, .fail .EAGAIN] }⟩])
    (s.slot 5).outgoing = [0, 0] ∧
      bytesWritten 5 s.log ++ [0, 0] = (framesFor 5 s.log).flatten := by
  intro s
  have hout : (s.slot 5).outgoing = [0, 0] := by decide +kernel
  have hreach : Reaches (Server.boot 8 3 .empty) s :=
    .single ⟨_, by simp [Wait.Legal, Event.Legal, Server.boot, STDIN_FILENO], rfl⟩
  have h := output_stream_integrity hreach 5
  exact ⟨hout, by rw [← hout]; exact h.1⟩

end ChatServer
