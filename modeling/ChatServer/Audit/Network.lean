import ChatServer.Audit.Refinement
import ChatServer.Audit.Shell
import ChatServer.Audit.Twins
import ChatServer.Spec.Provenance

/-!
# The server and its clients

Each descriptor is the server's end of a stream to one client, whose shell and socket thread
run on their own. A stream delivers the bytes in their order, none lost and none made up, but at
any time and in any portions: the server reads some first part of what a client sent, and the
client some first part of what the server wrote. The shell reads the connection object at one
moment of a line; the instants at which both threads hold it are not told apart.
-/

namespace ChatServer

/-- The connection object of a client that starts. -/
def Client.initial : Client := ⟨.empty, .none⟩

/-- A client, with what it typed, sent, read and showed so far. Its main thread has `quit` its loop,
and has `signalled` that to the socket thread; the socket thread is `listening`, and has handled a
message that was `late`, after the signal. -/
structure Peer where
  conn : Client := .initial
  typed : List Ask := []
  sent : Bytes := []
  failed : Bool := false
  quit : Bool := false
  read : Bytes := []
  shown : List Notice := []
  signalled : Bool := false
  listening : Bool := true
  late : Bool := false

/-- The shell reports that the request did not go out whole. -/
def ShellResult.writeFailed (r : ShellResult) : Bool :=
  match r.notice with
  | some (.writeFailed _) => true
  | _ => false

namespace Peer

/-- After a line that asked for these requests, one or none. -/
def afterLine (p : Peer) (asked : Option Ask) (r : ShellResult) : Peer :=
  { p with
    typed := p.typed ++ asked.toList
    sent := p.sent ++ r.sent
    failed := p.failed || r.writeFailed
    quit := !r.proceed }

/-- After a message that was taken off the front of the bytes that had arrived. -/
def afterMessage (p : Peer) (conn : Client) (notice : Notice) (arrived rest : Bytes) : Peer :=
  { p with
    conn := conn
    read := p.read ++ arrived.take (arrived.length - rest.length)
    shown := p.shown ++ [notice]
    late := p.late || p.signalled }

end Peer

structure Network where
  server : Server
  peer : Nat → Peer

namespace Network

def setPeer (n : Network) (c : Nat) (p : Peer) : Network :=
  { n with peer := Function.update n.peer c p }

def boot (capacity listenfd : Nat) (db : Db) : Network :=
  ⟨Server.boot capacity listenfd db, fun _ => {}⟩

/-- The server goes around its loop, a client handles one line of its user, or its socket thread
one message. A socket on which a write has failed takes no more bytes. The main thread leaves its
loop at `/quit` or at an interrupt, and then tells the socket thread to stop, which handles one
message at most before it does. The socket thread stops at the end of the stream or at an error
too, and the whole process may end at any time, as it does at the end of its input. -/
inductive Move (n : Network) : Network → Prop where
  | serve (w : Wait) : w.Legal n.server.listenfd →
      (∀ c, bytesRead c (n.server.iterate w).log <+: (n.peer c).sent) →
      Move n { n with server := n.server.iterate w }
  | line (c : Nat) (requestBuffer : Bytes) (sched : List Transfer) (line : Bytes)
      (asked : Option Ask) (r : ShellResult) : (n.peer c).quit = false →
      r = (n.peer c).conn.commandShell requestBuffer sched line →
      (∀ q, asked = some q ↔ (n.peer c).conn.Asks line q ∧ q.Fits) →
      ((n.peer c).failed = true → r.sent = []) →
      Move n (n.setPeer c ((n.peer c).afterLine asked r))
  | message (c : Nat) (payloadBuffer : Bytes) (sched sched' : List Transfer)
      (arrived rest : Bytes) (conn : Client) (notice : Notice) :
      (n.peer c).listening = true → ((n.peer c).signalled = true → (n.peer c).late = false) →
      (n.peer c).read ++ arrived <+: bytesWritten c n.server.log →
      (n.peer c).conn.handleServerResponse payloadBuffer sched arrived =
        .handled conn notice sched' rest →
      Move n (n.setPeer c ((n.peer c).afterMessage conn notice arrived rest))
  | stop (c : Nat) (payloadBuffer : Bytes) (sched : List Transfer) (arrived : Bytes) :
      (n.peer c).read ++ arrived <+: bytesWritten c n.server.log →
      (n.peer c).conn.handleServerResponse payloadBuffer sched arrived = .stopped →
      Move n (n.setPeer c { n.peer c with listening := false })
  | interrupt (c : Nat) : Move n (n.setPeer c { n.peer c with quit := true })
  | signal (c : Nat) : (n.peer c).quit = true →
      Move n (n.setPeer c { n.peer c with signalled := true })
  | told (c : Nat) : (n.peer c).signalled = true →
      Move n (n.setPeer c { n.peer c with listening := false })
  | terminate (c : Nat) :
      Move n (n.setPeer c { n.peer c with quit := true, listening := false })

abbrev Moves : Network → Network → Prop := Relation.ReflTransGen Move

end Network

/-! ## What the clients sent -/

/-- The bytes of the requests, one after another. -/
def Ask.stream (asks : List Ask) : Bytes := (asks.map Ask.frame).flatten

theorem Ask.stream_append (asks asks' : List Ask) :
    Ask.stream (asks ++ asks') = Ask.stream asks ++ Ask.stream asks' := by
  simp [Ask.stream]

namespace Peer

/-- The requests typed went out one after another, the last perhaps not whole. -/
structure Sends (p : Peer) : Prop where
  fits : ∀ q ∈ p.typed, q.Fits
  sent : p.sent <+: Ask.stream p.typed
  whole : p.failed = false → p.sent = Ask.stream p.typed

theorem sends_start : ({} : Peer).Sends := ⟨by simp, List.prefix_rfl, fun _ => rfl⟩

/-- The bytes that a line puts onto the socket are those of the request it asks for. -/
theorem sent_asked {conn : Client} {requestBuffer line : Bytes} {sched : List Transfer}
    {asked : Option Ask} {r : ShellResult} (hr : r = conn.commandShell requestBuffer sched line)
    (h : ∀ q, asked = some q ↔ conn.Asks line q ∧ q.Fits) :
    asked = none ∧ r.sent = [] ∨
      ∃ q, asked = some q ∧ q.Fits ∧ r.sent <+: q.frame ∧
        (r.writeFailed = false → r.sent = q.frame) := by
  have hnone : (∀ q, conn.Asks line q → ¬ q.Fits) → asked = none := fun hno => by
    cases ha : asked with
    | none => rfl
    | some q => exact absurd ((h q).mp ha).2 (hno q ((h q).mp ha).1)
  obtain ⟨q, hasks, hq⟩ | ⟨hno, hsilent⟩ := commandShell_answers conn requestBuffer line sched
  · rw [← hr] at hq
    by_cases hfits : q.Fits
    · obtain ⟨hfirst, hall⟩ := @sendRequest_sent sched q requestBuffer hfits
      rw [← hq] at hfirst hall
      refine .inr ⟨q, (h q).mpr ⟨hasks, hfits⟩, hfits, hfirst, fun hw => hall fun hn => ?_⟩
      simp [ShellResult.writeFailed, hn] at hw
    · rw [sendRequest_refused hfits] at hq
      exact .inl ⟨hnone fun q' h' => h'.unique hasks ▸ hfits, congrArg ShellResult.sent hq⟩
  · rw [← hr] at hsilent
    exact .inl ⟨hnone fun q hq => absurd hq (hno q), hsilent.1⟩

theorem Sends.afterLine {p : Peer} (h : p.Sends) {requestBuffer line : Bytes}
    {sched : List Transfer} {asked : Option Ask} {r : ShellResult}
    (hr : r = p.conn.commandShell requestBuffer sched line)
    (hasked : ∀ q, asked = some q ↔ p.conn.Asks line q ∧ q.Fits)
    (hdead : p.failed = true → r.sent = []) : (p.afterLine asked r).Sends := by
  obtain ⟨rfl, hsent⟩ | ⟨q, rfl, hfits, hfirst, hall⟩ := sent_asked hr hasked
  · constructor
    · simpa [Peer.afterLine] using h.fits
    · simpa [Peer.afterLine, hsent] using h.sent
    · intro hok
      have hok' : p.failed = false := (Bool.or_eq_false_iff.mp hok).1
      simpa [Peer.afterLine, hsent] using h.whole hok'
  · have hstream : Ask.stream (p.typed ++ [q]) = Ask.stream p.typed ++ q.frame := by
      simp [Ask.stream]
    refine ⟨?_, ?_, fun hok => ?_⟩
    · simpa [Peer.afterLine, or_imp, forall_and] using ⟨h.fits, hfits⟩
    · show p.sent ++ _ <+: Ask.stream (p.typed ++ [q])
      rw [hstream]
      cases hf : p.failed with
      | false =>
        rw [h.whole hf]
        exact (List.prefix_append_right_inj _).mpr hfirst
      | true =>
        rw [hdead hf, List.append_nil]
        exact h.sent.trans (List.prefix_append _ _)
    · obtain ⟨hok', hw⟩ := Bool.or_eq_false_iff.mp hok
      show p.sent ++ _ = Ask.stream (p.typed ++ [q])
      rw [hstream, h.whole hok', hall hw]

end Peer

/-! ## What the server makes of it -/

/-- The requests served are the first of the frames that the bytes read are made of. -/
theorem Steps.requests_first {capacity listenfd : Nat} {db : Db} {s : Server}
    (h : Steps (Server.boot capacity listenfd db) s) (i : Nat) {fs : List Bytes}
    (hfs : ∀ f ∈ fs, CompleteFrame f) (hread : bytesRead i s.log <+: fs.flatten) :
    requestsOn i s.log <+: fs := by
  induction h with
  | refl => exact List.nil_prefix
  | @tail s t hsteps hst ih =>
    obtain ⟨c, hst⟩ := hst
    have hgrow : bytesRead i s.log <+: bytesRead i t.log := by
      obtain ⟨es, hes⟩ := hst.log_grows
      rw [← hes, bytesRead_append]
      exact List.prefix_append _ _
    have hbefore := ih (hgrow.trans hread)
    have hwhole := (Steps.whole hsteps i).2
    obtain ⟨_, hq, _⟩ | ⟨_, _, hq, _⟩ | ⟨n, hcut, hr, hq, _⟩ := hst.input (Steps.tidy hsteps) i
    · rwa [hq]
    · rwa [hq]
    · rw [hq]
      rw [hr, hwhole] at hread
      rw [← List.append_nil fs.flatten] at hread
      refine requestFramer.cut_next (fun f hf => (hfs f hf).whole) ?_ hbefore hread hcut
      have hnil : requestFramer.cut [] = .more := rfl
      exact fun m hm => absurd (hnil.symm.trans hm) (by simp)

/-- The event that a request is, if it is granted. -/
def Ask.event (c : Nat) : Ask → ServiceEvent
  | .register q => .register c q.username q.password
  | .login q => .login c q.username q.password
  | .world b => .toAll c b.messageContent
  | .p2p b => .toOne c b.recipientUsername b.messageContent

/-- The event is the request of the connection, granted or refused. -/
def Ask.Becomes (c : Nat) (q : Ask) (e : ServiceEvent) : Prop :=
  e = q.event c ∨ ∃ code, e = .refuse c (q.type.code, code)

section Events

variable {s : Server} {r : Served} {e : ServiceEvent}

theorem Served.event_requester (h : r.event = some e) : e.requester = some r.conn := by
  simp only [Served.event] at h
  split_ifs at h with hrc hreg hlogin hp2p
  · cases h
    rfl
  all_goals
    obtain ⟨b, _, rfl⟩ := Option.map_eq_some_iff.mp h
    rfl

/-- Served from the frame of a request of the client, the event is that request. -/
theorem Served.event_frame {q : Ask} (hq : q.Fits) (hr : r.frame = q.frame)
    (h : r.event = some e) : q.Becomes r.conn e := by
  have hread := q.readFrom_frame hq []
  rw [List.append_nil, ← hr] at hread
  have htype : (parseMessage r.frame).type = q.type.code := by
    cases q with
    | register b => exact hread.1
    | login b => exact hread.1
    | world b => exact hread.1
    | p2p b => exact hread.1
  simp only [Served.event] at h
  by_cases hrc : r.response.rc ≠ 0
  · rw [if_pos hrc, htype] at h
    exact .inr ⟨_, (Option.some.inj h).symm⟩
  · have hlogin : ¬ MsgType.login.code = MsgType.register.code := by decide
    have hworld : ¬ TlvTag.worldBroadcast.code = TlvTag.p2pBroadcast.code := by decide
    rw [if_neg hrc] at h
    left
    cases q with
    | register b =>
      rw [if_pos hread.1, hread.2] at h
      exact (Option.some.inj h).symm
    | login b =>
      rw [hread.1, if_neg hlogin, if_pos rfl, hread.2] at h
      exact (Option.some.inj h).symm
    | world b =>
      rw [hread.1, if_neg (Ne.symm register_ne_chat), if_neg (Ne.symm login_ne_chat), hread.2.1,
        if_neg hworld, hread.2.2] at h
      exact (Option.some.inj h).symm
    | p2p b =>
      rw [hread.1, if_neg (Ne.symm register_ne_chat), if_neg (Ne.symm login_ne_chat),
        if_pos hread.2.1, hread.2.2] at h
      exact (Option.some.inj h).symm

/-- Whatever is served is an event. -/
theorem Handled.event {c : Nat} {frame : Bytes} {o : SqlOutcome} {res : Server × Message}
    (h : Handled s c (parseMessage frame) o res) :
    ∃ e, Served.event ⟨c, frame, res.2, s.view, o⟩ = some e := by
  cases h with
  | rejected code hcode => exact ⟨_, if_pos (rc_header hcode)⟩
  | registered ht hp => exact ⟨_, by simp only [Served.event, ht, hp]; rfl⟩
  | loggedIn ht hp => exact ⟨_, by simp only [Served.event, ht, hp]; rfl⟩
  | announced ht _ hm =>
    cases hm with
    | world hk hp => exact ⟨_, by simp only [Served.event, ht, hk, hp]; rfl⟩
    | p2p hk hp => exact ⟨_, by simp only [Served.event, ht, hk, hp]; rfl⟩

theorem Steps.served_events {capacity listenfd : Nat} {db : Db}
    (h : Steps (Server.boot capacity listenfd db) s) :
    ∀ r ∈ servedIn s.log, ∃ e, r.event = some e := by
  have hall : AtEach (fun _ r => ∃ e, r.event = some e) s.log := by
    refine h.preserves (P := fun s => AtEach (fun _ r => ∃ e, r.event = some e) s.log) ?_
      (atEach_nil _)
    exact fun c s t hst hr => hst.atEach hr fun n o dests _ _ => (dispatch_handled s c _ o).event
  intro r hr
  obtain ⟨pre, post, hlog⟩ := List.append_of_mem (mem_servedIn.mp hr)
  exact hall pre r post hlog

/-- The requests served on a connection, frame by frame and event by event. -/
theorem requestsOf_events (c : Nat) {log : List Entry}
    (h : ∀ r ∈ servedIn log, ∃ e, r.event = some e) :
    List.Forall₂ (fun f e => ∃ r : Served, r.conn = c ∧ r.frame = f ∧ r.event = some e)
      (requestsOn c log) (Chat.requestsOf c (log.filterMap Entry.event)) := by
  induction log with
  | nil => exact .nil
  | cons entry log ih =>
    have hrest := ih fun r hr =>
      h r (mem_servedIn.mpr (List.mem_cons_of_mem _ (mem_servedIn.mp hr)))
    cases entry with
    | sys call => cases call <;> exact hrest
    | served r =>
      obtain ⟨e, he⟩ := h r (mem_servedIn.mpr List.mem_cons_self)
      have hreq := Served.event_requester he
      have hfront : Entry.event (.served r) = some e := he
      rw [List.filterMap_cons_some hfront, Chat.requestsOf, List.filter_cons, hreq]
      show List.Forall₂ _ ((if r.conn = c then [r.frame] else []) ++ requestsOn c log) _
      by_cases hc : r.conn = c
      · rw [if_pos hc, if_pos (by simp [hc])]
        exact .cons ⟨r, hc, rfl, he⟩ hrest
      · rw [if_neg hc, if_neg (by simp [hc])]
        exact hrest

end Events

/-! ## What the clients read -/

theorem Client.after_append (conn : Client) (ps qs : List Reply) :
    conn.after (ps ++ qs) = (conn.after ps).after qs := List.foldl_append

theorem Client.notices_append (conn : Client) (ps qs : List Reply) :
    conn.notices (ps ++ qs) = conn.notices ps ++ (conn.after ps).notices qs := by
  induction ps generalizing conn with
  | nil => rfl
  | cons p ps ih =>
    simp only [List.cons_append, Client.notices, ih]
    rfl

/-- The client has read the bytes of these replies, and acted on them. -/
structure Peer.Read (p : Peer) (done : List Reply) : Prop where
  read : p.read = (done.map Reply.wire).flatten
  conn : p.conn = Client.initial.after done
  shown : p.shown = Client.initial.notices done

/-- However the bytes for the connection are read as replies, the client has read the first
ones. -/
def Peer.Follows (p : Peer) (c : Nat) (s : Server) : Prop :=
  ∀ ps : List Reply, (∀ r ∈ ps, r.Fits) → framesFor c s.log = ps.map Reply.wire →
    ∃ done, done <+: ps ∧ p.Read done

theorem Peer.follows_start (c : Nat) (s : Server) : ({} : Peer).Follows c s :=
  fun _ _ _ => ⟨[], List.nil_prefix, rfl, rfl, rfl⟩

theorem Peer.Follows.grow {p : Peer} {c : Nat} {s t : Server} (h : p.Follows c s)
    (hgrow : s.log <+: t.log) : p.Follows c t := by
  intro ps hps hframes
  have hfirst : framesFor c s.log <+: ps.map Reply.wire := by
    obtain ⟨es, hes⟩ := hgrow
    rw [← hframes, ← hes, framesFor_append]
    exact List.prefix_append _ _
  obtain ⟨qs, hqs, hmap⟩ := List.prefix_map_iff.mp hfirst
  obtain ⟨done, hdone, hread⟩ := h qs (fun r hr => hps r (hqs.subset hr)) hmap
  exact ⟨done, hdone.trans hqs, hread⟩

/-- The next message that the client takes is the next reply. -/
theorem Peer.Follows.afterMessage {p : Peer} {c : Nat} {s : Server} (h : p.Follows c s)
    (hout : s.OutputWhole c) {payloadBuffer : Bytes} {sched sched' : List Transfer}
    {arrived rest : Bytes} {conn : Client} {notice : Notice}
    (harrived : p.read ++ arrived <+: bytesWritten c s.log)
    (hcall : p.conn.handleServerResponse payloadBuffer sched arrived =
      .handled conn notice sched' rest) :
    (p.afterMessage conn notice arrived rest).Follows c s := by
  intro ps hps hframes
  obtain ⟨done, ⟨left, rfl⟩, hread⟩ := h ps hps hframes
  have hstream : p.read ++ arrived <+: p.read ++ (left.map Reply.wire).flatten := by
    have hall := hout.1
    rw [hframes, List.map_append, List.flatten_append, ← hread.read] at hall
    rw [← hall]
    exact harrived.trans (List.prefix_append _ _)
  obtain hstop | ⟨q, qs, sched'', rest', rfl, rfl, hhandled⟩ := handleServerResponse_replies
    (fun r hr => hps r (List.mem_append_right _ hr)) ((List.prefix_append_right_inj _).mp hstream)
    p.conn payloadBuffer sched
  · rw [hstop] at hcall
    cases hcall
  · rw [hhandled] at hcall
    cases hcall
    refine ⟨done ++ [q], ⟨qs, by simp⟩, ?_, ?_, ?_⟩
    · have htaken : (q.wire ++ rest).take ((q.wire ++ rest).length - rest.length) = q.wire := by
        simp
      rw [Peer.afterMessage, htaken, hread.read]
      simp
    · show (p.conn.told q).1 = _
      rw [Client.after_append, ← hread.conn]
      rfl
    · show p.shown ++ _ = _
      rw [Client.notices_append, ← hread.conn, hread.shown]
      rfl

/-! ## Every run of the network -/

namespace Network

/-- What the server, the streams and the clients keep. -/
structure Sound (capacity listenfd : Nat) (db : Db) (n : Network) : Prop where
  reaches : Reaches (Server.boot capacity listenfd db) n.server
  sends : ∀ c, (n.peer c).Sends
  delivered : ∀ c, bytesRead c n.server.log <+: (n.peer c).sent
  follows : ∀ c, (n.peer c).Follows c n.server

theorem sound_boot (capacity listenfd : Nat) (db : Db) :
    Sound capacity listenfd db (boot capacity listenfd db) where
  reaches := .refl
  sends _ := Peer.sends_start
  delivered _ := List.nil_prefix
  follows c := Peer.follows_start c _

/-- What holds of the new peer and of the others holds of all. -/
theorem setPeer_all {n : Network} {c : Nat} {p : Peer} {P : Nat → Peer → Prop} (hp : P c p)
    (h : ∀ d, P d (n.peer d)) (d : Nat) : P d ((n.setPeer c p).peer d) := by
  simp only [setPeer, Function.update_apply]
  split
  · rename_i hd
    exact hd ▸ hp
  · exact h d

/-- The end of a thread or of the process changes nothing of what the client did. -/
theorem Sound.setPeer_same {capacity listenfd : Nat} {db : Db} {n : Network} {c : Nat} {p : Peer}
    (h : n.Sound capacity listenfd db) (hconn : p.conn = (n.peer c).conn)
    (htyped : p.typed = (n.peer c).typed) (hsent : p.sent = (n.peer c).sent)
    (hfailed : p.failed = (n.peer c).failed) (hread : p.read = (n.peer c).read)
    (hshown : p.shown = (n.peer c).shown) : (n.setPeer c p).Sound capacity listenfd db := by
  have hsends := h.sends c
  refine ⟨h.reaches, setPeer_all (P := fun _ p => p.Sends) ?_ h.sends,
    setPeer_all (P := fun d p => bytesRead d n.server.log <+: p.sent) (hsent ▸ h.delivered c)
      h.delivered, setPeer_all (P := fun d p => p.Follows d n.server) ?_ h.follows⟩
  · exact ⟨htyped ▸ hsends.fits, hsent ▸ htyped ▸ hsends.sent,
      fun hok => hsent ▸ htyped ▸ hsends.whole (hfailed ▸ hok)⟩
  · intro ps hps hframes
    obtain ⟨done, hdone, hall⟩ := h.follows c ps hps hframes
    exact ⟨done, hdone, hread.trans hall.read, hconn.trans hall.conn, hshown.trans hall.shown⟩

theorem Move.sound {capacity listenfd : Nat} {db : Db} {n n' : Network} (hmove : n.Move n')
    (h : n.Sound capacity listenfd db) : n'.Sound capacity listenfd db := by
  cases hmove with
  | serve w hw hread =>
    exact ⟨h.reaches.tail ⟨w, hw, rfl⟩, h.sends, hread, fun c =>
      (h.follows c).grow (Steps.log_grows (iterate_steps n.server w))⟩
  | line c requestBuffer sched line asked r _ hr hasked hdead =>
    refine ⟨h.reaches, setPeer_all (P := fun _ p => p.Sends) ?_ h.sends,
      setPeer_all (P := fun d p => bytesRead d n.server.log <+: p.sent) ?_ h.delivered,
      setPeer_all (P := fun d p => p.Follows d n.server) ?_ h.follows⟩
    · exact (h.sends c).afterLine hr hasked hdead
    · exact (h.delivered c).trans (List.prefix_append _ _)
    · intro ps hps hframes
      obtain ⟨done, hdone, hread⟩ := h.follows c ps hps hframes
      exact ⟨done, hdone, hread.read, hread.conn, hread.shown⟩
  | message c payloadBuffer sched sched' arrived rest conn notice _ _ harrived hcall =>
    refine ⟨h.reaches, setPeer_all (P := fun _ p => p.Sends) ?_ h.sends,
      setPeer_all (P := fun d p => bytesRead d n.server.log <+: p.sent) (h.delivered c) h.delivered,
      setPeer_all (P := fun d p => p.Follows d n.server) ?_ h.follows⟩
    · exact ⟨(h.sends c).fits, (h.sends c).sent, (h.sends c).whole⟩
    · exact (h.follows c).afterMessage (h.reaches.steps.whole c).1 harrived hcall
  | stop c => exact h.setPeer_same rfl rfl rfl rfl rfl rfl
  | interrupt c => exact h.setPeer_same rfl rfl rfl rfl rfl rfl
  | signal c => exact h.setPeer_same rfl rfl rfl rfl rfl rfl
  | told c => exact h.setPeer_same rfl rfl rfl rfl rfl rfl
  | terminate c => exact h.setPeer_same rfl rfl rfl rfl rfl rfl

theorem Moves.sound {capacity listenfd : Nat} {db : Db} {n : Network}
    (h : Moves (boot capacity listenfd db) n) : n.Sound capacity listenfd db := by
  induction h with
  | refl => exact sound_boot capacity listenfd db
  | tail _ hmove ih => exact hmove.sound ih

end Network

end ChatServer
