import ChatServer.Audit.Delivery
import ChatServer.Audit.Lockstep

/-!
# A request sees its own frame only

The handlers get a pointer into the incoming buffer, behind which the next requests lie.
They read neither that buffer nor, beyond the payload, anything that depends on it: what
follows a frame stays in the buffer and makes no difference to how the frame is served.
-/

namespace ChatServer

open EdgeTrigger (Errno Rv Interest Syscall)

/-- A whole frame of legal size: the length field counts the payload. -/
def CompleteFrame (frame : Bytes) : Prop :=
  frame.length = MSG_HEADER_SIZE + (parseMessage frame).payloadLength.toNat ∧
    ¬ (parseMessage frame).payloadLength > MSG_MAX_PAYLOAD_SIZE

instance (frame : Bytes) : Decidable (CompleteFrame frame) := inferInstanceAs (Decidable (_ ∧ _))

theorem CompleteFrame.header_le {frame : Bytes} (h : CompleteFrame frame) :
    MSG_HEADER_SIZE ≤ frame.length := by
  rw [h.1]
  exact Nat.le_add_right _ _

theorem requestCut_frame {frame : Bytes} (h : CompleteFrame frame) {d : Bytes}
    (hlen : MSG_HEADER_SIZE + 1 ≤ (frame ++ d).length) :
    requestCut (frame ++ d) = .take frame.length := by
  rw [requestCut_eq_take, payloadLength_append h.header_le]
  exact ⟨hlen, h.2, h.1, by simp⟩

/-! ## The handlers do not read the incoming buffers -/

section Incoming

variable (s : Server) (c i : Nat) (b : Bytes)

theorem setIncoming_setIncoming (b' : Bytes) :
    (s.setIncoming i b).setIncoming i b' = s.setIncoming i b' := by
  simp only [Server.setIncoming, Column.set_set]

/-- The outcome of a handler, with the incoming buffer of slot `i` replaced. -/
def withIncoming (r : Server × Message) : Server × Message := (r.1.setIncoming i b, r.2)

theorem servesAlike_setIncoming : ServesAlike c fun s t => t = s.setIncoming i b where
  db h := by subst h; rfl
  size h := by subst h; rfl
  isAuth h _ := by subst h; rfl
  username h _ := by subst h; rfl
  setDb h _ := by subst h; rfl
  signIn h _ := by subst h; rfl
  deliver h _ _ _ := by subst h; rfl

/-- Serving a request neither reads nor writes the bytes that were received. -/
theorem dispatch_setIncoming (m : Message) (o : SqlOutcome) :
    (s.setIncoming i b).dispatch c m o = withIncoming i b (s.dispatch c m o) := by
  obtain ⟨hstate, hresponse⟩ := (servesAlike_setIncoming c i b).dispatch rfl m o
  exact Prod.ext hstate hresponse

theorem serveFrame_setIncoming (frame : Bytes) (o : SqlOutcome) :
    (s.setIncoming i b).serveFrame c frame o = (s.serveFrame c frame o).setIncoming i b := by
  unfold Server.serveFrame
  rw [dispatch_setIncoming]
  rfl

end Incoming

/-! ## The frame and what follows it -/

section Locality

variable (s : Server) (c : Nat) (o : SqlOutcome) {frame : Bytes} (h : CompleteFrame frame)

include h

/-- What a call of `try_one_request` does is given by the frame at the front of the buffer. -/
theorem tryOneRequest_frame {d : Bytes} (hlen : MSG_HEADER_SIZE + 1 ≤ (frame ++ d).length) :
    (s.setIncoming c (frame ++ d)).tryOneRequest c o =
      ((s.serveFrame c frame o).setIncoming c d, true) := by
  have hin : ((s.setIncoming c (frame ++ d)).slot c).incoming = frame ++ d := by
    rw [Server.slot_setIncoming, if_pos rfl]
  have hcut : requestCut ((s.setIncoming c (frame ++ d)).slot c).incoming = .take frame.length := by
    rw [hin]
    exact requestCut_frame h hlen
  rw [Server.tryOneRequest_take _ c o hcut, hin, List.take_left, List.drop_left,
    serveFrame_setIncoming, setIncoming_setIncoming]

/-- The pointer that the handlers get reaches past the frame, which makes no difference. -/
theorem dispatch_frame {d : Bytes} (hlen : MSG_HEADER_SIZE + 1 ≤ (frame ++ d).length) :
    s.dispatch c (parseMessage (frame ++ d)) o = s.dispatch c (parseMessage frame) o := by
  rw [dispatch_take (requestCut_frame h hlen), List.take_left]

end Locality

/-- The two states differ in the incoming buffer of `c` only. -/
structure SameButIncoming (c : Nat) (s t : Server) : Prop where
  listenfd : t.listenfd = s.listenfd
  status : t.status = s.status
  size : t.getSize = s.getSize
  db : t.db = s.db
  log : t.log = s.log
  flags : ∀ j, (t.slot j).flags = (s.slot j).flags
  userId : ∀ j, (t.slot j).userId = (s.slot j).userId
  username : ∀ j, (t.slot j).username = (s.slot j).username
  outgoing : ∀ j, (t.slot j).outgoing = (s.slot j).outgoing
  incoming : ∀ j, j ≠ c → (t.slot j).incoming = (s.slot j).incoming

theorem sameButIncoming_setIncoming (s : Server) (c : Nat) (d₁ d₂ : Bytes) :
    SameButIncoming c (s.setIncoming c d₁) (s.setIncoming c d₂) := by
  refine ⟨rfl, rfl, rfl, rfl, rfl, fun _ => rfl, fun _ => rfl, fun _ => rfl, fun _ => rfl, ?_⟩
  intro j hj
  rw [Server.slot_setIncoming, Server.slot_setIncoming, if_neg hj, if_neg hj]

/-- **What follows a frame makes no difference to how it is served.** With the same whole frame
at the front of the incoming buffer of `c`, and anything behind it, `try_one_request` serves
that frame with the same response and the same effects, and leaves what was behind it. -/
theorem frame_locality (s : Server) (c : Nat) (o : SqlOutcome) {frame d₁ d₂ : Bytes}
    (h : CompleteFrame frame) (h₁ : MSG_HEADER_SIZE + 1 ≤ (frame ++ d₁).length)
    (h₂ : MSG_HEADER_SIZE + 1 ≤ (frame ++ d₂).length) :
    let r₁ := (s.setIncoming c (frame ++ d₁)).tryOneRequest c o
    let r₂ := (s.setIncoming c (frame ++ d₂)).tryOneRequest c o
    (r₁.2 = true ∧ (r₁.1.slot c).incoming = d₁) ∧ (r₂.2 = true ∧ (r₂.1.slot c).incoming = d₂) ∧
      SameButIncoming c r₁.1 r₂.1 ∧
      s.dispatch c (parseMessage (frame ++ d₁)) o = s.dispatch c (parseMessage (frame ++ d₂)) o ∧
      ∃ response, ∀ r ∈ [r₁, r₂],
        .served ⟨c, frame, response, s.view, o⟩ ∈ r.1.log ∧
          (r.1.slot c).outgoing = (s.slot c).outgoing ++ response.wire := by
  intro r₁ r₂
  have hr₁ : r₁ = ((s.serveFrame c frame o).setIncoming c d₁, true) :=
    tryOneRequest_frame s c o h h₁
  have hr₂ : r₂ = ((s.serveFrame c frame o).setIncoming c d₂, true) :=
    tryOneRequest_frame s c o h h₂
  have hin : ∀ d, (((s.serveFrame c frame o).setIncoming c d).slot c).incoming = d := by
    intro d
    rw [Server.slot_setIncoming, if_pos rfl]
  have hserved : ∀ d, .served ⟨c, frame, (s.dispatch c (parseMessage frame) o).2, s.view, o⟩ ∈
        ((s.serveFrame c frame o).setIncoming c d).log ∧
      (((s.serveFrame c frame o).setIncoming c d).slot c).outgoing =
        (s.slot c).outgoing ++ (s.dispatch c (parseMessage frame) o).2.wire := by
    intro d
    rw [log_served, slot_serve, if_pos rfl]
    refine ⟨List.mem_append_right _ List.mem_cons_self, ?_⟩
    rw [(dispatch_handled s c (parseMessage frame) o).outgoing_self]
  rw [hr₁, hr₂]
  refine ⟨⟨rfl, hin d₁⟩, ⟨rfl, hin d₂⟩, sameButIncoming_setIncoming _ c d₁ d₂, ?_,
    (s.dispatch c (parseMessage frame) o).2, ?_⟩
  · rw [dispatch_frame s c o h h₁, dispatch_frame s c o h h₂]
  · intro r hr
    rcases List.mem_pair.mp hr with rfl | rfl
    · exact hserved d₁
    · exact hserved d₂

/-- An empty CHAT frame on connection 5, with a world tag or a P2P tag behind it. -/
theorem frame_locality_empty_chat :
    let s := (Server.boot 8 3 .empty).iterate twoSignedIn
    let frame : Bytes := [1, 2, 0, 0, 0, 0, 0]
    SameButIncoming 5 ((s.setIncoming 5 (frame ++ [4])).tryOneRequest 5 {}).1
      ((s.setIncoming 5 (frame ++ [5, 0])).tryOneRequest 5 {}).1 := by
  intro s frame
  have hframe : CompleteFrame frame := by decide
  exact (@frame_locality s 5 {} frame [4] [5, 0] hframe (by decide) (by decide)).2.2.1

end ChatServer
