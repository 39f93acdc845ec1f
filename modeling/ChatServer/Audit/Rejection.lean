import ChatServer.Audit.Steps

/-!
# Errors leave the state intact

A request that is answered with an error has changed nothing but the two buffers
of its own connection, whatever the outcome of the SQLite calls. The failures
that the source allows for after a write cannot happen: a row found under a name
of at most 32 bytes always fits the response.
-/

namespace ChatServer

/-- Only a rejection is answered with an error. -/
theorem Handled.rejected_of_rc {s : Server} {c : Nat} {request : Message} {o : SqlOutcome}
    {r : Server × Message} (h : Handled s c request o r) (hrc : r.2.rc ≠ 0) :
    ∃ code : ResponseCode, r = (s, buildServerResponse request.type code.code none 0) := by
  cases h with
  | rejected code _ => exact ⟨code, rfl⟩
  | registered => exact absurd rfl hrc
  | loggedIn => exact absurd rfl hrc
  | announced _ _ hm => exact absurd hm.type_rc.2 hrc

/-- **Errors leave the state intact.** Whatever the type and the payload of the
frame and the outcome of the SQLite calls, an error response has seven bytes and
is all that the request has left behind. -/
theorem rejected_request_leaves_state {s s' : Server} {c : Nat} {o : SqlOutcome}
    (h : s.tryOneRequest c o = (s', true)) :
    ∃ (frame rest : Bytes) (response : Message),
      (s.slot c).incoming = frame ++ rest ∧
      frame.length = MSG_HEADER_SIZE + (parseMessage frame).payloadLength.toNat ∧
      (s'.slot c).outgoing = (s.slot c).outgoing ++ response.wire ∧
      (response.rc ≠ 0 →
        response.wire = [1, (parseMessage frame).type, response.rc, 0, 0, 0, 0] ∧
        s'.db = s.db ∧
        s'.slot c = { s.slot c with
          incoming := rest
          outgoing := (s.slot c).outgoing ++ response.wire } ∧
        (∀ j, j ≠ c → s'.slot j = s.slot j) ∧
        s'.getSize = s.getSize ∧ s'.status = s.status ∧
        s'.log = s.log ++ [.served ⟨c, frame, response, s.view, o⟩]) := by
  obtain ⟨n, hcut, rfl⟩ := s.tryOneRequest_true c o h
  obtain ⟨h1, _, hn, hle⟩ := requestCut_eq_take.mp hcut
  have htake : ((s.slot c).incoming.take n).length = n := by
    rw [List.length_take]
    omega
  have hd := dispatch_handled s c (parseMessage ((s.slot c).incoming.take n)) o
  refine ⟨(s.slot c).incoming.take n, (s.slot c).incoming.drop n,
    (s.dispatch c (parseMessage ((s.slot c).incoming.take n)) o).2,
    (List.take_append_drop _ _).symm, ?_, ?_, fun hrc => ?_⟩
  · have hheader : MSG_HEADER_SIZE ≤ ((s.slot c).incoming.take n).length := by omega
    have hlen := payloadLength_append hheader ((s.slot c).incoming.drop n)
    rw [List.take_append_drop] at hlen
    rw [htake, ← hlen, ← hn]
  · rw [slot_serve, if_pos rfl]
    show _ ++ _ = _
    rw [hd.outgoing_self]
  · obtain ⟨code, hr⟩ := hd.rejected_of_rc hrc
    have hserve : ∀ j, ((s.serveFrame c ((s.slot c).incoming.take n) o).setIncoming c
        ((s.slot c).incoming.drop n)).slot j =
        if j = c then { s.slot j with
          incoming := (s.slot c).incoming.drop n
          outgoing := (s.slot j).outgoing ++
            (s.dispatch c (parseMessage ((s.slot c).incoming.take n)) o).2.wire }
        else s.slot j := by
      intro j
      rw [slot_serve, hr]
    obtain ⟨hsize, hstatus, _⟩ := serve_frame s c ((s.slot c).incoming.take n) o
      ((s.slot c).incoming.drop n)
    refine ⟨by rw [hr]; exact wire_header _ _, ?_, ?_, ?_, hsize, hstatus, ?_⟩
    · rw [db_serve, hr]
    · rw [hserve, if_pos rfl]
    · intro j hj
      rw [hserve, if_neg hj]
    · rw [log_served, hr]

/-- An unknown command on connection 5 leaves connection 7 alone. -/
theorem rejected_request_leaves_state_unknown :
    let s := (Server.boot 8 3 .empty).setIncoming 5 [1, 9, 0, 0, 0, 0, 1, 42]
    ((s.tryOneRequest 5 {}).1.slot 5).outgoing = [1, 9, 6, 0, 0, 0, 0] ∧
      (s.tryOneRequest 5 {}).1.slot 7 = s.slot 7 := by
  intro s
  have hout : ((s.tryOneRequest 5 {}).1.slot 5).outgoing = [1, 9, 6, 0, 0, 0, 0] := by decide
  have hserved : (s.tryOneRequest 5 {}).2 = true := by decide
  have htry : s.tryOneRequest 5 {} = ((s.tryOneRequest 5 {}).1, true) := by
    rw [← hserved]
  obtain ⟨frame, rest, response, _, _, hwire, hsame⟩ := rejected_request_leaves_state htry
  have hbytes : response.wire = [1, 9, 6, 0, 0, 0, 0] := by
    have hold : (s.slot 5).outgoing = [] := by decide
    rw [hout, hold, List.nil_append] at hwire
    exact hwire.symm
  have hrc : response.rc = 6 := (List.cons.inj (List.cons.inj (List.cons.inj hbytes).2).2).1
  exact ⟨hout, (hsame (by rw [hrc]; decide)).2.2.2.1 7 (by decide)⟩

end ChatServer
