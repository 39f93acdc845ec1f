import Mathlib.Data.List.Forall2
import ChatServer.Audit.OutputStream
import ChatServer.Audit.Twins

/-!
# What one connection tells another is seen by no third

Two runs get the same connects, frames, disconnects and answers, except that the P2P
messages of `a` that are for `b` have other contents of the same length. In lockstep the
two runs stay alike: to every other connection they send the same bytes.
-/

namespace ChatServer

open EdgeTrigger (Errno Rv Interest Syscall)

/-! ## The requests of the two runs -/

/-- The requests served on `i`, with what they saw and what they were answered. -/
def servedOn (i : Nat) (log : List Entry) : List Served :=
  (servedIn log).filter fun r => r.conn = i

/-- If the request is for any other connection, then for `b`. -/
def Served.ResolvesTo (r : Served) (b : Nat) : Prop :=
  ∀ i ∈ r.view.recipients r.conn (parseMessage r.frame), i = b

instance (r : Served) (b : Nat) : Decidable (r.ResolvesTo b) :=
  inferInstanceAs (Decidable (∀ i ∈ r.view.recipients r.conn (parseMessage r.frame), i = b))

/-- What `a` sends in the two runs is the same frames, one pair for each, up to an end of which
no frame can be cut; only the contents of P2P requests for `b` differ. The runs may have
received any part of it so far. -/
structure SameButContents (a b : Nat) (pairs : List (Bytes × Bytes)) (tail : Bytes)
    (s t : Server) : Prop where
  left : bytesRead a s.log <+: (pairs.map Prod.fst).flatten ++ tail
  right : bytesRead a t.log <+: (pairs.map Prod.snd).flatten ++ tail
  frames : ∀ p ∈ pairs, CompleteFrame p.1 ∧ (p.2 = p.1 ∨ P2pTwins p.1 p.2)
  stuck : ∀ n, requestCut tail ≠ .take n
  resolved : ∀ rp ∈ (servedOn a s.log).zip pairs, rp.2.2 ≠ rp.2.1 → rp.1.ResolvesTo b

section Requests

variable {a b : Nat} {pairs : List (Bytes × Bytes)} {tail : Bytes} {s t s' t' : Server}

theorem servedOn_append (i : Nat) (log es : List Entry) :
    servedOn i (log ++ es) = servedOn i log ++ servedOn i es := by
  rw [servedOn, servedIn, List.flatMap_append, List.filter_append]
  rfl

theorem frames_servedOn (i : Nat) (log : List Entry) :
    (servedOn i log).map Served.frame = requestsOn i log := by
  induction log with
  | nil => rfl
  | cons e log ih =>
    rw [← List.singleton_append, servedOn_append, requestsOn_append, List.map_append, ih]
    congr 1
    cases e with
    | sys k => rfl
    | served r =>
      rw [requestsOn_singleton, Entry.requestOn, servedOn, servedIn, List.flatMap_singleton,
        Entry.servedIn]
      by_cases hi : r.conn = i
      · simp [hi]
      · simp [hi]

theorem bytesRead_grows (i : Nat) (h : s.log <+: s'.log) :
    bytesRead i s.log <+: bytesRead i s'.log := by
  obtain ⟨es, hes⟩ := h
  rw [← hes, bytesRead_append]
  exact List.prefix_append _ _

/-- It holds of everything that came before. -/
theorem SameButContents.earlier (h : SameButContents a b pairs tail s' t')
    (hs : s.log <+: s'.log) (ht : t.log <+: t'.log) : SameButContents a b pairs tail s t where
  left := (bytesRead_grows a hs).trans h.left
  right := (bytesRead_grows a ht).trans h.right
  frames := h.frames
  stuck := h.stuck
  resolved := by
    obtain ⟨es, hes⟩ := hs
    intro rp hrp
    obtain ⟨i, hi⟩ := List.mem_iff_getElem?.mp hrp
    obtain ⟨hr, hp⟩ := List.getElem?_zip_eq_some.mp hi
    apply h.resolved
    apply List.mem_iff_getElem?.mpr
    refine ⟨i, List.getElem?_zip_eq_some.mpr ⟨?_, hp⟩⟩
    rw [← hes, servedOn_append]
    exact List.getElem?_append_left (List.getElem?_eq_some_iff.mp hr).1 ▸ hr

theorem SameButContents.whole (h : SameButContents a b pairs tail s t) :
    (∀ f ∈ pairs.map Prod.fst, requestFramer.Whole f) ∧
      ∀ f ∈ pairs.map Prod.snd, requestFramer.Whole f := by
  constructor
  · intro f hf
    obtain ⟨p, hp, rfl⟩ := List.mem_map.mp hf
    exact (h.frames p hp).1.whole
  · intro f hf
    obtain ⟨p, hp, rfl⟩ := List.mem_map.mp hf
    obtain ⟨hfull, heq | htwins⟩ := h.frames p hp
    · rw [heq]
      exact hfull.whole
    · exact (htwins.completeFrame hfull).whole

end Requests

/-- In a run that has received a part of a stream of frames, the requests served are the
first of them. -/
theorem Steps.served_first {capacity listenfd : Nat} {db : Db} {s : Server} {a : Nat}
    {fs : List Bytes} {tail : Bytes} (h : Steps (Server.boot capacity listenfd db) s)
    (hfs : ∀ f ∈ fs, requestFramer.Whole f) (htail : ∀ n, requestCut tail ≠ .take n)
    (hread : bytesRead a s.log <+: fs.flatten ++ tail) : requestsOn a s.log <+: fs := by
  have hinv : Tidy s ∧ s.InputWhole a ∧
      (bytesRead a s.log <+: fs.flatten ++ tail → requestsOn a s.log <+: fs) := by
    refine h.preserves (P := fun s => Tidy s ∧ s.InputWhole a ∧
      (bytesRead a s.log <+: fs.flatten ++ tail → requestsOn a s.log <+: fs)) ?_
      ⟨tidy_boot _ _ _, rfl, fun _ => List.nil_prefix⟩
    rintro c s t hst ⟨hs, hin, hserved⟩
    refine ⟨hs.step hst, hst.incoming hs hin, fun ht => ?_⟩
    rcases hst.input hs a with ⟨hr, hq, _⟩ | ⟨d, hr, hq, _⟩ | ⟨n, hcut, hr, hq, _⟩
    · rw [hq]
      exact hserved (hr ▸ ht)
    · rw [hq]
      rw [hr] at ht
      exact hserved ((List.prefix_append _ d).trans ht)
    · rw [hq]
      rw [hr] at ht
      have hstream := ht
      rw [show bytesRead a s.log = _ from hin] at hstream
      exact requestFramer.cut_next hfs htail (hserved ht) hstream hcut
  exact hinv.2.2 hread

/-- Its incoming buffer holds what follows them. -/
theorem Steps.unserved {capacity listenfd : Nat} {db : Db} {s : Server} {a : Nat}
    {fs : List Bytes} {tail : Bytes} (h : Steps (Server.boot capacity listenfd db) s)
    (hfs : ∀ f ∈ fs, requestFramer.Whole f) (htail : ∀ n, requestCut tail ≠ .take n)
    (hread : bytesRead a s.log <+: fs.flatten ++ tail) :
    (s.slot a).incoming <+: (fs.drop (requestsOn a s.log).length).flatten ++ tail := by
  obtain ⟨later, hlater⟩ := h.served_first hfs htail hread
  rw [show bytesRead a s.log = _ from (h.whole a).2, ← hlater, List.flatten_append,
    List.append_assoc, List.prefix_append_right_inj] at hread
  rw [← hlater, List.drop_left]
  exact hread

/-! ## The two runs in lockstep -/

/-- Two runs that have come to states which a third party cannot tell apart. -/
structure Lockstep (s₀ : Server) (a b : Nat) (s t : Server) : Prop where
  alike : Alike a b s t
  left : Steps s₀ s
  right : Steps s₀ t

section Lockstep

variable {capacity listenfd : Nat} {db : Db} {a b c : Nat} {pairs : List (Bytes × Bytes)}
  {tail : Bytes} {s t : Server}

theorem Lockstep.wantRead {s₀ : Server} (hst : Lockstep s₀ a b s t)
    (hr : hasFlag (s.slot c).flags .wantRead = true) :
    hasFlag (t.slot c).flags .wantRead = true := by
  rw [(hst.alike.slot c).flags]
  exact hr

/-- Both buffers of `a` are cut alike, and if a frame can be cut, hold the next pair. -/
theorem SameButContents.pending (h : SameButContents a b pairs tail s t)
    (hst : Lockstep (.boot capacity listenfd db) a b s t) :
    requestCut (t.slot a).incoming = requestCut (s.slot a).incoming ∧
      ∀ n, requestCut (s.slot a).incoming = .take n →
        ∃ p, pairs[(requestsOn a s.log).length]? = some p ∧
          (s.slot a).incoming.take n = p.1 ∧ (t.slot a).incoming.take n = p.2 := by
  obtain ⟨hleft, hright⟩ := h.whole
  have hx := hst.left.unserved hleft h.stuck h.left
  have hy := hst.right.unserved hright h.stuck h.right
  rw [hst.alike.served] at hy
  rw [← List.map_drop] at hx hy
  have hpairs := cut_pairs (fun p hp => h.frames p (List.mem_of_mem_drop hp)) h.stuck
    (hst.alike.slot a).incoming.1 hx hy
  rw [List.head?_drop] at hpairs
  exact hpairs

/-- The request about to be served is the next of those that the hypothesis speaks of. -/
theorem SameButContents.resolves {n : Nat} {o : SqlOutcome} {p : Bytes × Bytes}
    (h : SameButContents a b pairs tail (s.tryOneRequest a o).1 t)
    (hcut : requestCut (s.slot a).incoming = .take n)
    (hp : pairs[(requestsOn a s.log).length]? = some p) (hframe : (s.slot a).incoming.take n = p.1)
    (hne : p.2 ≠ p.1) : ∀ i ∈ s.view.recipients a (parseMessage p.1), i = b := by
  rw [s.tryOneRequest_take a o hcut] at h
  obtain ⟨dests, hlog⟩ := log_serve s a ((s.slot a).incoming.take n) ((s.slot a).incoming.drop n) o
  set r : Served := ⟨a, (s.slot a).incoming.take n,
    (s.dispatch a (parseMessage ((s.slot a).incoming.take n)) o).2, s.view, o⟩ with hr
  have hmodify : servedIn (dests.map fun d => .sys (.modify d .output)) = [] :=
    flatMap_modify (fun _ => rfl) dests
  have hserved : servedOn a ((s.serveFrame a ((s.slot a).incoming.take n) o).setIncoming a
      ((s.slot a).incoming.drop n)).log = servedOn a s.log ++ [r] := by
    rw [hlog, servedOn_append, servedOn_append, servedOn, servedOn, hmodify, servedOn]
    simp [hr, servedIn, Entry.servedIn]
  have hlen : (servedOn a s.log).length = (requestsOn a s.log).length := by
    rw [← frames_servedOn, List.length_map]
  have hnext : (servedOn a s.log ++ [r])[(requestsOn a s.log).length]? = some r := by
    rw [← hlen, List.getElem?_concat_length]
  have hmem : (r, p) ∈ (servedOn a s.log ++ [r]).zip pairs :=
    List.mem_of_getElem? (List.getElem?_zip_eq_some.mpr ⟨hnext, hp⟩)
  have hto := h.resolved (r, p) (by rw [hserved]; exact hmem) hne
  rw [← hframe]
  exact hto

/-- Both runs serve a request of `c`, or neither does, and they stay alike. -/
theorem Lockstep.tryOneRequest (hst : Lockstep (.boot capacity listenfd db) a b s t)
    (o : SqlOutcome) (hr : hasFlag (s.slot c).flags .wantRead = true)
    (h : SameButContents a b pairs tail (s.tryOneRequest c o).1 (t.tryOneRequest c o).1) :
    Lockstep (.boot capacity listenfd db) a b (s.tryOneRequest c o).1 (t.tryOneRequest c o).1 ∧
      (t.tryOneRequest c o).2 = (s.tryOneRequest c o).2 := by
  have hr' := hst.wantRead hr
  have hs : Steps s (s.tryOneRequest c o).1 := (tryOneRequest_steps hr rfl).1.steps
  have ht : Steps t (t.tryOneRequest c o).1 := (tryOneRequest_steps hr' rfl).1.steps
  have halike : Alike a b (s.tryOneRequest c o).1 (t.tryOneRequest c o).1 ∧
      (t.tryOneRequest c o).2 = (s.tryOneRequest c o).2 := by
    by_cases hc : c = a
    · subst hc
      obtain ⟨hcut, hpair⟩ := (h.earlier hs.log_grows ht.log_grows).pending hst
      apply hst.alike.tryOneRequest c o hcut
      intro n hn
      obtain ⟨p, hp, hp1, hp2⟩ := hpair n hn
      rw [hp1, hp2]
      by_cases heq : p.2 = p.1
      · rw [heq]
        exact hst.alike.serveFrame c p.1 o
      · obtain ⟨hfull, htwins⟩ := h.frames p (List.mem_of_getElem? hp)
        apply hst.alike.serveFrame_twins hfull (htwins.resolve_left heq) o
        exact h.resolves hn hp hp1 heq
    · have heq : (t.slot c).incoming = (s.slot c).incoming := (hst.alike.slot c).incoming.2 hc
      apply hst.alike.tryOneRequest c o
      · rw [heq]
      · intro n _
        rw [heq]
        exact hst.alike.serveFrame c _ o
  exact ⟨⟨halike.1, hst.left.trans hs, hst.right.trans ht⟩, halike.2⟩

theorem serveRequests_succ (c fuel : Nat) (s : Server) (sql : List SqlOutcome) :
    Server.serveRequests c (fuel + 1) s sql =
      if (s.tryOneRequest c (sql.headD {})).2 = true then
        Server.serveRequests c fuel (s.tryOneRequest c (sql.headD {})).1 sql.tail
      else (s.tryOneRequest c (sql.headD {})).1 := by
  rw [Server.serveRequests]
  cases s.tryOneRequest c (sql.headD {}) with
  | mk s' served => cases served <;> rfl

theorem Lockstep.serveRequests (hst : Lockstep (.boot capacity listenfd db) a b s t) (fuel : Nat)
    (sql : List SqlOutcome) (hr : hasFlag (s.slot c).flags .wantRead = true)
    (h : SameButContents a b pairs tail (Server.serveRequests c fuel s sql)
      (Server.serveRequests c fuel t sql)) :
    Lockstep (.boot capacity listenfd db) a b (Server.serveRequests c fuel s sql)
      (Server.serveRequests c fuel t sql) := by
  induction fuel generalizing s t sql with
  | zero => exact hst
  | succ fuel ih =>
    have hlog : ∀ u : Server, hasFlag (u.slot c).flags .wantRead = true →
        (u.tryOneRequest c (sql.headD {})).1.log <+:
          (Server.serveRequests c (fuel + 1) u sql).log := by
      intro u hu
      rw [serveRequests_succ]
      split
      · have hrest : Steps (u.tryOneRequest c (sql.headD {})).1 _ :=
          (serveRequests_steps fuel sql.tail (tryOneRequest_steps hu rfl).2).1.steps
        exact hrest.log_grows
      · exact List.prefix_refl _
    have hr' := hst.wantRead hr
    obtain ⟨htry, hsame⟩ := hst.tryOneRequest (sql.headD {}) hr (h.earlier (hlog s hr) (hlog t hr'))
    rw [serveRequests_succ, serveRequests_succ, hsame] at h ⊢
    split
    · rename_i hserved
      rw [if_pos hserved, if_pos hserved] at h
      exact ih htry sql.tail (tryOneRequest_steps hr rfl).2 h
    · exact htry

theorem setConnectionState_log_grows (s : Server) (c : Nat) (next : ConnState) :
    s.log <+: (s.setConnectionState c next).log := by
  cases next with
  | reading => exact List.prefix_append _ _
  | writing => exact List.prefix_append _ _
  | closing => exact List.prefix_refl _

theorem Lockstep.handleReadConnection (hst : Lockstep (.boot capacity listenfd db) a b s t)
    {script script' : Script} (hreads : List.Forall₂ (AlikeRead (c = a)) script.reads script'.reads)
    (hsql : script'.sql = script.sql) (hr : hasFlag (s.slot c).flags .wantRead = true)
    (h : SameButContents a b pairs tail (s.handleReadConnection c script)
      (t.handleReadConnection c script')) :
    Alike a b (s.handleReadConnection c script) (t.handleReadConnection c script') := by
  have hr' := hst.wantRead hr
  have hread := hst.alike.readAvailable c hreads
  cases hs : s.readAvailable c script.reads with
  | mk s₁ drained =>
    cases ht : t.readAvailable c script'.reads with
    | mk t₁ drained' =>
      obtain ⟨hsteps, hr₁, _⟩ := readAvailable_steps hr hs
      obtain ⟨hsteps', hr₁', _⟩ := readAvailable_steps hr' ht
      rw [hs, ht] at hread
      obtain ⟨hread, hdrained⟩ := hread
      change drained' = drained at hdrained
      subst drained'
      have hlen : (t₁.connManager.incomingBuffers c).length =
          (s₁.connManager.incomingBuffers c).length := (hread.slot c).incoming.1
      simp only [Server.handleReadConnection, hs, ht, hsql, hlen] at h ⊢
      cases drained with
      | false => exact hread
      | true =>
        simp only [Bool.not_true, Bool.false_eq_true, ↓reduceIte] at h ⊢
        set fuel := (s₁.connManager.incomingBuffers c).length + 1
        have hst₁ : Lockstep (.boot capacity listenfd db) a b s₁ t₁ :=
          ⟨hread, hst.left.trans hsteps.steps, hst.right.trans hsteps'.steps⟩
        -- Entering the writing state comes behind the requests in the history.
        have hlog : ∀ u : Server, u.log <+: (if (u.connManager.outgoingBuffers c).length > 0 then
            u.setConnectionState c .writing else u).log := by
          intro u
          split
          · exact setConnectionState_log_grows u c .writing
          · exact List.prefix_refl _
        have hserved := (hst₁.serveRequests fuel script.sql hr₁ (h.earlier (hlog _) (hlog _))).alike
        have hout := (hserved.slot c).outgoing.1
        rw [Server.outgoing_eq, Server.outgoing_eq, hout]
        split
        · exact hserved.setConnectionState c .writing
        · exact hserved

end Lockstep

/-! ## Inputs of the two runs -/

/-- One event: the same in both runs, up to the contents of what `a` sends. -/
structure AlikeEvent (a : Nat) (ev ev' : Event) : Prop where
  fd : ev'.fd = ev.fd
  epollerr : ev'.epollerr = ev.epollerr
  accepts : ev'.script.accepts = ev.script.accepts
  reads : List.Forall₂ (AlikeRead (ev.fd = a)) ev.script.reads ev'.script.reads
  writes : ev'.script.writes = ev.script.writes
  sql : ev'.script.sql = ev.script.sql

inductive AlikeWait (a : Nat) : Wait → Wait → Prop where
  | ready {events events' : List Event} :
      List.Forall₂ (AlikeEvent a) events events' → AlikeWait a (.ready events) (.ready events')
  | fail : AlikeWait a .fail .fail

theorem AlikeEvent.refl (a : Nat) (ev : Event) : AlikeEvent a ev ev where
  fd := rfl
  epollerr := rfl
  accepts := rfl
  reads := List.forall₂_same.mpr fun rv _ => AlikeRead.refl (ev.fd = a) rv
  writes := rfl
  sql := rfl

theorem AlikeWait.refl (a : Nat) (w : Wait) : AlikeWait a w w := by
  cases w with
  | ready events => exact .ready (List.forall₂_same.mpr fun ev _ => .refl a ev)
  | fail => exact .fail

section Runs

variable {capacity listenfd : Nat} {db : Db} {a b : Nat} {pairs : List (Bytes × Bytes)}
  {tail : Bytes} {s t : Server} {ev ev' : Event}

theorem Lockstep.readStage (hst : Lockstep (.boot capacity listenfd db) a b s t)
    (hev : AlikeEvent a ev ev')
    (h : SameButContents a b pairs tail (s.readStage ev) (t.readStage ev')) :
    Alike a b (s.readStage ev) (t.readStage ev') := by
  have hflag := hst.alike.hasFlag_eq ev.fd .wantRead
  unfold Server.readStage at h ⊢
  rw [hev.fd, hflag] at h ⊢
  split
  · rename_i hr
    rw [if_pos hr, if_pos hr] at h
    exact hst.handleReadConnection hev.reads hev.sql hr h
  · exact hst.alike

theorem Alike.writeStage (h : Alike a b s t) (hev : AlikeEvent a ev ev') :
    Alike a b (s.writeStage ev) (t.writeStage ev') := by
  unfold Server.writeStage
  rw [hev.fd, h.hasFlag_eq ev.fd .wantWrite, hev.writes]
  split
  · exact h.handleWriteConnection ev.fd ev.script.writes
  · exact h

theorem Alike.closeStage (h : Alike a b s t) (hev : AlikeEvent a ev ev') :
    Alike a b (s.closeStage ev) (t.closeStage ev') := by
  unfold Server.closeStage
  rw [hev.fd, hev.epollerr, h.status, h.hasFlag_eq ev.fd .wantClose]
  split
  · exact h.removeConnection ev.fd
  · exact h

theorem Lockstep.handleConnection (hst : Lockstep (.boot capacity listenfd db) a b s t)
    (hev : AlikeEvent a ev ev')
    (h : SameButContents a b pairs tail (s.handleConnection ev) (t.handleConnection ev')) :
    Alike a b (s.handleConnection ev) (t.handleConnection ev') := by
  have hlog : ∀ (u : Server) (ev : Event), u.log <+: ((u.writeStage ev).closeStage ev).log := by
    intro u ev
    have hwrite := (writeStage_steps u ev).steps
    have hclose := (closeStage_steps (u.writeStage ev) ev).steps
    exact hwrite.log_grows.trans hclose.log_grows
  have hread := hst.readStage hev (h.earlier (hlog _ ev) (hlog _ ev'))
  exact (hread.writeStage hev).closeStage hev

theorem Lockstep.handleEvent (hst : Lockstep (.boot capacity listenfd db) a b s t)
    (hev : AlikeEvent a ev ev')
    (h : SameButContents a b pairs tail (s.handleEvent ev) (t.handleEvent ev')) :
    Alike a b (s.handleEvent ev) (t.handleEvent ev') := by
  unfold Server.handleEvent at h ⊢
  rw [hst.alike.status, hst.alike.listenfd, hev.fd, hev.epollerr, hev.accepts] at h ⊢
  split_ifs at h ⊢
  · exact hst.alike
  · exact hst.alike.setStatus _
  · exact hst.alike.acceptAllConnections _
  · exact hst.alike.setStatus _
  · exact hst.alike
  · exact hst.handleConnection hev h

/-- What keeps the runs alike over one input, keeps them alike over a list of them. -/
theorem Lockstep.foldl {β : Type*} {f : Server → β → Server} {R : β → β → Prop}
    (hsteps : ∀ s x, Steps s (f s x))
    (hf : ∀ {s t x y}, Lockstep (.boot capacity listenfd db) a b s t → R x y →
      SameButContents a b pairs tail (f s x) (f t y) → Alike a b (f s x) (f t y))
    {xs ys : List β} (hxs : List.Forall₂ R xs ys)
    (hst : Lockstep (.boot capacity listenfd db) a b s t)
    (h : SameButContents a b pairs tail (xs.foldl f s) (ys.foldl f t)) :
    Alike a b (xs.foldl f s) (ys.foldl f t) := by
  have hlog : ∀ (xs : List β) (s : Server), Steps s (xs.foldl f s) := by
    intro xs
    induction xs with
    | nil => exact fun _ => .refl
    | cons x xs ih => exact fun s => (hsteps s x).trans (ih _)
  induction hxs generalizing s t with
  | nil => exact hst.alike
  | @cons x y xs ys hxy _ ih =>
    have halike := hf hst hxy (h.earlier (hlog xs _).log_grows (hlog ys _).log_grows)
    exact ih ⟨halike, hst.left.trans (hsteps s x), hst.right.trans (hsteps t y)⟩ h

theorem Lockstep.iterate (hst : Lockstep (.boot capacity listenfd db) a b s t) {w w' : Wait}
    (hw : AlikeWait a w w') (h : SameButContents a b pairs tail (s.iterate w) (t.iterate w')) :
    Alike a b (s.iterate w) (t.iterate w') := by
  cases hw with
  | ready hevents =>
    exact hst.foldl handleEvent_steps (fun hst hev h => hst.handleEvent hev h) hevents h
  | fail =>
    show Alike a b (if s.status = .running then s.setStatus (.exited (-1)) else s)
      (if t.status = .running then t.setStatus (.exited (-1)) else t)
    rw [hst.alike.status]
    split
    · exact hst.alike.setStatus _
    · exact hst.alike

/-- The state after some rounds of the loop. -/
def Server.after (s : Server) (inputs : List Wait) : Server := inputs.foldl Server.iterate s

theorem after_steps (s : Server) (inputs : List Wait) : Steps s (s.after inputs) := by
  induction inputs generalizing s with
  | nil => exact .refl
  | cons w inputs ih => exact (iterate_steps s w).trans (ih _)

/-- What third parties have been sent, the user table, and who is connected as whom, are the
same in the two states. -/
structure Indistinguishable (a b : Nat) (s t : Server) : Prop where
  emitted : ∀ j, j ≠ a → j ≠ b → t.emitted j = s.emitted j
  db : t.db = s.db
  flags : ∀ j, (t.slot j).flags = (s.slot j).flags
  userId : ∀ j, (t.slot j).userId = (s.slot j).userId
  username : ∀ j, (t.slot j).username = (s.slot j).username

theorem Alike.indistinguishable (h : Alike a b s t) : Indistinguishable a b s t where
  emitted _ ha hb := h.emitted ha hb
  db := h.db
  flags j := (h.slot j).flags
  userId j := (h.slot j).userId
  username j := (h.slot j).username

/-- **Privacy of P2P messages.** Two runs receive the same inputs, except that P2P requests of
`a` for `b` have other contents of the same length. After each round of the loop, however many
events it has, every connection other than `a` and `b` has been sent the same bytes in both,
and the user table and the flags, user ids and usernames of all slots are the same. -/
theorem p2p_privacy {inputs inputs' : List Wait}
    (hinputs : List.Forall₂ (AlikeWait a) inputs inputs')
    (h : SameButContents a b pairs tail ((Server.boot capacity listenfd db).after inputs)
      ((Server.boot capacity listenfd db).after inputs')) (k : Nat) :
    Indistinguishable a b ((Server.boot capacity listenfd db).after (inputs.take k))
      ((Server.boot capacity listenfd db).after (inputs'.take k)) := by
  have hlog : ∀ ws : List Wait, ((Server.boot capacity listenfd db).after (ws.take k)).log <+:
      ((Server.boot capacity listenfd db).after ws).log := by
    intro ws
    have hrest : Steps ((Server.boot capacity listenfd db).after (ws.take k)) _ :=
      after_steps _ (ws.drop k)
    have hwhole : (Server.boot capacity listenfd db).after ws =
        ((Server.boot capacity listenfd db).after (ws.take k)).after (ws.drop k) := by
      rw [Server.after, Server.after, Server.after, ← List.foldl_append, List.take_append_drop]
    rw [hwhole]
    exact hrest.log_grows
  have hboot : Lockstep (.boot capacity listenfd db) a b (.boot capacity listenfd db)
      (.boot capacity listenfd db) := ⟨.refl a b _, .refl, .refl⟩
  have halike : Alike a b ((Server.boot capacity listenfd db).after (inputs.take k))
      ((Server.boot capacity listenfd db).after (inputs'.take k)) :=
    hboot.foldl iterate_steps (fun hst hw h => hst.iterate hw h) (List.forall₂_take k hinputs)
      (h.earlier (hlog inputs) (hlog inputs'))
  exact halike.indistinguishable

end Runs

/-- A P2P broadcast of "yo" to "b". -/
def yoFrame : Bytes := [1, 2, 0, 0, 0, 0, 12, 5, 0, 9, 1, 120, 10, 1, 98, 11, 2, 121, 111]

/-- "c" signs in on connection 7; "a" sends this frame on connection 5, and then says "hi" to the
world. -/
def thirdPresent (frame : Bytes) : List Wait :=
  [twoSignedIn, .ready
    [⟨3, false, { accepts := [.conn 7 true true] }⟩,
      ⟨7, false, { reads := [.bytes (credentialFrames 99)] }⟩,
      ⟨5, false, { reads := [.bytes (frame ++ hiFrame)] }⟩]]

theorem p2pTwins_yoFrame : P2pTwins (p2pFrame 98) yoFrame where
  length := rfl
  header := rfl
  chat := rfl
  tag := rfl
  tag' := rfl
  parses := ⟨⟨[120], [98], [104, 105]⟩, [121, 111], by decide +kernel, by decide, by decide +kernel,
    by decide, rfl⟩

theorem sameButContents_thirdPresent :
    SameButContents 5 6
      [((credentialFrames 97).take 13, (credentialFrames 97).take 13),
        ((credentialFrames 97).drop 13, (credentialFrames 97).drop 13),
        (p2pFrame 98, yoFrame), (hiFrame, hiFrame)] []
      ((Server.boot 8 3 .empty).after (thirdPresent (p2pFrame 98)))
      ((Server.boot 8 3 .empty).after (thirdPresent yoFrame)) where
  left := by decide +kernel
  right := by decide +kernel
  frames := by
    intro p hp
    simp only [List.mem_cons, List.not_mem_nil, or_false] at hp
    rcases hp with rfl | rfl | rfl | rfl
    · exact ⟨by decide +kernel, .inl rfl⟩
    · exact ⟨by decide +kernel, .inl rfl⟩
    · exact ⟨by decide +kernel, .inr p2pTwins_yoFrame⟩
    · exact ⟨by decide +kernel, .inl rfl⟩
  stuck := by
    intro n hn
    cases hn
  resolved := by decide +kernel

/-- "hi" or "yo" to "b" is all the same to "c", who hears the "hi" to the world. -/
theorem p2p_privacy_third :
    let s := (Server.boot 8 3 .empty).after (thirdPresent (p2pFrame 98))
    let t := (Server.boot 8 3 .empty).after (thirdPresent yoFrame)
    s.emitted 7 ≠ [] ∧ t.emitted 6 ≠ s.emitted 6 ∧ Indistinguishable 5 6 s t := by
  intro s t
  have hsaid : AlikeEvent 5 ⟨5, false, { reads := [.bytes (p2pFrame 98 ++ hiFrame)] }⟩
      ⟨5, false, { reads := [.bytes (yoFrame ++ hiFrame)] }⟩ := by
    refine ⟨rfl, rfl, rfl, .cons (.bytes ⟨rfl, fun h => absurd rfl h⟩) .nil, rfl, rfl⟩
  have hinputs : List.Forall₂ (AlikeWait 5) (thirdPresent (p2pFrame 98)) (thirdPresent yoFrame) := by
    apply List.Forall₂.cons (.refl 5 _)
    apply List.Forall₂.cons _ .nil
    exact .ready (.cons (.refl 5 _) (.cons (.refl 5 _) (.cons hsaid .nil)))
  exact ⟨by decide +kernel, by decide +kernel, p2p_privacy hinputs sameButContents_thirdPresent 2⟩

end ChatServer
