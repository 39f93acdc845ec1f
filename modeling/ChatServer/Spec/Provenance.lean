import Mathlib.Data.List.Forall2
import Mathlib.Data.List.Induction
import Mathlib.Data.List.Nodup
import ChatServer.Spec.Chat

/-!
# Where a post comes from

A mailbox is explained by the events of the run: each of its posts was put there by an event of
its own, in their order, and every request of the owner put one there. A broadcast was asked
for on a connection where, before it, someone had logged in with the key of an account of the
name shown.
-/

namespace Chat

section Machine

variable {Conn Name Key Text Why : Type*} [DecidableEq Conn]

/-- Who asked, if the event is a request. -/
def Event.requester : Event Conn Name Key Text Why → Option Conn
  | .connect _ => none
  | .leave _ => none
  | .refuse c _ => some c
  | .register c _ _ => some c
  | .login c _ _ => some c
  | .toAll c _ => some c
  | .toOne c _ _ => some c

/-- Among the events is a login on the connection, with a matching name and the key of the
account. -/
def Proved (R : Rules Name Key) (events : List (Event Conn Name Key Text Why)) (c : Conn)
    (a : Account Name Key) : Prop :=
  ∃ name, .login c name a.key ∈ events ∧ State.Matches R name a

/-- An account of this name was proved on the connection. -/
def ProvedName (R : Rules Name Key) (accounts : List (Account Name Key))
    (events : List (Event Conn Name Key Text Why)) (c : Conn) (name : Name) : Prop :=
  ∃ a ∈ accounts, a.name = name ∧ Proved R events c a

/-- The event, behind these, puts the post into the mailbox. -/
inductive Cause (R : Rules Name Key) (accounts : List (Account Name Key))
    (events : List (Event Conn Name Key Text Why)) (d : Conn) :
    Event Conn Name Key Text Why → Post Name Text Why → Prop where
  | refuse (why) : Cause R accounts events d (.refuse d why) (.refused why)
  | register (name key k) : accounts[k]? = some ⟨R.keepName name, R.keepKey key⟩ →
      Cause R accounts events d (.register d name key) (.registered (k + 1) name)
  | login (name k a) : accounts[k]? = some a → State.Matches R name a →
      Cause R accounts events d (.login d name a.key) (.welcome (k + 1) a.name)
  | toAll (c sender text) : ProvedName R accounts events c sender →
      (∃ name, ProvedName R accounts events d name) →
      Cause R accounts events d (.toAll c text) (.toAll sender text)
  | toOne (c sender recipient text) : ProvedName R accounts events c sender →
      d = c ∨ ProvedName R accounts events d recipient → sender ≠ recipient →
      Cause R accounts events d (.toOne c recipient text) (.toOne sender recipient text)

/-- The last that happened on the connection, but for its other requests, is a login. -/
def Online (events : List (Event Conn Name Key Text Why)) (d : Conn) : Prop :=
  ∃ before name key after, events = before ++ .login d name key :: after ∧
    .connect d ∉ after ∧ .leave d ∉ after

/-- Somebody has connected, and not left. -/
def Connected (events : List (Event Conn Name Key Text Why)) (d : Conn) : Prop :=
  ∃ before after, events = before ++ .connect d :: after ∧ .leave d ∉ after

/-- The event is a request of the connection, or a broadcast to all while a member is on it. -/
def Concerns (events : List (Event Conn Name Key Text Why)) (d : Conn)
    (e : Event Conn Name Key Text Why) : Prop :=
  e.requester = some d ∨ (∃ c text, e = .toAll c text) ∧ Online events d

section Mono

variable {R : Rules Name Key} {accounts accounts' : List (Account Name Key)}
  {events events' : List (Event Conn Name Key Text Why)} {c d : Conn} {name : Name}
  {a : Account Name Key} {e : Event Conn Name Key Text Why} {p : Post Name Text Why}

omit [DecidableEq Conn]

theorem not_concerns (he : e.requester ≠ some d) (hno : ∀ c text, e ≠ .toAll c text) :
    ¬ Concerns events d e := by
  rintro (h | ⟨⟨c, text, h⟩, _⟩)
  · exact he h
  · exact hno c text h

theorem Proved.mono (h : Proved R events c a) (he : events ⊆ events') : Proved R events' c a := by
  obtain ⟨name, hlogin, hmatch⟩ := h
  exact ⟨name, he hlogin, hmatch⟩

theorem ProvedName.mono (h : ProvedName R accounts events c name) (ha : accounts ⊆ accounts')
    (he : events ⊆ events') : ProvedName R accounts' events' c name := by
  obtain ⟨a, hmem, hname, hproved⟩ := h
  exact ⟨a, ha hmem, hname, hproved.mono he⟩

theorem Cause.mono (h : Cause R accounts events d e p) (ha : accounts <+: accounts') :
    Cause R accounts' events d e p := by
  cases h with
  | refuse why => exact .refuse why
  | register name key k hk => exact .register name key k (getElem?_of_grow ha hk)
  | login name k a hk hm => exact .login name k a (getElem?_of_grow ha hk) hm
  | toAll c sender text hc hd =>
    obtain ⟨name, hname⟩ := hd
    exact .toAll c sender text (hc.mono ha.subset (List.Subset.refl _))
      ⟨name, hname.mono ha.subset (List.Subset.refl _)⟩
  | toOne c sender recipient text hc hd hne =>
    exact .toOne c sender recipient text (hc.mono ha.subset (List.Subset.refl _))
      (hd.imp_right fun h => h.mono ha.subset (List.Subset.refl _)) hne

/-- The last of the events, or an earlier one. -/
theorem concat_eq_append_cons {before after : List (Event Conn Name Key Text Why)}
    {e' : Event Conn Name Key Text Why} (h : events ++ [e] = before ++ e' :: after) :
    e = e' ∧ after = [] ∨ ∃ later, after = later ++ [e] ∧ events = before ++ e' :: later := by
  obtain rfl | ⟨later, e'', rfl⟩ := after.eq_nil_or_concat
  · obtain ⟨_, hlast⟩ := List.append_inj' h rfl
    exact .inl ⟨List.singleton_inj.mp hlast, rfl⟩
  · rw [List.concat_eq_append, ← List.cons_append, ← List.append_assoc] at h
    obtain ⟨hevents, hlast⟩ := List.append_inj' h rfl
    cases List.singleton_inj.mp hlast
    exact .inr ⟨later, List.concat_eq_append, hevents⟩

/-- What one event does to being online. -/
theorem online_snoc : Online (events ++ [e]) d ↔
    (∃ name key, e = .login d name key) ∨ Online events d ∧ e ≠ .connect d ∧ e ≠ .leave d := by
  constructor
  · rintro ⟨before, name, key, after, heq, hconnect, hleave⟩
    obtain ⟨rfl, _⟩ | ⟨later, rfl, hevents⟩ := concat_eq_append_cons heq
    · exact .inl ⟨name, key, rfl⟩
    · simp only [List.mem_append, List.mem_singleton, not_or] at hconnect hleave
      exact .inr ⟨⟨before, name, key, later, hevents, hconnect.1, hleave.1⟩, Ne.symm hconnect.2,
        Ne.symm hleave.2⟩
  · rintro (⟨name, key, rfl⟩ | ⟨⟨before, name, key, after, rfl, hconnect, hleave⟩, hne, hne'⟩)
    · exact ⟨events, name, key, [], rfl, List.not_mem_nil, List.not_mem_nil⟩
    · refine ⟨before, name, key, after ++ [e], by simp, ?_, ?_⟩
      · simpa [hconnect] using Ne.symm hne
      · simpa [hleave] using Ne.symm hne'

theorem connected_snoc : Connected (events ++ [e]) d ↔
    e = .connect d ∨ Connected events d ∧ e ≠ .leave d := by
  constructor
  · rintro ⟨before, after, heq, hleave⟩
    obtain ⟨rfl, _⟩ | ⟨later, rfl, hevents⟩ := concat_eq_append_cons heq
    · exact .inl rfl
    · simp only [List.mem_append, List.mem_singleton, not_or] at hleave
      exact .inr ⟨⟨before, later, hevents, hleave.1⟩, Ne.symm hleave.2⟩
  · rintro (rfl | ⟨⟨before, after, rfl, hleave⟩, hne⟩)
    · exact ⟨events, [], rfl, List.not_mem_nil⟩
    · exact ⟨before, after ++ [e], by simp, by simpa [hleave] using Ne.symm hne⟩

end Mono

/-! ## One cause for each post -/

section Causes

variable {R : Rules Name Key} {accounts : List (Account Name Key)} {c d : Conn}
  {events : List (Event Conn Name Key Text Why)} {e : Event Conn Name Key Text Why}
  {p : Post Name Text Why} {causes : List (Conn × Nat)}

/-- What the connection asked for. -/
def requestsOf (d : Conn) (events : List (Event Conn Name Key Text Why)) :
    List (Event Conn Name Key Text Why) :=
  events.filter fun e => e.requester = some d

theorem requestsOf_snoc (he : e.requester = some c) :
    requestsOf d (events ++ [e]) = requestsOf d events ++ if c = d then [e] else [] := by
  rw [requestsOf, List.filter_append, List.filter_singleton, he]
  by_cases hc : c = d
  · simp [requestsOf, hc]
  · simp [requestsOf, hc]

theorem requestsOf_skip (he : e.requester ≠ some d) :
    requestsOf d (events ++ [e]) = requestsOf d events := by
  simp [requestsOf, he]

/-- The places of the requests of one connection, among requests given by connection and place. -/
def placesOf (c : Conn) (causes : List (Conn × Nat)) : List Nat :=
  (causes.filter fun x => x.1 = c).map Prod.snd

theorem placesOf_snoc (k : Nat) :
    placesOf d (causes ++ [(c, k)]) = placesOf d causes ++ if c = d then [k] else [] := by
  rw [placesOf, List.filter_append, List.filter_singleton]
  by_cases hc : c = d
  · simp [placesOf, hc]
  · simp [placesOf, hc]

/-- The requests in the order of the run, each by its connection and its place there. -/
def serving (events : List (Event Conn Name Key Text Why)) : List (Conn × Nat) :=
  events.foldl (fun order e => match e.requester with
    | none => order
    | some c => order ++ [(c, (placesOf c order).length)]) []

theorem serving_concat : serving (events ++ [e]) = match e.requester with
    | none => serving events
    | some c => serving events ++ [(c, (placesOf c (serving events)).length)] := by
  rw [serving, List.foldl_append]
  rfl

/-- The places of a connection are counted without a gap. -/
theorem placesOf_serving : placesOf d (serving events) =
    List.range (requestsOf d events).length := by
  induction events using List.reverseRecOn with
  | nil => rfl
  | append_singleton events e ih =>
    rw [serving_concat]
    cases he : e.requester with
    | none => rw [requestsOf_skip (by simp [he]), ih]
    | some c =>
      rw [requestsOf_snoc he]
      simp only [placesOf_snoc]
      split
      · rename_i hc
        subst hc
        rw [ih, List.length_append, List.length_range, List.length_singleton, List.range_succ]
      · rw [List.append_nil, List.append_nil, ih]

theorem serving_snoc (he : e.requester = some c) :
    serving (events ++ [e]) = serving events ++ [(c, (requestsOf c events).length)] := by
  rw [serving_concat, he]
  simp only [placesOf_serving, List.length_range]

/-- The next place of a connection is a new one. -/
theorem not_mem_serving : (c, (requestsOf c events).length) ∉ serving events := by
  intro hmem
  have hplace : (requestsOf c events).length ∈ placesOf c (serving events) :=
    List.mem_map.mpr ⟨_, List.mem_filter.mpr ⟨hmem, decide_eq_true rfl⟩, rfl⟩
  rw [placesOf_serving, List.mem_range] at hplace
  exact Nat.lt_irrefl _ hplace

/-- No request stands in the order twice. -/
theorem serving_nodup : (serving events).Nodup := by
  induction events using List.reverseRecOn with
  | nil => exact .nil
  | append_singleton events e ih =>
    cases he : e.requester with
    | none =>
      rw [serving_concat, he]
      exact ih
    | some c =>
      rw [serving_snoc he]
      exact List.Nodup.append ih (List.nodup_singleton _)
        (List.disjoint_singleton.mpr not_mem_serving)

theorem serving_grows : serving events <+: serving (events ++ [e]) := by
  rw [serving_concat]
  split
  · exact List.prefix_rfl
  · exact List.prefix_append _ _

omit [DecidableEq Conn] in
/-- The last of the events, or an earlier one. -/
theorem prefix_snoc {before : List (Event Conn Name Key Text Why)}
    {e' : Event Conn Name Key Text Why} (h : before ++ [e'] <+: events ++ [e]) :
    before = events ∧ e' = e ∨ before ++ [e'] <+: events := by
  obtain heq | h := List.prefix_concat_iff.mp h
  · obtain ⟨hbefore, hlast⟩ := List.append_inj' heq rfl
    exact .inl ⟨hbefore, List.singleton_inj.mp hlast⟩
  · exact .inr h

/-- These are some of the requests, in the order of the run: all those of `d`, and whatever else
concerns it. -/
structure InOrder (d : Conn) (events : List (Event Conn Name Key Text Why))
    (causes : List (Conn × Nat)) : Prop where
  order : causes.Sublist (serving events)
  own : placesOf d causes = placesOf d (serving events)
  all : ∀ before e c, before ++ [e] <+: events → e.requester = some c → Concerns before d e →
    (c, (requestsOf c before).length) ∈ causes

theorem InOrder.skip (h : InOrder d events causes) (hno : ¬ Concerns events d e) :
    InOrder d (events ++ [e]) causes := by
  refine ⟨h.order.trans serving_grows.sublist, ?_, fun before e' c hb he' hc => ?_⟩
  · rw [placesOf_serving, requestsOf_skip fun he => hno (.inl he), ← placesOf_serving]
    exact h.own
  · obtain ⟨rfl, rfl⟩ | hb := prefix_snoc hb
    · exact absurd hc hno
    · exact h.all before e' c hb he' hc

theorem InOrder.snoc (h : InOrder d events causes) (he : e.requester = some c) :
    InOrder d (events ++ [e]) (causes ++ [(c, (requestsOf c events).length)]) := by
  have hserving := @serving_snoc _ _ _ _ _ _ c events e he
  refine ⟨?_, ?_, fun before e' c' hb he' hc => ?_⟩
  · rw [hserving]
    exact h.order.append (List.Sublist.refl _)
  · rw [hserving, placesOf_snoc, placesOf_snoc, h.own]
  · obtain ⟨rfl, rfl⟩ | hb := prefix_snoc hb
    · cases he.symm.trans he'
      exact List.mem_append_right _ (List.mem_singleton_self _)
    · exact List.mem_append_left _ (h.all before e' c' hb he' hc)

/-- The request with this place puts the post into the mailbox. -/
def CausedBy (R : Rules Name Key) (accounts : List (Account Name Key)) (d : Conn)
    (events : List (Event Conn Name Key Text Why)) (x : Conn × Nat) (p : Post Name Text Why) :
    Prop :=
  ∃ before e, before ++ [e] <+: events ∧ e.requester = some x.1 ∧
    x.2 = (requestsOf x.1 before).length ∧ Cause R accounts before d e p

theorem CausedBy.mono {accounts' : List (Account Name Key)} {x : Conn × Nat}
    (h : CausedBy R accounts d events x p) (ha : accounts <+: accounts') :
    CausedBy R accounts' d (events ++ [e]) x p := by
  obtain ⟨before, e', hb, hreq, hplace, hcause⟩ := h
  exact ⟨before, e', hb.trans (List.prefix_append _ _), hreq, hplace, hcause.mono ha⟩

/-- Each post of each mailbox has a request of its own that caused it; and a direct message is in
two mailboxes, that of whoever asked and that of one who had proved to be the recipient. -/
structure Ledger (R : Rules Name Key) (accounts : List (Account Name Key))
    (events : List (Event Conn Name Key Text Why)) (mailbox : Conn → List (Post Name Text Why))
    (causes : Conn → List (Conn × Nat)) : Prop where
  caused : ∀ d, List.Forall₂ (CausedBy R accounts d events) (causes d) (mailbox d)
  inOrder : ∀ d, InOrder d events (causes d)
  direct : ∀ before c recipient text, before ++ [.toOne c recipient text] <+: events →
    ∃ d, d ≠ c ∧ Online before d ∧ ProvedName R accounts before d recipient ∧
      ∀ i, (c, (requestsOf c before).length) ∈ causes i ↔ i = c ∨ i = d

omit [DecidableEq Conn] in
/-- The event puts the post into these mailboxes: into all those it concerns, and into those that
the post is meant for. -/
structure Delivers (R : Rules Name Key) (accounts : List (Account Name Key))
    (events : List (Event Conn Name Key Text Why)) (e : Event Conn Name Key Text Why)
    (dests : Set Conn) (p : Post Name Text Why) : Prop where
  cause : ∀ d ∈ dests, Cause R accounts events d e p
  concerns : ∀ d, d ∉ dests → ¬ Concerns events d e
  direct : ∀ c recipient text, e = .toOne c recipient text → ∃ d, d ≠ c ∧ Online events d ∧
    ProvedName R accounts events d recipient ∧ ∀ i, i ∈ dests ↔ i = c ∨ i = d

end Causes

/-! ## Runs -/

section Runs

variable {R : Rules Name Key} {careful : Prop} {st st' : State Conn Name Key Text Why}
  {e : Event Conn Name Key Text Why} {events : List (Event Conn Name Key Text Why)}

/-- What one step does to the session on a connection. -/
theorem Step.session (h : Step R careful st e st') (c : Conn) :
    e = .connect c ∧ st'.session c = .guest ∨ e = .leave c ∧ st'.session c = .absent ∨
    (∃ name k a, e = .login c name a.key ∧ st.session c ≠ .absent ∧ st.accounts[k]? = some a ∧
      State.Matches R name a ∧ st'.session c = .member k) ∨
    st'.session c = st.session c ∧ e ≠ .connect c ∧ e ≠ .leave c ∧
      ∀ name key, e ≠ .login c name key := by
  cases h with
  | connect d =>
    by_cases hc : c = d
    · subst hc
      exact .inl ⟨rfl, Function.update_self _ _ _⟩
    · exact .inr (.inr (.inr ⟨Function.update_of_ne hc _ _, by simp [Ne.symm hc], by simp,
        by simp⟩))
  | leave d =>
    by_cases hc : c = d
    · subst hc
      exact .inr (.inl ⟨rfl, Function.update_self _ _ _⟩)
    · exact .inr (.inr (.inr ⟨Function.update_of_ne hc _ _, by simp, by simp [Ne.symm hc],
        by simp⟩))
  | login d name key k a hd hk hm hkey _ =>
    subst hkey
    by_cases hc : c = d
    · subst hc
      exact .inr (.inr (.inl ⟨name, k, a, rfl, hd, hk, hm, Function.update_self _ _ _⟩))
    · exact .inr (.inr (.inr ⟨Function.update_of_ne hc _ _, by simp, by simp,
        by simp [Ne.symm hc]⟩))
  | _ => exact .inr (.inr (.inr ⟨rfl, by simp, by simp, by simp⟩))

/-- Sessions and mailboxes are explained by the events. -/
structure Explained (R : Rules Name Key) (st : State Conn Name Key Text Why)
    (events : List (Event Conn Name Key Text Why)) : Prop where
  member : ∀ c k, st.session c = .member k → ∃ a, st.accounts[k]? = some a ∧ Proved R events c a
  online : ∀ c, Online events c ↔ ∃ k, st.session c = .member k
  connected : ∀ c, Connected events c ↔ st.session c ≠ .absent
  ledger : ∃ causes, Ledger R st.accounts events st.mailbox causes

theorem explained_start (accounts : List (Account Name Key)) :
    Explained R (start accounts : State Conn Name Key Text Why) [] where
  member _ _ h := by cases h
  online c := by
    constructor
    · rintro ⟨before, name, key, after, heq, _⟩
      exact absurd heq (by simp)
    · rintro ⟨k, hk⟩
      cases hk
  connected c := by
    constructor
    · rintro ⟨before, after, heq, _⟩
      exact absurd heq (by simp)
    · exact fun h => absurd rfl h
  ledger := ⟨fun _ => [], fun _ => .nil, fun _ => ⟨List.Sublist.refl _, rfl,
    fun _ _ _ hb => absurd hb (by simp)⟩, fun _ _ _ _ hb => absurd hb (by simp)⟩

theorem State.IsNamed.proved {c : Conn} {name : Name} (h : st.IsNamed c name)
    (hst : Explained R st events) : ProvedName R st.accounts events c name := by
  obtain ⟨k, a, hc, hk, hname⟩ := h
  obtain ⟨a', hk', hproved⟩ := hst.member c k hc
  rw [hk] at hk'
  cases hk'
  exact ⟨a, List.mem_of_getElem? hk, hname, hproved⟩

theorem Step.member (h : Step R careful st e st') (hst : Explained R st events) (c : Conn) (k : Nat)
    (hc : st'.session c = .member k) :
    ∃ a, st'.accounts[k]? = some a ∧ Proved R (events ++ [e]) c a := by
  obtain ⟨_, hs⟩ | ⟨_, hs⟩ | ⟨name, j, a, he, _, hj, hm, hs⟩ | ⟨hs, _⟩ := h.session c
  · rw [hs] at hc
    cases hc
  · rw [hs] at hc
    cases hc
  · rw [hs] at hc
    cases hc
    exact ⟨a, getElem?_of_grow h.accounts_grow hj, name, by simp [he], hm⟩
  · obtain ⟨a, hk, hproved⟩ := hst.member c k (hs.symm.trans hc)
    exact ⟨a, getElem?_of_grow h.accounts_grow hk, hproved.mono (List.subset_append_left _ _)⟩

theorem Step.online (h : Step R careful st e st') (hst : Explained R st events) (c : Conn) :
    Online (events ++ [e]) c ↔ ∃ k, st'.session c = .member k := by
  rw [online_snoc, hst.online c]
  obtain ⟨rfl, hs⟩ | ⟨rfl, hs⟩ | ⟨name, k, a, rfl, _, _, _, hs⟩ | ⟨hs, hconnect, hleave, hlogin⟩ :=
    h.session c
  · simp [hs]
  · simp [hs]
  · simp [hs]
  · simp [hs, hconnect, hleave, hlogin]

theorem Step.connected (h : Step R careful st e st') (hst : Explained R st events) (c : Conn) :
    Connected (events ++ [e]) c ↔ st'.session c ≠ .absent := by
  rw [connected_snoc, hst.connected c]
  obtain ⟨rfl, hs⟩ | ⟨rfl, hs⟩ | ⟨name, k, a, rfl, hc, _, _, hs⟩ | ⟨hs, hconnect, hleave, hlogin⟩ :=
    h.session c
  · simp [hs]
  · simp [hs]
  · simp [hs, hc]
  · simp [hs, hconnect, hleave]

/-- Where the posts of an event go, and why. -/
theorem Step.delivers (h : Step R careful st e st') (hst : Explained R st events) :
    e.requester = none ∧ st'.mailbox = st.mailbox ∨
    ∃ c dests p, e.requester = some c ∧ Delivers R st'.accounts events e dests p ∧
      st'.mailbox = (st.deliver dests p).mailbox := by
  have only : ∀ {c d : Conn}, d ∉ ({c} : Set Conn) → some c ≠ some d := fun hd he =>
    hd (Option.some.inj he).symm
  cases h with
  | connect c => exact .inl ⟨rfl, rfl⟩
  | leave c => exact .inl ⟨rfl, rfl⟩
  | refuse c why =>
    refine .inr ⟨c, {c}, .refused why, rfl, ⟨?_, fun d hd => ?_, by simp⟩, rfl⟩
    · rintro d rfl
      exact .refuse why
    · exact not_concerns (only hd) (by simp)
  | register c name key hc hname hcareful =>
    refine .inr ⟨c, {c}, .registered (st.accounts.length + 1) name, rfl,
      ⟨?_, fun d hd => ?_, by simp⟩, rfl⟩
    · rintro d rfl
      exact .register name key _ List.getElem?_concat_length
    · exact not_concerns (only hd) (by simp)
  | login c name key k a hc hk hm hkey hfirst =>
    subst hkey
    refine .inr ⟨c, {c}, .welcome (k + 1) a.name, rfl, ⟨?_, fun d hd => ?_, by simp⟩, rfl⟩
    · rintro d rfl
      exact .login name k a hk hm
    · exact not_concerns (only hd) (by simp)
  | toAll c sender text hc =>
    refine .inr ⟨c, st.members, .toAll sender text, rfl, ⟨?_, ?_, by simp⟩, rfl⟩
    · rintro d ⟨k, hd⟩
      obtain ⟨a, hk, hproved⟩ := hst.member d k hd
      exact .toAll c sender text (hc.proved hst)
        ⟨a.name, a, List.mem_of_getElem? hk, rfl, hproved⟩
    · rintro d hd (he | ⟨_, hon⟩)
      · obtain ⟨k, _, hk, _⟩ := hc
        cases he
        exact hd ⟨k, hk⟩
      · exact hd ((hst.online d).mp hon)
  | toOne c d sender recipient text hc hd hcd hne =>
    refine .inr ⟨c, {c, d}, .toOne sender recipient text, rfl, ⟨?_, fun i hi => ?_, ?_⟩, rfl⟩
    · rintro i (rfl | rfl)
      · exact .toOne i sender recipient text (hc.proved hst) (.inl rfl) hne
      · exact .toOne c sender recipient text (hc.proved hst) (.inr (hd.proved hst)) hne
    · refine not_concerns (fun he => ?_) (by simp)
      cases he
      exact hi (.inl rfl)
    · intro c' recipient' text' he
      cases he
      have hproved := hd.proved hst
      obtain ⟨k, _, hk, _⟩ := hd
      exact ⟨d, Ne.symm hcd, (hst.online d).mpr ⟨k, hk⟩, hproved, fun i => Iff.rfl⟩

section Ledger

variable {accounts accounts' : List (Account Name Key)} {c : Conn}
  {causes : Conn → List (Conn × Nat)} {dests : Set Conn} {p : Post Name Text Why}

theorem Ledger.pass (h : Ledger R accounts events st.mailbox causes)
    (hgrow : accounts <+: accounts') (he : e.requester = none) :
    Ledger R accounts' (events ++ [e]) st.mailbox causes where
  caused d := (h.caused d).imp fun _ _ hc => hc.mono hgrow
  inOrder d := (h.inOrder d).skip (not_concerns (by simp [he]) fun c text hall => by
    rw [hall] at he
    cases he)
  direct before c recipient text hb := by
    obtain ⟨_, heq⟩ | hb := prefix_snoc hb
    · rw [← heq] at he
      cases he
    · obtain ⟨d, hne, hon, hproved, hall⟩ := h.direct before c recipient text hb
      exact ⟨d, hne, hon, hproved.mono hgrow.subset (List.Subset.refl _), hall⟩

open scoped Classical in
theorem Ledger.post (h : Ledger R accounts events st.mailbox causes)
    (hgrow : accounts <+: accounts') (he : e.requester = some c)
    (hd : Delivers R accounts' events e dests p) :
    Ledger R accounts' (events ++ [e]) (st.deliver dests p).mailbox fun d =>
      causes d ++ if d ∈ dests then [(c, (requestsOf c events).length)] else [] where
  caused d := by
    refine List.rel_append ((h.caused d).imp fun _ _ hc => hc.mono hgrow) ?_
    by_cases hin : d ∈ dests
    · rw [if_pos hin, if_pos hin]
      exact .cons ⟨events, e, List.prefix_rfl, he, rfl, hd.cause d hin⟩ .nil
    · rw [if_neg hin, if_neg hin]
      exact .nil
  inOrder d := by
    by_cases hin : d ∈ dests
    · rw [if_pos hin]
      exact (h.inOrder d).snoc he
    · rw [if_neg hin, List.append_nil]
      exact (h.inOrder d).skip (hd.concerns d hin)
  direct before c' recipient text hb := by
    have hnew : ∀ i, (c, (requestsOf c events).length) ∉ causes i := fun i hi =>
      not_mem_serving ((h.inOrder i).order.subset hi)
    obtain ⟨rfl, rfl⟩ | hb := prefix_snoc hb
    · cases he
      obtain ⟨d, hne, hon, hproved, hdests⟩ := hd.direct c recipient text rfl
      refine ⟨d, hne, hon, hproved, fun i => ?_⟩
      rw [← hdests i, List.mem_append, or_iff_right (hnew i)]
      split <;> simp_all
    · obtain ⟨d, hne, hon, hproved, hall⟩ := h.direct before c' recipient text hb
      refine ⟨d, hne, hon, hproved.mono hgrow.subset (List.Subset.refl _), fun i => ?_⟩
      -- An earlier request has a place that is taken.
      have hold : (c', (requestsOf c' before).length) ≠ (c, (requestsOf c events).length) :=
        fun heq => hnew c' (heq ▸ (hall c').mpr (.inl rfl))
      rw [← hall i, List.mem_append, or_iff_left]
      split
      · simpa using hold
      · exact List.not_mem_nil

end Ledger

theorem Step.ledger (h : Step R careful st e st') (hst : Explained R st events) :
    ∃ causes, Ledger R st'.accounts (events ++ [e]) st'.mailbox causes := by
  obtain ⟨causes, hledger⟩ := hst.ledger
  obtain ⟨he, hmail⟩ | ⟨c, dests, p, he, hd, hmail⟩ := h.delivers hst
  · rw [hmail]
    exact ⟨causes, hledger.pass h.accounts_grow he⟩
  · rw [hmail]
    exact ⟨_, hledger.post h.accounts_grow he hd⟩

theorem Step.explained (h : Step R careful st e st') (hst : Explained R st events) :
    Explained R st' (events ++ [e]) :=
  ⟨h.member hst, h.online hst, h.connected hst, h.ledger hst⟩

theorem Run.explained {accounts : List (Account Name Key)}
    (h : Run R careful (start accounts) events st) : Explained R st events := by
  induction h with
  | nil => exact explained_start accounts
  | snoc _ hs ih => exact hs.explained ih

end Runs

end Machine

end Chat
