import Mathlib.Data.List.Induction
import Mathlib.Data.Set.Basic
import Mathlib.Logic.Function.Basic
import Mathlib.Logic.Relation

/-!
# What a chat service is for

Accounts, sessions and mailboxes, over any types of connections, names, keys and texts. A step
is atomic: a request changes the accounts or one session, and its posts are in the mailboxes at
once. Nothing is said about descriptors, buffers, bytes or the order in which they move.
-/

namespace Chat

/-- What a service stores of a name and of a key, and when two names mean one account: if
`fold` takes what is stored of them to one value. -/
structure Rules (Name Key : Type*) where
  keepName : Name → Name
  keepKey : Key → Key
  fold : Name → Name

structure Account (Name Key : Type*) where
  name : Name
  key : Key

/-- Who is on a connection. A member is the holder of an account, given by its place. -/
inductive Session where
  | absent
  | guest
  | member (k : Nat)
  deriving DecidableEq

/-- What is put into a mailbox. Accounts are numbered from one. -/
inductive Post (Name Text Why : Type*) where
  | refused (why : Why)
  | registered (id : Nat) (name : Name)
  | welcome (id : Nat) (name : Name)
  | toAll (sender : Name) (text : Text)
  | toOne (sender recipient : Name) (text : Text)

structure State (Conn Name Key Text Why : Type*) where
  accounts : List (Account Name Key)
  session : Conn → Session
  mailbox : Conn → List (Post Name Text Why)

section Machine

variable {Conn Name Key Text Why : Type*} [DecidableEq Conn]

/-- The accounts there are at the start; nobody is connected. -/
def start (accounts : List (Account Name Key)) : State Conn Name Key Text Why :=
  ⟨accounts, fun _ => .absent, fun _ => []⟩

namespace State

variable (st : State Conn Name Key Text Why)

/-- The name matches the name of the account. -/
def Matches (R : Rules Name Key) (name : Name) (a : Account Name Key) : Prop :=
  R.fold a.name = R.fold (R.keepName name)

/-- Connections with a member on them. -/
def members : Set Conn := {d | ∃ k, st.session d = .member k}

/-- The member on the connection has this name. -/
def IsNamed (c : Conn) (name : Name) : Prop :=
  ∃ k a, st.session c = .member k ∧ st.accounts[k]? = some a ∧ a.name = name

def setSession (c : Conn) (who : Session) : State Conn Name Key Text Why :=
  { st with session := Function.update st.session c who }

def addAccount (a : Account Name Key) : State Conn Name Key Text Why :=
  { st with accounts := st.accounts ++ [a] }

open scoped Classical in
/-- One post, into the mailboxes of a set of connections. -/
noncomputable def deliver (dests : Set Conn) (p : Post Name Text Why) :
    State Conn Name Key Text Why :=
  { st with mailbox := fun d => st.mailbox d ++ if d ∈ dests then [p] else [] }

end State

/-- What happens: someone connects or leaves, or a request of a connection is granted, or one is
refused. -/
inductive Event (Conn Name Key Text Why : Type*) where
  | connect (c : Conn)
  | leave (c : Conn)
  | refuse (c : Conn) (why : Why)
  | register (c : Conn) (name : Name) (key : Key)
  | login (c : Conn) (name : Name) (key : Key)
  | toAll (c : Conn) (text : Text)
  | toOne (c : Conn) (recipient : Name) (text : Text)

/-- One step of the service. A careful service does not register a name that matches an account;
one that cannot see the accounts may, but not under the very name of one. -/
inductive Step (R : Rules Name Key) (careful : Prop) (st : State Conn Name Key Text Why) :
    Event Conn Name Key Text Why → State Conn Name Key Text Why → Prop where
  | connect (c) : Step R careful st (.connect c) (st.setSession c .guest)
  | leave (c) : Step R careful st (.leave c) (st.setSession c .absent)
  | refuse (c why) : st.session c ≠ .absent →
      Step R careful st (.refuse c why) (st.deliver {c} (.refused why))
  | register (c name key) : st.session c ≠ .absent →
      (∀ a ∈ st.accounts, a.name ≠ R.keepName name) →
      (careful → ∀ a ∈ st.accounts, ¬ State.Matches R name a) →
      Step R careful st (.register c name key)
        ((st.addAccount ⟨R.keepName name, R.keepKey key⟩).deliver {c}
          (.registered (st.accounts.length + 1) name))
  | login (c name key k a) : st.session c ≠ .absent → st.accounts[k]? = some a →
      State.Matches R name a → a.key = key →
      (∀ j < k, ∀ b, st.accounts[j]? = some b → ¬ State.Matches R name b) →
      Step R careful st (.login c name key)
        ((st.setSession c (.member k)).deliver {c} (.welcome (k + 1) a.name))
  | toAll (c sender text) : st.IsNamed c sender →
      Step R careful st (.toAll c text) (st.deliver st.members (.toAll sender text))
  | toOne (c d sender recipient text) : st.IsNamed c sender → st.IsNamed d recipient →
      c ≠ d → sender ≠ recipient →
      Step R careful st (.toOne c recipient text)
        (st.deliver {c, d} (.toOne sender recipient text))

/-- The steps of a run, one for each event. -/
inductive Run (R : Rules Name Key) (careful : Prop) (st : State Conn Name Key Text Why) :
    List (Event Conn Name Key Text Why) → State Conn Name Key Text Why → Prop where
  | nil : Run R careful st [] st
  | snoc {events e st' st''} : Run R careful st events st' → Step R careful st' e st'' →
      Run R careful st (events ++ [e]) st''

/-! ## What every run keeps -/

section Runs

variable {R : Rules Name Key} {careful : Prop} {st st' : State Conn Name Key Text Why}
  {e : Event Conn Name Key Text Why} {events : List (Event Conn Name Key Text Why)}

/-- What one step keeps, a run keeps. -/
theorem Run.preserves {P : State Conn Name Key Text Why → Prop}
    (hstep : ∀ st e st', Step R careful st e st' → P st → P st') (h : Run R careful st events st')
    (hst : P st) : P st' := by
  induction h with
  | nil => exact hst
  | snoc _ hs ih => exact hstep _ _ _ hs ih

/-- Accounts are added at the end, one at most in a step. -/
theorem Step.accounts (h : Step R careful st e st') : st'.accounts = st.accounts ∨
    ∃ a, st'.accounts = st.accounts ++ [a] ∧ (∀ b ∈ st.accounts, b.name ≠ a.name) ∧
      (careful → ∀ b ∈ st.accounts, R.fold b.name ≠ R.fold a.name) := by
  cases h with
  | register c name key _ hname hcareful => exact .inr ⟨_, rfl, hname, hcareful⟩
  | _ => exact .inl rfl

theorem Step.accounts_grow (h : Step R careful st e st') : st.accounts <+: st'.accounts := by
  obtain heq | ⟨a, heq, _⟩ := h.accounts
  · exact heq ▸ List.prefix_rfl
  · rw [heq]
    exact List.prefix_append _ _

/-- An account keeps its place. -/
theorem getElem?_of_grow {as bs : List (Account Name Key)} (h : as <+: bs) {k : Nat}
    {a : Account Name Key} (hk : as[k]? = some a) : bs[k]? = some a := by
  obtain ⟨cs, rfl⟩ := h
  have hlt := (List.getElem?_eq_some_iff.mp hk).1
  rw [List.getElem?_append_left hlt]
  exact hk

/-- No two accounts have one name; under a careful service, no two match. -/
structure Distinct (R : Rules Name Key) (careful : Prop) (accounts : List (Account Name Key)) :
    Prop where
  names : (accounts.map Account.name).Nodup
  folds : careful → (accounts.map fun a => R.fold a.name).Nodup

theorem nodup_map_append {α β : Type*} {f : α → β} {l : List α} (h : (l.map f).Nodup) {a : α}
    (ha : ∀ b ∈ l, f b ≠ f a) : ((l ++ [a]).map f).Nodup := by
  rw [List.map_append, List.nodup_append]
  refine ⟨h, List.pairwise_singleton _ _, ?_⟩
  rintro x hx y hy
  obtain ⟨b, hb, rfl⟩ := List.mem_map.mp hx
  rw [List.map_singleton, List.mem_singleton] at hy
  rw [hy]
  exact ha b hb

theorem Step.distinct (h : Step R careful st e st') (hst : Distinct R careful st.accounts) :
    Distinct R careful st'.accounts := by
  obtain heq | ⟨a, heq, hname, hfold⟩ := h.accounts
  · rwa [heq]
  · rw [heq]
    exact ⟨nodup_map_append hst.names hname,
      fun hc => nodup_map_append (hst.folds hc) (hfold hc)⟩

/-- The post refers to accounts that there are. -/
def Backed (R : Rules Name Key) (accounts : List (Account Name Key)) : Post Name Text Why → Prop
  | .refused _ => True
  | .registered id name => ∃ k a, id = k + 1 ∧ accounts[k]? = some a ∧ a.name = R.keepName name
  | .welcome id name => ∃ k a, id = k + 1 ∧ accounts[k]? = some a ∧ a.name = name
  | .toAll sender _ => ∃ a ∈ accounts, a.name = sender
  | .toOne sender recipient _ =>
    sender ≠ recipient ∧ (∃ a ∈ accounts, a.name = sender) ∧ ∃ a ∈ accounts, a.name = recipient

theorem Backed.mono {as bs : List (Account Name Key)} (h : as <+: bs) {p : Post Name Text Why}
    (hp : Backed R as p) : Backed R bs p := by
  cases p with
  | refused => trivial
  | registered id name =>
    obtain ⟨k, a, hid, hk, ha⟩ := hp
    exact ⟨k, a, hid, getElem?_of_grow h hk, ha⟩
  | welcome id name =>
    obtain ⟨k, a, hid, hk, ha⟩ := hp
    exact ⟨k, a, hid, getElem?_of_grow h hk, ha⟩
  | toAll sender text =>
    obtain ⟨a, ha, hname⟩ := hp
    exact ⟨a, h.subset ha, hname⟩
  | toOne sender recipient text =>
    obtain ⟨hne, ⟨a, ha, hname⟩, b, hb, hname'⟩ := hp
    exact ⟨hne, ⟨a, h.subset ha, hname⟩, b, h.subset hb, hname'⟩

/-- The last welcome among the posts: its number and name. -/
def lastWelcome : List (Post Name Text Why) → Option (Nat × Name) :=
  List.foldl (fun last p => match p with
    | .welcome id name => some (id, name)
    | _ => last) none

theorem lastWelcome_snoc (posts : List (Post Name Text Why)) (p : Post Name Text Why) :
    lastWelcome (posts ++ [p]) = match p with
      | .welcome id name => some (id, name)
      | _ => lastWelcome posts := by
  rw [lastWelcome, List.foldl_append]
  rfl

theorem mem_of_lastWelcome {posts : List (Post Name Text Why)} {id : Nat} {name : Name}
    (h : lastWelcome posts = some (id, name)) : .welcome id name ∈ posts := by
  induction posts using List.reverseRecOn with
  | nil => cases h
  | append_singleton posts p ih =>
    rw [lastWelcome_snoc] at h
    cases p with
    | welcome id' name' =>
      cases h
      exact List.mem_append_right _ (List.mem_singleton_self _)
    | _ => exact List.mem_append_left _ (ih h)

/-- Every session and every post refers to accounts, and a member was welcomed last under the
number and the name of its account. -/
structure Sound (R : Rules Name Key) (st : State Conn Name Key Text Why) : Prop where
  member : ∀ c k, st.session c = .member k →
    ∃ a, st.accounts[k]? = some a ∧ lastWelcome (st.mailbox c) = some (k + 1, a.name)
  backed : ∀ c, ∀ p ∈ st.mailbox c, Backed R st.accounts p

omit [DecidableEq Conn] in
theorem sound_start (accounts : List (Account Name Key)) :
    Sound R (start accounts : State Conn Name Key Text Why) where
  member _ _ h := by cases h
  backed _ _ h := by cases h

omit [DecidableEq Conn] in
theorem State.IsNamed.account {c : Conn} {name : Name} (h : st.IsNamed c name) :
    ∃ a ∈ st.accounts, a.name = name := by
  obtain ⟨k, a, _, hk, hname⟩ := h
  exact ⟨a, List.mem_of_getElem? hk, hname⟩

omit [DecidableEq Conn] in
/-- A post that is no welcome, and refers to accounts, may be delivered anywhere. -/
theorem Sound.deliver (hst : Sound R st) (dests : Set Conn) {p : Post Name Text Why}
    (hp : Backed R st.accounts p) (hno : ∀ id name, p ≠ .welcome id name) :
    Sound R (st.deliver dests p) := by
  have hlast : ∀ d, lastWelcome ((st.deliver dests p).mailbox d) = lastWelcome (st.mailbox d) := by
    intro d
    simp only [State.deliver]
    split
    · rw [lastWelcome_snoc]
      cases p with
      | welcome id name => exact absurd rfl (hno id name)
      | _ => rfl
    · rw [List.append_nil]
  refine ⟨fun c k hk => ?_, fun c q hq => ?_⟩
  · rw [hlast]
    exact hst.member c k hk
  · simp only [State.deliver, List.mem_append] at hq
    obtain hq | hq := hq
    · exact hst.backed c q hq
    · split at hq
      · rw [List.mem_singleton.mp hq]
        exact hp
      · cases hq

theorem Step.sound (h : Step R careful st e st') (hst : Sound R st) : Sound R st' := by
  cases h with
  | connect c =>
    refine ⟨fun d k hk => hst.member d k ?_, hst.backed⟩
    simp only [State.setSession, Function.update_apply] at hk
    split at hk
    · cases hk
    · exact hk
  | leave c =>
    refine ⟨fun d k hk => hst.member d k ?_, hst.backed⟩
    simp only [State.setSession, Function.update_apply] at hk
    split at hk
    · cases hk
    · exact hk
  | refuse c why => exact hst.deliver _ trivial fun _ _ h => by cases h
  | register c name key hc hname hcareful =>
    have hgrow : st.accounts <+: (st.addAccount ⟨R.keepName name, R.keepKey key⟩).accounts :=
      List.prefix_append _ _
    have hadd : Sound R (st.addAccount ⟨R.keepName name, R.keepKey key⟩) := by
      refine ⟨fun d k hk => ?_, fun d p hp => (hst.backed d p hp).mono hgrow⟩
      obtain ⟨a, ha, hlast⟩ := hst.member d k hk
      exact ⟨a, getElem?_of_grow hgrow ha, hlast⟩
    refine hadd.deliver _ ?_ fun _ _ h => by cases h
    exact ⟨st.accounts.length, _, rfl, List.getElem?_concat_length, rfl⟩
  | login c name key k a hc hk hm hkey hfirst =>
    refine ⟨fun d j hj => ?_, fun d p hp => ?_⟩
    · simp only [State.setSession, State.deliver, Function.update_apply] at hj ⊢
      by_cases hd : d = c
      · rw [if_pos hd] at hj
        cases hj
        rw [if_pos (show d ∈ ({c} : Set Conn) from hd), lastWelcome_snoc]
        exact ⟨a, hk, rfl⟩
      · rw [if_neg hd] at hj
        rw [if_neg (show d ∉ ({c} : Set Conn) from hd), List.append_nil]
        exact hst.member d j hj
    · simp only [State.setSession, State.deliver, List.mem_append] at hp
      obtain hp | hp := hp
      · exact hst.backed d p hp
      · split at hp
        · rw [List.mem_singleton.mp hp]
          exact ⟨k, a, rfl, hk, rfl⟩
        · cases hp
  | toAll c sender text hc =>
    exact hst.deliver _ hc.account fun _ _ h => by cases h
  | toOne c d sender recipient text hc hd hcd hne =>
    exact hst.deliver _ ⟨hne, hc.account, hd.account⟩ fun _ _ h => by cases h

theorem Run.sound {accounts : List (Account Name Key)}
    (h : Run R careful (start accounts) events st) : Sound R st :=
  h.preserves (fun _ _ _ hs hst => hs.sound hst) (sound_start accounts)

theorem Run.distinct {accounts : List (Account Name Key)}
    (h : Run R careful (start accounts) events st) (ha : Distinct R careful accounts) :
    Distinct R careful st.accounts :=
  h.preserves (fun _ _ _ hs hst => hs.distinct hst) ha

theorem Run.accounts_grow (h : Run R careful st events st') : st.accounts <+: st'.accounts :=
  h.preserves (P := fun u => st.accounts <+: u.accounts)
    (fun _ _ _ hs hst => hst.trans hs.accounts_grow) List.prefix_rfl

end Runs

end Machine

end Chat
