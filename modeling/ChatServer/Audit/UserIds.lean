import ChatServer.Audit.ClientResponses

/-!
# User ids of any length

The parsers of the client copy as many bytes into the four bytes of a user id as the length byte
of the field says. A longer id runs past them; of a shorter one the rest of the four
bytes is what was there before. An id of four bytes is decoded exactly.
-/

namespace ChatServer

open Tlv (Field last)

/-- An id has four bytes, and a name is not too long. -/
def UserFits (tag : UInt8) (value : Bytes) : Prop :=
  (tag = TlvTag.userId.code → value.length = 4) ∧
    (tag = TlvTag.username.code → value.length ≤ MAX_USERNAME_SIZE)

/-- A name is not too long. -/
def NameFits (tag : UInt8) (value : Bytes) : Prop :=
  tag = TlvTag.username.code → value.length ≤ MAX_USERNAME_SIZE

/-- The parser copies no more than the id can hold. It succeeds exactly on the sequences of whole
fields in which every id has four bytes, no name is too long and both tags occur, and
gives back the last id and the last name, whatever `user` held before. -/
structure DecodesUser (m : Message) (user : User) (r : Option (Int × User)) : Prop where
  inBounds : r ≠ none
  accepts : (∃ user', r = some (0, user')) ↔ m.Carries UserFits userTags
  decoded : ∀ user' fs, r = some (0, user') → m.payloadBytes = Tlv.encode fs →
    ∃ id, last TlvTag.userId.code fs = some id ∧
      last TlvTag.username.code fs = some user'.username ∧
      user' = ⟨Words.ofBe32 id, user'.username, user.password⟩

/-- Where the parser looks at an id, it has at most four bytes, and exactly four in a payload
that is well formed otherwise. -/
structure IdsExact (m : Message) : Prop where
  reached : ∀ fs f rest, m.payloadBytes = Tlv.encode fs ++ (Field.encode f ++ rest) →
    (∀ g ∈ fs, NameFits g.tag g.value) → f.tag = TlvTag.userId.code → f.value.length ≤ 4
  whole : ∀ fs, m.payloadBytes = Tlv.encode fs → (∀ f ∈ fs, NameFits f.tag f.value) →
    (∀ tag ∈ userTags, ∃ f ∈ fs, f.tag = tag.code) →
    ∀ f ∈ fs, f.tag = TlvTag.userId.code → f.value.length = 4

/-! ## Where the copy overruns -/

section Overrun

variable {m : Message}

theorem onResponseTlv_overrun {st : ResponseFields} {tag : UInt8} {value : Bytes} :
    onResponseTlv st tag value = .error .overrun ↔
      tag = TlvTag.userId.code ∧ 4 < value.length := by
  have hne : ¬ TlvTag.userId.code = TlvTag.username.code := by decide
  unfold onResponseTlv
  split_ifs <;> simp_all

/-- Only a name is refused with a code. -/
theorem onResponseTlv_refused {st : ResponseFields} {tag : UInt8} {value : Bytes}
    {fault : ResponseFault} (h : onResponseTlv st tag value = .error fault)
    (hname : NameFits tag value) : fault = .overrun := by
  unfold onResponseTlv at h
  split_ifs at h with _ _ htag hlong
  · cases h
    rfl
  · exact absurd (hname htag) (Nat.not_le.mpr hlong)

/-- An id that is too long is reached if the names before it are not. -/
theorem scan_overrun {fs : List Field} {f : Field} (rest : Bytes)
    (hnames : ∀ g ∈ fs, NameFits g.tag g.value) (hid : f.tag = TlvTag.userId.code)
    (hlong : 4 < f.value.length) (st : ResponseFields) :
    Tlv.scan (.rc ResponseCode.malformed.code) onResponseTlv st
      (Tlv.encode fs ++ (f.encode ++ rest)) = .error .overrun := by
  induction fs generalizing st with
  | nil =>
    rw [Tlv.encode_nil, List.nil_append, Tlv.scan_cons, onResponseTlv_overrun.mpr ⟨hid, hlong⟩]
    rfl
  | cons g fs ih =>
    rw [Tlv.encode_cons, List.append_assoc, Tlv.scan_cons]
    cases ho : onResponseTlv st g.tag g.value with
    | ok st' => exact ih (fun g' hg' => hnames g' (List.mem_cons_of_mem _ hg')) st'
    | error fault =>
      rw [onResponseTlv_refused ho (hnames g List.mem_cons_self)]
      rfl

theorem readUser_overrun_iff (user : User) :
    readUser user m.payloadBytes = .error .overrun ↔
      ∃ fs f rest, m.payloadBytes = Tlv.encode fs ++ (Field.encode f ++ rest) ∧
        (∀ g ∈ fs, NameFits g.tag g.value) ∧ f.tag = TlvTag.userId.code ∧ 4 < f.value.length := by
  constructor
  · intro h
    obtain ⟨fs, f, rest, st, hbytes, hscan, herror⟩ :=
      Tlv.exists_field_of_scan_error h (by simp)
    obtain ⟨hid, hlong⟩ := onResponseTlv_overrun.mp herror
    have hfits := (Tlv.scan_ok_iff onResponseTlv_ok _ fs).mp ⟨st, hscan⟩
    exact ⟨fs, f, rest, hbytes, fun g hg => (hfits g hg).2, hid, hlong⟩
  · rintro ⟨fs, f, rest, hbytes, hnames, hid, hlong⟩
    rw [readUser, hbytes]
    exact scan_overrun rest hnames hid hlong _

theorem parseUserResponse_eq_none_iff (missing : Int) (user : User) :
    parseUserResponse missing m user = none ↔
      readUser user m.payloadBytes = .error .overrun := by
  unfold parseUserResponse
  cases hs : readUser user m.payloadBytes with
  | ok st => rw [Tlv.sweep_of_scan hs]; simp
  | error fault =>
    obtain ⟨st, hst⟩ := Tlv.sweep_of_scan_error hs
    rw [hst]
    cases fault <;> simp

end Overrun

/-! ## What is decoded -/

section Decoded

variable {m : Message}

theorem onResponseTlv_user {st st' : ResponseFields} {tag : UInt8} {value : Bytes}
    (h : onResponseTlv st tag value = .ok st') :
    (st'.user.userId = if tag = TlvTag.userId.code then
        htonl (Words.ofLe32 (value ++ (Words.le32 st.user.userId).drop value.length))
      else st.user.userId) ∧
      (st'.user.username = if tag = TlvTag.username.code then value else st.user.username) ∧
      st'.user.password = st.user.password := by
  have hne : ¬ TlvTag.userId.code = TlvTag.username.code := by decide
  unfold onResponseTlv at h
  split_ifs at h <;> cases h <;> simp_all

/-- Four bytes overwrite the id. -/
theorem htonl_of_four {value : Bytes} (h : value.length = 4) (v : UInt32) :
    htonl (Words.ofLe32 (value ++ (Words.le32 v).drop value.length)) = Words.ofBe32 value := by
  have hnone : (Words.le32 v).drop value.length = [] :=
    List.drop_eq_nil_of_le (by rw [h]; exact Nat.le_refl 4)
  rw [hnone, List.append_nil, htonl, Words.swap_ofLe32 h]

/-- After fields whose ids have four bytes, the user is that of the last ones. -/
theorem readUser_user {user : User} {st : ResponseFields} {fs : List Field}
    (h : readUser user (Tlv.encode fs) = .ok st) (hfits : ∀ f ∈ fs, UserFits f.tag f.value) :
    st.user = ⟨((last TlvTag.userId.code fs).map Words.ofBe32).getD user.userId,
      (last TlvTag.username.code fs).getD user.username, user.password⟩ := by
  have hid : st.user.userId = ((last TlvTag.userId.code fs).map Words.ofBe32).getD user.userId := by
    refine Tlv.scan_last_of (p := fun st : ResponseFields => st.user.userId)
      (fun s f s' hf ho => ?_) hfits h
    rw [(onResponseTlv_user ho).1]
    split
    · exact htonl_of_four (hf.1 ‹_›) s.user.userId
    · rfl
  have hname : st.user.username = (last TlvTag.username.code fs).getD user.username := by
    have hlast := Tlv.scan_last (p := fun st : ResponseFields => st.user.username) (g := id)
      (fun s t v s' ho => (onResponseTlv_user ho).2.1) h
    rwa [Option.map_id_fun, id_eq] at hlast
  have hpassword : st.user.password = user.password :=
    Tlv.scan_preserves (P := fun st : ResponseFields => st.user.password = user.password)
      (fun s f s' hs ho => (onResponseTlv_user ho).2.2.trans hs) rfl h
  obtain ⟨⟨userId, username, password⟩, _, _⟩ := st
  rw [← hid, ← hname, ← hpassword]

end Decoded

/-! ## The two parsers -/

section Parsers

variable (m : Message) (user : User)

theorem carries_userFits (h : m.Carries UserFits userTags) : m.Carries ResponseFits userTags := by
  obtain ⟨fs, hfs, hfits, htags⟩ := h
  exact ⟨fs, hfs, fun f hf => ⟨fun hid => Nat.le_of_eq ((hfits f hf).1 hid), (hfits f hf).2⟩, htags⟩

/-- Success is reported for the payloads that the parser reads to their end, with both tags. -/
theorem parseUserResponse_zero_iff {missing : Int} (hmissing : missing ≠ 0) :
    (∃ user', parseUserResponse missing m user = some (0, user')) ↔
      m.Carries ResponseFits userTags := by
  have hne : ¬ ResponseCode.malformed.code = 0 := by decide
  constructor
  · rintro ⟨user', h⟩
    by_contra hno
    by_cases hc : m.Carries ResponseFits []
    · obtain ⟨user'', hm⟩ := parseUserResponse_missing user hc hno missing
      rw [h] at hm
      simp only [Option.some.injEq, Prod.mk.injEq] at hm
      exact hmissing hm.1.symm
    · have hstopped : parseUserResponse missing m user = none ∨ _ :=
        parseUserResponse_stopped hc missing
      rcases hstopped with hm | ⟨user'', hm⟩ <;> rw [h] at hm
      · cases hm
      · simp only [Option.some.injEq, Prod.mk.injEq] at hm
        exact hne hm.1.symm
  · exact fun h => parseUserResponse_complete user h missing

/-- The copy stays inside the id if and only if no id that the parser comes to is too long. -/
theorem parseUserResponse_inBounds_iff (missing : Int) :
    parseUserResponse missing m user ≠ none ↔
      ∀ fs f rest, m.payloadBytes = Tlv.encode fs ++ (Field.encode f ++ rest) →
        (∀ g ∈ fs, NameFits g.tag g.value) → f.tag = TlvTag.userId.code → f.value.length ≤ 4 := by
  rw [Ne, parseUserResponse_eq_none_iff, readUser_overrun_iff]
  constructor
  · intro h fs f rest hbytes hnames hid
    by_contra hlong
    exact h ⟨fs, f, rest, hbytes, hnames, hid, Nat.lt_of_not_le hlong⟩
  · rintro h ⟨fs, f, rest, hbytes, hnames, hid, hlong⟩
    exact absurd (h fs f rest hbytes hnames hid) (Nat.not_le.mpr hlong)

variable {m user}

theorem DecodesUser.idsExact {missing : Int} (hmissing : missing ≠ 0)
    (h : DecodesUser m user (parseUserResponse missing m user)) : IdsExact m := by
  have hreached := (parseUserResponse_inBounds_iff m user missing).mp h.inBounds
  refine ⟨hreached, fun fs hfs hnames htags f hf hid => ?_⟩
  have hshort : ∀ g ∈ fs, ResponseFits g.tag g.value := by
    refine fun g hg => ⟨fun hgid => ?_, hnames g hg⟩
    obtain ⟨as, bs, rfl⟩ := List.append_of_mem hg
    rw [Tlv.encode_append, Tlv.encode_cons] at hfs
    exact hreached as g (Tlv.encode bs) hfs
      (fun g' hg' => hnames g' (List.mem_append_left _ hg')) hgid
  obtain ⟨gs, hgs, hfits, -⟩ := h.accepts.mp
    ((parseUserResponse_zero_iff m user hmissing).mpr ⟨fs, hfs, hshort, htags⟩)
  obtain rfl := Tlv.encode_injective (hfs.symm.trans hgs)
  exact (hfits f hf).1 hid

/-- A payload with short ids that is accepted has ids of four bytes. -/
theorem IdsExact.carries (h : IdsExact m) (hc : m.Carries ResponseFits userTags) :
    m.Carries UserFits userTags := by
  obtain ⟨fs, hfs, hfits, htags⟩ := hc
  have hnames : ∀ f ∈ fs, NameFits f.tag f.value := fun f hf => (hfits f hf).2
  exact ⟨fs, hfs, fun f hf => ⟨h.whole fs hfs hnames htags f hf, hnames f hf⟩, htags⟩

/-- What the parser gives back for fields within the limits. -/
theorem parseUserResponse_decoded {missing : Int} {user' : User} {fs : List Field}
    (hr : parseUserResponse missing m user = some (0, user')) (hfs : m.payloadBytes = Tlv.encode fs)
    (hc : m.Carries UserFits userTags) :
    ∃ id, last TlvTag.userId.code fs = some id ∧
      last TlvTag.username.code fs = some user'.username ∧
      user' = ⟨Words.ofBe32 id, user'.username, user.password⟩ := by
  obtain ⟨gs, hgs, hfits, htags⟩ := hc
  obtain rfl := Tlv.encode_injective (hfs.symm.trans hgs)
  obtain ⟨gs, hgs, hshort, _⟩ := carries_userFits m ⟨fs, hfs, hfits, htags⟩
  obtain ⟨st, hst⟩ := (readUser_ok_iff user).mpr ⟨gs, hgs, hshort, fun _ ht => by cases ht⟩
  have huser : user' = st.user := by
    rw [parseUserResponse_read hst] at hr
    simp only [Option.some.injEq, Prod.mk.injEq] at hr
    exact hr.2.symm
  simp only [userTags, List.forall_mem_cons, List.not_mem_nil, false_imp_iff, implies_true,
    and_true, ← Tlv.exists_last_iff] at htags
  obtain ⟨⟨id, hid⟩, ⟨name, hname⟩⟩ := htags
  rw [hfs] at hst
  rw [huser, readUser_user hst hfits, hid, hname]
  exact ⟨id, rfl, rfl, rfl⟩

theorem IdsExact.decodes {missing : Int} (hmissing : missing ≠ 0) (h : IdsExact m) :
    DecodesUser m user (parseUserResponse missing m user) := by
  have haccepts : (∃ user', parseUserResponse missing m user = some (0, user')) ↔
      m.Carries UserFits userTags := by
    rw [parseUserResponse_zero_iff m user hmissing]
    exact ⟨h.carries, carries_userFits m⟩
  refine ⟨(parseUserResponse_inBounds_iff m user missing).mpr h.reached, haccepts, ?_⟩
  exact fun user' fs hr hfs => parseUserResponse_decoded hr hfs (haccepts.mp ⟨user', hr⟩)

variable (m user)

theorem decodesUser_iff {missing : Int} (hmissing : missing ≠ 0) :
    DecodesUser m user (parseUserResponse missing m user) ↔ IdsExact m :=
  ⟨DecodesUser.idsExact hmissing, IdsExact.decodes hmissing⟩

/-- **User ids are decoded exactly** by both parsers, if and only if the ids that they come to have
at most four bytes, and four in a payload that is well formed otherwise. -/
theorem user_ids_decoded :
    (DecodesUser m user (parseRegisterResponse m user) ↔ IdsExact m) ∧
      (DecodesUser m user (parseLoginResponse m user) ↔ IdsExact m) :=
  ⟨decodesUser_iff m user (by decide), decodesUser_iff m user (by decide)⟩

end Parsers

/-- An id of five bytes overruns. One of one byte is accepted, and the result has three bytes of
the id that was there before. -/
theorem short_user_id_accepted :
    let long : Message := ⟨9, 1, 1, 0, some [6, 5, 0, 0, 0, 0, 7, 0, 0]⟩
    let short : Message := ⟨5, 1, 1, 0, some [6, 1, 7, 0, 0]⟩
    (¬ DecodesUser long .empty (parseRegisterResponse long .empty) ∧
      parseRegisterResponse long .empty = none ∧ parseLoginResponse long .empty = none) ∧
      parseLoginResponse short .empty = some (0, ⟨0x07000000, [], []⟩) ∧
      parseLoginResponse short ⟨0x01000000, [], []⟩ = some (0, ⟨0x07000001, [], []⟩) ∧
      parseRegisterResponse short ⟨0x01000000, [], []⟩ = some (0, ⟨0x07000001, [], []⟩) := by
  intro long short
  exact ⟨⟨fun h => h.inBounds (by decide), by decide⟩, by decide⟩

end ChatServer
