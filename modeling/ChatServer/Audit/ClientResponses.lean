import ChatServer.Audit.Grammar
import ChatServer.Audit.RoundTrip
import ChatServer.Model.Client

/-!
# What the client makes of a response

The parsers of the client return `RESP_ERROR_MALFORMED` for some payloads that they refuse and
-1 for others. The handler of a registration and that of a login look for -1 only, and the
handler of a broadcast for neither.
-/

namespace ChatServer

open Tlv (Field last)

/-! ## What the parsers of the client accept -/

section Broadcasts

variable (m : Message)

/-- The two views of `parse_world_broadcast`. -/
theorem parseWorldBroadcast_fill : parseWorldBroadcast m =
    if (fillWorldBroadcast m).1 = 0 then .ok (fillWorldBroadcast m).2
    else .error (fillWorldBroadcast m).1 := by
  unfold parseWorldBroadcast fillWorldBroadcast
  cases hs : Tlv.scan ResponseCode.malformed.code onWorldTlv ⟨⟨[], []⟩, false, false, false⟩
    m.payloadBytes with
  | error rc =>
    have hrc : rc = ResponseCode.malformed.code :=
      Tlv.error_of_scan (Q := (· = ResponseCode.malformed.code)) rfl
        (fun _ _ _ _ he => onWorldTlv_error he) hs
    have hne : ¬ ResponseCode.malformed.code = 0 := by decide
    subst hrc
    obtain ⟨st, hst⟩ := Tlv.sweep_of_scan_error hs
    simp only [hst, if_neg hne]
  | ok st =>
    rw [Tlv.sweep_of_scan hs]
    simp only
    split
    · exact (if_neg (by decide)).symm
    · exact (if_pos rfl).symm

theorem parseP2pBroadcast_fill : parseP2pBroadcast m =
    if (fillP2pBroadcast m).1 = 0 then .ok (fillP2pBroadcast m).2
    else .error (fillP2pBroadcast m).1 := by
  unfold parseP2pBroadcast fillP2pBroadcast
  cases hs : Tlv.scan ResponseCode.malformed.code onP2pTlv
    ⟨⟨[], [], []⟩, false, false, false, false⟩ m.payloadBytes with
  | error rc =>
    have hrc : rc = ResponseCode.malformed.code :=
      Tlv.error_of_scan (Q := (· = ResponseCode.malformed.code)) rfl
        (fun _ _ _ _ he => onP2pTlv_error he) hs
    have hne : ¬ ResponseCode.malformed.code = 0 := by decide
    subst hrc
    obtain ⟨st, hst⟩ := Tlv.sweep_of_scan_error hs
    simp only [hst, if_neg hne]
  | ok st =>
    rw [Tlv.sweep_of_scan hs]
    simp only
    split
    · exact (if_neg (by decide)).symm
    · exact (if_pos rfl).symm

theorem fillWorldBroadcast_zero_iff :
    (fillWorldBroadcast m).1 = 0 ↔ m.Carries WorldFits worldTags := by
  rw [← parseWorldBroadcast_ok_iff, parseWorldBroadcast_fill]
  split <;> simp_all

theorem fillP2pBroadcast_zero_iff : (fillP2pBroadcast m).1 = 0 ↔ m.Carries P2pFits p2pTags := by
  rw [← parseP2pBroadcast_ok_iff, parseP2pBroadcast_fill]
  split <;> simp_all

end Broadcasts

section UserResponses

/-- The value fits where the parsers of the responses copy it. -/
def ResponseFits (tag : UInt8) (value : Bytes) : Prop :=
  (tag = TlvTag.userId.code → value.length ≤ 4) ∧
    (tag = TlvTag.username.code → value.length ≤ MAX_USERNAME_SIZE)

theorem onResponseTlv_ok (st : ResponseFields) (tag : UInt8) (value : Bytes) :
    (∃ st', onResponseTlv st tag value = .ok st') ↔ ResponseFits tag value := by
  have hne : ¬ TlvTag.userId.code = TlvTag.username.code := by decide
  unfold onResponseTlv ResponseFits
  split_ifs <;> simp_all

theorem onResponseTlv_has (st : ResponseFields) (tag : UInt8) (value : Bytes)
    (st' : ResponseFields) (h : onResponseTlv st tag value = .ok st') :
    (st'.hasId = if tag = TlvTag.userId.code then true else st.hasId) ∧
      (st'.hasUsername = if tag = TlvTag.username.code then true else st.hasUsername) := by
  have hne : ¬ TlvTag.userId.code = TlvTag.username.code := by decide
  unfold onResponseTlv at h
  split_ifs at h <;> cases h <;> simp_all

theorem onResponseTlv_error {st : ResponseFields} {tag : UInt8} {value : Bytes}
    {fault : ResponseFault} (h : onResponseTlv st tag value = .error fault) :
    fault = .overrun ∨ fault = .rc ResponseCode.malformed.code := by
  unfold onResponseTlv at h
  split_ifs at h <;> cases h
  · exact .inl rfl
  · exact .inr rfl

variable {m : Message}

/-- The fields are read to the end if none is cut short or too long. -/
theorem readUser_ok_iff (user : User) :
    (∃ st, readUser user m.payloadBytes = .ok st) ↔ m.Carries ResponseFits [] := by
  constructor
  · rintro ⟨st, hst⟩
    obtain ⟨fs, hfs⟩ := Tlv.fields_of_scan hst
    rw [hfs] at hst
    exact ⟨fs, hfs, (Tlv.scan_ok_iff onResponseTlv_ok _ fs).mp ⟨st, hst⟩,
      fun tag htag => absurd htag List.not_mem_nil⟩
  · rintro ⟨fs, hfs, hfits, -⟩
    rw [hfs]
    exact (Tlv.scan_ok_iff onResponseTlv_ok _ fs).mpr hfits

def userTags : List TlvTag := [.userId, .username]

/-- Both tags were met. -/
theorem readUser_has_iff {user : User} {st : ResponseFields}
    (h : readUser user m.payloadBytes = .ok st) :
    (st.hasId = true ∧ st.hasUsername = true) ↔ m.Carries ResponseFits userTags := by
  have hhas : ∀ fs, m.payloadBytes = Tlv.encode fs →
      (st.hasId = (last TlvTag.userId.code fs).isSome ∧
        st.hasUsername = (last TlvTag.username.code fs).isSome) := by
    intro fs hfs
    rw [hfs] at h
    have hid := Tlv.scan_last (fun s t v s' ho => (onResponseTlv_has s t v s' ho).1) h
    have hname := Tlv.scan_last (fun s t v s' ho => (onResponseTlv_has s t v s' ho).2) h
    rw [hid, hname]
    cases last TlvTag.userId.code fs <;> cases last TlvTag.username.code fs <;> exact ⟨rfl, rfl⟩
  constructor
  · rintro ⟨hid, hname⟩
    obtain ⟨fs, hfs, hfits, -⟩ := (readUser_ok_iff user).mp ⟨st, h⟩
    obtain ⟨hsid, hsname⟩ := hhas fs hfs
    rw [hid] at hsid
    rw [hname] at hsname
    refine ⟨fs, hfs, hfits, ?_⟩
    simp only [userTags, List.forall_mem_cons, List.not_mem_nil, false_imp_iff, implies_true,
      and_true, ← Tlv.exists_last_iff]
    exact ⟨Option.isSome_iff_exists.mp hsid.symm, Option.isSome_iff_exists.mp hsname.symm⟩
  · rintro ⟨fs, hfs, -, htags⟩
    obtain ⟨hsid, hsname⟩ := hhas fs hfs
    simp only [userTags, List.forall_mem_cons, List.not_mem_nil, false_imp_iff, implies_true,
      and_true, ← Tlv.exists_last_iff] at htags
    rw [hsid, hsname]
    exact ⟨Option.isSome_iff_exists.mpr htags.1, Option.isSome_iff_exists.mpr htags.2⟩

theorem parseUserResponse_complete (user : User) (h : m.Carries ResponseFits userTags)
    (missing : Int) : ∃ user', parseUserResponse missing m user = some (0, user') := by
  obtain ⟨fs, hfs, hfits, htags⟩ := h
  obtain ⟨st, hst⟩ := (readUser_ok_iff user).mpr
    ⟨fs, hfs, hfits, fun tag htag => absurd htag List.not_mem_nil⟩
  obtain ⟨hid, hname⟩ := (readUser_has_iff hst).mpr ⟨fs, hfs, hfits, htags⟩
  refine ⟨st.user, ?_⟩
  rw [parseUserResponse_read hst, hid, hname]
  rfl

theorem parseUserResponse_missing (user : User) (h : m.Carries ResponseFits [])
    (hmissing : ¬ m.Carries ResponseFits userTags) (missing : Int) :
    ∃ user', parseUserResponse missing m user = some (missing, user') := by
  obtain ⟨st, hst⟩ := (readUser_ok_iff user).mpr h
  refine ⟨st.user, ?_⟩
  rw [parseUserResponse_read hst]
  cases hid : st.hasId with
  | false => rfl
  | true =>
    cases hname : st.hasUsername with
    | false => rfl
    | true => exact absurd ((readUser_has_iff hst).mp ⟨hid, hname⟩) hmissing

/-- A parser that does not reach the end of the payload returns `RESP_ERROR_MALFORMED`, if it
returns. -/
theorem parseUserResponse_stopped {user : User} (h : ¬ m.Carries ResponseFits [])
    (missing : Int) :
    parseUserResponse missing m user = none ∨
      ∃ user', parseUserResponse missing m user = some (ResponseCode.malformed.code, user') := by
  cases hs : readUser user m.payloadBytes with
  | ok st => exact absurd ((readUser_ok_iff user).mp ⟨st, hs⟩) h
  | error fault =>
    have hfault : fault = .overrun ∨ fault = .rc ResponseCode.malformed.code :=
      Tlv.error_of_scan (Q := fun fault => fault = .overrun ∨
        fault = .rc ResponseCode.malformed.code) (.inr rfl)
        (fun _ _ _ _ he => onResponseTlv_error he) hs
    obtain ⟨st, hst⟩ := Tlv.sweep_of_scan_error hs
    unfold parseUserResponse
    rw [hst]
    rcases hfault with rfl | rfl
    · exact .inl rfl
    · exact .inr ⟨_, rfl⟩

end UserResponses

/-! ## What the handlers do -/

def Notice.isChatLine : Notice → Bool
  | .direct _ _ _ => true
  | .global _ _ => true
  | _ => false

/-- The connection changes, success is reported and chat is printed only for what the parser of
the response has decoded. -/
structure ActsOnDecoded (conn : Client) (response : Message) (conn' : Client) (notice : Notice) :
    Prop where
  signsIn : conn' ≠ conn → response.type = MsgType.login.code ∧ response.rc = 0 ∧
    ∃ user, parseLoginResponse response .empty = some (0, user) ∧
      conn' = ⟨⟨user.userId, user.username, conn.user.password⟩, conn.flags ||| .isAuth⟩
  registered : ∀ id name, notice = .registered id name →
    ∃ user, parseRegisterResponse response .empty = some (0, user)
  loggedIn : ∀ id name, notice = .loggedIn id name →
    ∃ user, parseLoginResponse response .empty = some (0, user)
  chat : notice.isChatLine = true →
    (peekBroadcastType response = TlvTag.p2pBroadcast.code ∧ (fillP2pBroadcast response).1 = 0) ∨
      (peekBroadcastType response = TlvTag.worldBroadcast.code ∧
        (fillWorldBroadcast response).1 = 0)

/-- The response is well formed where its handler relies on it. -/
structure Message.Decodes (response : Message) : Prop where
  register : response.type = MsgType.register.code → response.rc = 0 →
    response.Carries ResponseFits []
  login : response.type = MsgType.login.code → response.rc = 0 →
    response.Carries ResponseFits userTags
  p2p : response.type = MsgType.chat.code → response.rc = 0 →
    peekBroadcastType response = TlvTag.p2pBroadcast.code → response.Carries P2pFits p2pTags
  world : response.type = MsgType.chat.code → response.rc = 0 →
    peekBroadcastType response = TlvTag.worldBroadcast.code →
      response.Carries WorldFits worldTags

section Handlers

variable {conn : Client} {response : Message}

/-- A notice that reports nothing, with the connection as it was. -/
theorem actsOnDecoded_silent {notice : Notice} (hreg : ∀ id name, notice ≠ .registered id name)
    (hlog : ∀ id name, notice ≠ .loggedIn id name) (hchat : notice.isChatLine = false) :
    ActsOnDecoded conn response conn notice :=
  ⟨fun h => absurd rfl h, fun id name h => absurd h (hreg id name),
    fun id name h => absurd h (hlog id name), fun h => absurd h (Bool.eq_false_iff.mp hchat)⟩

/-- The handler's result is defined, and rests on what was decoded. -/
def Client.Heeds (conn : Client) (response : Message) (r : Option (Client × Notice)) : Prop :=
  ∃ conn' notice, r = some (conn', notice) ∧ ActsOnDecoded conn response conn' notice

theorem heeds_registration (hrc : response.rc = 0) :
    conn.Heeds response ((handleRegistrationResponse response).map fun notice => (conn, notice)) ↔
      response.Carries ResponseFits [] := by
  have hne : ¬ ResponseCode.malformed.code = -1 := by decide
  unfold handleRegistrationResponse parseRegisterResponse
  rw [if_neg (not_not.mpr hrc)]
  constructor
  · rintro ⟨conn', notice, h, hacts⟩
    by_contra hno
    rcases parseUserResponse_stopped hno (-1) with hp | ⟨user, hp⟩
    · rw [hp] at h
      cases h
    · simp only [hp, if_neg hne, Option.map_some] at h
      cases h
      obtain ⟨user', h0⟩ := hacts.registered _ _ rfl
      cases hp.symm.trans h0
  · intro hc
    by_cases htags : response.Carries ResponseFits userTags
    · obtain ⟨user, hp⟩ := parseUserResponse_complete .empty htags (-1)
      rw [hp]
      refine ⟨conn, _, rfl, fun h => absurd rfl h, fun _ _ _ => ⟨user, hp⟩, ?_, ?_⟩
      · intro _ _ h
        cases h
      · intro h
        cases h
    · obtain ⟨user, hp⟩ := parseUserResponse_missing .empty hc htags (-1)
      rw [hp]
      exact ⟨conn, _, rfl, actsOnDecoded_silent (by simp) (by simp) rfl⟩

theorem heeds_login (hrc : response.rc = 0) (ht : response.type = MsgType.login.code) :
    conn.Heeds response (conn.handleLoginResponse response) ↔
      response.Carries ResponseFits userTags := by
  have hne : ¬ ResponseCode.malformed.code = -1 := by decide
  unfold Client.handleLoginResponse parseLoginResponse
  rw [if_neg (not_not.mpr hrc)]
  constructor
  · rintro ⟨conn', notice, h, hacts⟩
    by_contra hno
    have hrefused : parseUserResponse ResponseCode.malformed.code response .empty = none ∨
        ∃ user, parseUserResponse ResponseCode.malformed.code response .empty =
          some (ResponseCode.malformed.code, user) := by
      by_cases hc : response.Carries ResponseFits []
      · exact .inr (parseUserResponse_missing .empty hc hno _)
      · exact parseUserResponse_stopped hc _
    rcases hrefused with hp | ⟨user, hp⟩
    · rw [hp] at h
      cases h
    · simp only [hp, if_neg hne] at h
      cases h
      obtain ⟨user', h0⟩ := hacts.loggedIn _ _ rfl
      cases hp.symm.trans h0
  · intro hc
    obtain ⟨user, hp⟩ := parseUserResponse_complete .empty hc ResponseCode.malformed.code
    rw [hp]
    refine ⟨_, _, rfl, fun _ => ⟨ht, hrc, user, hp, rfl⟩, ?_, fun _ _ _ => ⟨user, hp⟩, ?_⟩
    · intro _ _ h
      cases h
    · intro h
      cases h

theorem isChatLine_printChatMessage (sender recipient content : Bytes) :
    (printChatMessage sender recipient content).isChatLine = true := by
  unfold printChatMessage
  split <;> rfl

/-- A chat line is no report of success. -/
theorem actsOnDecoded_chat {notice : Notice} (hline : notice.isChatLine = true)
    (h : (peekBroadcastType response = TlvTag.p2pBroadcast.code ∧
      (fillP2pBroadcast response).1 = 0) ∨
        (peekBroadcastType response = TlvTag.worldBroadcast.code ∧
          (fillWorldBroadcast response).1 = 0)) :
    ActsOnDecoded conn response conn notice := by
  refine ⟨fun h => absurd rfl h, ?_, ?_, fun _ => h⟩
  · rintro id name rfl
    cases hline
  · rintro id name rfl
    cases hline

theorem heeds_broadcast (hrc : response.rc = 0) :
    conn.Heeds response (some (conn, handleBroadcastResponse response)) ↔
      (peekBroadcastType response = TlvTag.p2pBroadcast.code →
        response.Carries P2pFits p2pTags) ∧
      (peekBroadcastType response = TlvTag.worldBroadcast.code →
        response.Carries WorldFits worldTags) := by
  have hne : ¬ TlvTag.p2pBroadcast.code = TlvTag.worldBroadcast.code := by decide
  rw [← fillP2pBroadcast_zero_iff, ← fillWorldBroadcast_zero_iff]
  unfold handleBroadcastResponse
  rw [if_neg (not_not.mpr hrc)]
  by_cases hp : peekBroadcastType response = TlvTag.p2pBroadcast.code
  · have hline := isChatLine_printChatMessage (fillP2pBroadcast response).2.senderUsername
      (fillP2pBroadcast response).2.recipientUsername (fillP2pBroadcast response).2.messageContent
    simp only [hp, if_pos, hne, false_imp_iff, and_true, forall_const]
    constructor
    · rintro ⟨conn', notice, h, hacts⟩
      cases h
      exact ((hacts.chat hline).resolve_right fun hw => hne (hp.symm.trans hw.1)).2
    · intro h0
      exact ⟨conn, _, rfl, actsOnDecoded_chat hline (.inl ⟨hp, h0⟩)⟩
  · by_cases hw : peekBroadcastType response = TlvTag.worldBroadcast.code
    · have hline := isChatLine_printChatMessage (fillWorldBroadcast response).2.senderUsername []
        (fillWorldBroadcast response).2.messageContent
      simp only [hw, if_pos, Ne.symm hne, false_imp_iff, true_and, forall_const]
      constructor
      · rintro ⟨conn', notice, h, hacts⟩
        cases h
        exact ((hacts.chat hline).resolve_left fun h => hp h.1).2
      · intro h0
        exact ⟨conn, _, rfl, actsOnDecoded_chat hline (.inr ⟨hw, h0⟩)⟩
    · simp only [hp, hw, ↓reduceIte, false_imp_iff, and_self, iff_true]
      exact ⟨conn, _, rfl, actsOnDecoded_silent (by simp) (by simp) rfl⟩

/-- A response with an error code is shown with its text, and nothing else happens. -/
theorem heeds_refusal (hrc : response.rc ≠ 0) :
    conn.Heeds response (conn.handleResponse response) := by
  unfold Client.handleResponse handleRegistrationResponse Client.handleLoginResponse
    handleBroadcastResponse
  simp only [hrc, ne_eq, not_false_eq_true, ↓reduceIte, Option.map_some]
  split_ifs <;> exact ⟨conn, _, rfl, actsOnDecoded_silent (by simp) (by simp) rfl⟩

theorem heeds_iff : conn.Heeds response (conn.handleResponse response) ↔ response.Decodes := by
  have hlogin : ¬ MsgType.login.code = MsgType.register.code := by decide
  by_cases hrc : response.rc = 0
  · unfold Client.handleResponse
    by_cases hr : response.type = MsgType.register.code
    · rw [if_pos hr, heeds_registration hrc]
      have hl : ¬ response.type = MsgType.login.code := hr ▸ Ne.symm hlogin
      have hc : ¬ response.type = MsgType.chat.code := hr ▸ register_ne_chat
      exact ⟨fun h => ⟨fun _ _ => h, fun h => absurd h hl, fun h => absurd h hc,
        fun h => absurd h hc⟩, fun h => h.register hr hrc⟩
    rw [if_neg hr]
    by_cases hl : response.type = MsgType.login.code
    · rw [if_pos hl, heeds_login hrc hl]
      have hc : ¬ response.type = MsgType.chat.code := hl ▸ login_ne_chat
      exact ⟨fun h => ⟨fun h => absurd h hr, fun _ _ => h, fun h => absurd h hc,
        fun h => absurd h hc⟩, fun h => h.login hl hrc⟩
    rw [if_neg hl]
    by_cases hc : response.type = MsgType.chat.code
    · rw [if_pos hc, heeds_broadcast hrc]
      exact ⟨fun h => ⟨fun h => absurd h hr, fun h => absurd h hl, fun _ _ => h.1, fun _ _ => h.2⟩,
        fun h => ⟨h.p2p hc hrc, h.world hc hrc⟩⟩
    rw [if_neg hc]
    exact ⟨fun _ => ⟨fun h => absurd h hr, fun h => absurd h hl, fun h => absurd h hc,
      fun h => absurd h hc⟩, fun _ => ⟨conn, _, rfl, actsOnDecoded_silent (by simp) (by simp) rfl⟩⟩
  · exact ⟨fun _ => ⟨fun _ h => absurd h hrc, fun _ h => absurd h hrc, fun _ h => absurd h hrc,
      fun _ h => absurd h hrc⟩, fun _ => heeds_refusal hrc⟩

/-- **The client acts on decoded responses only, exactly if the response is well formed.** For
every message that `read_one_message` accepts, `handle_server_response` changes the
connection, reports a success and prints chat only for what the matching parser decoded if and
only if the payload meets the grammar that its handler takes for granted. -/
theorem client_acts_on_decoded {payloadBuffer stream rest : Bytes} {sched sched' : List Transfer}
    (h : readOneMessage payloadBuffer sched stream = .ok (response, sched', rest)) :
    (∃ conn' notice,
      conn.handleServerResponse payloadBuffer sched stream = .handled conn' notice sched' rest ∧
        ActsOnDecoded conn response conn' notice) ↔ response.Decodes := by
  rw [← @heeds_iff conn, Client.Heeds, Client.handleServerResponse, h]
  cases hr : conn.handleResponse response with
  | none => simp [hr]
  | some r =>
    obtain ⟨conn', notice⟩ := r
    simp [hr]

end Handlers

/-- The answer to the login of "b", with id 1. -/
theorem client_acts_on_decoded_login :
    ∃ conn' notice,
      Client.handleServerResponse ⟨.empty, .none⟩ [] []
        [1, 1, 0, 0, 0, 0, 9, 6, 4, 0, 0, 0, 1, 0, 1, 98] = .handled conn' notice [] [] ∧
      ActsOnDecoded ⟨.empty, .none⟩ ⟨9, 1, 1, 0, some [6, 4, 0, 0, 0, 1, 0, 1, 98]⟩ conn' notice := by
  have hcarries : Message.Carries ⟨9, 1, 1, 0, some [6, 4, 0, 0, 0, 1, 0, 1, 98]⟩ ResponseFits
      userTags :=
    ⟨[⟨6, [0, 0, 0, 1], by decide⟩, ⟨0, [98], by decide⟩], rfl,
      by simp [ResponseFits, TlvTag.code, MAX_USERNAME_SIZE], by simp [userTags, TlvTag.code]⟩
  have hread : readOneMessage [] [] [1, 1, 0, 0, 0, 0, 9, 6, 4, 0, 0, 0, 1, 0, 1, 98] =
      .ok (⟨9, 1, 1, 0, some [6, 4, 0, 0, 0, 1, 0, 1, 98]⟩, [], []) := rfl
  refine (client_acts_on_decoded hread).mpr ⟨fun h => ?_, fun _ _ => hcarries, fun h => ?_,
    fun h => ?_⟩ <;> exact absurd h (by decide)

/-- A login that is answered with an empty payload signs the client in, as user 0 without a
name. -/
theorem empty_login_response_accepted :
    parseLoginResponse ⟨0, 1, 1, 0, some []⟩ .empty = some (ResponseCode.malformed.code, .empty) ∧
      Client.handleServerResponse ⟨.empty, .none⟩ [] [] [1, 1, 0, 0, 0, 0, 0] =
        .handled ⟨.empty, .isAuth⟩ (.loggedIn 0 []) [] [] ∧
      ¬ ActsOnDecoded ⟨.empty, .none⟩ ⟨0, 1, 1, 0, some []⟩ ⟨.empty, .isAuth⟩ (.loggedIn 0 []) := by
  have hp : parseLoginResponse ⟨0, 1, 1, 0, some []⟩ .empty =
      some (ResponseCode.malformed.code, .empty) := by decide
  refine ⟨hp, by decide, fun h => ?_⟩
  obtain ⟨user, h0⟩ := h.loggedIn 0 [] rfl
  cases hp.symm.trans h0

end ChatServer
