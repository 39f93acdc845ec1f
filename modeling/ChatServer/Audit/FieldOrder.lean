import ChatServer.Audit.FrameLocality
import ChatServer.Audit.Grammar

/-!
# The order of the fields of a request

The parsers look for tags, wherever they stand. What kind of broadcast a CHAT request is, the
server takes from the first byte of the payload, so its broadcast tag has to come first. Apart
from that a payload may be permuted, and padded with fields of other tags.
-/

namespace ChatServer

open Tlv (Field last)

/-- The requests the server serves. -/
inductive RequestKind where
  | register
  | login
  | world
  | p2p
  deriving DecidableEq, Repr

namespace RequestKind

def type : RequestKind → MsgType
  | .register => .register
  | .login => .login
  | .world => .chat
  | .p2p => .chat

/-- The tags that the parser of the request knows. -/
def tags : RequestKind → List TlvTag
  | .register => [.username, .password]
  | .login => [.username, .password]
  | .world => [.worldBroadcast, .senderUsername, .messageContent]
  | .p2p => [.p2pBroadcast, .senderUsername, .recipientUsername, .messageContent]

/-- The tag that `peek_broadcast_type` has to find first. -/
def opening : RequestKind → Option TlvTag
  | .register => none
  | .login => none
  | .world => some .worldBroadcast
  | .p2p => some .p2pBroadcast

def knows (kind : RequestKind) (f : Field) : Bool := kind.tags.any fun tag => f.tag = tag.code

/-- Each tag of the request occurs exactly once. -/
def Complete (kind : RequestKind) (fs : List Field) : Prop :=
  ∀ tag ∈ kind.tags, (fs.filter fun f => f.tag = tag.code).length = 1

instance (kind : RequestKind) (fs : List Field) : Decidable (kind.Complete fs) :=
  inferInstanceAs (Decidable (∀ _ ∈ _, _))

/-- The fields that the parser knows are the same in another order; others may be added
anywhere. -/
def Rearranged (kind : RequestKind) (fs gs : List Field) : Prop :=
  (fs.filter kind.knows).Perm (gs.filter kind.knows)

/-- A CHAT payload begins with the broadcast tag of the request. -/
def Opens (kind : RequestKind) (fs : List Field) : Prop :=
  ∀ tag, kind.opening = some tag → fs.head?.map Field.tag = some tag.code

theorem knows_of_mem {kind : RequestKind} {tag : TlvTag} (h : tag ∈ kind.tags) {f : Field}
    (hf : f.tag = tag.code) : kind.knows f = true :=
  List.any_eq_true.mpr ⟨tag, h, decide_eq_true hf⟩

/-- A complete request has a field with a tag of its own. -/
theorem exists_known {kind : RequestKind} {fs : List Field} (h : kind.Complete fs) :
    ∃ f ∈ fs, kind.knows f = true := by
  obtain ⟨tag, htag⟩ : ∃ tag, tag ∈ kind.tags := by
    cases kind <;> exact ⟨_, List.mem_cons_self⟩
  obtain ⟨f, hf⟩ := List.length_eq_one_iff.mp (h tag htag)
  have hmem : f ∈ fs.filter fun f => f.tag = tag.code := by rw [hf]; exact List.mem_cons_self
  obtain ⟨hin, heq⟩ := List.mem_filter.mp hmem
  exact ⟨f, hin, knows_of_mem htag (of_decide_eq_true heq)⟩

section Rearranged

variable {kind : RequestKind} {fs gs : List Field} (hfs : kind.Complete fs)
  (hre : kind.Rearranged fs gs)

include hfs hre in
/-- The value of each tag of the request is where it was. -/
theorem Rearranged.last (tag : TlvTag) (h : tag ∈ kind.tags) :
    Tlv.last tag.code fs = Tlv.last tag.code gs := by
  have hp : ∀ f : Field, f.tag = tag.code → kind.knows f = true := fun f => knows_of_mem h
  have hone : ((fs.filter kind.knows).filter fun f => f.tag = tag.code).length = 1 := by
    rw [← hfs tag h, List.filter_filter]
    congr 1
    apply List.filter_congr
    intro f _
    by_cases hf : f.tag = tag.code
    · simp [hf, hp f hf]
    · simp [hf]
  rw [← Tlv.last_filter hp fs, ← Tlv.last_filter hp gs]
  exact Tlv.last_perm hre hone

include hre in
/-- A limit on the tags of the request holds of all fields or of none of the two. -/
theorem Rearranged.fits (fits : UInt8 → Bytes → Prop)
    (hfits : ∀ f : Field, kind.knows f = false → fits f.tag f.value) :
    (∀ f ∈ fs, fits f.tag f.value) ↔ ∀ f ∈ gs, fits f.tag f.value := by
  have hfilter : ∀ l : List Field, (∀ f ∈ l, fits f.tag f.value) ↔
      ∀ f ∈ l.filter kind.knows, fits f.tag f.value := by
    intro l
    refine ⟨fun h f hf => h f (List.mem_filter.mp hf).1, fun h f hf => ?_⟩
    cases hk : kind.knows f with
    | true => exact h f (List.mem_filter.mpr ⟨hf, hk⟩)
    | false => exact hfits f hk
  rw [hfilter fs, hfilter gs]
  exact ⟨fun h f hf => h f (hre.mem_iff.mpr hf), fun h f hf => h f (hre.mem_iff.mp hf)⟩

end Rearranged

end RequestKind

/-! ## The parsers -/

/-- Two readings are one if they accept the same and know only one error. -/
theorem reading_ext {α : Type*} {e₀ : Int} {p q : Except Int α} (hp : ∀ e, p = .error e → e = e₀)
    (hq : ∀ e, q = .error e → e = e₀) (h : ∀ a, p = .ok a ↔ q = .ok a) : p = q := by
  cases hpe : p with
  | ok a => exact ((h a).mp hpe).symm
  | error e =>
    cases hqe : q with
    | ok a => exact absurd (hpe.symm.trans ((h a).mpr hqe)) (by simp)
    | error e' => rw [hp e hpe, hq e' hqe]

section Parsers

variable {m m' : Message} {fs gs : List Field} (hm : m.payloadBytes = Tlv.encode fs)
  (hm' : m'.payloadBytes = Tlv.encode gs)

include hm hm'

theorem parseCredentials_rearranged {kind : RequestKind}
    (htags : kind.tags = [.username, .password]) (hfs : kind.Complete fs)
    (hre : kind.Rearranged fs gs) : parseCredentials m = parseCredentials m' := by
  have hfits := RequestKind.Rearranged.fits hre CredentialFits fun f hf => by
    constructor <;> intro ht <;>
      rw [RequestKind.knows_of_mem (by rw [htags]; decide) ht] at hf <;> cases hf
  refine reading_ext (fun _ => parseCredentials_error) (fun _ => parseCredentials_error) fun c => ?_
  rw [parseCredentials_iff hm, parseCredentials_iff hm', hfits,
    RequestKind.Rearranged.last hfs hre .username (by rw [htags]; decide),
    RequestKind.Rearranged.last hfs hre .password (by rw [htags]; decide)]

theorem parseWorldBroadcast_rearranged (hfs : RequestKind.world.Complete fs)
    (hre : RequestKind.world.Rearranged fs gs) :
    parseWorldBroadcast m = parseWorldBroadcast m' := by
  have hfits := RequestKind.Rearranged.fits hre WorldFits fun f hf ht => by
    rw [RequestKind.knows_of_mem (by decide) ht] at hf
    cases hf
  refine reading_ext (fun _ => parseWorldBroadcast_error) (fun _ => parseWorldBroadcast_error)
    fun b => ?_
  rw [parseWorldBroadcast_iff hm, parseWorldBroadcast_iff hm', hfits,
    RequestKind.Rearranged.last hfs hre .worldBroadcast (by decide),
    RequestKind.Rearranged.last hfs hre .senderUsername (by decide),
    RequestKind.Rearranged.last hfs hre .messageContent (by decide)]

theorem parseP2pBroadcast_rearranged (hfs : RequestKind.p2p.Complete fs)
    (hre : RequestKind.p2p.Rearranged fs gs) : parseP2pBroadcast m = parseP2pBroadcast m' := by
  have hfits := RequestKind.Rearranged.fits hre P2pFits fun f hf => by
    constructor <;> intro ht <;> rw [RequestKind.knows_of_mem (by decide) ht] at hf <;> cases hf
  refine reading_ext (fun _ => parseP2pBroadcast_error) (fun _ => parseP2pBroadcast_error)
    fun b => ?_
  rw [parseP2pBroadcast_iff hm, parseP2pBroadcast_iff hm', hfits,
    RequestKind.Rearranged.last hfs hre .p2pBroadcast (by decide),
    RequestKind.Rearranged.last hfs hre .senderUsername (by decide),
    RequestKind.Rearranged.last hfs hre .recipientUsername (by decide),
    RequestKind.Rearranged.last hfs hre .messageContent (by decide)]

end Parsers

/-! ## Frames of requests -/

section Frame

variable (version rc : UInt8) (type : MsgType) {fs : List Field}
  (h : (Tlv.encode fs).length ≤ MSG_MAX_PAYLOAD_SIZE.toNat)

include h

theorem completeFrame_requestFrame : CompleteFrame (requestFrame version type rc fs) := by
  unfold CompleteFrame
  rw [parseMessage_requestFrame, length_requestFrame]
  exact ⟨congrArg (MSG_HEADER_SIZE + ·) (toNat_payload h).symm, payload_not_too_big h⟩

end Frame

theorem header_lt_requestFrame (version rc : UInt8) (type : MsgType) {fs : List Field} {f : Field}
    (hf : f ∈ fs) (d : Bytes) :
    MSG_HEADER_SIZE + 1 ≤ (requestFrame version type rc fs ++ d).length := by
  have hfield : f.encode.length ≤ (Tlv.encode fs).length := by
    obtain ⟨as, bs, rfl⟩ := List.append_of_mem hf
    rw [Tlv.encode_append, Tlv.encode_cons, List.length_append, List.length_append]
    omega
  rw [Field.length_encode] at hfield
  rw [List.length_append, length_requestFrame]
  omega

/-- The first tag is at the place where `peek_broadcast_type` looks. -/
theorem peekBroadcastType_opens {version rc : UInt8} {kind : RequestKind} {tag : TlvTag}
    {fs : List Field} (hopen : kind.opening = some tag) (h : kind.Opens fs) :
    peekBroadcastType (parseMessage (requestFrame version kind.type rc fs)) = tag.code := by
  rw [parseMessage_requestFrame]
  have hfirst := h tag hopen
  cases fs with
  | nil => cases hfirst
  | cons f fs => exact Option.some.inj hfirst

/-! ## The outcome -/

/-- The tables, and all slots, are the same. -/
structure SameTables (s t : Server) : Prop where
  listenfd : t.listenfd = s.listenfd
  status : t.status = s.status
  size : t.getSize = s.getSize
  db : t.db = s.db
  slot : ∀ j, t.slot j = s.slot j

section Outcome

variable {kind : RequestKind} {fs gs : List Field} (hfs : kind.Complete fs)
  (hre : kind.Rearranged fs gs) (hopen₁ : kind.Opens fs) (hopen₂ : kind.Opens gs)
  (hlen₁ : (Tlv.encode fs).length ≤ MSG_MAX_PAYLOAD_SIZE.toNat)
  (hlen₂ : (Tlv.encode gs).length ≤ MSG_MAX_PAYLOAD_SIZE.toNat)

include hfs hre hopen₁ hopen₂ hlen₁ hlen₂

/-- The handlers see the same request. -/
theorem dispatch_rearranged (s : Server) (c : Nat) (version rc : UInt8) (o : SqlOutcome) :
    s.dispatch c (parseMessage (requestFrame version kind.type rc fs)) o =
      s.dispatch c (parseMessage (requestFrame version kind.type rc gs)) o := by
  have hm₁ := payloadBytes_requestFrame version rc kind.type hlen₁
  have hm₂ := payloadBytes_requestFrame version rc kind.type hlen₂
  have ht : ∀ l, (parseMessage (requestFrame version kind.type rc l)).type = kind.type.code := by
    intro l
    rw [parseMessage_requestFrame]
  cases kind with
  | register =>
    have hp := parseCredentials_rearranged hm₁ hm₂ rfl hfs hre
    rw [dispatch_register (ht fs), dispatch_register (ht gs)]
    simp only [Server.registerUser, parseRegisterRequest, hp]
  | login =>
    have hp := parseCredentials_rearranged hm₁ hm₂ rfl hfs hre
    rw [dispatch_login (ht fs), dispatch_login (ht gs)]
    simp only [Server.loginUser, parseLoginRequest, hp]
  | world =>
    have hp := parseWorldBroadcast_rearranged hm₁ hm₂ hfs hre
    rw [dispatch_chat (ht fs), dispatch_chat (ht gs)]
    simp only [Server.handleBroadcastMessage, peekBroadcastType_opens rfl hopen₁,
      peekBroadcastType_opens rfl hopen₂, Server.handleWorldBroadcast, hp, ↓reduceIte]
  | p2p =>
    have hp := parseP2pBroadcast_rearranged hm₁ hm₂ hfs hre
    have hne : ¬ TlvTag.p2pBroadcast.code = TlvTag.worldBroadcast.code := by decide
    rw [dispatch_chat (ht fs), dispatch_chat (ht gs)]
    simp only [Server.handleBroadcastMessage, peekBroadcastType_opens rfl hopen₁,
      peekBroadcastType_opens rfl hopen₂, hne, Server.handleP2pBroadcast, hp, ↓reduceIte]

/-- **The order of the fields, and fields of other tags, make no difference**, as long as a
CHAT payload begins with its broadcast tag. In every state and whatever follows in the incoming
buffer, `try_one_request` serves both frames with one response and one effect. -/
theorem field_order_irrelevant (s : Server) (c : Nat) (version rc : UInt8) (d : Bytes)
    (o : SqlOutcome) :
    let r₁ := (s.setIncoming c (requestFrame version kind.type rc fs ++ d)).tryOneRequest c o
    let r₂ := (s.setIncoming c (requestFrame version kind.type rc gs ++ d)).tryOneRequest c o
    r₁.2 = true ∧ r₂.2 = true ∧ SameTables r₁.1 r₂.1 ∧
      ∃ response view,
        .served ⟨c, requestFrame version kind.type rc fs, response, view, o⟩ ∈ r₁.1.log ∧
        .served ⟨c, requestFrame version kind.type rc gs, response, view, o⟩ ∈ r₂.1.log := by
  intro r₁ r₂
  obtain ⟨f, hf, hk⟩ := RequestKind.exists_known hfs
  have hg : f ∈ gs := (List.mem_filter.mp (hre.mem_iff.mp (List.mem_filter.mpr ⟨hf, hk⟩))).1
  have hr₁ : r₁ = _ := tryOneRequest_frame s c o (completeFrame_requestFrame version rc kind.type hlen₁)
    (header_lt_requestFrame version rc kind.type hf d)
  have hr₂ : r₂ = _ := tryOneRequest_frame s c o (completeFrame_requestFrame version rc kind.type hlen₂)
    (header_lt_requestFrame version rc kind.type hg d)
  have hd := dispatch_rearranged hfs hre hopen₁ hopen₂ hlen₁ hlen₂ s c version rc o
  obtain ⟨hsize, hstatus, hlisten⟩ := serve_frame s c (requestFrame version kind.type rc fs) o d
  obtain ⟨hsize', hstatus', hlisten'⟩ := serve_frame s c (requestFrame version kind.type rc gs) o d
  have htables : SameTables ((s.serveFrame c (requestFrame version kind.type rc fs) o).setIncoming c d)
      ((s.serveFrame c (requestFrame version kind.type rc gs) o).setIncoming c d) := by
    refine ⟨hlisten'.trans hlisten.symm, hstatus'.trans hstatus.symm, hsize'.trans hsize.symm, ?_,
      fun j => ?_⟩
    · rw [db_serve, db_serve, hd]
    · rw [slot_serve, slot_serve, hd]
  have hserved : ∀ l, .served ⟨c, requestFrame version kind.type rc l,
      (s.dispatch c (parseMessage (requestFrame version kind.type rc l)) o).2, s.view, o⟩ ∈
        ((s.serveFrame c (requestFrame version kind.type rc l) o).setIncoming c d).log := by
    intro l
    rw [log_served]
    exact List.mem_append_right _ List.mem_cons_self
  have hgs := hserved gs
  rw [← hd] at hgs
  rw [hr₁, hr₂]
  exact ⟨rfl, rfl, htables, _, s.view, hserved fs, hgs⟩

end Outcome

/-- The fields of a world broadcast of "hi" that names `b` as its sender. -/
def hiFields : List Field := worldFields ⟨[98], [104, 105]⟩

/-- Connection 5 says "hi" with the content before the sender, and with a timestamp in between. -/
theorem field_order_irrelevant_hi :
    let s := (Server.boot 8 3 .empty).iterate twoSignedIn
    let gs := [textField .worldBroadcast [], textField .messageContent [104, 105],
      textField .timestamp [1], textField .senderUsername [98]]
    SameTables ((s.setIncoming 5 (requestFrame 1 .chat 0 hiFields ++ [])).tryOneRequest 5 {}).1
      ((s.setIncoming 5 (requestFrame 1 .chat 0 gs ++ [])).tryOneRequest 5 {}).1 := by
  intro s gs
  have hre : RequestKind.world.Rearranged hiFields gs :=
    List.Perm.cons _ (List.Perm.swap (textField .messageContent [104, 105])
      (textField .senderUsername [98]) [])
  have hopen : ∀ fs : List Field, fs.head?.map Field.tag = some TlvTag.worldBroadcast.code →
      RequestKind.world.Opens fs := by
    intro fs hfs tag htag
    obtain rfl := Option.some.inj htag
    exact hfs
  exact (field_order_irrelevant (by decide) hre (hopen _ rfl) (hopen _ rfl) (by decide) (by decide)
    s 5 1 0 [] {}).2.2.1

/-- The same with the sender before the broadcast tag: the first is delivered, the second, a
permutation of it, is answered `RESP_ERROR_MALFORMED`. -/
theorem broadcast_tag_behind_sender_rejected :
    let s := (Server.boot 8 3 .empty).iterate twoSignedIn
    let gs := [textField .senderUsername [98], textField .worldBroadcast [],
      textField .messageContent [104, 105]]
    let r₁ := (s.setIncoming 5 (requestFrame 1 .chat 0 hiFields)).tryOneRequest 5 {}
    let r₂ := (s.setIncoming 5 (requestFrame 1 .chat 0 gs)).tryOneRequest 5 {}
    Reaches (Server.boot 8 3 .empty) s ∧ RequestKind.world.Complete hiFields ∧ hiFields.Perm gs ∧
      (s.dispatch 5 (parseMessage (requestFrame 1 .chat 0 hiFields)) {}).2.rc =
        ResponseCode.ok.byte ∧
      (s.dispatch 5 (parseMessage (requestFrame 1 .chat 0 gs)) {}).2.rc =
        ResponseCode.malformed.byte ∧
      (r₁.1.slot 6).outgoing ≠ [] ∧ (r₂.1.slot 6).outgoing = [] := by
  intro s gs r₁ r₂
  exact ⟨reaches_twoSignedIn, by decide, List.Perm.swap _ _ _, by decide +kernel,
    by decide +kernel, by decide +kernel, by decide +kernel⟩

end ChatServer
