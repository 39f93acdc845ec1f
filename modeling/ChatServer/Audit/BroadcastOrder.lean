import ChatServer.Audit.Delivery
import ChatServer.Audit.OutputStream

/-!
# Total order of world broadcasts

World broadcasts are queued in the order in which they are served, to the sender with its
response and to everyone else within the request, so two connections that are signed in
over a stretch of the run are queued the same frames in the same order.
-/

namespace ChatServer

/-- A world broadcast answered `RESP_OK`. -/
def Served.isWorld (r : Served) : Bool :=
  r.response.type == MsgType.chat.code && r.response.rc == 0 &&
    peekBroadcastType (parseMessage r.frame) == TlvTag.worldBroadcast.code

def Entry.world : Entry → List Served
  | .served r => if r.isWorld then [r] else []
  | .sys _ => []

/-- The successful world broadcasts of a stretch, in the order in which they are served. -/
def worlds (stretch : List Entry) : List Served := stretch.flatMap Entry.world

/-- The world-broadcast frames queued for `i` over a stretch. -/
def worldFramesTo (i : Nat) (stretch : List Entry) : List Bytes :=
  (worlds stretch).flatMap (Served.framesTo i)

/-- The connection is signed in whenever a request of the stretch is served. -/
def SignedInThroughout (i : Nat) (stretch : List Entry) : Prop :=
  ∀ r, .served r ∈ stretch → hasFlag (r.view.flags i) .isAuth = true

theorem mem_worlds {stretch : List Entry} {r : Served} (h : r ∈ worlds stretch) :
    .served r ∈ stretch ∧ r.isWorld = true := by
  obtain ⟨e, he, hr⟩ := List.mem_flatMap.mp h
  cases e with
  | sys k => exact absurd hr List.not_mem_nil
  | served r' =>
    rw [Entry.world] at hr
    split at hr
    · obtain rfl := List.mem_singleton.mp hr
      exact ⟨he, ‹_›⟩
    · exact absurd hr List.not_mem_nil

/-- A signed-in connection gets exactly one frame of a world broadcast, its own or not. -/
theorem framesTo_world {r : Served} {i : Nat} (hr : r.isWorld = true)
    (hi : hasFlag (r.view.flags i) .isAuth = true) (hsize : i < r.view.size) :
    r.framesTo i = [r.response.wire] := by
  simp only [Served.isWorld, Bool.and_eq_true, beq_iff_eq] at hr
  obtain ⟨⟨htype, hrc⟩, hk⟩ := hr
  have hne : ¬ peekBroadcastType (parseMessage r.frame) = TlvTag.p2pBroadcast.code := by
    rw [hk]
    decide
  unfold Served.framesTo
  by_cases hc : r.conn = i
  · rw [if_pos hc]
  · have hmem : i ∈ r.view.recipients r.conn (parseMessage r.frame) := by
      rw [View.recipients, if_neg hne]
      exact View.mem_others.mpr ⟨hsize, hi, Ne.symm hc⟩
    rw [if_neg hc, if_pos ⟨htype, hrc, hmem⟩]

/-- Whoever is signed in when a request is served has a slot in the table. -/
def SignedInWithin (_ : List Entry) (r : Served) : Prop :=
  ∀ i, hasFlag (r.view.flags i) .isAuth = true → i < r.view.size

theorem Steps.signedInWithin {capacity listenfd : Nat} {db : Db} {s : Server}
    (h : Steps (Server.boot capacity listenfd db) s) : AtEach SignedInWithin s.log := by
  induction h with
  | refl => exact atEach_nil _
  | tail hsteps hst ih =>
    obtain ⟨c, hst⟩ := hst
    exact hst.atEach ih fun _ _ _ _ _ _ hi => (Steps.tidy hsteps).lt_size hi

theorem worldFramesTo_eq {i : Nat} {log pre mid post : List Entry}
    (hwithin : AtEach SignedInWithin log) (hlog : log = pre ++ mid ++ post)
    (hi : SignedInThroughout i mid) :
    worldFramesTo i mid = (worlds mid).map fun r => r.response.wire := by
  have heach : ∀ r ∈ worlds mid, r.framesTo i = [r.response.wire] := by
    intro r hr
    obtain ⟨hmem, hworld⟩ := mem_worlds hr
    obtain ⟨as, bs, rfl⟩ := List.append_of_mem hmem
    have hsize : i < r.view.size := by
      refine hwithin (pre ++ as) r (bs ++ post) ?_ i (hi r hmem)
      rw [hlog]
      simp only [List.append_assoc, List.cons_append]
    exact framesTo_world hworld (hi r hmem) hsize
  unfold worldFramesTo
  generalize worlds mid = l at heach ⊢
  induction l with
  | nil => rfl
  | cons r l ih =>
    rw [List.flatMap_cons, List.map_cons, heach r List.mem_cons_self,
      ih fun r' hr' => heach r' (List.mem_cons_of_mem _ hr')]
    rfl

theorem worldFramesTo_sublist (i : Nat) (stretch : List Entry) :
    List.Sublist (worldFramesTo i stretch) (framesFor i stretch) := by
  induction stretch with
  | nil => exact .slnil
  | cons e es ih =>
    have hw : worldFramesTo i (e :: es) = e.world.flatMap (Served.framesTo i) ++
        worldFramesTo i es := by
      rw [worldFramesTo, worlds, List.flatMap_cons, List.flatMap_append]
      rfl
    have hf : framesFor i (e :: es) = e.framesTo i ++ framesFor i es := List.flatMap_cons
    rw [hw, hf]
    refine List.Sublist.append ?_ ih
    cases e with
    | sys k => exact .slnil
    | served r =>
      rw [Entry.world]
      split
      · rw [List.flatMap_singleton]
        exact .refl _
      · exact List.nil_sublist _

/-- The world broadcasts of a sender are among its requests, in the order of these. -/
theorem worlds_sublist_requestsOn (a : Nat) (stretch : List Entry) :
    List.Sublist (((worlds stretch).filter (·.conn == a)).map (·.frame)) (requestsOn a stretch) := by
  induction stretch with
  | nil => exact .slnil
  | cons e es ih =>
    have hw : worlds (e :: es) = e.world ++ worlds es := List.flatMap_cons
    have hq : requestsOn a (e :: es) = e.requestOn a ++ requestsOn a es := List.flatMap_cons
    rw [hw, hq, List.filter_append, List.map_append]
    refine List.Sublist.append ?_ ih
    cases e with
    | sys k => exact .slnil
    | served r =>
      simp only [Entry.world, Entry.requestOn]
      by_cases hc : r.conn = a
      · rw [if_pos hc]
        split
        · rw [List.filter_cons, if_pos (by simpa using hc)]
          exact .refl _
        · exact List.nil_sublist _
      · rw [if_neg hc]
        split
        · rw [List.filter_cons, if_neg (by simpa using hc)]
          exact .slnil
        · exact .slnil

/-- **Total order of world broadcasts.** Over a stretch of a run in which both `i` and `j`
are signed in, the successful world-broadcast frames queued to them are the same, in
the same order. Of each sender they are in the order of its requests, which is the
order of the bytes it sent. -/
theorem world_broadcasts_totally_ordered {capacity listenfd : Nat} {db : Db} {s : Server}
    (h : Reaches (Server.boot capacity listenfd db) s) {pre mid post : List Entry}
    (hlog : s.log = pre ++ mid ++ post) {i j : Nat} (hi : SignedInThroughout i mid)
    (hj : SignedInThroughout j mid) :
    worldFramesTo i mid = worldFramesTo j mid ∧
      worldFramesTo i mid = (worlds mid).map (·.response.wire) ∧
      (∀ k, s.emitted k = (framesFor k pre ++ framesFor k mid ++ framesFor k post).flatten ∧
        List.Sublist (worldFramesTo k mid) (framesFor k mid)) ∧
      ∀ a, List.Sublist (((worlds mid).filter (·.conn == a)).map (·.frame)) (requestsOn a mid) ∧
        bytesRead a s.log =
          (requestsOn a pre ++ requestsOn a mid ++ requestsOn a post).flatten ++
            (s.slot a).incoming := by
  have hwi := worldFramesTo_eq h.steps.signedInWithin hlog hi
  have hwj := worldFramesTo_eq h.steps.signedInWithin hlog hj
  refine ⟨hwi.trans hwj.symm, hwi, fun k => ⟨?_, ?_⟩, fun a => ⟨?_, ?_⟩⟩
  · rw [(h.steps.whole k).1.1, hlog, framesFor_append, framesFor_append]
  · exact worldFramesTo_sublist k mid
  · exact worlds_sublist_requestsOn a mid
  · have hin := (h.steps.whole a).2
    unfold Server.InputWhole at hin
    rw [hin, hlog, requestsOn_append, requestsOn_append]

/-- In the run with two accounts, connection 5 sends two broadcasts at once. -/
theorem world_broadcasts_totally_ordered_two :
    let s := ((Server.boot 8 3 .empty).iterate twoSignedIn).iterate
      (.ready [⟨5, false, { reads := [.bytes (hiFrame ++ hiFrame)] }⟩])
    let stretch := s.log.drop ((Server.boot 8 3 .empty).iterate twoSignedIn).log.length
    (worldFramesTo 5 stretch).length = 2 ∧ worldFramesTo 5 stretch = worldFramesTo 6 stretch := by
  intro s stretch
  have hlen : (worldFramesTo 5 stretch).length = 2 := by decide +kernel
  have hreach : Reaches (Server.boot 8 3 .empty) s :=
    reaches_twoSignedIn.tail ⟨_, by simp [Wait.Legal, Event.Legal], rfl⟩
  have hboth : ∀ r, .served r ∈ stretch →
      hasFlag (r.view.flags 5) .isAuth = true ∧ hasFlag (r.view.flags 6) .isAuth = true := by
    decide +kernel
  have hlog : s.log = s.log.take ((Server.boot 8 3 .empty).iterate twoSignedIn).log.length ++
      stretch ++ [] := by
    rw [List.append_nil, List.take_append_drop]
  exact ⟨hlen, (world_broadcasts_totally_ordered hreach hlog (fun r hr => (hboth r hr).1)
    fun r hr => (hboth r hr).2).1⟩

end ChatServer
