import Mathlib.Data.Set.Card
import ChatServer.Audit.Conversation
import ChatServer.Model.Commands

/-!
# What `/metrics` reports

However a line on standard input is split and interrupted, the metrics are printed exactly for the
line `/metrics`; and in every reachable state they count the connections that were opened and not
left, and those of them with a login that stands.
-/

namespace ChatServer

open EdgeTrigger (Rv)

/-! ## The line -/

/-- The bytes that are read before the loop ends. -/
def inputBytes : List (Rv UInt8) → Bytes
  | .bytes (b :: bs) :: rvs => b :: bs ++ inputBytes rvs
  | .fail e :: rvs => if e = .EINTR then inputBytes rvs else []
  | _ => []

theorem cString_of_not_mem {bs : Bytes} (h : 0 ∉ bs) : cString bs = bs := by
  rw [cString, List.takeWhile_eq_self_iff]
  rintro b hb
  simpa using fun h0 : b = 0 => h (h0 ▸ hb)

section Lines

variable {commandBuffer : Bytes} {inputComplete : Bool} {reads : List (Rv UInt8)}

theorem getLast?_append_cons (as : Bytes) (b : UInt8) (bs : Bytes) :
    (as ++ b :: bs).getLast? = some ((b :: bs).getLast (List.cons_ne_nil _ _)) := by
  rw [List.getLast?_append, List.getLast?_eq_some_getLast (List.cons_ne_nil b bs)]
  rfl

/-- Without a NUL the buffer is what was read, and the input is complete if that ends in a
newline, and only if there is one. -/
theorem readServerInput_text (hreads : 0 ∉ inputBytes reads) :
    ∃ complete, readServerInput commandBuffer inputComplete reads =
        some (commandBuffer ++ inputBytes reads, complete) ∧
      (complete = true → inputComplete = true ∨ commandEnd ∈ inputBytes reads) ∧
      (inputComplete = true ∨ (inputBytes reads).getLast? = some commandEnd →
        complete = true) := by
  induction reads generalizing commandBuffer inputComplete with
  | nil => exact ⟨inputComplete, by simp [readServerInput, inputBytes], .inl, by simp [inputBytes]⟩
  | cons answer reads ih =>
    cases answer with
    | bytes bs =>
      cases bs with
      | nil =>
        exact ⟨inputComplete, by simp [readServerInput, inputBytes], .inl, by simp [inputBytes]⟩
      | cons b bs =>
        rw [inputBytes, List.mem_append, not_or] at hreads
        have hchunk : cString (b :: bs) = b :: bs := cString_of_not_mem hreads.1
        have hback := getLast?_append_cons commandBuffer b bs
        have hnext := @ih (commandBuffer ++ b :: bs)
          (inputComplete || (b :: bs).getLast (List.cons_ne_nil _ _) == commandEnd) hreads.2
        obtain ⟨complete, hread, hsome, hlast⟩ := hnext
        refine ⟨complete, ?_, fun hc => ?_, fun hc => hlast ?_⟩
        · rw [readServerInput, hchunk, hback]
          simp only [hread, inputBytes, List.append_assoc]
        · rw [inputBytes, List.mem_append]
          obtain hc | hc := hsome hc
          · obtain hc | hc := Bool.or_eq_true_iff.mp hc
            · exact .inl hc
            · exact .inr (.inl (beq_iff_eq.mp hc ▸ List.getLast_mem _))
          · exact .inr (.inr hc)
        · rw [Bool.or_eq_true, beq_iff_eq]
          obtain hc | hc := hc
          · exact .inl (.inl hc)
          · rw [inputBytes] at hc
            -- The last byte of all is that of the last portion that is not empty.
            cases hrest : inputBytes reads with
            | nil =>
              rw [hrest, List.append_nil,
                List.getLast?_eq_some_getLast (List.cons_ne_nil b bs)] at hc
              exact .inl (.inr (Option.some.inj hc))
            | cons b' bs' =>
              rw [hrest, getLast?_append_cons] at hc
              exact .inr (by rw [List.getLast?_eq_some_getLast (List.cons_ne_nil b' bs'), hc])
    | fail e =>
      by_cases hblock : isWouldBlock e = true
      · have he : e = .EAGAIN := by simpa [isWouldBlock] using hblock
        subst he
        exact ⟨inputComplete, by simp [readServerInput, inputBytes, hblock], .inl,
          by simp [inputBytes]⟩
      · by_cases he : e = .EINTR
        · subst he
          simp only [readServerInput, inputBytes, hblock, ↓reduceIte] at hreads ⊢
          exact ih hreads
        · exact ⟨inputComplete, by simp [readServerInput, inputBytes, hblock, he], .inl,
            by simp [inputBytes, he]⟩

/-- A buffer that is not empty has a last byte. -/
theorem readServerInput_isSome (h : commandBuffer ≠ []) :
    readServerInput commandBuffer inputComplete reads ≠ none := by
  fun_induction readServerInput commandBuffer inputComplete reads with
  | case1 => simp
  | case2 => simp
  | case3 commandBuffer _ b bs _ hback =>
    rw [List.getLast?_eq_none_iff, List.append_eq_nil_iff] at hback
    exact absurd hback.1 h
  | case4 commandBuffer _ b bs _ _ _ ih => exact ih (by simp [h])
  | case5 => simp
  | case6 _ _ _ _ ih => exact ih h
  | case7 => simp

/-- The first byte of all, if it is a NUL, leaves the buffer empty. -/
theorem readServerInput_eq_none :
    readServerInput [] inputComplete reads = none ↔ (inputBytes reads).head? = some 0 := by
  induction reads generalizing inputComplete with
  | nil => simp [readServerInput, inputBytes]
  | cons answer reads ih =>
    cases answer with
    | bytes bs =>
      cases bs with
      | nil => simp [readServerInput, inputBytes]
      | cons b bs =>
        by_cases hb : b = 0
        · subst hb
          simp [readServerInput, inputBytes, cString]
        · have hne : cString (b :: bs) = b :: cString bs := by
            simp [cString, hb]
          have hsome := @readServerInput_isSome (b :: cString bs)
          simp only [readServerInput, List.nil_append, hne, inputBytes, List.cons_append,
            List.head?_cons, Option.some.injEq, hb, iff_false]
          split
          · rename_i hback
            simp at hback
          · exact hsome (List.cons_ne_nil _ _)
    | fail e =>
      by_cases hblock : isWouldBlock e = true
      · have he : e = .EAGAIN := by simpa [isWouldBlock] using hblock
        subst he
        simp [readServerInput, inputBytes, hblock]
      · by_cases he : e = .EINTR
        · subst he
          simp only [readServerInput, inputBytes, hblock, ↓reduceIte]
          exact ih
        · simp [readServerInput, inputBytes, hblock, he]

end Lines

/-! ## The counts -/

theorem foldl_countConnection (flags : List ConnFlags) (n m : Nat) :
    flags.foldl countConnection (n, m) =
      (n + flags.countP (hasFlag · .isActive),
        m + flags.countP fun f => hasFlag f .isActive && hasFlag f .isAuth) := by
  induction flags generalizing n m with
  | nil => rfl
  | cons f flags ih =>
    rw [List.foldl_cons, countConnection]
    cases ha : hasFlag f .isActive with
    | false => simp [ih, ha]
    | true =>
      cases hauth : hasFlag f .isAuth with
      | false => simp [ih, ha, hauth, Nat.add_comm, Nat.add_assoc]
      | true => simp [ih, ha, hauth, Nat.add_comm, Nat.add_assoc]

/-- What is counted over the table, if it holds of no slot behind its end. -/
theorem countP_range_eq_ncard {p : Nat → Bool} {n : Nat} (hp : ∀ i, p i = true → i < n) :
    (List.range n).countP p = Set.ncard {i | p i = true} := by
  have hset : {i | p i = true} = (((List.range n).filter p).toFinset : Set Nat) := by
    ext i
    simpa using hp i
  rw [hset, Set.ncard_coe_finset, List.toFinset_card_of_nodup (List.nodup_range.filter p),
    List.countP_eq_length_filter]

section Metrics

variable {s : Server} {a : Service}

theorem logServerMetrics_eq (hs : Tidy s) : s.logServerMetrics =
    (Set.ncard {c | hasFlag (s.slot c).flags .isActive = true},
      Set.ncard {c | hasFlag (s.slot c).flags .isAuth = true}) := by
  have hactive : ∀ c, hasFlag (s.slot c).flags .isActive = true → c < s.getSize := fun c hc =>
    hs.lt_size hc
  have hauth : ∀ c,
      (hasFlag (s.slot c).flags .isActive && hasFlag (s.slot c).flags .isAuth) = true ↔
        hasFlag (s.slot c).flags .isAuth = true := fun c => by
    rw [Bool.and_eq_true]
    exact ⟨And.right, fun h => ⟨hs.active h, h⟩⟩
  rw [Server.logServerMetrics, foldl_countConnection, List.countP_map, List.countP_map,
    Nat.zero_add, Nat.zero_add]
  refine Prod.ext ?_ ?_
  · exact countP_range_eq_ncard hactive
  · refine (countP_range_eq_ncard fun c hc => hs.lt_size ((hauth c).mp hc)).trans ?_
    exact congrArg Set.ncard (Set.ext hauth)

theorem Represents.connected_iff (h : Represents s a) (c : Nat) :
    a.session c ≠ .absent ↔ hasFlag (s.slot c).flags .isActive = true := by
  have hshows := h.session c
  cases hsession : a.session c with
  | absent =>
    rw [hsession] at hshows
    exact iff_of_false (fun hne => hne rfl) (Bool.eq_false_iff.mp hshows)
  | guest =>
    rw [hsession] at hshows
    exact iff_of_true (by simp) hshows.1
  | member k =>
    rw [hsession] at hshows
    exact iff_of_true (by simp) hshows.1

end Metrics

/-! ## The command -/

section Outcome

variable {s : Server} {reads : List (Rv UInt8)}

theorem handleServerInput_undefined :
    (s.handleServerInput reads).rc = none ↔ readServerInput [] false reads = none := by
  unfold Server.handleServerInput
  cases readServerInput [] false reads with
  | none => exact iff_of_true rfl rfl
  | some r =>
    refine iff_of_false ?_ (by simp)
    dsimp only
    split_ifs <;> simp [CommandOutcome.rc]

/-- The command is the buffer without the newline at its end. -/
theorem handleServerInput_line {line : Bytes} {complete : Bool}
    (hread : readServerInput [] false reads = some (line, complete))
    (hsome : complete = true → commandEnd ∈ line)
    (hlast : line.getLast? = some commandEnd → complete = true) :
    (s.handleServerInput reads).rc = some 0 ↔ line = metricsCommand ++ [commandEnd] := by
  have hno : commandEnd ∉ metricsCommand := by decide
  simp only [Server.handleServerInput, hread]
  cases complete with
  | false =>
    refine iff_of_false (by simp [CommandOutcome.rc]) fun hline => ?_
    exact absurd (hlast (by rw [hline, List.getLast?_concat])) Bool.false_ne_true
  | true =>
    simp only [Bool.not_true, Bool.false_eq_true, ↓reduceIte]
    by_cases hend : line.getLast? = some commandEnd
    · have hsplit : line.dropLast ++ [commandEnd] = line := List.dropLast_append_getLast? _ hend
      rw [if_pos hend, ← hsplit, List.append_cancel_right_eq, List.dropLast_concat]
      split_ifs with hcommand <;> simp [CommandOutcome.rc, hcommand]
    · have hnot : line ≠ metricsCommand := fun he => hno (he ▸ hsome rfl)
      rw [if_neg hend, if_neg hnot]
      refine iff_of_false (by simp [CommandOutcome.rc]) fun hline => hend ?_
      rw [hline, List.getLast?_concat]

theorem handleServerInput_metrics {n m : Nat} (h : s.handleServerInput reads = .metrics n m) :
    s.logServerMetrics = (n, m) := by
  unfold Server.handleServerInput at h
  split at h
  · cases h
  · dsimp only at h
    split_ifs at h
    all_goals
      cases h
      rfl

end Outcome

/-- However the input is split and interrupted, `/metrics` is obeyed exactly if the line is that
word, and nothing is undefined unless the first byte is a NUL. What is printed are the numbers of
connections opened and not left, and of those with a login that stands. -/
theorem metrics_command {capacity listenfd : Nat} {db : Db} {s : Server} (hdb : InsertedOnly db)
    (h : Reaches (Server.boot capacity listenfd db) s) (reads : List (Rv UInt8)) :
    ((s.handleServerInput reads).rc = none ↔ (inputBytes reads).head? = some 0) ∧
      (0 ∉ inputBytes reads → ((s.handleServerInput reads).rc = some 0 ↔
        inputBytes reads = metricsCommand ++ [commandEnd])) ∧
      ∀ n m, s.handleServerInput reads = .metrics n m →
        n = Set.ncard {c | Chat.Connected s.events c} ∧
          m = Set.ncard {c | Chat.Online s.events c} := by
  refine ⟨handleServerInput_undefined.trans readServerInput_eq_none, fun hnul => ?_,
    fun n m hmetrics => ?_⟩
  · obtain ⟨complete, hread, hsome, hlast⟩ := @readServerInput_text [] false reads hnul
    exact handleServerInput_line hread (fun hc => (hsome hc).resolve_left Bool.false_ne_true)
      fun hl => hlast (.inr hl)
  · obtain ⟨a, hrun, hrep⟩ :=
      (h.steps.represents hdb False.elim : ∃ a, Chat.Run serverRules False _ _ a ∧ _)
    have htidy := Steps.tidy h.steps
    have hcounts := handleServerInput_metrics hmetrics
    rw [logServerMetrics_eq htidy] at hcounts
    cases hcounts
    constructor
    · congr 1
      ext c
      exact ((hrun.explained.connected c).trans (hrep.connected_iff c)).symm
    · congr 1
      ext c
      exact ((hrun.explained.online c).trans (mem_members_iff hrep htidy c)).symm

/-- Two clients are logged in when the word comes in two portions. -/
theorem metrics_command_twoSignedIn :
    let s := (Server.boot 8 3 .empty).iterate twoSignedIn
    let reads : List (Rv UInt8) := [.bytes [47, 109, 101], .fail .EINTR,
      .bytes [116, 114, 105, 99, 115, 10]]
    s.handleServerInput reads = .metrics 2 2 ∧
      Set.ncard {c | Chat.Online s.events c} = 2 := by
  intro s reads
  have hprinted : s.handleServerInput reads = .metrics 2 2 := by decide +kernel
  exact ⟨hprinted, ((metrics_command .empty reaches_twoSignedIn reads).2.2 2 2 hprinted).2.symm⟩

end ChatServer
