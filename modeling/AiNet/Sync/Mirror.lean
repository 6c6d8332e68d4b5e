import AiNet.Sync.Poll

/-!
# The mirror of the registry

The sync has processed a first part of the history, the rows are what that part makes of the empty table,
and the cursor, with the ledgers that polls are to begin at, is not past it (`Sound`). An answer is a slice of
the history. Where it begins in the part that was processed and reaches as far, the part that is given again
has no further effect, and the rest extends it.
-/

namespace AiNet.Sync

open Core AiNet.Agents AiNet.AgentRegistry List Option System Nat

/-! ## Orders of processing -/

theorem InOrder.snoc {applied : List Nat} {j : Nat} (h : InOrder applied) (hj : ∀ i < j, i ∈ applied) :
    InOrder (applied ++ [j]) := by
  intro before k after heq
  rcases eq_nil_or_concat after with rfl | ⟨after', last, rfl⟩
  · obtain ⟨rfl, hla⟩ := append_inj' heq rfl
    rw [← (List.cons.inj hla).1]
    exact hj
  · rw [concat_eq_append, ← cons_append, ← append_assoc] at heq
    exact h before k after' (append_inj' heq rfl).1

theorem InOrder.range' {applied : List Nat} {start : Nat} (h : InOrder applied)
    (hsta : ∀ i < start, i ∈ applied) (n : Nat) : InOrder (applied ++ List.range' start n) := by
  induction n with
  | zero =>
    rw [range'_zero, append_nil]
    exact h
  | succ n ih =>
    rw [range'_1_concat, ← append_assoc]
    refine ih.snoc fun i hi => ?_
    by_cases hlt : i < start
    · exact mem_append_left _ (hsta i hlt)
    · refine mem_append_right _ (mem_range'_1.mpr ?_)
      omega

/-! ## The invariant -/

variable {env : AgentRegistry.Env Text Text} {toXLM : Int → Rat}

/-- The first `F` events were processed. -/
structure Sound (toXLM : Int → Rat) (s : State) (F : Nat) : Prop where
  sorted : SortedBy Prod.fst s.history
  past : ∀ event ∈ s.history, event.1 ≤ s.chain.sequence
  view : ∀ id, chainView toXLM s.chain id = effects toXLM id (s.history.map Prod.snd) none
  applied : ∀ j, j ∈ s.applied ↔ j < F
  processed : F ≤ s.history.length
  inOrder : InOrder s.applied
  rows : ∀ id, (s.db.find id).map mirrored = effects toXLM id ((s.history.map Prod.snd).take F) none
  cursor : s.lastLedger ≤ s.chain.sequence ∧ below Prod.fst s.history s.lastLedger ≤ F
  polls : ∀ k start latest, s.polls.get k = some (.events start latest) →
    latest ≤ s.chain.sequence ∧ start ≤ latest ∧ below Prod.fst s.history start ≤ F

variable {s s' : State} {F : Nat}

theorem sound_start (h : (system env toXLM).start s) : Sound toXLM s 0 := by
  obtain ⟨⟨now, sequence, hchn⟩, hhst, hdb, hla, hpol, hapl⟩ := h
  refine ⟨?_, ?_, ?_, ?_, zero_le _, ?_, ?_, ?_, ?_⟩
  · rw [hhst]
    exact List.Pairwise.nil
  · rw [hhst]
    exact fun event hev => absurd hev not_mem_nil
  · intro id
    rw [hhst, hchn]
    rfl
  · intro j
    rw [hapl]
    exact iff_of_false not_mem_nil (not_lt_zero j)
  · intro before j after heq
    rw [hapl] at heq
    exact absurd heq.symm (append_ne_nil_of_right_ne_nil _ (cons_ne_nil _ _))
  · intro id
    rw [hdb, hhst]
    rfl
  · rw [hla, hhst]
    exact ⟨zero_le _, zero_le _⟩
  · intro k start latest hk
    rw [hpol] at hk
    cases hk

theorem Sound.agrees_of_past (h : Sound toXLM s F) {latest : Nat} (hla : below Prod.fst s.history latest ≤ F)
    (hps : ∀ event ∈ s.history, event.1 < latest) : Agrees toXLM s := by
  intro id
  rw [below_eq_length hps] at hla
  rw [h.rows, h.view, take_of_length_le]
  rwa [length_map]

theorem Sound.follows (h : Sound toXLM s F) : Follows toXLM s := by
  refine ⟨h.inOrder, ?_, ?_⟩
  · intro j event hj hlt
    have hbel : j < below Prod.fst s.history s.lastLedger := (h.sorted.lt_below_iff hj).mpr hlt
    have hcur := h.cursor.2
    exact (h.applied j).mpr (by omega)
  · intro hall id
    have hpr : s.history.length ≤ F := by
      by_contra hlt
      have hF := (h.applied F).mp (hall F (by omega))
      omega
    rw [h.rows, h.view, take_of_length_le]
    rwa [length_map]

theorem Sound.publish (h : Sound toXLM s F) {w : World Text Text} {es : List RegistryEvent}
    (hvi : ∀ id, chainView toXLM w id = effects toXLM id es (chainView toXLM s.chain id))
    (hseq : s.chain.sequence ≤ w.sequence) :
    Sound toXLM { s with
      chain := w
      history := s.history ++ es.map fun event => (s.chain.sequence, event) } F := by
  have hnew : ∀ event ∈ es.map (fun event => (s.chain.sequence, event)), event.1 = s.chain.sequence := by
    intro event hev
    obtain ⟨e, -, rfl⟩ := List.mem_map.mp hev
    rfl
  have hbel : ∀ {k}, k ≤ s.chain.sequence →
      below Prod.fst (s.history ++ es.map fun event => (s.chain.sequence, event)) k =
        below Prod.fst s.history k := by
    intro k hk
    refine below_append_of_ge fun event hev => ?_
    rw [hnew event hev]
    exact hk
  have hpr := h.processed
  refine ⟨?_, ?_, ?_, h.applied, ?_, h.inOrder, ?_, ?_, ?_⟩
  · refine pairwise_append.mpr ⟨h.sorted, ?_, ?_⟩
    · refine pairwise_of_forall_mem_list fun a ha b hb => ?_
      rw [hnew a ha, hnew b hb]
    · intro a ha b hb
      rw [hnew b hb]
      exact h.past a ha
  · intro event hev
    rcases mem_append.mp hev with hold | hne
    · exact le_trans (h.past event hold) hseq
    · rw [hnew event hne]
      exact hseq
  · intro id
    have hsnd : (es.map fun event => (s.chain.sequence, event)).map Prod.snd = es := by
      rw [List.map_map]
      exact List.map_id es
    rw [hvi, h.view, map_append, hsnd, effects_append]
  · rw [length_append]
    omega
  · intro id
    rw [map_append, take_append_of_le_length (by rwa [length_map])]
    exact h.rows id
  · exact ⟨le_trans h.cursor.1 hseq, (hbel h.cursor.1).symm ▸ h.cursor.2⟩
  · intro k start latest hk
    obtain ⟨hla, hsta, hrea⟩ := h.polls k start latest hk
    exact ⟨le_trans hla hseq, hsta, (hbel (le_trans hsta hla)).symm ▸ hrea⟩

theorem of_resume {k k' : Nat} {next : Option Poll} {p : Poll} (h : (s.resume k next).get k' = some p) :
    k' = k ∧ next = some p ∨ s.polls.get k' = some p := by
  have hget : (s.resume k next).get k' =
      (s.polls.get k').bind fun q => if k' = k then next else some q := rfl
  rw [hget] at h
  cases hq : s.polls.get k' with
  | none =>
    rw [hq] at h
    cases h
  | some =>
    rw [hq, bind_some] at h
    by_cases hk : k' = k
    · rw [if_pos hk] at h
      exact .inl ⟨hk, h⟩
    · rw [if_neg hk] at h
      exact .inr h

theorem Sound.goOn (h : Sound toXLM s F) {k : Nat} {next : Option Poll} {lastLedger : Nat}
    (hcur : lastLedger ≤ s.chain.sequence ∧ below Prod.fst s.history lastLedger ≤ F)
    (hnx : ∀ start latest, next = some (.events start latest) →
      latest ≤ s.chain.sequence ∧ start ≤ latest ∧ below Prod.fst s.history start ≤ F) :
    Sound toXLM { s with lastLedger := lastLedger, polls := s.resume k next } F where
  sorted := h.sorted
  past := h.past
  view := h.view
  applied := h.applied
  processed := h.processed
  inOrder := h.inOrder
  rows := h.rows
  cursor := hcur
  polls := by
    intro k' start latest hk
    rcases of_resume hk with ⟨-, hstd⟩ | hold
    · exact hnx start latest hstd
    · exact h.polls k' start latest hold

/-! ## Answers -/

theorem Sound.slice (h : Sound toXLM s F) (start tip : Nat) :
    ∃ n, below Prod.fst s.history start + n ≤ s.history.length ∧ getEvents s.history start tip =
      ((s.history.drop (below Prod.fst s.history start)).take n).zipIdx (below Prod.fst s.history start) :=
  h.sorted.between start tip eventLimit

/-- What a covering answer holds: it begins in what was processed, reaches as far, and to the new cursor. -/
structure Extends (s : State) (F start latest tip F' : Nat) : Prop where
  begins : below Prod.fst s.history start ≤ F
  reaches : F ≤ F'
  complete : below Prod.fst s.history latest ≤ F'
  bounded : F' ≤ s.history.length
  answer : getEvents s.history start tip =
    ((s.history.drop (below Prod.fst s.history start)).take (F' - below Prod.fst s.history start)).zipIdx
      (below Prod.fst s.history start)

theorem Sound.extends (h : Sound toXLM s F) {k tip start latest : Nat}
    (hk : s.polls.get k = some (.events start latest)) (hcov : Covers s (.events k (some tip))) :
    ∃ F', Extends s F start latest tip F' := by
  obtain ⟨n, hn, hans⟩ := h.slice start tip
  obtain ⟨-, hle, hbe⟩ := h.polls k start latest hk
  have hpr := h.processed
  rw [Covers, hk] at hcov
  dsimp only at hcov
  rw [hans] at hcov
  refine ⟨below Prod.fst s.history start + n, hbe, ?_, ?_, hn, ?_⟩
  · -- otherwise the last event that was processed would be in the answer
    by_contra hlt
    have hin : F - 1 < s.history.length := by omega
    have hget := List.getElem?_eq_getElem hin
    have hnot : ¬F - 1 < below Prod.fst s.history start := by omega
    rw [h.sorted.lt_below_iff hget, Nat.not_lt] at hnot
    have hmem := hcov _ (mk_mem_zipIdx_iff_getElem?.mpr hget) hnot
      (.inr ((h.applied (F - 1)).mpr (by omega)))
    have hsli := (mem_slice.mp hmem).2
    omega
  · by_contra hlt
    have hlen : below Prod.fst s.history latest ≤ s.history.length := below_le_length
    have hin : below Prod.fst s.history start + n < s.history.length := by omega
    have hget := List.getElem?_eq_getElem hin
    have hnew := (h.sorted.lt_below_iff hget).mp (Nat.lt_of_not_le hlt)
    have hnot : ¬below Prod.fst s.history start + n < below Prod.fst s.history start := by omega
    rw [h.sorted.lt_below_iff hget, Nat.not_lt] at hnot
    have hmem := hcov _ (mk_mem_zipIdx_iff_getElem?.mpr hget) hnot (.inl hnew)
    have hsli := (mem_slice.mp hmem).2
    omega
  · rw [hans, Nat.add_sub_cancel_left]

variable {start latest tip F' : Nat}

theorem Extends.events_eq (h : Extends s F start latest tip F') :
    ((getEvents s.history start tip).map fun entry => entry.1.2) =
      ((s.history.map Prod.snd).drop (below Prod.fst s.history start)).take
        (F' - below Prod.fst s.history start) := by
  have hfst : ((getEvents s.history start tip).map Prod.fst).map Prod.snd = _ :=
    congrArg (fun l => (l.map Prod.fst).map Prod.snd) h.answer
  rw [List.map_map, zipIdx_map_fst, map_take, map_drop] at hfst
  exact hfst

theorem Extends.places_eq (h : Extends s F start latest tip F') :
    (getEvents s.history start tip).map Prod.snd = List.range' (below Prod.fst s.history start)
      (F' - below Prod.fst s.history start) := by
  have hbo := h.bounded
  rw [h.answer, zipIdx_map_snd, length_take, length_drop, Nat.min_eq_left]
  omega

/-- **An answer that covers what was processed extends it.** -/
theorem Sound.answered (h : Sound toXLM s F) (hext : Extends s F start latest tip F') {k : Nat}
    (hk : s.polls.get k = some (.events start latest)) :
    Sound toXLM { s with
      lastLedger := latest
      db := handleEvents toXLM s.clock s.db ((getEvents s.history start tip).map fun entry => entry.1.2)
      polls := s.resume k none
      applied := s.applied ++ (getEvents s.history start tip).map Prod.snd } F' := by
  have hre := hext.reaches
  have hbe := hext.begins
  refine ⟨h.sorted, h.past, h.view, ?_, hext.bounded, ?_, ?_, ?_, ?_⟩
  · intro j
    rw [hext.places_eq, mem_append, h.applied, mem_range'_1]
    constructor
    · intro hj
      omega
    · intro hj
      omega
  · rw [hext.places_eq]
    exact h.inOrder.range' (fun i hi => (h.applied i).mpr (by omega)) _
  · intro id
    rw [mirrored_handleEvents, h.rows, hext.events_eq]
    exact effects_slice _ hbe hre none
  · exact ⟨(h.polls k start latest hk).1, hext.complete⟩
  · intro k' start' latest' hk'
    rcases of_resume hk' with ⟨-, hno⟩ | hold
    · cases hno
    · obtain ⟨hla, hsta, hrea⟩ := h.polls k' start' latest' hold
      exact ⟨hla, hsta, le_trans hrea hre⟩

theorem Extends.again_eq (h : Extends s F start latest tip F') (hsnd : Sound toXLM s F) :
    ((getEvents s.history start tip).filter fun entry => decide (entry.2 ∈ s.applied)).map
        (fun entry => entry.1.2) =
      ((s.history.map Prod.snd).drop (below Prod.fst s.history start)).take
        (F - below Prod.fst s.history start) := by
  have hbe := h.begins
  have hre := h.reaches
  have hspl : F' - below Prod.fst s.history start =
      (F - below Prod.fst s.history start) + (F' - F) := by omega
  have hold : ∀ entry ∈ ((s.history.drop (below Prod.fst s.history start)).take
      (F - below Prod.fst s.history start)).zipIdx (below Prod.fst s.history start),
      decide (entry.2 ∈ s.applied) = true := by
    intro entry hent
    have hsli := (mem_slice.mp hent).2
    refine decide_eq_true ((hsnd.applied _).mpr ?_)
    omega
  have hpr := hsnd.processed
  have hlen : below Prod.fst s.history start + ((s.history.drop (below Prod.fst s.history start)).take
        (F - below Prod.fst s.history start)).length = F := by
    rw [length_take, length_drop]
    omega
  rw [h.answer, hspl, take_add, zipIdx_append, filter_append,
    filter_eq_self.mpr hold, hlen, filter_eq_nil_iff.mpr, append_nil]
  · have hfst : ∀ l : List LedgerEvent, ∀ n, (l.zipIdx n).map (fun entry => entry.1.2) = l.map Prod.snd := by
      intro l n
      rw [← zipIdx_map_fst n l, List.map_map, zipIdx_map_fst]
      rfl
    rw [hfst, map_take, map_drop]
  · intro entry hent hmem
    have hlt := (hsnd.applied _).mp (of_decide_eq_true hmem)
    have hle := le_snd_of_mem_zipIdx hent
    omega

/-! ## A step -/

theorem effects_others (n : Nat) (v : Option Mirrored) {id : Text} :
    effects toXLM id (List.replicate n .other) v = v := by
  induction n with
  | zero => rfl
  | succ n ih =>
    rw [replicate_succ, effects, foldl_cons, RegistryEvent.effect, Effect.apply_nothing]
    exact ih

theorem latest_inv {k sequence : Nat} (hs : s.latest k sequence = some s') :
    (s.polls.get k = some .bootstrapping ∧ s' = { s with
        lastLedger := sequence - 100
        polls := s.resume k (if sequence - 100 = 0 then none else some .latestLedger) }) ∨
      s.polls.get k = some .latestLedger ∧ s' = { s with
        polls := s.resume k
          (if sequence ≤ s.lastLedger then none else some (.events s.lastLedger sequence)) } := by
  unfold State.latest at hs
  cases hk : s.polls.get k with
  | none =>
    rw [hk] at hs
    cases hs
  | some p =>
    rw [hk] at hs
    cases p with
    | bootstrapping => exact .inl ⟨rfl, (some.inj hs).symm⟩
    | latestLedger => exact .inr ⟨rfl, (some.inj hs).symm⟩
    | events => cases hs

theorem events_inv {k tip : Nat} (hs : s.events toXLM k tip = some s') :
    ∃ start latest, s.polls.get k = some (.events start latest) ∧ latest ≤ tip ∧ s' = { s with
      lastLedger := latest
      db := handleEvents toXLM s.clock s.db ((getEvents s.history start tip).map fun entry => entry.1.2)
      polls := s.resume k none
      applied := s.applied ++ (getEvents s.history start tip).map Prod.snd } := by
  unfold State.events at hs
  cases hk : s.polls.get k with
  | none =>
    rw [hk] at hs
    cases hs
  | some p =>
    rw [hk] at hs
    cases p with
    | bootstrapping | latestLedger => cases hs
    | events start latest =>
      dsimp only at hs
      by_cases htip : latest ≤ tip
      · rw [if_pos htip] at hs
        exact ⟨start, latest, rfl, htip, (some.inj hs).symm⟩
      · rw [if_neg htip] at hs
        cases hs

variable {e : Event}

theorem failed_inv (he : ∃ k, e = .latest k none ∨ e = .events k none)
    (hs : (system env toXLM).step s e = some s') :
    ∃ k, s' = { s with polls := s.resume k none } := by
  obtain ⟨k, rfl | rfl⟩ := he
  · dsimp only [system, State.step] at hs
    split at hs
    · exact ⟨k, (some.inj hs).symm⟩
    · exact ⟨k, (some.inj hs).symm⟩
    · cases hs
    · cases hs
  · dsimp only [system, State.step] at hs
    split at hs
    · exact ⟨k, (some.inj hs).symm⟩
    · cases hs
    · cases hs
    · cases hs

theorem Sound.failed (h : Sound toXLM s F) (k : Nat) :
    Sound toXLM { s with polls := s.resume k none } F :=
  h.goOn h.cursor nofun

theorem Sound.step (h : Sound toXLM s F) (hord : Ordered s e) (hcov : Covers s e)
    (hs : (system env toXLM).step s e = some s') : ∃ F', Sound toXLM s' F' := by
  cases e with
  | chain =>
    obtain ⟨w, hw, rfl⟩ := map_eq_some_iff.mp hs
    exact ⟨F, h.publish (fun _ => chainView_step hw) (sequence_le_of_step hord hw)⟩
  | others n =>
    cases hs
    have hvi : ∀ id, chainView toXLM s.chain id =
        effects toXLM id (List.replicate n .other) (chainView toXLM s.chain id) :=
      fun _ => (effects_others n _).symm
    have hpu := h.publish hvi (Nat.le_refl _)
    rw [map_replicate] at hpu
    exact ⟨F, hpu⟩
  | pass =>
    obtain ⟨-, hs⟩ := ite_none_right_eq_some.mp hs
    cases hs
    exact ⟨F, ⟨h.sorted, h.past, h.view, h.applied, h.processed, h.inOrder, h.rows, h.cursor, h.polls⟩⟩
  | poll =>
    cases hs
    refine ⟨F, ⟨h.sorted, h.past, h.view, h.applied, h.processed, h.inOrder, h.rows, h.cursor, ?_⟩⟩
    intro k start latest hk
    rcases Register.of_get_add hk with ⟨-, had⟩ | hold
    · split at had
      · cases had
      · cases had
    · exact h.polls k start latest hold
  | latest k answer =>
    cases answer with
    | none =>
      obtain ⟨k, rfl⟩ := failed_inv ⟨k, .inl rfl⟩ hs
      exact ⟨F, h.failed k⟩
    | some sequence =>
      obtain ⟨hseq, hs⟩ := ite_none_right_eq_some.mp hs
      rcases latest_inv hs with ⟨hk, rfl⟩ | ⟨hk, rfl⟩
      · refine ⟨F, h.goOn ⟨by omega, ?_⟩ fun start latest hnx => ?_⟩
        · -- otherwise an event below the cursor would not have been processed
          by_contra hlt
          have hlen : below Prod.fst s.history (sequence - 100) ≤ s.history.length := below_le_length
          have hin : F < s.history.length := by omega
          have hget := List.getElem?_eq_getElem hin
          have hbf := (h.sorted.lt_below_iff hget).mp (Nat.lt_of_not_le hlt)
          have hF := (h.applied F).mp
            (hcov hk _ (mk_mem_zipIdx_iff_getElem?.mpr hget) hbf)
          omega
        · split at hnx
          · cases hnx
          · cases hnx
      · refine ⟨F, h.goOn h.cursor fun start latest hnx => ?_⟩
        split at hnx
        · cases hnx
        · obtain ⟨rfl, rfl⟩ := Poll.events.inj (some.inj hnx)
          exact ⟨hseq, by omega, h.cursor.2⟩
  | events k answer =>
    cases answer with
    | none =>
      obtain ⟨k, rfl⟩ := failed_inv ⟨k, .inr rfl⟩ hs
      exact ⟨F, h.failed k⟩
    | some =>
      obtain ⟨-, hs⟩ := ite_none_right_eq_some.mp hs
      obtain ⟨start, latest, hk, -, rfl⟩ := events_inv hs
      obtain ⟨F', hext⟩ := h.extends hk hcov
      exact ⟨F', h.answered hext hk⟩

theorem Sound.again (h : Sound toXLM s F) (hcov : Covers s e) :
    ∃ start ≤ F, e.again s = ((s.history.map Prod.snd).drop start).take (F - start) := by
  have hnth : ∃ start ≤ F, [] = ((s.history.map Prod.snd).drop start).take (F - start) := by
    refine ⟨F, Nat.le_refl F, ?_⟩
    rw [Nat.sub_self, take_zero]
  cases e with
  | chain | others | pass | poll | latest => exact hnth
  | events k answer =>
    cases answer with
    | none => exact hnth
    | some =>
      rw [Event.again]
      cases hk : s.polls.get k with
      | none => exact hnth
      | some p =>
        cases p with
        | bootstrapping | latestLedger => exact hnth
        | events =>
          obtain ⟨F', hext⟩ := h.extends hk hcov
          exact ⟨_, hext.begins, hext.again_eq h⟩

theorem Sound.effects_of_again (h : Sound toXLM s F) (hcov : Covers s e) (id : Text) :
    effects toXLM id (e.again s) ((s.db.find id).map mirrored) = (s.db.find id).map mirrored := by
  obtain ⟨start, hsta, hagn⟩ := h.again hcov
  rw [hagn, h.rows]
  exact effects_slice _ hsta (le_refl F) none

theorem succeeds_inv {latest : Nat} (h : e.succeeds s = some latest)
    (hs : (system env toXLM).step s e = some s') :
    latest ≤ s'.lastLedger ∧ s'.history = s.history := by
  cases e with
  | chain | others | pass | poll => cases h
  | latest k answer =>
    cases answer with
    | none => cases h
    | some =>
      obtain ⟨⟨hk, hbe⟩, h⟩ := ite_none_right_eq_some.mp h
      cases h
      obtain ⟨-, hs⟩ := ite_none_right_eq_some.mp hs
      rcases latest_inv hs with ⟨hbo, -⟩ | ⟨-, rfl⟩
      · rw [hk] at hbo
        cases hbo
      · exact ⟨hbe, rfl⟩
  | events k answer =>
    cases answer with
    | none => cases h
    | some =>
      obtain ⟨-, hs⟩ := ite_none_right_eq_some.mp hs
      obtain ⟨start, latestNow, hk, -, rfl⟩ := events_inv hs
      rw [Event.succeeds, hk] at h
      cases h
      exact ⟨le_refl _, rfl⟩

theorem Sound.catches (h : Sound toXLM s F) (hord : Ordered s e) (hcov : Covers s e) :
    Catches env toXLM s e where
  agrees := by
    intro latest hsu hps s' hs
    obtain ⟨F', haf⟩ := h.step hord hcov hs
    obtain ⟨hla, hhst⟩ := succeeds_inv hsu hs
    refine haf.agrees_of_past haf.cursor.2 ?_
    rw [hhst]
    exact fun event hev => lt_of_lt_of_le (hps event hev) hla
  mirrored := by
    intro id
    rw [mirrored_handleEvents]
    exact h.effects_of_again hcov id
  rows := by
    intro hqt id
    exact handleEvents_unchanged hqt (h.effects_of_again hcov id)

theorem sound_of_logged {log : List (State × Event)} (h : (system env toXLM).Logged Ordered s log)
    (hcov : ∀ entry ∈ log, Covers entry.1 entry.2) : ∃ F, Sound toXLM s F := by
  induction h with
  | start hsta => exact ⟨0, sound_start hsta⟩
  | @step s s' e log _ hord hs ih =>
    have hbf : ∃ F, Sound toXLM s F :=
      ih fun entry hent => hcov entry (mem_append_left _ hent)
    obtain ⟨F, hsnd⟩ := hbf
    exact hsnd.step hord (hcov (s, e) (mem_append_right _ mem_cons_self)) hs

/--
**The rows follow the chain** in every run in which first polls begin early enough, and answers are neither
cut off nor behind.
-/
theorem mirror_follows {log : List (State × Event)} (h : (system env toXLM).Logged Ordered s log)
    (hcovers : ∀ entry ∈ log, Covers entry.1 entry.2) :
    (∀ p ∈ log.map Prod.fst ++ [s], Follows toXLM p) ∧
      ∀ entry ∈ log, Catches env toXLM entry.1 entry.2 := by
  have hpsd : ∀ entry ∈ log, ∃ F, Sound toXLM entry.1 F := by
    intro entry hent
    obtain ⟨before, after, hlog⟩ := append_of_mem hent
    refine sound_of_logged (h.split hlog).1 fun earlier hear => hcovers earlier ?_
    rw [hlog]
    exact mem_append_left _ hear
  constructor
  · intro p hp
    rcases mem_append.mp hp with hbf | hla
    · obtain ⟨entry, hent, rfl⟩ := List.mem_map.mp hbf
      obtain ⟨F, hsnd⟩ := hpsd entry hent
      exact hsnd.follows
    · obtain ⟨F, hsnd⟩ := sound_of_logged h hcovers
      rw [mem_singleton.mp hla]
      exact hsnd.follows
  · intro entry hent
    obtain ⟨F, hsnd⟩ := hpsd entry hent
    obtain ⟨before, after, hlog⟩ := append_of_mem hent
    exact hsnd.catches (h.split hlog).2.1 (hcovers entry hent)

/-! ## Runs of it -/

section Sample

def deployment : AgentRegistry.Env Text Text where
  self := ['R']
  sha256 := fun _ => BytesN.zero 32
  xdr :=
    { string := id
      address := fun _ => []
      symbol := fun _ => []
      i128 := fun _ => []
      bytes := id }
  keys := ⟨['1'], ['2'], ['3'], ['4'], ['5'], ['6']⟩

def inXLM (stroops : Int) : Rat := (stroops : Rat) / 10000000

def call (signer : Text) (op : Op Text Text) : Event := .chain (.invoke (fun a => a == signer) op)

/-- The contract at ledger 150, and a backend that has not polled yet. -/
def deployed : State := ⟨World.init 0 150, [], 0, .empty _, 0, .empty, []⟩

theorem start_deployed : (system deployment inXLM).start deployed :=
  ⟨⟨0, 150, rfl⟩, rfl, rfl, rfl, rfl, rfl⟩

/-- The administrator asks for bonds of 100 at least, and `G` registers an agent. -/
def registrations : List Event :=
  [ call ['A'] (.control (.initializeRegistry ['A'])), call ['A'] (.control (.setMinBond 100)),
    call ['G'] (.registration (.registerAgent ⟨['a'], ['x'], 50, [], ['G'], ∅, 100⟩)),
    .chain (.close 10 200) ]

/-- A first poll, at ledger 200, up to the answer with the events. -/
def firstPoll : List Event := [.poll, .latest 0 (some 200), .latest 0 (some 200)]

def answer : Event := .events 0 (some 200)

/-- The agent is registered, and found by a poll. -/
theorem mirror_follows_registered : ∃ (s : State) (log : List (State × Event)),
    (s.db.find ['a']).isSome = true ∧ (∀ p ∈ log.map Prod.fst ++ [s], Follows inXLM p) ∧
      ∀ entry ∈ log, Catches deployment inXLM entry.1 entry.2 := by
  have hpl : ((system deployment inXLM).play (fun s e => Ordered s e ∧ Covers s e)
      (registrations ++ firstPoll ++ [answer]) deployed).any (fun s => (s.db.find ['a']).isSome) = true := by
    decide
  obtain ⟨s, hs, hfnd⟩ := (Option.any_eq_true _ _).mp hpl
  have hlgd := logged_of_play start_deployed hs
  have hgrd : ∀ entry ∈ (system deployment inXLM).record
      (registrations ++ firstPoll ++ [answer]) deployed,
      Ordered entry.1 entry.2 ∧ Covers entry.1 entry.2 := by
    intro entry hent
    obtain ⟨before, after, hlog⟩ := append_of_mem hent
    exact (hlgd.split hlog).2.1
  exact ⟨s, _, hfnd, mirror_follows (hlgd.under fun entry hent => (hgrd entry hent).1)
    fun entry hent => (hgrd entry hent).2⟩

/--
**A burst.** A thousand other events come first. The poll is given no more than those, and succeeds: the
agent is registered and not in the table, and the cursor is past its registration.
-/
theorem burst_lost : ∃ (s : State) (log : List (State × Event)),
    (system deployment inXLM).Logged Ordered s log ∧ ¬((∀ p ∈ log.map Prod.fst ++ [s], Follows inXLM p) ∧
        ∀ entry ∈ log, Catches deployment inXLM entry.1 entry.2) := by
  have hpl : ((system deployment inXLM).play Ordered (.others 1000 :: registrations ++ firstPoll)
      deployed).any (fun s => decide (answer.succeeds s = some 200 ∧ ∀ event ∈ s.history, event.1 < 200) &&
        ((system deployment inXLM).step s answer).any fun s' =>
          (s'.db.find ['a']).isNone && (chainView inXLM s'.chain ['a']).isSome) = true := by
    decide +kernel
  obtain ⟨s, hs, hfcs⟩ := (Option.any_eq_true _ _).mp hpl
  obtain ⟨hpo, hans⟩ := Bool.and_eq_true_iff.mp hfcs
  obtain ⟨hsu, hps⟩ := of_decide_eq_true hpo
  obtain ⟨s', hs', hrw⟩ := (Option.any_eq_true _ _).mp hans
  obtain ⟨hmis, hreg⟩ := Bool.and_eq_true_iff.mp hrw
  have hlgd := logged_of_play start_deployed hs
  have hord : Ordered s answer := trivial
  refine ⟨s', _, hlgd.step hord hs', fun hall => ?_⟩
  have hca := hall.2 (s, answer) (mem_append_right _ (mem_singleton_self _))
  have hag := hca.agrees 200 hsu hps s' hs' ['a']
  rw [isNone_iff_eq_none.mp hmis] at hag
  rw [← hag] at hreg
  cases hreg

end Sample

end AiNet.Sync
