import AiNet.Core.Sweep
import AiNet.ErrorRegistry.Contract

/-!
# Clean-ups

A clean-up is one sweep of the list of all ids: it takes out the first expired records, up
to the batch, and groups them by code, so that each list per code loses the same ids. The
lists stay exact, and after enough clean-ups only the expired records are gone.
-/

namespace AiNet.ErrorRegistry

open Core Sweep List Option Storage

variable {Addr Sym : Type} {w w' : World Addr Sym}

/-! ## The loop -/

section Loop

variable {now batch : Nat} {stored : Storage ErrorId (ErrorRecord Sym)} {s s' : Sweep Sym}
  {id : ErrorId} {l : List ErrorId} {record : ErrorRecord Sym}

def due (now : Nat) (stored : Storage ErrorId (ErrorRecord Sym)) (id : ErrorId) : Bool :=
  (stored.get id).any fun record => !isActive now record

def coded (stored : Storage ErrorId (ErrorRecord Sym)) (errorCode : Nat) (id : ErrorId) : Bool :=
  (stored.get id).any fun record => decide (record.errorCode = errorCode)

theorem visit_full (h : batch ≤ s.removed) :
    s.visit now batch id = { s with keptIds := s.keptIds ++ [id] } := if_pos h

theorem visit_active (h : s.removed < batch) (hrec : s.records.get id = some record)
    (hact : isActive now record = true) :
    s.visit now batch id = { s with scanned := s.scanned + 1, keptIds := s.keptIds ++ [id] } := by
  unfold Sweep.visit
  rw [if_neg (Nat.not_le.mpr h), hrec]
  exact if_pos hact

theorem visit_expired (h : s.removed < batch) (hrec : s.records.get id = some record)
    (hexp : ¬ isActive now record = true) :
    s.visit now batch id =
      { s with
        scanned := s.scanned + 1
        records := s.records.remove id
        removedByCode := s.removedByCode.set record.errorCode
          ((s.removedByCode.get record.errorCode).getD [] ++ [id])
        removed := s.removed + 1 } := by
  unfold Sweep.visit
  rw [if_neg (Nat.not_le.mpr h), hrec]
  exact if_neg hexp

/--
What a pass over a list does to what the loop carries: the first expired ids, as many as the batch
still allows, are taken out, the others are kept.
-/
structure Swept (now batch : Nat) (stored : Storage ErrorId (ErrorRecord Sym)) (s : Sweep Sym)
    (l : List ErrorId) (s' : Sweep Sym) : Prop where
  kept : s'.keptIds = s.keptIds ++ kept (due now stored) (batch - s.removed) l
  removed : s'.removed = s.removed + (taken (due now stored) (batch - s.removed) l).length
  records : ∀ id, s'.records.get id =
    if id ∈ taken (due now stored) (batch - s.removed) l then none else s.records.get id
  byCode : ∀ errorCode, (s'.removedByCode.get errorCode).getD [] =
    (s.removedByCode.get errorCode).getD [] ++
      (taken (due now stored) (batch - s.removed) l).filter (coded stored errorCode)

theorem Swept.nil : Swept now batch stored s [] s where
  kept := by rw [kept_nil, append_nil]
  removed := by rw [taken_nil, length_nil, Nat.add_zero]
  records := fun id => by rw [taken_nil, if_neg not_mem_nil]
  byCode := fun errorCode => by rw [taken_nil, filter_nil, append_nil]

theorem Swept.full (hfl : batch ≤ s.removed)
    (h : Swept now batch stored { s with keptIds := s.keptIds ++ [id] } l s') :
    Swept now batch stored s (id :: l) s' := by
  have hz : batch - s.removed = 0 := by omega
  obtain ⟨hkpt, hrmv, hrcs, hbo⟩ := h
  dsimp only at hkpt hrmv hrcs hbo
  rw [hz] at hkpt hrmv hrcs hbo
  refine ⟨?_, ?_, ?_, ?_⟩
  · rw [hkpt, hz, kept_zero, kept_zero, append_assoc, singleton_append]
  · rw [hrmv, hz, taken_zero, taken_zero]
  · rw [hz, taken_zero]
    rw [taken_zero] at hrcs
    exact hrcs
  · rw [hz, taken_zero]
    rw [taken_zero] at hbo
    exact hbo

theorem Swept.active (hdue : ¬ due now stored id = true)
    (h : Swept now batch stored
      { s with scanned := s.scanned + 1, keptIds := s.keptIds ++ [id] } l s') :
    Swept now batch stored s (id :: l) s' := by
  obtain ⟨hkpt, hrmv, hrcs, hbo⟩ := h
  dsimp only at hkpt hrmv hrcs hbo
  refine ⟨?_, ?_, ?_, ?_⟩
  · rw [hkpt, kept_cons_of_not hdue, append_assoc, singleton_append]
  · rw [hrmv, taken_cons_of_not hdue]
  · rw [taken_cons_of_not hdue]
    exact hrcs
  · rw [taken_cons_of_not hdue]
    exact hbo

theorem Swept.expired (hro : s.removed < batch) (hrec : stored.get id = some record)
    (hdue : due now stored id = true)
    (h : Swept now batch stored
      { s with
        scanned := s.scanned + 1
        records := s.records.remove id
        removedByCode := s.removedByCode.set record.errorCode
          ((s.removedByCode.get record.errorCode).getD [] ++ [id])
        removed := s.removed + 1 } l s') :
    Swept now batch stored s (id :: l) s' := by
  have hmo : batch - s.removed = (batch - (s.removed + 1)) + 1 := by omega
  obtain ⟨hkpt, hrmv, hrcs, hbo⟩ := h
  dsimp only at hkpt hrmv hrcs hbo
  refine ⟨?_, ?_, ?_, ?_⟩
  · rw [hkpt, hmo, kept_cons_due hdue]
  · rw [hrmv, hmo, taken_cons_due hdue, length_cons]
    omega
  · intro other
    rw [hrcs, hmo, taken_cons_due hdue]
    by_cases hoth : other = id
    · rw [hoth, get_remove_self, if_pos mem_cons_self, ite_self]
    · rw [get_remove_ne _ hoth]
      simp only [mem_cons, hoth, false_or]
  · intro errorCode
    rw [hbo, hmo, taken_cons_due hdue, filter_cons, get_set]
    by_cases hco : errorCode = record.errorCode
    · have hcod : coded stored errorCode id = true := by
        unfold coded
        rw [hrec, any_some, hco]
        exact decide_eq_true rfl
      rw [if_pos hco, if_pos hcod, getD_some, hco, append_assoc, singleton_append]
    · have hcod : ¬ coded stored errorCode id = true := by
        unfold coded
        rw [hrec, any_some, decide_eq_true_iff]
        exact Ne.symm hco
      rw [if_neg hco, if_neg hcod]

/-- **The loop of a clean-up**, over a list without duplicates of ids not visited so far. -/
theorem swept_foldl (now batch : Nat) (stored : Storage ErrorId (ErrorRecord Sym))
    (s : Sweep Sym) (hnd : l.Nodup)
    (hsto : ∀ id ∈ l, s.records.get id = stored.get id ∧ ∃ record, stored.get id = some record) :
    Swept now batch stored s l (l.foldl (Sweep.visit now batch) s) := by
  induction l generalizing s with
  | nil => exact .nil
  | cons id l ih =>
    rw [foldl_cons]
    obtain ⟨hfr, hnd⟩ := nodup_cons.mp hnd
    obtain ⟨hsm, record, hrec⟩ := hsto id mem_cons_self
    rw [hrec] at hsm
    have hrst := fun other hoth => hsto other (mem_cons_of_mem id hoth)
    have hdue : due now stored id = !isActive now record := by
      unfold due
      rw [hrec, any_some]
    by_cases hfl : batch ≤ s.removed
    · rw [visit_full hfl]
      exact .full hfl (ih _ hnd hrst)
    · have hro : s.removed < batch := Nat.not_le.mp hfl
      by_cases hact : isActive now record = true
      · rw [visit_active hro hsm hact]
        refine .active ?_ (ih _ hnd hrst)
        rw [hdue, hact]
        decide
      · rw [visit_expired hro hsm hact]
        refine .expired hro hrec ?_ (ih _ hnd ?_)
        · rw [hdue, eq_false_of_ne_true hact]
          rfl
        · -- the id just taken out does not come again
          intro other hoth
          have hne : other ≠ id := fun he => hfr (he ▸ hoth)
          exact ⟨(get_remove_ne _ hne).trans (hrst other hoth).1, (hrst other hoth).2⟩

end Loop

/-! ## The lists per code -/

theorem applyCodeRemoval_get (removedByCode codeIndex : Storage Nat (List ErrorId))
    (code errorCode : Nat) :
    ((applyCodeRemoval removedByCode codeIndex code).get errorCode).getD [] = if errorCode = code then
        ((codeIndex.get errorCode).getD []).filter fun id =>
          !((removedByCode.get errorCode).getD []).contains id
      else (codeIndex.get errorCode).getD [] := by
  unfold applyCodeRemoval
  by_cases hco : errorCode = code
  · rw [if_pos hco, ← hco]
    dsimp only
    split
    · rename_i hemp
      rw [get_remove_self, hemp]
      rfl
    · rw [get_set_self, getD_some]
  · rw [if_neg hco]
    dsimp only
    split
    · rw [get_remove_ne _ hco]
    · rw [get_set_ne _ _ hco]

theorem applyCodeIndexRemovals_get (codeIndex removedByCode : Storage Nat (List ErrorId))
    (errorCode : Nat) :
    ((applyCodeIndexRemovals codeIndex removedByCode).get errorCode).getD [] =
      ((codeIndex.get errorCode).getD []).filter fun id =>
        !((removedByCode.get errorCode).getD []).contains id := by
  have hfo : ∀ (codes : List Nat) (codeIndex : Storage Nat (List ErrorId)),
      ((codes.foldl (applyCodeRemoval removedByCode) codeIndex).get errorCode).getD [] =
        if errorCode ∈ codes then
          ((codeIndex.get errorCode).getD []).filter fun id =>
            !((removedByCode.get errorCode).getD []).contains id
        else (codeIndex.get errorCode).getD [] := by
    intro codes
    induction codes with
    | nil =>
      intro codeIndex
      rw [foldl_nil, if_neg not_mem_nil]
    | cons code codes ih =>
      intro codeIndex
      rw [foldl_cons, ih, applyCodeRemoval_get]
      by_cases hco : errorCode = code
      · -- a second removal changes nothing
        have hmem : errorCode ∈ code :: codes := mem_cons.mpr (.inl hco)
        rw [if_pos hco, if_pos hmem, List.filter_filter]
        simp only [Bool.and_self, ite_self]
      · simp only [mem_cons, hco, false_or, if_false]
  unfold applyCodeIndexRemovals
  rw [hfo]
  split
  · rfl
  · rename_i hab
    rw [mem_insertionSort, mem_keys_iff, Bool.not_eq_true, has_eq_false]
      at hab
    rw [hab]
    simp

/-! ## One clean-up -/

/-- The ids a clean-up takes out. -/
def victims (maxBatch : Nat) (w : World Addr Sym) : List ErrorId :=
  taken (due w.now w.records) (resolveBatch maxBatch) (readAllErrorIds w)

/-- What a clean-up does: the victims are gone from the records and from every list. -/
structure Cleaned (maxBatch : Nat) (w w' : World Addr Sym) : Prop where
  now : w'.now = w.now
  all : readAllErrorIds w' = kept (due w.now w.records) (resolveBatch maxBatch) (readAllErrorIds w)
  records : ∀ id, w'.records.get id = if id ∈ victims maxBatch w then none else w.records.get id
  code : ∀ errorCode id, id ∈ readCodeIndex w' errorCode ↔
    id ∈ readCodeIndex w errorCode ∧ id ∉ victims maxBatch w
  codeSublist : ∀ errorCode, (readCodeIndex w' errorCode).Sublist (readCodeIndex w errorCode)

/-- What the loop of a clean-up ends with. -/
def swept (maxBatch : Nat) (w : World Addr Sym) : Sweep Sym :=
  (readAllErrorIds w).foldl (Sweep.visit w.now (resolveBatch maxBatch))
    { records := w.records, keptIds := [], removedByCode := ∅, scanned := 0, removed := 0 }

theorem cleanupExpiredErrors_eq (maxBatch : Nat) (w : World Addr Sym) :
    cleanupExpiredErrors maxBatch w = ({ w with
          records := (swept maxBatch w).records
          codeIndex := applyCodeIndexRemovals w.codeIndex (swept maxBatch w).removedByCode
          allErrorIds :=
            if (swept maxBatch w).keptIds = [] then none else some (swept maxBatch w).keptIds },
        { scanned := (swept maxBatch w).scanned
          removed := (swept maxBatch w).removed
          remaining := (swept maxBatch w).keptIds.length }) := rfl

theorem swept_eq (h : Indexed w) (maxBatch : Nat) :
    (swept maxBatch w).keptIds = kept (due w.now w.records) (resolveBatch maxBatch) (readAllErrorIds w) ∧
      (swept maxBatch w).removed = (victims maxBatch w).length ∧
      (∀ id, (swept maxBatch w).records.get id =
        if id ∈ victims maxBatch w then none else w.records.get id) ∧
      ∀ errorCode, ((swept maxBatch w).removedByCode.get errorCode).getD [] =
        (victims maxBatch w).filter (coded w.records errorCode) := by
  obtain ⟨hkpt, hrmv, hrcs, hbo⟩ :=
    swept_foldl w.now (resolveBatch maxBatch) w.records
      { records := w.records, keptIds := [], removedByCode := ∅, scanned := 0, removed := 0 }
      h.allNodup fun id hid => ⟨rfl, (h.all id).mp hid⟩
  refine ⟨hkpt, ?_, hrcs, hbo⟩
  exact hrmv.trans (Nat.zero_add _)

/-- **What a clean-up does.** -/
theorem cleaned (h : Indexed w) (maxBatch : Nat) :
    Cleaned maxBatch w (cleanupExpiredErrors maxBatch w).1 := by
  obtain ⟨hkpt, _, hrcs, hbo⟩ := swept_eq h maxBatch
  have hls : ∀ errorCode, readCodeIndex (cleanupExpiredErrors maxBatch w).1 errorCode =
      (readCodeIndex w errorCode).filter fun id =>
        !((victims maxBatch w).filter (coded w.records errorCode)).contains id := by
    intro errorCode
    rw [← hbo, cleanupExpiredErrors_eq]
    exact applyCodeIndexRemovals_get _ _ _
  rw [cleanupExpiredErrors_eq] at hls ⊢
  refine ⟨rfl, ?_, hrcs, ?_, ?_⟩
  · unfold readAllErrorIds
    dsimp only
    split
    · rename_i hemp
      exact hemp.symm.trans hkpt
    · exact hkpt
  · intro errorCode id
    rw [hls, mem_filter, Bool.not_eq_true', ← Bool.not_eq_true, contains_iff_mem, mem_filter]
    refine and_congr_right fun hid => not_congr ⟨fun hgn => hgn.1, fun hgn => ⟨hgn, ?_⟩⟩
    -- an id in the list of a code is of that code
    obtain ⟨record, hrec, hco⟩ := (h.code errorCode id).mp hid
    unfold coded
    rw [hrec, any_some]
    exact decide_eq_true hco
  · intro errorCode
    rw [hls]
    exact filter_sublist

variable {maxBatch : Nat}

theorem Indexed.cleaned (h : Indexed w) (hcln : Cleaned maxBatch w w') :
    Indexed w' := by
  have hlf : ∀ id, (∃ record, w'.records.get id = some record) ↔
      (∃ record, w.records.get id = some record) ∧ id ∉ victims maxBatch w := by
    intro id
    rw [hcln.records]
    by_cases hid : id ∈ victims maxBatch w
    · rw [if_pos hid]
      exact ⟨fun hno => (by obtain ⟨_, hno⟩ := hno; cases hno), fun hso => absurd hid hso.2⟩
    · rw [if_neg hid]
      exact ⟨fun hso => ⟨hso, hid⟩, fun hso => hso.1⟩
  refine ⟨?_, ?_, ?_, ?_⟩
  · rw [hcln.all]
    exact kept_nodup h.allNodup
  · intro id
    rw [hcln.all, mem_kept h.allNodup, h.all, hlf]
    rfl
  · intro errorCode
    exact (hcln.codeSublist errorCode).nodup (h.codeNodup errorCode)
  · intro errorCode id
    rw [hcln.code, h.code, hcln.records]
    by_cases hid : id ∈ victims maxBatch w
    · rw [if_pos hid]
      exact ⟨fun hso => absurd hid hso.2, fun hno => (by obtain ⟨_, hno, _⟩ := hno; cases hno)⟩
    · rw [if_neg hid]
      exact ⟨fun hso => hso.1, fun hso => ⟨hso, hid⟩⟩

theorem indexed_reachable [DecidableEq Addr] {host : Host Addr Sym}
    {guard : World Addr Sym → Event Addr Sym → Prop}
    (h : (system host).Reachable guard w) : Indexed w := by
  refine System.Reachable.invariant (I := Indexed) ?_ ?_ h
  · intro s h0
    obtain ⟨now, rfl⟩ := h0
    exact .init now
  · intro s e s' _ _ hixd hst
    cases e with
    | close =>
      cases hst
      exact hixd.congr rfl rfl rfl
    | invoke signed op =>
      rw [step_invoke] at hst
      cases op with
      | initializeContract | pause | unpause =>
        simp only [exec, initializeContract, pause, unpause] at hst
        repeat obtain ⟨_, _, hst⟩ := bind_eq_ok.mp hst
        obtain rfl := pure_eq_ok.mp hst
        exact hixd.congr rfl rfl rfl
      | submitError =>
        obtain ⟨hfr, record, rfl, rfl⟩ := submitError_ok hst
        exact hixd.submit hfr
      | cleanupExpiredErrors maxBatch =>
        obtain rfl := pure_eq_ok.mp hst
        exact hixd.cleaned (cleaned hixd maxBatch)

/-! ## How many records go -/

theorem resolveBatch_pos (maxBatch : Nat) : 0 < resolveBatch maxBatch := by
  unfold resolveBatch defaultCleanupBatch maxCleanupBatch
  split
  · omega
  · split
    · omega
    · omega

theorem expired_of_victim {id : ErrorId} (h : id ∈ victims maxBatch w) :
    ∃ record, w.records.get id = some record ∧ record.expiresAt < w.now := by
  obtain ⟨_, hdue⟩ := mem_of_taken h
  obtain ⟨record, hrec, hexp⟩ := (Option.any_eq_true _ _).mp hdue
  refine ⟨record, hrec, ?_⟩
  rw [Bool.not_eq_true', isActive, decide_eq_false_iff_not] at hexp
  omega

theorem Indexed.size_eq (h : Indexed w) : w.records.size = (readAllErrorIds w).length := by
  refine List.Perm.length_eq ((perm_ext_iff_of_nodup w.records.keys_nodup h.allNodup).mpr ?_)
  intro id
  rw [mem_keys_iff, has_eq_true, h.all]

theorem cleaned_size (h : Indexed w) (maxBatch : Nat) :
    w.records.size = (cleanupExpiredErrors maxBatch w).1.records.size +
        (cleanupExpiredErrors maxBatch w).2.removed ∧
      (cleanupExpiredErrors maxBatch w).2.removed ≤ resolveBatch maxBatch := by
  have hcln := cleaned h maxBatch
  have hrmv : (cleanupExpiredErrors maxBatch w).2.removed = (victims maxBatch w).length :=
    (swept_eq h maxBatch).2.1
  have hlen : (victims maxBatch w).length +
      (kept (due w.now w.records) (resolveBatch maxBatch) (readAllErrorIds w)).length =
        (readAllErrorIds w).length := length_taken_add_kept
  rw [hrmv, h.size_eq, (h.cleaned hcln).size_eq, hcln.all]
  exact ⟨by omega, length_taken_le⟩

def expiredIds (w : World Addr Sym) : List ErrorId :=
  (readAllErrorIds w).filter (due w.now w.records)

def expiredCount (w : World Addr Sym) : Nat :=
  w.records.count fun _ record => !isActive w.now record

theorem Indexed.expiredCount_eq (h : Indexed w) : expiredCount w = (expiredIds w).length := by
  unfold expiredCount Storage.count
  rw [Storage.total_eq_sum _ h.allNodup]
  · unfold expiredIds
    rw [← countP_eq_length_filter]
    induction readAllErrorIds w with
    | nil => rfl
    | cons id ids ih =>
      rw [map_cons, sum_cons, ih, countP_cons, Nat.add_comm]
      unfold due
      cases w.records.get id with
      | none | some => rfl
  · intro id record hrec hun
    exact absurd ((h.all id).mpr ⟨record, hrec⟩) hun

theorem Cleaned.expiredIds (h : Indexed w) (hcln : Cleaned maxBatch w w') :
    expiredIds w' = (expiredIds w).drop (resolveBatch maxBatch) := by
  have hsm : ∀ id ∈ readAllErrorIds w', due w'.now w'.records id = due w.now w.records id := by
    intro id hid
    rw [hcln.all, mem_kept h.allNodup] at hid
    have hsp : id ∉ victims maxBatch w := hid.2
    unfold due
    rw [hcln.now, hcln.records, if_neg hsp]
  unfold ErrorRegistry.expiredIds
  rw [filter_congr hsm, hcln.all, kept_filter]

/-! ## Repeated clean-ups -/

/-- Clean-ups at these times, one after the other. -/
def cleanups (maxBatch : Nat) (times : List Nat) (w : World Addr Sym) : World Addr Sym :=
  times.foldl (fun w now => (cleanupExpiredErrors maxBatch { w with now := now }).1) w

def NoneExpires (w : World Addr Sym) (times : List Nat) : Prop :=
  ∀ now ∈ times, ∀ id record, w.records.get id = some record → isActive now record = isActive w.now record

theorem Cleaned.getError (hcln : Cleaned maxBatch w w') (id : ErrorId) :
    getError w' id = getError w id := by
  unfold ErrorRegistry.getError
  rw [hcln.now, hcln.records]
  by_cases hid : id ∈ victims maxBatch w
  · obtain ⟨record, hrec, hexp⟩ := expired_of_victim hid
    have hin : isActive w.now record = false := decide_eq_false (Nat.not_le.mpr hexp)
    rw [if_pos hid, hrec, filter_none, filter_some, hin, if_neg Bool.false_ne_true]
  · rw [if_neg hid]

theorem getError_of_none_expired (h : Indexed w) (hno : expiredIds w = []) (id : ErrorId) :
    getError w id = w.records.get id := by
  unfold ErrorRegistry.getError
  cases hrec : w.records.get id with
  | none => rfl
  | some record =>
    have hact : isActive w.now record = true := by
      by_contra hexp
      have hdue : id ∈ expiredIds w := by
        refine mem_filter.mpr ⟨(h.all id).mpr ⟨record, hrec⟩, ?_⟩
        unfold due
        rw [hrec, any_some, eq_false_of_ne_true hexp]
        rfl
      rw [hno] at hdue
      cases hdue
    rw [filter_some, if_pos hact]

/-- **Enough clean-ups** leave of every record what `get_error` reads. -/
theorem cleanups_get (maxBatch : Nat) {times : List Nat} (h : Indexed w)
    (hsm : NoneExpires w times)
    (hcnt : (expiredIds w).length ≤ times.length * resolveBatch maxBatch) (id : ErrorId) :
    (cleanups maxBatch times w).records.get id = getError w id := by
  induction times generalizing w with
  | nil =>
    rw [length_nil, Nat.zero_mul] at hcnt
    exact (getError_of_none_expired h (eq_nil_of_length_eq_zero (Nat.le_zero.mp hcnt)) id).symm
  | cons now times ih =>
    have hnow := hsm now mem_cons_self
    have hv : Indexed { w with now := now } := h.congr rfl rfl rfl
    have hcln := cleaned hv maxBatch
    -- the clock has moved, and no record has expired meanwhile
    have hrd : getError { w with now := now } id = getError w id := by
      unfold getError
      cases hrec : w.records.get id with
      | none => rfl
      | some record => rw [filter_some, filter_some, hnow id record hrec]
    have hexp : expiredIds { w with now := now } = expiredIds w := by
      refine filter_congr fun other _ => ?_
      unfold due
      dsimp only
      cases hrec : w.records.get other with
      | none => rfl
      | some record => rw [any_some, any_some, hnow other record hrec]
    refine (ih (hv.cleaned hcln) ?_ ?_).trans ((hcln.getError id).trans hrd)
    · intro later hltr other record hrec
      rw [hcln.records] at hrec
      rw [hcln.now]
      split at hrec
      · cases hrec
      · rw [hsm later (mem_cons_of_mem now hltr) other record hrec]
        exact (hnow other record hrec).symm
    · rw [hcln.expiredIds hv, hexp, length_drop]
      rw [length_cons, Nat.add_mul, Nat.one_mul] at hcnt
      omega

/--
**The registry's indexes stay exact through clean-up.** In every reachable state the list of all ids
and the lists per code are exact; a clean-up removes only expired records, a batch at most; with `E`
expired records, and none expiring meanwhile, `E / batch` clean-ups, rounded up, leave exactly the
unexpired records as they are; and a code's reports are its unexpired records.
-/
theorem error_registry_exact [DecidableEq Addr] {host : Host Addr Sym}
    {guard : World Addr Sym → Event Addr Sym → Prop}
    (h : (system host).Reachable guard w) :
    Indexed w ∧
    (∀ maxBatch, (∀ id, (cleanupExpiredErrors maxBatch w).1.records.get id = w.records.get id ∨
          (cleanupExpiredErrors maxBatch w).1.records.get id = none ∧
            ∃ record, w.records.get id = some record ∧ record.expiresAt < w.now) ∧
        w.records.size = (cleanupExpiredErrors maxBatch w).1.records.size +
          (cleanupExpiredErrors maxBatch w).2.removed ∧
        (cleanupExpiredErrors maxBatch w).2.removed ≤ resolveBatch maxBatch) ∧
    (∀ maxBatch times, NoneExpires w times →
      times.length = (expiredCount w + resolveBatch maxBatch - 1) / resolveBatch maxBatch →
        ∀ id, (cleanups maxBatch times w).records.get id = getError w id) ∧
    ∀ errorCode, ∃ ids : List ErrorId, ids.Nodup ∧
      (∀ id, id ∈ ids ↔ ∃ record, w.records.get id = some record ∧
        record.errorCode = errorCode ∧ w.now ≤ record.expiresAt) ∧
      ids.map w.records.get = (getErrorsByCode w errorCode).map some := by
  have hixd := indexed_reachable h
  refine ⟨hixd, ?_, ?_, getErrorsByCode_eq hixd⟩
  · intro maxBatch
    refine ⟨fun id => ?_, cleaned_size hixd maxBatch⟩
    rw [(cleaned hixd maxBatch).records]
    by_cases hid : id ∈ victims maxBatch w
    · rw [if_pos hid]
      exact .inr ⟨rfl, expired_of_victim hid⟩
    · exact .inl (if_neg hid)
  · intro maxBatch times hsm hlen id
    refine cleanups_get maxBatch hixd hsm ?_ id
    have hpos := resolveBatch_pos maxBatch
    rw [hlen, ← hixd.expiredCount_eq]
    generalize expiredCount w = expired
    generalize resolveBatch maxBatch = batch at hpos ⊢
    -- rounding up leaves no rest
    have hrst := Nat.div_add_mod (expired + batch - 1) batch
    have hle := Nat.mod_lt (expired + batch - 1) hpos
    rw [Nat.mul_comm] at hrst
    omega

namespace Sample

def chain : Host Nat Nat where
  self := 0
  sha256 := fun _ => BytesN.zero 32
  xdr :=
    { string := id
      address := fun _ => []
      symbol := fun _ => []
      i128 := fun _ => []
      bytes := id }

/-- A report of code `7` under an id of equal bytes. -/
def submit (byte : UInt8) (ttlSeconds : Nat) : Event Nat Nat :=
  .invoke (fun _ => false) (.submitError (.fill 32 byte) 7 0 0 ttlSeconds)

/-- Three reports, two of which have expired when the ledger closes. -/
def reported : List (Event Nat Nat) := [ submit 1 10, submit 2 100, submit 3 10, .close 50 ]

end Sample

/-- Two expired reports and one that is not: two clean-ups of one record each leave the latter. -/
theorem error_registry_exact_reported : ∃ w : World Nat Nat,
    (system Sample.chain).Reachable (fun _ _ => True) w ∧ expiredCount w = 2 ∧ w.records.size = 3 ∧
      ∀ id, (cleanups 1 [50, 50] w).records.get id = getError w id := by
  have hpl : ((system Sample.chain).play (fun _ _ => True) Sample.reported
      (World.init 0)).any (fun w => w.now = 50 ∧ expiredCount w = 2 ∧ w.records.size = 3) = true := by
    decide
  obtain ⟨w, hr, hnow, hcnt, hsz⟩ := System.exists_reachable (start_init _ 0) hpl
  obtain ⟨_, _, hcl, _⟩ := error_registry_exact hr
  refine ⟨w, hr, hcnt, hsz, hcl 1 [50, 50] ?_ ?_⟩
  · intro now hmem id record _
    have hnow' : now = 50 := by simpa using hmem
    rw [hnow', hnow]
  · rw [hcnt]
    rfl

end AiNet.ErrorRegistry
