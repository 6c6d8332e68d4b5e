import AiNet.Core.Machine
import AiNet.Core.Transition
import Mathlib.Data.List.Basic
import Mathlib.Data.List.Nodup

/-!
# The audit trail

Entries are numbered as they are written and read newest first, a page at a time; a full page says where
the next one continues. An entry whose time to live has lapsed is not found, and is skipped. The
anomaly events, and the counters that only they read, are left out.
-/

namespace AiNet.AgentRegistry

open Core List Option Function System

variable {Addr Sym : Type}

structure AuditLogEntry (Addr Sym : Type) where
  seq : Nat
  caller : Addr
  operation : Sym
  target : Option Sym
  amountStroops : Int
  highValue : Bool
  timestamp : Nat
  ledger : Nat
  deriving DecidableEq

structure AuditConfig where
  highValueThreshold : Int
  rateLimit : Nat
  rateWindowSecs : Nat
  retentionLedgers : Nat

def defaultAuditConfig : AuditConfig := ⟨1000000000, 20, 3600, 6312000⟩

def maxAuditPageSize : Nat := 50

def defaultAuditPageSize : Nat := 20

inductive AuditError where
  | invalidAuditRange

structure AuditPage (Addr Sym : Type) where
  entries : List (AuditLogEntry Addr Sym)
  nextCursor : Option Nat
  total : Nat

/-- What is stored, and the record of what was written. A sequence that is missing is 0. -/
structure AuditTrail (Addr Sym : Type) where
  config : Option AuditConfig
  sequence : Nat
  entries : Nat → Option (AuditLogEntry Addr Sym)
  written : List (AuditLogEntry Addr Sym)

inductive AuditEvent (Addr Sym : Type) where
  | record (timestamp ledger : Nat) (caller : Addr) (operation : Sym) (target : Option Sym)
      (amountStroops : Int)
  | setConfig (config : AuditConfig)
  | expire (seq : Nat)

namespace AuditTrail

variable (t : AuditTrail Addr Sym)

/-- `record`; a sequence that overflows aborts the call. -/
def record (timestamp ledger : Nat) (caller : Addr) (operation : Sym) (target : Option Sym)
    (amountStroops : Int) : Option (AuditTrail Addr Sym) :=
  let config := t.config.getD defaultAuditConfig
  let entry : AuditLogEntry Addr Sym :=
    { seq := t.sequence
      caller := caller
      operation := operation
      target := target
      amountStroops := amountStroops
      highValue := decide (config.highValueThreshold ≤ amountStroops ∧ 0 < amountStroops)
      timestamp := timestamp
      ledger := ledger }
  (checked64 (t.sequence + 1)).map fun sequence =>
    { t with
      sequence := sequence
      entries := update t.entries t.sequence (some entry)
      written := t.written ++ [entry] }

def setConfig (config : AuditConfig) : Except AuditError (AuditTrail Addr Sym) :=
  if config.rateLimit = 0 ∨ config.rateWindowSecs = 0 ∨ config.retentionLedgers = 0 then
    .error .invalidAuditRange
  else if config.highValueThreshold < 0 then .error .invalidAuditRange
  else .ok { t with config := some config }

/-- The loop of `page`, from a sequence number down. -/
def pageFrom (size : Nat) :
    Nat → List (AuditLogEntry Addr Sym) → List (AuditLogEntry Addr Sym) × Option Nat
  | 0, found =>
    if size ≤ found.length then (found, some 1) else (found ++ (t.entries 0).toList, none)
  | seq + 1, found =>
    if size ≤ found.length then (found, some (seq + 2))
    else pageFrom size seq (found ++ (t.entries (seq + 1)).toList)

def page (beforeSeq : Option Nat) (limit : Nat) : Except AuditError (AuditPage Addr Sym) :=
  if maxAuditPageSize < limit then .error .invalidAuditRange
  else
    let total := t.sequence
    let size := if limit = 0 then defaultAuditPageSize else limit
    if total = 0 then .ok ⟨[], none, total⟩
    else
      let start := match beforeSeq with
        | some 0 => none
        | some cursor => some (min cursor total - 1)
        | none => some (total - 1)
      match start with
      | none => .ok ⟨[], none, total⟩
      | some start =>
        let (entries, nextCursor) := t.pageFrom size start []
        .ok ⟨entries, nextCursor, total⟩

def step : AuditEvent Addr Sym → Option (AuditTrail Addr Sym)
  | .record timestamp ledger caller operation target amountStroops =>
    t.record timestamp ledger caller operation target amountStroops
  | .setConfig config => (t.setConfig config).toOption
  | .expire seq => some { t with entries := update t.entries seq none }

/-- Nothing is written at the start. -/
def system : System (AuditTrail Addr Sym) (AuditEvent Addr Sym) where
  start t := t = ⟨none, 0, fun _ => none, []⟩
  step := step

/-- Follow the cursors, where each page is read from the next of the given trails: the last one that is
read, and the pages. -/
def walk (trails : Nat → AuditTrail Addr Sym) (limit : Nat) :
    Nat → Nat → Option Nat → Option (Nat × List (AuditLogEntry Addr Sym))
  | 0, _, _ => none
  | fuel + 1, i, beforeSeq =>
    match (trails i).page beforeSeq limit with
    | .error _ => none
    | .ok page =>
      match page.nextCursor with
      | none => some (i, page.entries)
      | some cursor => (walk trails limit fuel (i + 1) (some cursor)).map fun (last, listed) =>
        (last, page.entries ++ listed)

/-- A walk over trails `i` to `last` lists what is retained below `n`: newest first, nothing that was not
there, and everything that has not expired when its page is read. -/
structure Listed (trails : Nat → AuditTrail Addr Sym) (i n last : Nat)
    (listed : List (AuditLogEntry Addr Sym)) : Prop where
  decreasing : listed.Pairwise fun e e' => e'.seq < e.seq
  retained : ∀ e ∈ listed, e.seq < n ∧ (trails i).entries e.seq = some e
  complete : ∀ q < n, ∃ j, (i ≤ j ∧ j ≤ last) ∧ ∀ e, (trails j).entries q = some e → e ∈ listed

/-! ## What is stored -/

/-- The numbers that were written are those below the total, and what is found is what was written. -/
structure Sound : Prop where
  numbered : t.written.map AuditLogEntry.seq = List.range t.sequence
  stored : ∀ q e, t.entries q = some e → t.written[q]? = some e

/-- A later trail: no number is used again. -/
structure Follows (t t' : AuditTrail Addr Sym) : Prop where
  le : t.sequence ≤ t'.sequence
  kept : ∀ q < t.sequence, ∀ e, t'.entries q = some e → t.entries q = some e

variable {t} {t' : AuditTrail Addr Sym} {e : AuditLogEntry Addr Sym} {q : Nat}

theorem Sound.seq (h : t.Sound) (he : t.entries q = some e) : e.seq = q ∧ q < t.sequence := by
  have hseq : (List.range t.sequence)[q]? = some e.seq := by
    rw [← h.numbered, List.getElem?_map, h.stored q e he]
    rfl
  obtain ⟨hlt, heq⟩ := List.getElem?_eq_some_iff.mp hseq
  rw [getElem_range] at heq
  rw [length_range] at hlt
  exact ⟨heq.symm, hlt⟩

theorem Sound.length (h : t.Sound) : t.written.length = t.sequence := by
  rw [← length_map (f := AuditLogEntry.seq), h.numbered, length_range]

theorem Follows.trans {t'' : AuditTrail Addr Sym} (h : Follows t t') (h' : Follows t' t'') :
    Follows t t'' :=
  ⟨h.le.trans h'.le, fun q hq e he => h.kept q hq e (h'.kept q (hq.trans_le h.le) e he)⟩

/-- **What a step keeps.** -/
theorem Sound.step (h : t.Sound) {e : AuditEvent Addr Sym} (hst : t.step e = some t') :
    t'.Sound ∧ Follows t t' := by
  cases e with
  | record =>
    obtain ⟨sequence, hseq, rfl⟩ := map_eq_some_iff.mp hst
    obtain ⟨-, rfl⟩ := checked64_eq_some.mp hseq
    refine ⟨⟨?_, fun q e he => ?_⟩, Nat.le_succ _, fun q hq e he => ?_⟩
    · rw [map_append, h.numbered, range_succ]
      rfl
    · dsimp only at he ⊢
      by_cases hq : q = t.sequence
      · rw [hq, update_self] at he
        rw [hq, List.getElem?_append_right h.length.le, h.length, Nat.sub_self]
        exact he
      · rw [update_of_ne hq] at he
        rw [List.getElem?_append_left (h.length.symm ▸ (h.seq he).2)]
        exact h.stored q e he
    · exact (update_of_ne hq.ne _ _).symm.trans he
  | setConfig config =>
    unfold AuditTrail.step setConfig at hst
    dsimp only at hst
    split at hst
    · cases hst
    · split at hst
      · cases hst
      · cases hst
        exact ⟨⟨h.numbered, h.stored⟩, le_rfl, fun _ _ _ he => he⟩
  | expire seq =>
    cases hst
    have hold : ∀ q e, update t.entries seq none q = some e → t.entries q = some e := by
      intro q e he
      by_cases hq : q = seq
      · rw [hq, update_self] at he
        cases he
      · rwa [update_of_ne hq] at he
    exact ⟨⟨h.numbered, fun q e he => h.stored q e (hold q e he)⟩, le_rfl, fun q _ => hold q⟩

theorem sound_reachable (h : system.Reachable (fun _ _ => True) t) : t.Sound := by
  refine h.invariant ?_ fun _ _ _ _ _ hs hst => (hs.step hst).1
  rintro t rfl
  exact ⟨rfl, nofun⟩

theorem Sound.run (h : t.Sound) (hrun : system.Run (fun _ _ => True) t t') : t'.Sound ∧ Follows t t' := by
  refine System.Run.preserves (I := fun t' => t'.Sound ∧ Follows t t') hrun ?_
    ⟨h, le_rfl, fun _ _ _ he => he⟩
  intro _ _ _ _ hs hst
  have hnx := hs.1.step hst
  exact ⟨hnx.1, hs.2.trans hnx.2⟩

/-! ## What a page holds -/

variable (t) in
/-- The entries from `c` on and below `n`, newest first. -/
def between (c n : Nat) : List (AuditLogEntry Addr Sym) :=
  ((List.range n).reverse.filter fun q => decide (c ≤ q)).filterMap t.entries

variable {c n : Nat}

theorem between_succ (h : c ≤ n) : t.between c (n + 1) = (t.entries n).toList ++ t.between c n := by
  unfold between
  rw [range_succ, reverse_append, reverse_singleton, singleton_append,
    filter_cons_of_pos (by simpa using h), filterMap_cons]
  cases t.entries n with
  | none | some => rfl

theorem between_self : t.between n n = [] := by
  unfold between
  rw [filter_eq_nil_iff.mpr, filterMap_nil]
  intro q hq
  simpa using hq

theorem Sound.mem_between (h : t.Sound) :
    e ∈ t.between c n ↔ (c ≤ e.seq ∧ e.seq < n) ∧ t.entries e.seq = some e := by
  unfold between
  simp only [mem_filterMap, mem_filter, mem_reverse, mem_range, decide_eq_true_eq]
  constructor
  · intro ⟨q, ⟨hlt, hle⟩, he⟩
    obtain ⟨rfl, -⟩ := h.seq he
    exact ⟨⟨hle, hlt⟩, he⟩
  · intro ⟨⟨hle, hlt⟩, he⟩
    exact ⟨e.seq, ⟨hlt, hle⟩, he⟩

theorem Sound.between_decreasing (h : t.Sound) :
    (t.between c n).Pairwise fun e e' => e'.seq < e.seq := by
  have hran : (List.range n).reverse.Pairwise fun q q' => q' < q :=
    pairwise_reverse.mpr pairwise_lt_range
  refine (hran.filter _).filterMap _ fun q q' hlt e he e' he' => ?_
  rw [(h.seq he).1, (h.seq he').1]
  exact hlt

theorem pageFrom_eq (size seq : Nat) (found : List (AuditLogEntry Addr Sym)) :
    (t.pageFrom size seq found).1 = found ++ t.between ((t.pageFrom size seq found).2.getD 0) (seq + 1) ∧
      ∀ c, (t.pageFrom size seq found).2 = some c → c ≤ seq + 1 ∧ (found.length < size → c ≤ seq) := by
  induction seq generalizing found with
  | zero =>
    unfold pageFrom
    split
    · rename_i hfl
      refine ⟨by rw [getD_some, between_self, append_nil], fun c hc => ?_⟩
      cases hc
      exact ⟨le_rfl, fun hlt => absurd hlt hfl.not_gt⟩
    · exact ⟨by rw [getD_none, between_succ le_rfl, between_self, append_nil], nofun⟩
  | succ seq ih =>
    unfold pageFrom
    split
    · rename_i hfl
      refine ⟨by rw [getD_some, between_self, append_nil], fun c hc => ?_⟩
      cases hc
      exact ⟨le_rfl, fun hlt => absurd hlt hfl.not_gt⟩
    · obtain ⟨hfnd, hcur⟩ := ih (found ++ (t.entries (seq + 1)).toList)
      have hle : (t.pageFrom size seq (found ++ (t.entries (seq + 1)).toList)).2.getD 0 ≤ seq + 1 := by
        cases hc : (t.pageFrom size seq (found ++ (t.entries (seq + 1)).toList)).2 with
        | none => exact Nat.zero_le _
        | some c => exact (hcur c hc).1
      refine ⟨by rw [hfnd, between_succ hle, append_assoc], fun c hc => ?_⟩
      exact ⟨(hcur c hc).1.trans (Nat.le_succ _), fun _ => (hcur c hc).1⟩

/-- **A page holds what is found from its cursor on**, and the cursor is below where it started. -/
theorem page_eq {limit : Nat} (hlim : limit ≤ maxAuditPageSize) (before : Option Nat) :
    ∃ cursor, t.page before limit =
        .ok ⟨t.between (cursor.getD 0) (before.elim t.sequence (min · t.sequence)), cursor, t.sequence⟩ ∧
      ∀ c, cursor = some c → c < before.elim t.sequence (min · t.sequence) := by
  unfold page
  rw [if_neg hlim.not_gt]
  dsimp only
  have hpa : ∀ start n, n = start + 1 → ∃ cursor,
      (Except.ok ⟨(t.pageFrom (if limit = 0 then defaultAuditPageSize else limit) start []).1,
        (t.pageFrom (if limit = 0 then defaultAuditPageSize else limit) start []).2, t.sequence⟩ :
          Except AuditError (AuditPage Addr Sym)) =
        .ok ⟨t.between (cursor.getD 0) n, cursor, t.sequence⟩ ∧ ∀ c, cursor = some c → c < n := by
    rintro start n rfl
    obtain ⟨hens, hcur⟩ := pageFrom_eq (t := t)
      (if limit = 0 then defaultAuditPageSize else limit) start []
    refine ⟨_, by rw [hens, nil_append], fun c hc => Nat.lt_succ_of_le ((hcur c hc).2 ?_)⟩
    rw [length_nil]
    split
    · decide
    · omega
  by_cases htot : t.sequence = 0
  · rw [if_pos htot, htot]
    cases before with
    | none => exact ⟨none, rfl, nofun⟩
    | some => rw [elim_some, Nat.min_zero]; exact ⟨none, rfl, nofun⟩
  · rw [if_neg htot]
    match before with
    | none => exact hpa (t.sequence - 1) _ (by dsimp only [elim_none]; omega)
    | some 0 => exact ⟨none, by rw [elim_some, Nat.zero_min]; rfl, nofun⟩
    | some (c + 1) => exact hpa (min (c + 1) t.sequence - 1) _ (by dsimp only [elim_some]; omega)

/-! ## Following the cursors -/

variable {trails : Nat → AuditTrail Addr Sym}

theorem walk_listed (hsnd : ∀ i, (trails i).Sound) (hnx : ∀ i, Follows (trails i) (trails (i + 1)))
    {limit : Nat} (hlim : limit ≤ maxAuditPageSize) (fuel i : Nat) (before : Option Nat)
    (hfu : before.elim (trails i).sequence (min · (trails i).sequence) < fuel) :
    ∃ last listed, i ≤ last ∧ walk trails limit fuel i before = some (last, listed) ∧
      Listed trails i (before.elim (trails i).sequence (min · (trails i).sequence)) last listed := by
  induction fuel generalizing i before with
  | zero => cases hfu
  | succ fuel ih =>
    obtain ⟨cursor, hpa, hcur⟩ := page_eq (t := trails i) hlim before
    have hle : before.elim (trails i).sequence (min · (trails i).sequence) ≤ (trails i).sequence := by
      cases before with
      | none => exact le_rfl
      | some => exact Nat.min_le_right _ _
    generalize before.elim (trails i).sequence (min · (trails i).sequence) = n at *
    unfold walk
    rw [hpa]
    cases cursor with
    | none =>
      refine ⟨i, _, le_rfl, rfl, (hsnd i).between_decreasing, fun e he => ?_, fun q hq =>
        ⟨i, ⟨le_rfl, le_rfl⟩, fun e he => ?_⟩⟩
      · have hmem := (hsnd i).mem_between.mp he
        exact ⟨hmem.1.2, hmem.2⟩
      · obtain ⟨rfl, -⟩ := (hsnd i).seq he
        exact (hsnd i).mem_between.mpr ⟨⟨Nat.zero_le _, hq⟩, he⟩
    | some c =>
      have hc := hcur c rfl
      have hrea : (some c).elim (trails (i + 1)).sequence (min · (trails (i + 1)).sequence) = c :=
        Nat.min_eq_left ((hc.le.trans hle).trans (hnx i).le)
      obtain ⟨last, rest, hla, hrst, hlst⟩ := ih (i + 1) (some c) (by rw [hrea]; omega)
      rw [hrea] at hlst
      refine ⟨last, _, by omega, by dsimp only; rw [hrst]; rfl, ?_, fun e he => ?_, fun q hq => ?_⟩
      · refine pairwise_append.mpr ⟨(hsnd i).between_decreasing, hlst.decreasing, ?_⟩
        intro e he e' he'
        exact (hlst.retained e' he').1.trans_le ((hsnd i).mem_between.mp he).1.1
      · rcases mem_append.mp he with hpa | hrst
        · have hmem := (hsnd i).mem_between.mp hpa
          exact ⟨hmem.1.2, hmem.2⟩
        · obtain ⟨hlt, hent⟩ := hlst.retained e hrst
          exact ⟨hlt.trans hc, (hnx i).kept _ (hlt.trans (hc.trans_le hle)) e hent⟩
      · by_cases hqc : c ≤ q
        · refine ⟨i, ⟨le_rfl, by omega⟩, fun e he => ?_⟩
          obtain ⟨rfl, -⟩ := (hsnd i).seq he
          exact mem_append_left _ ((hsnd i).mem_between.mpr ⟨⟨hqc, hq⟩, he⟩)
        · obtain ⟨j, ⟨hij, hj⟩, hfnd⟩ := hlst.complete q (not_le.mp hqc)
          exact ⟨j, ⟨by omega, hj⟩, fun e he => mem_append_right _ (hfnd e he)⟩

/--
**The walk has no gaps and no repeats.** The numbers written are contiguous from 0. Whatever is recorded,
configured or expires between the pages, a walk from the newest entry ends, and lists what is retained
below the total it started with: newest first, once each.
-/
theorem walk_complete {limit : Nat} (h : system.Reachable (fun _ _ => True) (trails 0))
    (hruns : ∀ i, system.Run (fun _ _ => True) (trails i) (trails (i + 1)))
    (hlimit : limit ≤ maxAuditPageSize) :
    (trails 0).written.map AuditLogEntry.seq = List.range (trails 0).sequence ∧
      ∃ last listed, walk trails limit ((trails 0).sequence + 1) 0 none = some (last, listed) ∧
        Listed trails 0 (trails 0).sequence last listed := by
  have hsnd : ∀ i, (trails i).Sound := by
    intro i
    induction i with
    | zero => exact sound_reachable h
    | succ i ih => exact (ih.run (hruns i)).1
  obtain ⟨last, listed, -, hwl, hlst⟩ :=
    walk_listed hsnd (fun i => ((hsnd i).run (hruns i)).2) hlimit _ 0 none (Nat.lt_succ_self _)
  exact ⟨(hsnd 0).numbered, last, listed, hwl, hlst⟩

/-- Two entries and pages of one. Between the pages a third is written and the first expires. -/
theorem walk_complete_two : ∃ trails : Nat → AuditTrail Nat Nat,
    (trails 0).sequence = 2 ∧ (trails 1).sequence = 3 ∧
      (trails 0).written.map AuditLogEntry.seq = List.range (trails 0).sequence ∧
      ∃ last listed, walk trails 1 ((trails 0).sequence + 1) 0 none = some (last, listed) ∧
        Listed trails 0 (trails 0).sequence last listed := by
  have hpl : (system.play (fun _ _ => True) [.record 5 1 7 0 none 0, .record 5 1 7 1 none 0]
      (⟨none, 0, fun _ => none, []⟩ : AuditTrail Nat Nat)).any (fun t => decide (t.sequence = 2) &&
        (system.play (fun _ _ => True) [.record 9 2 7 0 none 0, .expire 0] t).any
          (fun t' => decide (t'.sequence = 3))) = true := by
    decide
  obtain ⟨t, ht, hp⟩ := (Option.any_eq_true _ _).mp hpl
  obtain ⟨htwo, hp⟩ := Bool.and_eq_true_iff.mp hp
  obtain ⟨t', ht', hthr⟩ := (Option.any_eq_true _ _).mp hp
  refine ⟨fun i => if i = 0 then t else t', of_decide_eq_true htwo, of_decide_eq_true hthr,
    @walk_complete Nat Nat (fun i => if i = 0 then t else t') 1
      (reachable_of_play (S := system) rfl ht) (fun i => ?_) (by decide)⟩
  cases i with
  | zero => exact run_of_play ht'
  | succ => exact .refl

end AuditTrail

end AiNet.AgentRegistry
