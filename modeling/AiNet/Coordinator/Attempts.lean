import AiNet.Coordinator.Cancellation
import Mathlib.Algebra.GroupWithZero.Nat

/-!
# Attempts

A job whose handler throws is tried again, and every try is a full `executeDAG` with a
coordinator of its own. Nodes that are completed are skipped then, so a node is paid for in the
attempt that completes it or never, and `paymentFailedTasks`, which would remember a release
that failed, is gone with the coordinator. A task that fails on one node and whose payment for
another fails in the same attempt ends completed once the first node is through.
-/

namespace AiNet.Coordinator

open Core AiNet.Budget Relation List Function Effect Run System

variable {κ : Type} [DecidableEq κ] {n : Nat} {p : Plan κ n}
  {guard : Run κ n → Event n → Prop} {marks : Fin n → Mark} {s s' : Run κ n}

/-! ## The handler -/

/-- A failed node is reset, so that a retry executes it. -/
def resetFailed (mark : Mark) : Mark := if mark.status = .failed then ⟨.pending, none⟩ else mark

/-- What the handler of `createTaskJobHandler` throws after a run, if anything. -/
def handlerError (marks : Fin n → Mark) (final : TaskStatus) : Option String :=
  if final = .failed then
    let firstErrorNode := (List.finRange n).find? fun i => (marks i).status = .failed
    some (((firstErrorNode.bind fun i => (marks i).error).filter (· ≠ "")).getD
      "Task execution failed")
  else none

/--
The attempts at a task, with what they leave: its nodes and its status. Each attempt is a run of
`executeDAG` that went to its end, and there is another one if the handler threw. Whether the
daily limit is exceeded may be different each time.
-/
inductive Attempts (p : Plan κ n) : List (Run κ n) → (Fin n → Mark) → TaskStatus → Prop where
  | new : Attempts p [] (fun _ => ⟨.pending, none⟩) .queued
  | next {runs marks status} (dailyExceeded : Fin n → Bool) {s : Run κ n} {final : TaskStatus} :
      Attempts p runs marks status → (runs = [] ∨ (handlerError marks status).isSome) →
      (system { p with dailyExceeded := dailyExceeded } fun i => resetFailed (marks i)).Reachable
        (fun _ _ => True) s →
      (∀ i, (s.phase i).live = false) → .task final ∈ s.log → final.terminal = true →
      Attempts p (runs ++ [s]) s.marks final

/-- How many releases for a node succeeded, or failed, over all attempts. -/
def releases (i : Fin n) (ok : Bool) (runs : List (Run κ n)) : Nat :=
  (runs.map fun s => s.log.count (.paid i ok)).sum

theorem resetFailed_completed (mark : Mark) :
    (resetFailed mark).status = .completed ↔ mark.status = .completed := by
  unfold resetFailed
  split
  · rename_i hfai
    rw [hfai]
    exact iff_of_false NodeStatus.noConfusion NodeStatus.noConfusion
  · exact Iff.rfl

/-! ## One attempt -/

variable {i : Fin n}

theorem Passed.untouched (h : Passed p guard marks s) (hi : s.phase i = .idle) :
    (s.marks i).status = .completed ↔ (marks i).status = .completed := by
  refine h.invariant (I := fun s => ∀ i, s.phase i = .idle →
    ((s.marks i).status = .completed ↔ (marks i).status = .completed)) (fun _ _ => Iff.rfl) ?_ i hi
  intro s s' hs hc ih
  have htn : ∀ {j : Fin n} {f' : Phase}, s'.phase = update s.phase j f' → f' ≠ .idle →
      (∀ k, k ≠ j → s'.marks k = s.marks k) →
      ∀ k, s'.phase k = .idle → ((s'.marks k).status = .completed ↔ (marks k).status = .completed) := by
    intro j f' hph hf' hmks k hk
    rw [hph] at hk
    by_cases hkj : k = j
    · rw [hkj, update_self] at hk
      exact absurd hk hf'
    · rw [update_of_ne hkj] at hk
      rw [hmks k hkj]
      exact ih k hk
  -- a pending node is written, and not as completed
  have hwrs : ∀ {j : Fin n} {mark : Mark}, (s.marks j).status = .pending →
      mark.status ≠ .completed → s'.phase = s.phase → s'.marks = update s.marks j mark →
      ∀ k, s'.phase k = .idle → ((s'.marks k).status = .completed ↔ (marks k).status = .completed) := by
    intro j mark hpnd hmk hph hmks k hk
    rw [hph] at hk
    rw [hmks]
    by_cases hkj : k = j
    · have hbf := ih k hk
      rw [hkj, hpnd] at hbf
      rw [hkj, update_self]
      exact iff_of_false hmk fun h => (by cases hbf.mpr h)
    · rw [update_of_ne hkj]
      exact ih k hk
  cases hc with
  | hand j ending k =>
    intro i hi
    dsimp only [goto] at hi
    by_cases hik : i = k
    · rw [hik, update_self] at hi
      cases hi
    · rw [update_of_ne hik] at hi
      by_cases hij : i = j
      · rw [hij, update_self] at hi
        cases hi
      · rw [update_of_ne hij] at hi
        exact ih i hi
  | refuse j =>
    refine htn (j := j) rfl Phase.noConfusion fun k hkj => ?_
    dsimp only [Plan.failNodeForBudget, Plan.enter, goto, setNode, setStatus, keep]
    rw [update_of_ne hkj, update_of_ne hkj]
  | dial j | search j | halt j | complete j | throw j =>
    exact htn (j := j) rfl Phase.noConfusion fun k hkj => update_of_ne hkj ..
  | take j | enqueue j | occupy j | free j | finish j | found j | missing j | redial j
  | overridden j | recorded j | fail j | payment j | countCompleted j | countFailed j =>
    exact htn (j := j) rfl Phase.noConfusion fun _ _ => rfl
  | cancel j _ hpnd | block j error hpnd => exact hwrs hpnd NodeStatus.noConfusion rfl rfl
  | abort | settleCancelled | settle => exact ih

theorem count_paid (i : Fin n) (log : List (Effect n)) :
    log.count (.paid i true) + log.count (.paid i false) = (trail i log).count .paid := by
  induction log with
  | nil => rfl
  | cons e log ih =>
    have hco : trail i (e :: log) = trail i [e] ++ trail i log := trail_append i [e] log
    rw [hco, count_append, count_cons, count_cons, ← ih]
    cases e with
    | paid j ok =>
      by_cases hji : j = i
      · rw [hji]
        cases ok <;> simp [trail, deed] <;> omega
      · simp [trail, deed, hji]
    | status j st =>
      by_cases hji : j = i ∧ st = .completed
      · simp [trail, deed, hji]
      · simp [trail, deed, hji]
    | dispatch j | release j =>
      by_cases hji : j = i
      · simp [trail, deed, hji]
      · simp [trail, deed, hji]
    | task | call | recorded | aborted => simp [trail, deed, filterMap_cons]

/-- **An attempt pays for the nodes that it completes**, successfully or not, and for no other. -/
theorem Passed.paid_once (h : Passed p guard marks s) (hrst : ∀ i, (s.phase i).live = false)
    (i : Fin n) :
    ((marks i).status = .completed → (s.marks i).status = .completed) ∧
      s.log.count (.paid i true) + s.log.count (.paid i false) =
        if (s.marks i).status = .completed ∧ (marks i).status ≠ .completed then 1 else 0 := by
  rw [count_paid, h.trail]
  have hstl := hrst i
  cases hph : s.phase i with
  | idle =>
    have hsm := h.untouched hph
    refine ⟨hsm.mpr, (if_neg ?_).symm⟩
    intro ⟨haf, hbf⟩
    exact hbf (hsm.mp haf)
  | done ending =>
    have hpnd := h.initially_pending (.inl (hph.trans_ne Phase.noConfusion))
    have hsds := h.stands (i := i) (hph ▸ rfl)
    rw [hph] at hsds
    rw [hpnd, ← Option.some.inj hsds]
    refine ⟨nofun, ?_⟩
    cases ending <;> rfl
  | taken | waiting | starting | lookup | calling | answered | retrying | paying | returned | counted
  | freed =>
    rw [hph] at hstl
    cases hstl

theorem Wired.tallied {c c' : Control κ n} (h : Wired p c) (hm : Move p c c') {ending : Ending}
    (hi : (c.phase i).tallied = some ending) :
    (c'.phase i).tallied = some ending := by
  have hmv : ∀ {j : Fin n} {f f' : Phase}, c.phase j = f → (f.tallied = some ending →
      f'.tallied = some ending) → (update c.phase j f' i).tallied = some ending := by
    intro j f f' hph hf
    by_cases hij : i = j
    · rw [hij, update_self]
      rw [hij, hph] at hi
      exact hf hi
    · rw [update_of_ne hij]
      exact hi
  cases hm with
  | stay => exact hi
  | take j hfr =>
    have hil : c.phase j = .idle := by
      by_contra hne
      exact hfr (h.scheduled j hne)
    exact hmv hil nofun
  | enqueue j hph | occupy j hph => exact hmv hph nofun
  | free j e hph | finish j e hph => exact hmv hph id
  | work j f hsl hsl' hra =>
    refine hmv rfl fun hf => ?_
    -- a node that is counted and holds a slot has one turn left, in which it leaves the slot
    cases hph : c.phase j with
    | counted =>
      rw [hph] at hra
      cases f with
      | idle | taken | waiting | freed | done => cases hsl'
      | retrying next =>
        cases next with
        | call | throw =>
          simp only [Phase.rank] at hra
          omega
      | starting | lookup | calling | answered | paying | returned | counted =>
        simp only [Phase.rank] at hra
        omega
    | idle | taken | waiting | freed | done =>
      rw [hph] at hsl
      cases hsl
    | starting | lookup | calling | answered | retrying | paying | returned =>
      rw [hph] at hf
      cases hf
  | hand j e k rest hph hque =>
    have hwts : c.phase k = .waiting := by
      rw [← h.queued, hque]
      exact mem_cons_self
    have hik : i ≠ k := by
      intro hik
      rw [hik, hwts] at hi
      cases hi
    dsimp only
    rw [update_of_ne hik]
    exact hmv hph id

theorem Passed.completed_ids (h : Passed p guard marks s) {id : κ} (hid : id ∈ s.completed) :
    ∃ i, p.nodeId i = id ∧ ((marks i).status = .completed ∨ (s.phase i).tallied = some .completed) := by
  refine h.invariant (I := fun s => ∀ id ∈ s.completed, ∃ i, p.nodeId i = id ∧
    ((marks i).status = .completed ∨ (s.phase i).tallied = some .completed)) ?_ ?_ id hid
  · intro id hid
    obtain ⟨i, hi, rfl⟩ := Finset.mem_image.mp hid
    exact ⟨i, rfl, .inl (Finset.mem_filter.mp hi).2⟩
  · intro s s' hs hc ih id hid
    have hkpt : id ∈ s.completed → ∃ i, p.nodeId i = id ∧
        ((marks i).status = .completed ∨ (s'.phase i).tallied = some .completed) := by
      intro hold
      obtain ⟨i, hi, hcmp⟩ := ih id hold
      exact ⟨i, hi, hcmp.imp_right (hs.wired.tallied hc.move)⟩
    cases hc with
    | countCompleted i =>
      rcases Finset.mem_insert.mp hid with rfl | hold
      · refine ⟨i, rfl, .inr ?_⟩
        rw [goto_phase_self]
        rfl
      · exact hkpt hold
    | _ => exact hkpt hid

omit [DecidableEq κ] in
theorem all_of_card {q : Fin n → Prop} {ids : Finset κ}
    (hq : ∀ id ∈ ids, ∃ i, p.nodeId i = id ∧ q i) (hca : ids.card = n) (i : Fin n) : q i := by
  classical
  have hsub : ids ⊆ (Finset.univ.filter q).image p.nodeId := by
    intro id hid
    obtain ⟨j, rfl, hj⟩ := hq id hid
    exact Finset.mem_image_of_mem _ (Finset.mem_filter.mpr ⟨Finset.mem_univ j, hj⟩)
  have hcnt := (Finset.card_le_card hsub).trans Finset.card_image_le
  have hfl : Finset.univ.filter q = Finset.univ := by
    refine Finset.eq_univ_of_card _ (le_antisymm (Finset.card_le_univ _) ?_)
    rw [Fintype.card_fin]
    omega
  exact (Finset.mem_filter.mp (hfl ▸ Finset.mem_univ i)).2

/-- **A run that ends the task as completed** has every node counted as completed and no release
failed. -/
theorem Passed.finished (h : Passed p guard marks s) : .task .completed ∈ s.log →
    (∀ i, (marks i).status = .completed ∨ (s.phase i).tallied = some .completed) ∧
      ∀ i, .paid i false ∉ s.log := by
  refine h.invariant (I := fun s => .task .completed ∈ s.log →
    (∀ i, (marks i).status = .completed ∨ (s.phase i).tallied = some .completed) ∧
      ∀ i, .paid i false ∉ s.log) ?_ ?_
  · intro hin
    cases mem_singleton.mp hin
  · intro s s' hs hc ih hin
    by_cases hold : .task .completed ∈ s.log
    · obtain ⟨hall, hno⟩ := ih hold
      refine ⟨fun i => (hall i).imp_right (hs.wired.tallied hc.move), ?_⟩
      intro i hpd
      obtain ⟨es, hlog, hsa⟩ := hc.said
      rw [hlog] at hpd
      refine (hno i) ((mem_append.mp hpd).resolve_right fun hnew => ?_)
      cases hsa with
      | paid j ok hph =>
        -- the payment is not answered before its node is counted
        rcases hall j with hbf | htly
        · rw [hs.initially_pending (.inl (hph.trans_ne Phase.noConfusion))] at hbf
          cases hbf
        · rw [hph] at htly
          cases htly
      | _ => simp at hnew
    · cases hc with
      | settle hon hca =>
        have hout : Plan.outcome s = .completed := by
          rcases mem_append.mp hin with hwas | hnew
          · exact absurd hwas hold
          · exact (Effect.task.inj (mem_singleton.mp hnew)).symm
        obtain ⟨hfai, hpd⟩ := (outcome_completed s).mp hout
        rw [hfai, Finset.card_empty, Nat.add_zero] at hca
        refine ⟨?_, ?_⟩
        · exact fun i => all_of_card (fun id hid => hs.completed_ids hid) hca i
        · intro i hin
          rcases mem_append.mp hin with hps | hnew
          · rw [(hs.paymentFailed hon).mpr ⟨i, hps⟩] at hpd
            cases hpd
          · cases mem_singleton.mp hnew
      | settleCancelled =>
        rcases mem_append.mp hin with hwas | hnew
        · exact absurd hwas hold
        · cases mem_singleton.mp hnew
      | _ =>
        refine absurd ?_ hold
        simpa [Plan.enter, Plan.claim, Plan.failNodeForBudget, Plan.settleClaim, Plan.catchError,
          Plan.payment, Plan.dispatchNode, Plan.recordNodeUsage, Plan.take, goto, note,
          setNode, setStatus, keep] using hin

theorem Passed.all_completed (h : Passed p guard marks s) (hrst : ∀ i, (s.phase i).live = false)
    (hin : .task .completed ∈ s.log) (i : Fin n) : (s.marks i).status = .completed := by
  rcases (h.finished hin).1 i with hbf | htly
  · exact (h.paid_once hrst i).1 hbf
  · cases hph : s.phase i with
    | counted | freed | done =>
      have hsds := h.stands (i := i) (hph ▸ rfl)
      rw [hph] at htly hsds
      rw [← Option.some.inj hsds, Option.some.inj htly]
      rfl
    | idle | taken | waiting | starting | lookup | calling | answered | retrying | paying | returned =>
      rw [hph] at htly
      cases htly

/-! ## All attempts -/

section

omit [DecidableEq κ]

theorem releases_append (i : Fin n) (ok : Bool) (runs : List (Run κ n)) (s : Run κ n) :
    releases i ok (runs ++ [s]) = releases i ok runs + s.log.count (.paid i ok) := by
  unfold releases
  rw [map_append, sum_append, map_singleton, sum_singleton]

theorem releases_eq_zero {ok : Bool} {runs : List (Run κ n)} :
    releases i ok runs = 0 ↔ ∀ s ∈ runs, .paid i ok ∉ s.log := by
  unfold releases
  rw [sum_eq_zero_iff]
  simp only [List.mem_map, forall_exists_index, and_imp, forall_apply_eq_imp_iff₂, count_eq_zero]

end

/-- **Over all attempts, a release was answered once for each completed node.** -/
theorem Attempts.paid {runs : List (Run κ n)} {final : TaskStatus} (h : Attempts p runs marks final)
    (i : Fin n) : releases i true runs + releases i false runs =
      if (marks i).status = .completed then 1 else 0 := by
  induction h with
  | new => rfl
  | @next runs marks status dailyExceeded s final hps hret hrun hrst hend htrm ih =>
    have hs := passed_of_reachable hrun
    obtain ⟨hkpt, hcnt⟩ := hs.paid_once hrst i
    simp only [ne_eq, resetFailed_completed] at hkpt hcnt
    rw [releases_append, releases_append]
    have hsum : releases i true runs + s.log.count (.paid i true) +
        (releases i false runs + s.log.count (.paid i false)) =
        (releases i true runs + releases i false runs) +
          (s.log.count (.paid i true) + s.log.count (.paid i false)) := by omega
    rw [hsum, ih, hcnt]
    by_cases hbf : (marks i).status = .completed
    · rw [if_pos hbf, if_pos (hkpt hbf), if_neg fun hnow => hnow.2 hbf]
    · rw [if_neg hbf, Nat.zero_add]
      by_cases haf : (s.marks i).status = .completed
      · rw [if_pos haf, if_pos ⟨haf, hbf⟩]
      · rw [if_neg haf, if_neg fun hnow => haf hnow.1]

/--
**Completed means paid, if no release failed.** Of no node do two releases succeed. When the
attempts have ended the task as completed, for every node of it exactly one release has succeeded if
and only if none has failed in any of the attempts.
-/
theorem createTaskJobHandler_pays (p : Plan κ n) {runs : List (Run κ n)} {marks : Fin n → Mark}
    {final : TaskStatus} (h : Attempts p runs marks final) :
    (∀ i, releases i true runs ≤ 1) ∧ (final = .completed → ((∀ i, releases i true runs = 1) ↔
        ∀ s ∈ runs, ∀ i, .paid i false ∉ s.log)) := by
  have hpd := h.paid
  constructor
  · intro i
    have hi := hpd i
    split at hi <;> omega
  · intro hfnl
    have hall : ∀ i, (marks i).status = .completed := by
      cases h with
      | new => cases hfnl
      | next dailyExceeded hps hret hrun hrst hend =>
        rw [hfnl] at hend
        exact (passed_of_reachable hrun).all_completed hrst hend
    have hone : ∀ i, releases i true runs = 1 ↔ releases i false runs = 0 := by
      intro i
      have hi := hpd i
      rw [if_pos (hall i)] at hi
      omega
    constructor
    · intro hsuc s hs i
      exact releases_eq_zero.mp ((hone i).mp (hsuc i)) s hs
    · intro hno i
      exact (hone i).mpr (releases_eq_zero.mpr fun s hs => hno s hs i)

/-! ## Examples -/

namespace Sample

/-- The first attempt completes the first of two nodes, whose payment fails or not, and fails on
the second. -/
def firstTry (ok : Bool) : List (Event 2) :=
  [ .answer 0 (.result false ⟨none, 0, 0⟩), .resume 0, .payment 0 ok, .count 0, .free 0, .finish 0,
    .answer 1 (.failure false "agent down"), .resume 1, .count 1, .free 1, .finish 1 ]

/-- The nodes after it. -/
def half : Fin 2 → Mark := fun i => if i = 0 then ⟨.completed, none⟩ else ⟨.failed, some "agent down"⟩

theorem attempts_twice (ok : Bool) : ∃ s t, Attempts pair [s, t] (t : Run Nat 2).marks .completed ∧
    ∀ i, .paid i false ∈ s.log ++ t.log ↔ i = 0 ∧ ok = false := by
  have hfst : ((system pair fun _ => resetFailed ⟨.pending, none⟩).play (fun _ _ => True)
      (firstTry ok) (pair.executeDAG fun _ => resetFailed ⟨.pending, none⟩)).any (fun s =>
        decide ((∀ i, (s.phase i).live = false) ∧ .task .failed ∈ s.log ∧ s.marks = half ∧
          ∀ i, .paid i false ∈ s.log ↔ i = 0 ∧ ok = false)) = true := by
    cases ok <;> decide
  have hsec : ((system pair fun i => resetFailed (half i)).play (fun _ _ => True)
      (through 1) (pair.executeDAG fun i => resetFailed (half i))).any (fun t =>
        decide ((∀ i, (t.phase i).live = false) ∧ .task .completed ∈ t.log ∧
          ∀ i, .paid i false ∉ t.log)) = true := by decide
  obtain ⟨s, hs, hdn⟩ := exists_reachable
    (S := system pair fun _ => resetFailed ⟨.pending, none⟩) rfl hfst
  obtain ⟨t, ht, hdn'⟩ := exists_reachable (S := system pair fun i => resetFailed (half i)) rfl hsec
  obtain ⟨hrst, hfai, hmks, hpd⟩ := hdn
  obtain ⟨hrst', hcmp, hun⟩ := hdn'
  have hone : Attempts pair [s] half .failed := by
    rw [← hmks]
    exact .next pair.dailyExceeded .new (.inl rfl) hs hrst hfai rfl
  refine ⟨s, t, .next pair.dailyExceeded hone (.inr rfl) ht hrst' hcmp rfl, fun i => ?_⟩
  rw [mem_append, hpd]
  exact or_iff_left (hun i)

end Sample

/-- Two attempts, no release fails. -/
theorem createTaskJobHandler_pays_twice : ∃ (runs : List (Run Nat 2)) (marks : Fin 2 → Mark),
    Attempts Sample.pair runs marks .completed ∧ ((∀ i, releases i true runs ≤ 1) ∧
      (TaskStatus.completed = .completed → ((∀ i, releases i true runs = 1) ↔
        ∀ s ∈ runs, ∀ i, .paid i false ∉ s.log))) ∧ runs.length = 2 := by
  obtain ⟨s, t, h, _⟩ := Sample.attempts_twice true
  exact ⟨[s, t], t.marks, h, createTaskJobHandler_pays Sample.pair h, rfl⟩

/--
The payment for the first node fails in an attempt that fails on the second node. The retry ends the
task as completed, and no release has ever succeeded for the first node.
-/
theorem createTaskJobHandler_forgets : ∃ (runs : List (Run Nat 2)) (marks : Fin 2 → Mark),
    Attempts Sample.pair runs marks .completed ∧ releases 0 true runs = 0 := by
  obtain ⟨s, t, h, hpd⟩ := Sample.attempts_twice false
  refine ⟨[s, t], t.marks, h, ?_⟩
  have hfai : releases 0 false [s, t] ≠ 0 := by
    intro hz
    rcases mem_append.mp ((hpd 0).mpr ⟨rfl, rfl⟩) with hs | ht
    · exact releases_eq_zero.mp hz s mem_cons_self hs
    · exact releases_eq_zero.mp hz t (mem_cons_of_mem s mem_cons_self) ht
  have hone := h.paid 0
  split at hone <;> omega

end AiNet.Coordinator
