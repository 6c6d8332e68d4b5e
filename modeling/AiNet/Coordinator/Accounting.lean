import AiNet.Coordinator.Limiter

/-!
# The accounting sets

A run settles by counting: `completed` and `failed` against the number of nodes. Where the
ids are distinct and the run is not aborted, the sets say exactly which nodes are through
(`Accounted`): the completed ones, those that ran and failed, and those that failed without
running since something they depend on is missing, failed or stuck.
-/

namespace AiNet.Coordinator

open Core AiNet.Budget Relation Function List Run

variable {κ : Type} [DecidableEq κ] {n : Nat}

/-- The status that `runNode` left the node with. -/
def Ending.status : Ending → NodeStatus
  | .refused | .failed => .failed
  | .completed => .completed

namespace Phase

/-- The status of a node that stands here, if that says it. -/
def status : Phase → Option NodeStatus
  | .idle => none
  | .taken | .waiting | .starting => some .pending
  | .lookup | .calling _ _ | .answered _ | .retrying _ => some .running
  | .paying => some .completed
  | .returned ending | .counted ending | .freed ending | .done ending => some ending.status

/-- How the node ended, once that is counted. -/
def tallied : Phase → Option Ending
  | .counted ending | .freed ending | .done ending => some ending
  | .idle | .taken | .waiting | .starting | .lookup | .calling _ _ | .answered _ | .retrying _
  | .paying | .returned _ => none

theorem status_of_tallied {f : Phase} {ending : Ending} (h : f.tallied = some ending) :
    f.status = some ending.status := by
  cases f with
  | counted | freed | done =>
    cases h
    rfl
  | idle | taken | waiting | starting | lookup | calling | answered | retrying | paying
  | returned => cases h

theorem ne_idle_of_status {f : Phase} {status : NodeStatus} (h : f.status = some status) :
    f ≠ .idle := by
  intro hil
  rw [hil] at h
  cases h

end Phase

/-- A node failed without running. -/
def Blocked (marks : Fin n → Mark) (s : Run κ n) (i : Fin n) : Prop :=
  s.phase i = .idle ∧ (marks i).status = .pending ∧ (s.marks i).status = .failed

/-- What the sets and the statuses say about the nodes. -/
structure Accounted (p : Plan κ n) (marks : Fin n → Mark) (s : Run κ n) : Prop where
  status : ∀ i status, (s.phase i).status = some status →
    (s.marks i).status = status ∧ (marks i).status = .pending
  idle : ∀ i, s.phase i = .idle → s.marks i = marks i ∨ Blocked marks s i
  met : ∀ i, s.phase i ≠ .idle → ∀ dep ∈ p.dependencies i, dep ∈ s.completed
  completed : ∀ i, p.nodeId i ∈ s.completed ↔
    (marks i).status = .completed ∨ (s.phase i).tallied = some .completed
  failed : ∀ i, p.nodeId i ∈ s.failed ↔
    (∃ ending, (s.phase i).tallied = some ending ∧ ending ≠ .completed) ∨ Blocked marks s i
  scheduled : ∀ i, p.nodeId i ∈ s.scheduled → s.phase i ≠ .idle ∨ (marks i).status = .completed
  known : ∀ id, id ∈ s.completed ∨ id ∈ s.failed → ∃ i, p.nodeId i = id

variable {p : Plan κ n} {guard : Run κ n → Event n → Prop} {marks : Fin n → Mark} {s s' : Run κ n}

theorem mem_image_nodeId (hids : Function.Injective p.nodeId) (q : Fin n → Prop) [DecidablePred q]
    (i : Fin n) : p.nodeId i ∈ (Finset.univ.filter q).image p.nodeId ↔ q i := by
  simp only [Finset.mem_image, Finset.mem_filter, Finset.mem_univ, true_and]
  constructor
  · intro ⟨j, hj, hid⟩
    exact hids hid ▸ hj
  · intro hi
    exact ⟨i, hi, rfl⟩

theorem accounted_blank (hids : Function.Injective p.nodeId) (marks : Fin n → Mark) :
    Accounted p marks (p.blank marks) where
  status := by
    intro i status h
    cases h
  idle := fun i _ => .inl rfl
  met := by
    intro i h
    exact absurd rfl h
  completed := by
    intro i
    refine (mem_image_nodeId hids _ i).trans ?_
    exact ⟨.inl, fun h => h.resolve_right fun h' => (by cases h')⟩
  failed := by
    intro i
    refine iff_of_false (Finset.notMem_empty _) ?_
    intro h
    rcases h with ⟨ending, hedg, _⟩ | ⟨_, hpnd, hfai⟩
    · cases hedg
    · have hsm : (marks i).status = .failed := hfai
      rw [hpnd] at hsm
      cases hsm
  scheduled := by
    intro i h
    exact .inr ((mem_image_nodeId hids _ i).mp h)
  known := by
    intro id h
    rcases h with h | h
    · obtain ⟨i, _, hid⟩ := Finset.mem_image.mp h
      exact ⟨i, hid⟩
    · exact absurd h (Finset.notMem_empty id)

/-! ## What the sets say together -/

namespace Accounted

variable (h : Accounted p marks s)
include h

omit [DecidableEq κ] in
theorem disjoint : Disjoint s.completed s.failed := by
  rw [Finset.disjoint_left]
  intro id hc hf
  obtain ⟨i, rfl⟩ := h.known id (.inl hc)
  rcases (h.failed i).mp hf with ⟨ending, hedg, hne⟩ | ⟨hil, hpnd, hfai⟩
  · rcases (h.completed i).mp hc with hcmp | htly
    · have hst := (h.status i _ (Phase.status_of_tallied hedg)).2
      rw [hcmp] at hst
      cases hst
    · rw [hedg] at htly
      exact hne (Option.some.inj htly)
  · rcases (h.completed i).mp hc with hcmp | htly
    · rw [hcmp] at hpnd
      cases hpnd
    · rw [hil] at htly
      cases htly

variable {i : Fin n}

theorem idle_of_blocked (hblk : p.hasFailedDependency s i = true ∨
      p.hasUnresolvedDependency i = true ∨ s.inFlight = 0 ∧ p.dependenciesMet s i = false) : s.phase i = .idle := by
  by_contra hil
  have hmet := h.met i hil
  rcases hblk with hfai | hmis | ⟨hrst, hunm⟩
  · obtain ⟨dep, hdep, hin⟩ := List.any_eq_true.mp hfai
    exact Finset.disjoint_left.mp h.disjoint (hmet dep hdep) (of_decide_eq_true hin)
  · obtain ⟨dep, hdep, hun⟩ := List.any_eq_true.mp hmis
    obtain ⟨j, hj⟩ := h.known dep (.inl (hmet dep hdep))
    have hhas : p.has dep = true := List.any_eq_true.mpr ⟨j, mem_finRange j, decide_eq_true hj⟩
    rw [hhas] at hun
    cases hun
  · have hall : p.dependenciesMet s i = true :=
      List.all_eq_true.mpr fun dep hdep => decide_eq_true (hmet dep hdep)
    rw [hall] at hunm
    cases hunm

section

omit [DecidableEq κ]

theorem turn {f : Phase} (hold : s.phase i ≠ .idle) (htly : f.tallied = (s.phase i).tallied)
    (hph : s'.phase = update s.phase i f) (hmks : ∀ j, j ≠ i → s'.marks j = s.marks j)
    (hst : f.status = some (s'.marks i).status) (hc : s'.completed = s.completed)
    (hf : s'.failed = s.failed) (hs : s'.scheduled = s.scheduled) : Accounted p marks s' := by
  have hpnd : (marks i).status = .pending := by
    cases hi : (s.phase i).status with
    | some status => exact (h.status i status hi).2
    | none =>
      cases hp : s.phase i with
      | idle => exact absurd hp hold
      | _ => rw [hp] at hi; cases hi
  have hblk : ∀ j, Blocked marks s' j ↔ Blocked marks s j := by
    intro j
    unfold Blocked
    by_cases hji : j = i
    · rw [hji, hph, update_self]
      exact iff_of_false (fun hb => Phase.ne_idle_of_status hst hb.1) fun hb => hold hb.1
    · rw [hph, update_of_ne hji, hmks j hji]
  have htal : ∀ j, (s'.phase j).tallied = (s.phase j).tallied := by
    intro j
    by_cases hji : j = i
    · rw [hji, hph, update_self, htly]
    · rw [hph, update_of_ne hji]
  have hawa : ∀ j, s'.phase j ≠ .idle ↔ s.phase j ≠ .idle := by
    intro j
    by_cases hji : j = i
    · rw [hji, hph, update_self]
      exact iff_of_true (Phase.ne_idle_of_status hst) hold
    · rw [hph, update_of_ne hji]
  refine ⟨?_, ?_, ?_, ?_, ?_, ?_, ?_⟩
  · intro j status hj
    by_cases hji : j = i
    · rw [hji, hph, update_self, hst] at hj
      rw [hji]
      exact ⟨Option.some.inj hj, hpnd⟩
    · rw [hph, update_of_ne hji] at hj
      rw [hmks j hji]
      exact h.status j status hj
  · intro j hj
    by_cases hji : j = i
    · rw [hji, hph, update_self] at hj
      exact absurd hj (Phase.ne_idle_of_status hst)
    · rw [hph, update_of_ne hji] at hj
      rw [hblk, hmks j hji]
      exact h.idle j hj
  · intro j hj
    rw [hc]
    exact h.met j ((hawa j).mp hj)
  · intro j
    rw [hc, htal]
    exact h.completed j
  · intro j
    rw [hf, htal, hblk]
    exact h.failed j
  · intro j hj
    rw [hs] at hj
    rw [hawa]
    exact h.scheduled j hj
  · intro id hid
    rw [hc, hf] at hid
    exact h.known id hid

theorem initially_pending (hil : s.phase i = .idle)
    (hpnd : (s.marks i).status = .pending) : (marks i).status = .pending := by
  rcases h.idle i hil with hsm | hblk
  · rw [← hsm]
    exact hpnd
  · exact hblk.2.1

end

theorem take (hids : Function.Injective p.nodeId) (hw : Wired p s.control)
    (hrdy : p.ready s i = true) : Accounted p marks (p.take s i) := by
  unfold Plan.ready at hrdy
  simp only [Bool.and_eq_true, Bool.not_eq_true', decide_eq_true_eq, decide_eq_false_iff_not]
    at hrdy
  obtain ⟨⟨hpnd, hfe⟩, hmet⟩ := hrdy
  have hil : s.phase i = .idle := by
    by_contra hne
    exact hfe (hw.scheduled i hne)
  have hsf : (p.take s i).phase i = .taken := goto_phase_self ..
  have hoth : ∀ j, j ≠ i → (p.take s i).phase j = s.phase j := fun j hj =>
    goto_phase_of_ne _ hj _
  have hfr : ¬ Blocked marks s i := by
    intro hblk
    rw [hblk.2.2] at hpnd
    cases hpnd
  have htal : ∀ j, ((p.take s i).phase j).tallied = (s.phase j).tallied := by
    intro j
    by_cases hji : j = i
    · rw [hji, hsf, hil]
      rfl
    · rw [hoth j hji]
  have hblk : ∀ j, Blocked marks (p.take s i) j ↔ Blocked marks s j := by
    intro j
    by_cases hji : j = i
    · rw [hji]
      refine iff_of_false (fun hb => ?_) hfr
      have hstl := hb.1
      rw [hsf] at hstl
      cases hstl
    · unfold Blocked
      rw [hoth j hji]
      exact Iff.rfl
  refine ⟨?_, ?_, ?_, ?_, ?_, ?_, h.known⟩
  · intro j status hj
    by_cases hji : j = i
    · rw [hji, hsf] at hj
      cases hj
      rw [hji]
      exact ⟨hpnd, h.initially_pending hil hpnd⟩
    · rw [hoth j hji] at hj
      exact h.status j status hj
  · intro j hj
    have hji : j ≠ i := by
      intro hji
      rw [hji, hsf] at hj
      cases hj
    rw [hoth j hji] at hj
    rw [hblk]
    exact h.idle j hj
  · intro j hj dep hdep
    by_cases hji : j = i
    · rw [hji] at hdep
      exact of_decide_eq_true (List.all_eq_true.mp hmet dep hdep)
    · rw [hoth j hji] at hj
      exact h.met j hj dep hdep
  · intro j
    rw [htal]
    exact h.completed j
  · intro j
    rw [htal, hblk]
    exact h.failed j
  · intro j hj
    by_cases hji : j = i
    · rw [hji, hsf]
      exact .inl Phase.noConfusion
    · rw [hoth j hji]
      rcases Finset.mem_insert.mp hj with hid | hold
      · exact absurd (hids hid) hji
      · exact h.scheduled j hold

theorem block (hids : Function.Injective p.nodeId) (hil : s.phase i = .idle)
    (hpnd : (s.marks i).status = .pending) (error : String) :
    Accounted p marks { s.setNode i ⟨.failed, some error⟩ with
      failed := insert (p.nodeId i) s.failed } := by
  have hin := h.initially_pending hil hpnd
  have hblk : ∀ j, Blocked marks { s.setNode i ⟨.failed, some error⟩ with
      failed := insert (p.nodeId i) s.failed } j ↔ j = i ∨ Blocked marks s j := by
    intro j
    unfold Blocked setNode
    dsimp only
    by_cases hji : j = i
    · rw [hji, update_self]
      exact iff_of_true ⟨hil, hin, rfl⟩ (.inl rfl)
    · rw [update_of_ne hji]
      exact (or_iff_right hji).symm
  refine ⟨?_, ?_, h.met, h.completed, ?_, h.scheduled, ?_⟩
  · intro j status hj
    have hji : j ≠ i := by
      intro hji
      rw [hji] at hj
      exact Phase.ne_idle_of_status hj hil
    unfold setNode
    dsimp only
    rw [update_of_ne hji]
    exact h.status j status hj
  · intro j hj
    rw [hblk]
    by_cases hji : j = i
    · exact .inr (.inl hji)
    · unfold setNode
      dsimp only
      rw [update_of_ne hji]
      exact (h.idle j hj).imp_right .inr
  · intro j
    rw [hblk, Finset.mem_insert, h.failed]
    constructor
    · intro hj
      rcases hj with hid | hold | hold
      · exact .inr (.inl (hids hid))
      · exact .inl hold
      · exact .inr (.inr hold)
    · intro hj
      rcases hj with hold | hji | hold
      · exact .inr (.inl hold)
      · exact .inl (congrArg p.nodeId hji)
      · exact .inr (.inr hold)
  · intro id hid
    rcases hid with hc | hf
    · exact h.known id (.inl hc)
    · rcases Finset.mem_insert.mp hf with hid | hold
      · exact ⟨i, hid.symm⟩
      · exact h.known id (.inr hold)

theorem count (hids : Function.Injective p.nodeId) {ending : Ending}
    (hph : s.phase i = .returned ending) : Accounted p marks (p.count i ending s) := by
  have hst := h.status i ending.status (congrArg Phase.status hph)
  have hsf : (p.count i ending s).phase i = .counted ending := by
    cases ending with
    | refused | failed | completed => exact goto_phase_self ..
  have hoth : ∀ j, j ≠ i → (p.count i ending s).phase j = s.phase j := by
    intro j hj
    cases ending with
    | refused | failed | completed => exact goto_phase_of_ne _ hj _
  have hmks : (p.count i ending s).marks = s.marks := by
    cases ending with
    | refused | failed | completed => rfl
  have hsc : (p.count i ending s).scheduled = s.scheduled := by
    cases ending with
    | refused | failed | completed => rfl
  have hcmp : (p.count i ending s).completed =
      if ending = .completed then insert (p.nodeId i) s.completed else s.completed := by
    cases ending with
    | refused | failed | completed => rfl
  have hfai : (p.count i ending s).failed =
      if ending = .completed then s.failed else insert (p.nodeId i) s.failed := by
    cases ending with
    | refused | failed | completed => rfl
  have hil : s.phase i ≠ .idle := hph.trans_ne Phase.noConfusion
  have hblk : ∀ j, Blocked marks (p.count i ending s) j ↔ Blocked marks s j := by
    intro j
    unfold Blocked
    rw [hmks]
    by_cases hji : j = i
    · rw [hji, hsf]
      exact iff_of_false (fun hb => (by cases hb.1)) fun hb => hil hb.1
    · rw [hoth j hji]
  have hsub : s.completed ⊆ (p.count i ending s).completed := by
    rw [hcmp]
    split
    · exact Finset.subset_insert ..
    · exact Finset.Subset.refl _
  refine ⟨?_, ?_, ?_, ?_, ?_, ?_, ?_⟩
  · intro j status hj
    rw [hmks]
    by_cases hji : j = i
    · rw [hji, hsf] at hj
      cases hj
      rw [hji]
      exact hst
    · rw [hoth j hji] at hj
      exact h.status j status hj
  · intro j hj
    have hji : j ≠ i := by
      intro hji
      rw [hji, hsf] at hj
      cases hj
    rw [hoth j hji] at hj
    rw [hmks, hblk]
    exact h.idle j hj
  · intro j hj dep hdep
    refine hsub (h.met j ?_ dep hdep)
    by_cases hji : j = i
    · rw [hji]
      exact hil
    · rwa [hoth j hji] at hj
  · intro j
    rw [hcmp]
    by_cases hji : j = i
    · rw [hji, hsf]
      by_cases he : ending = .completed
      · rw [if_pos he, he]
        exact iff_of_true (Finset.mem_insert_self ..) (.inr rfl)
      · rw [if_neg he, h.completed, hph]
        exact or_congr_right (iff_of_false (fun h' => (by cases h'))
          fun h' => he (Option.some.inj h'))
    · rw [hoth j hji, ← h.completed]
      split
      · rw [Finset.mem_insert]
        exact or_iff_right fun hid => hji (hids hid)
      · exact Iff.rfl
  · intro j
    rw [hfai, hblk]
    by_cases hji : j = i
    · rw [hji, hsf]
      by_cases he : ending = .completed
      · rw [if_pos he, h.failed, hph, he]
        refine or_congr_left (iff_of_false ?_ ?_)
        · intro ⟨e, h', _⟩
          cases h'
        · intro ⟨e, h', hne⟩
          exact hne (Option.some.inj h').symm
      · rw [if_neg he]
        exact iff_of_true (Finset.mem_insert_self ..) (.inl ⟨ending, rfl, he⟩)
    · rw [hoth j hji, ← h.failed]
      split
      · exact Iff.rfl
      · rw [Finset.mem_insert]
        exact or_iff_right fun hid => hji (hids hid)
  · intro j hj
    rw [hsc] at hj
    by_cases hji : j = i
    · rw [hji, hsf]
      exact .inl Phase.noConfusion
    · rw [hoth j hji]
      exact h.scheduled j hj
  · intro id hid
    rw [hcmp, hfai] at hid
    split at hid
    · rcases hid with hc | hf
      · rcases Finset.mem_insert.mp hc with hid | hold
        · exact ⟨i, hid.symm⟩
        · exact h.known id (.inl hold)
      · exact h.known id (.inr hf)
    · rcases hid with hc | hf
      · exact h.known id (.inl hc)
      · rcases Finset.mem_insert.mp hf with hid | hold
        · exact ⟨i, hid.symm⟩
        · exact h.known id (.inr hold)

omit [DecidableEq κ] in
theorem congr (hph : s'.phase = s.phase) (hmks : s'.marks = s.marks)
    (hc : s'.completed = s.completed) (hf : s'.failed = s.failed) (hs : s'.scheduled = s.scheduled) :
    Accounted p marks s' := by
  obtain ⟨status, idle, met, completed, failed, scheduled, known⟩ := h
  refine ⟨?_, ?_, ?_, ?_, ?_, ?_, ?_⟩
  · rw [hph, hmks]
    exact status
  · unfold Blocked
    rw [hph, hmks]
    exact idle
  · rw [hph, hc]
    exact met
  · rw [hph, hc]
    exact completed
  · unfold Blocked
    rw [hph, hf, hmks]
    exact failed
  · rw [hph, hs]
    exact scheduled
  · rw [hc, hf]
    exact known

end Accounted

/-! ## Runs -/

theorem Change.aborted (h : Change p guard s s') (hs : s'.aborted = false) : s.aborted = false := by
  cases h with
  | abort => cases hs
  | cancel =>
    rw [← hs]
    rfl
  | take i hab => exact hab
  | enqueue | occupy | free | hand | finish | refuse | dial | search | found | missing | redial
  | overridden | recorded | fail | halt | complete | throw | payment | countCompleted | countFailed
  | block | settleCancelled | settle => exact hs

/-- **The accounting sets of a run that is not aborted.** -/
theorem Passed.accounted (hids : Function.Injective p.nodeId) (h : Passed p guard marks s) :
    s.aborted = false → Accounted p marks s := by
  refine h.invariant (I := fun s => s.aborted = false → Accounted p marks s)
    (fun _ => accounted_blank hids marks) ?_
  intro s s' hs hc ih hab
  have hold := ih (hc.aborted hab)
  have hw := hs.wired
  have htn : ∀ {i : Fin n} {f : Phase} (f' : Phase) {status : NodeStatus}, s.phase i = f →
      f.status = some status → f'.tallied = f.tallied → s'.phase = update s.phase i f' →
      (∀ j, j ≠ i → s'.marks j = s.marks j) → f'.status = some (s'.marks i).status →
      s'.completed = s.completed → s'.failed = s.failed → s'.scheduled = s.scheduled →
      Accounted p marks s' := by
    intro i f f' status hf hst htly
    rw [← hf] at hst htly
    exact hold.turn (Phase.ne_idle_of_status hst) htly
  have hsty : ∀ {i : Fin n} {f : Phase} {status : NodeStatus}, s.phase i = f →
      f.status = some status → s'.marks i = s.marks i → some status = some (s'.marks i).status := by
    intro i f status hf hst hmks
    rw [← hf] at hst
    rw [hmks, (hold.status i status hst).1]
  cases hc with
  | take i _ hrdy => exact hold.take hids hw hrdy
  | block i error hpnd hblk =>
    exact hold.block hids (hold.idle_of_blocked hblk) hpnd error
  | countCompleted i hph => exact hold.count hids hph
  | countFailed i ending hph hne =>
    cases ending with
    | refused | failed => exact hold.count hids hph
    | completed => exact absurd rfl hne
  | abort => cases hab
  | cancel i hab' =>
    have hs : s.aborted = false := hab
    rw [hab'] at hs
    cases hs
  | settleCancelled | settle => exact hold.congr rfl rfl rfl rfl rfl
  | enqueue i hph =>
    exact htn .waiting hph rfl rfl rfl (fun _ _ => rfl) (hsty hph rfl rfl) rfl rfl rfl
  | occupy i hph =>
    exact htn .starting hph rfl rfl rfl (fun _ _ => rfl) (hsty hph rfl rfl) rfl rfl rfl
  | free i ending hph =>
    exact htn (.freed ending) hph rfl rfl rfl (fun _ _ => rfl) (hsty hph rfl rfl)
      rfl rfl rfl
  | finish i ending hph =>
    exact htn (.done ending) hph rfl rfl rfl (fun _ _ => rfl) (hsty hph rfl rfl)
      rfl rfl rfl
  | hand i ending j rest hph hque =>
    -- the one node leaves its slot, then the other takes it
    have hwts : s.phase j = .waiting := by
      rw [← show (j ∈ s.queue ↔ s.phase j = .waiting) from hw.queued j, hque]
      exact mem_cons_self
    have hji : j ≠ i := by
      intro hji
      rw [hji, hph] at hwts
      cases hwts
    have hlf : Accounted p marks (({ s with queue := rest }).goto i (.freed ending)) := by
      refine hold.turn (f := .freed ending) (hph.trans_ne Phase.noConfusion) ?_ rfl
        (fun _ _ => rfl) (hsty hph rfl rfl) rfl rfl rfl
      rw [hph]
      rfl
    have hthe : (({ s with queue := rest }).goto i (.freed ending)).phase j = .waiting := by
      rw [goto_phase_of_ne _ hji]
      exact hwts
    refine hlf.turn (f := .starting) (hthe.trans_ne Phase.noConfusion) ?_ rfl
      (fun _ _ => rfl) (hsty hwts rfl rfl) rfl rfl rfl
    rw [hthe]
    rfl
  | refuse i hph =>
    refine htn (.returned .refused) hph rfl rfl rfl (fun j hji => ?_) ?_ rfl rfl rfl
    · dsimp only [Plan.failNodeForBudget, Plan.enter, goto, setNode, setStatus, keep]
      rw [update_of_ne hji, update_of_ne hji]
    · dsimp only [Plan.failNodeForBudget, Plan.enter, goto, setNode, setStatus, keep]
      rw [update_self]
      rfl
  | dial i hph =>
    refine htn (.calling .override none) hph rfl rfl rfl
      (fun j hji => update_of_ne hji ..) ?_ rfl rfl rfl
    dsimp only [Plan.claim, Plan.enter, goto, note, setNode, setStatus, keep]
    rw [update_self]
    rfl
  | search i hph =>
    refine htn .lookup hph rfl rfl rfl (fun j hji => update_of_ne hji ..) ?_
      rfl rfl rfl
    dsimp only [Plan.claim, Plan.enter, goto, note, setNode, setStatus, keep]
    rw [update_self]
    rfl
  | found i fallback hph =>
    exact htn (.calling (.primary 1 fallback) (some s.ledger.allowanceFor)) hph rfl rfl rfl
      (fun _ _ => rfl) (hsty hph rfl rfl) rfl rfl rfl
  | missing i message hph =>
    exact htn (.retrying (.throw message)) hph rfl rfl rfl (fun _ _ => rfl)
      (hsty hph rfl rfl) rfl rfl rfl
  | redial i target hph =>
    exact htn (.calling target (some s.ledger.allowanceFor)) hph rfl rfl rfl
      (fun _ _ => rfl) (hsty hph rfl rfl) rfl rfl rfl
  | overridden i halt params told hph | recorded i target halt params told hph =>
    exact htn (.answered halt) hph rfl rfl rfl (fun _ _ => rfl) (hsty hph rfl rfl)
      rfl rfl rfl
  | fail i target retryable message told hph =>
    exact htn (.retrying (Plan.afterFailure target retryable message)) hph rfl rfl rfl
      (fun _ _ => rfl) (hsty hph rfl rfl) rfl rfl rfl
  | halt i hph =>
    refine htn (.returned .failed) hph rfl rfl rfl
      (fun j hji => update_of_ne hji ..) ?_ rfl rfl rfl
    dsimp only [Plan.failNodeForBudget, Plan.settleClaim, goto, setNode, keep]
    rw [update_self]
    rfl
  | complete i hph =>
    refine htn .paying hph rfl rfl rfl (fun j hji => update_of_ne hji ..) ?_
      rfl rfl rfl
    dsimp only [Plan.settleClaim, goto, note, setNode, setStatus, keep]
    rw [update_self]
    rfl
  | throw i message hph =>
    refine htn (.returned .failed) hph rfl rfl rfl
      (fun j hji => update_of_ne hji ..) ?_ rfl rfl rfl
    dsimp only [Plan.catchError, Plan.settleClaim, goto, setNode, keep]
    rw [update_self]
    rfl
  | payment i ok hph =>
    exact htn (.returned .completed) hph rfl rfl rfl (fun _ _ => rfl)
      (hsty hph rfl rfl) rfl rfl rfl

end AiNet.Coordinator
