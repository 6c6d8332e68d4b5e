import AiNet.UpgradeManager.Approval

/-!
# Which version follows which

The version of a proposal is compared with the current one when the proposal is made.
Between that and the execution other proposals may be executed and rolled back, and the
comparison is not made again: it still holds at the execution as long as no open
proposal is overtaken, that is, falls behind the version that is put in place.
-/

namespace AiNet.UpgradeManager

open Core AiNet.Core.SemVer List Option Storage System

section

variable {Addr Sym : Type} [DecidableEq Addr] {host : Host Addr Sym}
  {w w' : World Addr}

/-! ## Runs without overtaking -/

/-- Some open proposal other than `id` is not newer than the version. -/
def Overtakes (w : World Addr) (id : Nat) (version : Tag) : Prop :=
  ∃ q ∈ w.openProposals, q.id ≠ id ∧ isVersionNewer version q.newVersion ≠ .ok true

/--
Ledgers close in order, the numbers in the pre-releases of version tags fit 32 bits, and no open proposal
is overtaken by the version that an execution or a rollback puts in place.
-/
def Orderly (w : World Addr) : Event Addr → Prop
  | .close timestamp seq => w.now ≤ timestamp ∧ w.sequence ≤ seq
  | .invoke _ op =>
    match op with
    | .initializeContract _ version _ => Plain version
    | .proposeUpgrade _ version _ _ _ => Plain version
    | .executeUpgrade _ id => ∀ p ∈ w.proposals.get id, ¬ Overtakes w id p.newVersion
    | .rollbackUpgrade _ id =>
      ∀ record ∈ w.rollbacks.get id, ¬ Overtakes w id record.previousVersion.version
    | .setAdmin _ | .setMultisigConfig .. | .pause | .unpause | .approveUpgrade ..
    | .validateProposal .. | .sweepExpiredProposals _ => True

omit [DecidableEq Addr] in
theorem orderly_clock (w : World Addr) (e : Event Addr) (hg : Orderly w e) :
    ClockMonotone w e := by
  cases e with
  | close => exact hg
  | invoke => trivial

/-- The version tags that are stored are plain. -/
structure PlainTags (w : World Addr) : Prop where
  current : ∀ v, w.currentVersion = some v → Plain v.version
  proposals : ∀ id p, w.proposals.get id = some p → Plain p.newVersion
  rollbacks : ∀ id record, w.rollbacks.get id = some record → Plain record.previousVersion.version

theorem PlainTags.exec {call : Call Addr} {op : Op Addr} (h : PlainTags w) (hnum : Numbered w)
    (hg : Orderly w (.invoke call op)) (hok : exec host call op w = .ok w') : PlainTags w' := by
  have hpps : ∀ id p', w'.proposals.get id = some p' → Plain p'.newVersion := by
    intro id p' hp'
    rcases (hp' ▸ exec_change hnum hok id).origin with
      ⟨_, _, _, _, _, _, rfl, _, _, hopd⟩ | ⟨p, hp, htrm⟩
    · rw [hopd.newVersion]
      exact hg
    · rw [htrm.newVersion]
      exact h.proposals id p hp
  cases hop : op.installs with
  | false =>
    have hsm := exec_sameCode hnum hok hop
    exact ⟨hsm.currentVersion ▸ h.current, hpps, hsm.rollbacks ▸ h.rollbacks⟩
  | true =>
    cases op with
    | setAdmin | setMultisigConfig | pause | unpause | proposeUpgrade | approveUpgrade
    | validateProposal | sweepExpiredProposals => cases hop
    | initializeContract =>
      obtain ⟨_, rfl⟩ := initializeContract_ok hok
      refine ⟨?_, hpps, h.rollbacks⟩
      intro v hv
      cases hv
      exact hg
    | executeUpgrade executor proposalId =>
      obtain ⟨_, p, hp, _, _, _, hexd⟩ := executeUpgrade_ok hok
      refine ⟨?_, hpps, ?_⟩
      · intro v hv
        rw [hexd.currentVersion] at hv
        cases hv
        exact h.proposals proposalId p hp
      · intro id record hrec
        rw [hexd.rollbacks] at hrec
        cases hpr : w.currentVersion with
        | none =>
          rw [hpr] at hrec
          exact h.rollbacks id record hrec
        | some prev =>
          rw [hpr, elim_some, get_set] at hrec
          split at hrec
          · cases hrec
            exact h.current prev hpr
          · exact h.rollbacks id record hrec
    | rollbackUpgrade executor proposalId =>
      obtain ⟨_, p, record, _, _, hrec, rfl⟩ := rollbackUpgrade_ok hok
      refine ⟨?_, hpps, ?_⟩
      · intro v hv
        cases hv
        exact h.rollbacks proposalId record hrec
      · intro id other hoth
        exact h.rollbacks id other (get_of_remove hoth)

theorem plainTags_reachable (h : (system host).Reachable Orderly w) : PlainTags w := by
  refine System.Reachable.invariant ?_ ?_ h
  · intro w h0
    obtain ⟨now, sequence, rfl⟩ := h0
    exact ⟨nofun, nofun, nofun⟩
  · intro w e w' hr hg hpln hs
    cases e with
    | close =>
      rw [step_close] at hs
      subst hs
      exact ⟨hpln.current, hpln.proposals, hpln.rollbacks⟩
    | invoke => exact hpln.exec (numbered_reachable hr) hg (step_invoke.mp hs)

/-! ## Open proposals are newer than the current version -/

def Ahead (w : World Addr) (p : UpgradeProposal Addr) : Prop :=
  ∃ v, w.currentVersion = some v ∧ isVersionNewer v.version p.newVersion = .ok true

omit [DecidableEq Addr] in
theorem not_overtakes {id other : Nat} {p : UpgradeProposal Addr} {version : Tag}
    (h : ¬ Overtakes w other version) (hnum : Numbered w) (hp : w.proposals.get id = some p)
    (ho : p.Open w.now) (hid : id ≠ other) : isVersionNewer version p.newVersion = .ok true := by
  by_contra hnot
  refine h ⟨p, mem_openProposals.mpr ⟨⟨id, hp⟩, ho⟩, ?_, hnot⟩
  rw [(hnum id p hp).1]
  exact hid

theorem exec_ahead {call : Call Addr} {op : Op Addr}
    (hr : (system host).Reachable Orderly w) (hg : Orderly w (.invoke call op))
    (hok : exec host call op w = .ok w')
    (h : ∀ id p, w.proposals.get id = some p → p.Open w.now → Ahead w p) (id : Nat)
    (p' : UpgradeProposal Addr) (hp' : w'.proposals.get id = some p') (ho' : p'.Open w'.now) :
    Ahead w' p' := by
  have hnum := numbered_reachable hr
  rw [(exec_frame hnum hok).now] at ho'
  rcases exec_open hnum (late_reachable orderly_clock hr) hok hp' ho' with
    ⟨proposer, version, hash, description, plan, rfl, hnwr, hopd⟩ | ⟨p, hp, ho, htrm, hnot⟩
  · -- a new proposal was compared with the version that still runs
    have hsm := exec_sameCode hnum hok rfl
    unfold Ahead
    rw [hsm.currentVersion, hopd.newVersion]
    cases hcur : w.currentVersion with
    | none =>
      obtain ⟨_, _, _, hop⟩ := exec_first (untouched_reachable hr (running_reachable hr hcur)) hok
      cases hop
    | some v =>
      refine ⟨v, rfl, ?_⟩
      unfold checkNewer at hnwr
      rw [hcur] at hnwr
      simp only [bind_eq_ok, failIf_eq_ok, Bool.not_eq_false] at hnwr
      obtain ⟨_, hnwr, rfl⟩ := hnwr
      exact hnwr
  · unfold Ahead
    rw [htrm.newVersion]
    cases hop : op.installs with
    | false =>
      rw [(exec_sameCode hnum hok hop).currentVersion]
      exact h id p hp ho
    | true =>
      cases op with
      | setAdmin | setMultisigConfig | pause | unpause | proposeUpgrade | approveUpgrade
      | validateProposal | sweepExpiredProposals => cases hop
      | initializeContract =>
        -- before the initialization there is no proposal
        rw [untouched_reachable hr (initializeContract_ok hok).1] at hp
        cases hp
      | executeUpgrade executor =>
        obtain ⟨_, q, hq, _, _, _, hexd⟩ := executeUpgrade_ok hok
        refine ⟨_, hexd.currentVersion, not_overtakes (hg q hq) hnum hp ho ?_⟩
        intro hid
        exact hnot executor (hid ▸ rfl)
      | rollbackUpgrade =>
        obtain ⟨_, q, record, hq, hexd, hrec, rfl⟩ := rollbackUpgrade_ok hok
        refine ⟨_, rfl, not_overtakes (hg record hrec) hnum hp ho ?_⟩
        intro hid
        subst hid
        cases hp.symm.trans hq
        have hon := ho.1
        rw [hexd] at hon
        cases hon

theorem ahead_reachable (h : (system host).Reachable Orderly w) {id : Nat}
    {p : UpgradeProposal Addr} (hp : w.proposals.get id = some p) (ho : p.Open w.now) :
    Ahead w p := by
  refine System.Reachable.invariant
    (I := fun w => ∀ id p, w.proposals.get id = some p → p.Open w.now → Ahead w p) ?_ ?_ h id p hp ho
  · intro w h0 id p hp
    obtain ⟨now, sequence, rfl⟩ := h0
    cases hp
  · intro w e w' hr hg hahd hs
    cases e with
    | close =>
      rw [step_close] at hs
      subst hs
      exact fun id p hp ho => hahd id p hp ⟨ho.1, Nat.le_trans hg.1 ho.2⟩
    | invoke => exact exec_ahead hr hg (step_invoke.mp hs) hahd

/-! ## Upgrades go forward -/

/-- Does an event roll back the proposal `id`? -/
def Event.RollsBack (id : Nat) (e : Event Addr) : Prop :=
  ∃ call executor, e = .invoke call (.rollbackUpgrade executor id)

/--
**Upgrades never downgrade**, in every run that overtakes no open proposal: an execution puts a later version
in place of the current one, and apart from the rollbacks nothing else replaces a current version.
-/
theorem upgrades_precede {log : Log Addr} (h : (system host).Logged Orderly w log) :
    ∀ entry ∈ log, ∀ s', (system host).step entry.1 entry.2 = some s' →
      (∀ id, entry.2.Executes id → ∃ v v', entry.1.currentVersion = some v ∧
        s'.currentVersion = some v' ∧ Precedes v.version v'.version) ∧
      ((∀ id, ¬ entry.2.Executes id ∧ ¬ entry.2.RollsBack id) → ∀ v,
        entry.1.currentVersion = some v → s'.currentVersion = some v) := by
  intro entry hent s' hs
  obtain ⟨before, after, hspl⟩ := append_of_mem hent
  have hr := (h.split hspl).1.reachable
  refine ⟨?_, ?_⟩
  · intro id hexs
    obtain ⟨call, executor, he⟩ := hexs
    rw [he] at hs
    obtain ⟨_, p, hp, hrdy, _, _, hexd⟩ := executeUpgrade_ok (step_invoke.mp hs)
    have hsto := ((kept_logged (h.split hspl).1 id).recorded p hp).stored
    obtain ⟨hon, hlv, _, _⟩ := effectiveStatus_ready hsto hrdy
    obtain ⟨v, hv, hnwr⟩ := ahead_reachable hr hp ⟨hon, hlv⟩
    have hpln := plainTags_reachable hr
    exact ⟨v, _, hv, hexd.currentVersion,
      isVersionNewer_precedes (hpln.current v hv) (hpln.proposals id p hp) hnwr⟩
  · intro hne v hv
    cases he : entry.2 with
    | close =>
      rw [he, step_close] at hs
      subst hs
      exact hv
    | invoke call op =>
      rw [he, step_invoke] at hs
      cases hop : op.installs with
      | false => rw [(exec_sameCode (numbered_reachable hr) hs hop).currentVersion, hv]
      | true =>
        cases op with
        | setAdmin | setMultisigConfig | pause | unpause | proposeUpgrade | approveUpgrade
        | validateProposal | sweepExpiredProposals => cases hop
        | initializeContract =>
          rw [untouched_reachable hr (initializeContract_ok hs).1] at hv
          cases hv
        | executeUpgrade executor proposalId =>
          exact absurd ⟨call, executor, he⟩ (hne proposalId).1
        | rollbackUpgrade executor proposalId =>
          exact absurd ⟨call, executor, he⟩ (hne proposalId).2

/-! ## Runs to compare with -/

instance (w : World Addr) (id : Nat) (version : Tag) : Decidable (Overtakes w id version) :=
  inferInstanceAs (Decidable (∃ q ∈ w.openProposals, _ ∧ isVersionNewer _ _ ≠ _))

instance (w : World Addr) (e : Event Addr) : Decidable (Orderly w e) :=
  match e with
  | .close timestamp seq =>
    inferInstanceAs (Decidable (w.now ≤ timestamp ∧ w.sequence ≤ seq))
  | .invoke _ op =>
    match op with
    | .initializeContract _ version _ => inferInstanceAs (Decidable (Plain version))
    | .proposeUpgrade _ version _ _ _ => inferInstanceAs (Decidable (Plain version))
    | .executeUpgrade _ id =>
      inferInstanceAs (Decidable (∀ p ∈ w.proposals.get id, ¬ Overtakes w id p.newVersion))
    | .rollbackUpgrade _ id => inferInstanceAs (Decidable
        (∀ record ∈ w.rollbacks.get id, ¬ Overtakes w id record.previousVersion.version))
    | .setAdmin _ | .setMultisigConfig _ _ _ | .pause | .unpause | .approveUpgrade _ _
    | .validateProposal _ _ | .sweepExpiredProposals _ => .isTrue trivial

namespace Sample

/-- Two versions are proposed and validated, and the default delay goes by. -/
def pending (first second : Nat) : List (Event Nat) :=
  installed ++ [ propose 1 first, propose 1 second, validate 1 1, validate 1 2, .close 86400 1 ]

end Sample

/-- Version `2` and then version `3`: neither execution overtakes the other proposal. -/
theorem upgrades_precede_pending : ∃ (before : Log Nat) (s w : World Nat),
    (system Sample.chain).step s (Sample.execute 1 2) = some w ∧
      ∀ entry ∈ before ++ [(s, Sample.execute 1 2)], ∀ s',
        (system Sample.chain).step entry.1 entry.2 = some s' →
          (∀ id, entry.2.Executes id → ∃ v v', entry.1.currentVersion = some v ∧
            s'.currentVersion = some v' ∧ Precedes v.version v'.version) ∧
          ((∀ id, ¬ entry.2.Executes id ∧ ¬ entry.2.RollsBack id) → ∀ v,
            entry.1.currentVersion = some v → s'.currentVersion = some v) := by
  have hpl : ((system Sample.chain).play Orderly (Sample.pending 2 3 ++ [Sample.execute 1 1])
      (World.init 0 0)).any (fun s => decide (Orderly s (Sample.execute 1 2)) &&
        ((system Sample.chain).step s (Sample.execute 1 2)).isSome) = true := by
    decide
  obtain ⟨s, hs, hend⟩ := (Option.any_eq_true _ _).mp hpl
  rw [Bool.and_eq_true] at hend
  obtain ⟨w, hw⟩ := isSome_iff_exists.mp hend.2
  have hlog := logged_of_play (start_init Sample.chain 0 0) hs
  exact ⟨_, s, w, hw, upgrades_precede (hlog.step (of_decide_eq_true hend.1) hw)⟩

/-- The other way round: with both proposals open, version `3` is executed and then version `2`. -/
theorem overtaken_proposal : ∃ (before : Log Nat) (s w : World Nat),
    (system Sample.chain).Logged ClockMonotone w (before ++ [(s, Sample.execute 1 2)]) ∧
      s.currentVersion.map ContractVersion.version = some (Sample.tag 3) ∧
      w.currentVersion.map ContractVersion.version = some (Sample.tag 2) ∧
      Precedes (Sample.tag 2) (Sample.tag 3) ∧ ¬ Precedes (Sample.tag 3) (Sample.tag 2) := by
  have hpl : ((system Sample.chain).play ClockMonotone (Sample.pending 3 2 ++ [Sample.execute 1 1])
      (World.init 0 0)).any (fun s =>
        decide (s.currentVersion.map ContractVersion.version = some (Sample.tag 3)) &&
        ((system Sample.chain).step s (Sample.execute 1 2)).any fun w =>
          decide (w.currentVersion.map ContractVersion.version = some (Sample.tag 2))) = true := by
    decide
  obtain ⟨s, hs, hend⟩ := (Option.any_eq_true _ _).mp hpl
  rw [Bool.and_eq_true] at hend
  obtain ⟨w, hw, hcur⟩ := (Option.any_eq_true _ _).mp hend.2
  exact ⟨_, s, w, (logged_of_play (start_init Sample.chain 0 0) hs).step trivial hw,
    of_decide_eq_true hend.1, of_decide_eq_true hcur, by decide, by decide⟩

end

/-!
## What a rollback restores

Each execution stores, under the number of its proposal, the version it replaced. A
rollback names a proposal and restores that version, whatever has been put in place
since. The hash of the current version is at all times the one that was deployed last.
-/

variable {Addr Sym : Type} [DecidableEq Addr] {host : Host Addr Sym}
  {w w' : World Addr} {guard : World Addr → Event Addr → Prop}

/-! ## The code that runs -/

/-- The current version is the code that runs. -/
structure Running (w : World Addr) : Prop where
  current : w.currentVersion.map ContractVersion.wasmHash = w.wasmHash
  swapped : ∀ hash, w.deployed.getLast? = some hash → w.wasmHash = some hash

omit [DecidableEq Addr] in
theorem Running.swap {v : ContractVersion Addr} {deployed : List (BytesN 32)}
    (hcur : w.currentVersion = some v) (hsh : w.wasmHash = some v.wasmHash)
    (hde : w.deployed = deployed ++ [v.wasmHash]) : Running w := by
  refine ⟨?_, ?_⟩
  · rw [hcur, hsh]
    rfl
  · intro hash hla
    rw [hde, List.getLast?_concat] at hla
    rw [hsh, Option.some.inj hla]

theorem running_code_reachable (h : (system host).Reachable guard w) : Running w := by
  refine System.Reachable.invariant ?_ ?_ h
  · intro w h0
    obtain ⟨now, sequence, rfl⟩ := h0
    exact ⟨rfl, nofun⟩
  · intro w e w' hr _ hrng hs
    cases e with
    | close =>
      rw [step_close] at hs
      subst hs
      exact ⟨hrng.current, hrng.swapped⟩
    | invoke call op =>
      have hok := step_invoke.mp hs
      cases hop : op.installs with
      | false =>
        have hsm := exec_sameCode (numbered_reachable hr) hok hop
        refine ⟨?_, ?_⟩
        · rw [hsm.currentVersion, hsm.wasmHash]
          exact hrng.current
        · rw [hsm.deployed, hsm.wasmHash]
          exact hrng.swapped
      | true =>
        cases op with
        | setAdmin | setMultisigConfig | pause | unpause | proposeUpgrade | approveUpgrade
        | validateProposal | sweepExpiredProposals => cases hop
        | initializeContract =>
          obtain ⟨hadm, rfl⟩ := initializeContract_ok hok
          -- nothing was swapped in before
          rw [untouched_reachable hr hadm]
          exact ⟨rfl, nofun⟩
        | executeUpgrade =>
          obtain ⟨_, p, _, _, _, _, hexd⟩ := executeUpgrade_ok hok
          exact .swap hexd.currentVersion hexd.wasmHash hexd.deployed
        | rollbackUpgrade =>
          obtain ⟨_, p, record, _, _, _, rfl⟩ := rollbackUpgrade_ok hok
          exact .swap rfl rfl rfl

/-! ## Executions and what they replaced -/

theorem executes_once {before after : Log Addr} {entry : World Addr × Event Addr} {id : Nat}
    (h : (system host).Logged guard w (before ++ entry :: after)) (hent : entry.2.Executes id) :
    ∀ earlier ∈ before, ¬ earlier.2.Executes id := by
  obtain ⟨hbf, _, s', hs⟩ := h.split rfl
  obtain ⟨call, executor, he⟩ := hent
  rw [he] at hs
  obtain ⟨_, p, hp, hrdy, _, _, _⟩ := executeUpgrade_ok (step_invoke.mp hs)
  have hrec := (kept_logged hbf id).recorded p hp
  exact hrec.unexecuted (.of_isOpen (effectiveStatus_ready hrec.stored hrdy).1)

/-- The version `v` ran when the proposal `id` was executed. -/
def Replaced (log : Log Addr) (id : Nat) (v : ContractVersion Addr) : Prop :=
  ∃ first entry later, log = first ++ entry :: later ∧ entry.2.Executes id ∧ entry.1.currentVersion = some v

omit [DecidableEq Addr] in
theorem Replaced.snoc {log : Log Addr} {id : Nat} {v : ContractVersion Addr}
    (h : Replaced log id v) (entry : World Addr × Event Addr) :
    Replaced (log ++ [entry]) id v := by
  obtain ⟨first, x, later, rfl, hx, hv⟩ := h
  exact ⟨first, x, later ++ [entry], by rw [append_assoc, cons_append], hx, hv⟩

theorem replaced_logged {log : Log Addr} (h : (system host).Logged guard w log) {id : Nat}
    {record : RollbackRecord Addr} (hrec : w.rollbacks.get id = some record) :
    Replaced log id record.previousVersion := by
  induction h generalizing id record with
  | start h0 =>
    obtain ⟨now, sequence, rfl⟩ := h0
    cases hrec
  | @step w w' e log hlog _ hs ih =>
    have hnum := numbered_reachable hlog.reachable
    cases e with
    | close =>
      rw [step_close] at hs
      subst hs
      exact (ih hrec).snoc _
    | invoke call op =>
      have hok := step_invoke.mp hs
      cases hop : op.installs with
      | false =>
        rw [(exec_sameCode hnum hok hop).rollbacks] at hrec
        exact (ih hrec).snoc _
      | true =>
        cases op with
        | setAdmin | setMultisigConfig | pause | unpause | proposeUpgrade | approveUpgrade
        | validateProposal | sweepExpiredProposals => cases hop
        | initializeContract =>
          obtain ⟨_, rfl⟩ := initializeContract_ok hok
          exact (ih hrec).snoc _
        | executeUpgrade executor proposalId =>
          obtain ⟨_, p, _, _, _, _, hexd⟩ := executeUpgrade_ok hok
          rw [hexd.rollbacks] at hrec
          cases hpr : w.currentVersion with
          | none =>
            rw [hpr] at hrec
            exact (ih hrec).snoc _
          | some prev =>
            rw [hpr, elim_some, get_set] at hrec
            split at hrec
            · rename_i hid
              cases hrec
              exact ⟨log, _, [], rfl, ⟨call, executor, hid ▸ rfl⟩, hpr⟩
            · exact (ih hrec).snoc _
        | rollbackUpgrade =>
          obtain ⟨_, p, other, _, _, _, rfl⟩ := rollbackUpgrade_ok hok
          exact (ih (get_of_remove hrec)).snoc _

/-! ## A rollback undoes one proposal -/

/--
**A rollback undoes the execution of its proposal.** In every run, a rollback restores the version, and swaps
in the hash, that ran immediately before the one execution of the proposal it names; and the hash of the
current version is the one that was swapped in last.
-/
theorem rollback_restores {log : Log Addr} (h : (system host).Logged guard w log) :
    (∀ before entry after, log = before ++ entry :: after → ∀ id, entry.2.RollsBack id →
      ∀ s', (system host).step entry.1 entry.2 = some s' →
        ∃ first execution later v, before = first ++ execution :: later ∧ execution.2.Executes id ∧
          (∀ other ∈ first ++ later, ¬ other.2.Executes id) ∧ execution.1.currentVersion = some v ∧
          s'.currentVersion = some v ∧ s'.wasmHash = some v.wasmHash ∧
          s'.deployed.getLast? = some v.wasmHash) ∧
      w.currentVersion.map ContractVersion.wasmHash = w.wasmHash ∧
      ∀ hash, w.deployed.getLast? = some hash → w.wasmHash = some hash := by
  refine ⟨?_, (running_code_reachable h.reachable).current, (running_code_reachable h.reachable).swapped⟩
  intro before entry after hspl id hrol s' hs
  have hbf := (h.split hspl).1
  obtain ⟨call, executor, he⟩ := hrol
  rw [he] at hs
  obtain ⟨_, p, record, _, _, hrec, rfl⟩ := rollbackUpgrade_ok (step_invoke.mp hs)
  obtain ⟨first, execution, later, rfl, hexs, hv⟩ := replaced_logged hbf hrec
  refine ⟨first, execution, later, _, rfl, hexs, ?_, hv, rfl, rfl, List.getLast?_concat⟩
  intro other hoth hagn
  rcases mem_append.mp hoth with hear | hltr
  · exact executes_once hbf hexs other hear hagn
  · -- a second execution would find the first one before it
    obtain ⟨middle, rest, rfl⟩ := append_of_mem hltr
    have hlog : (system host).Logged guard entry.1 (first ++ execution :: middle ++ other :: rest) := by
      rw [append_assoc, cons_append]
      exact hbf
    exact executes_once hlog hagn execution (mem_append_right _ mem_cons_self) hexs

/-- Version `2` and then version `3` are executed, and the first of the two is rolled back. -/
theorem rollback_restores_first : ∃ (log : Log Nat) (s w : World Nat),
    (system Sample.chain).step s (Sample.rollback 1 1) = some w ∧
      w.currentVersion.map ContractVersion.wasmHash = w.wasmHash ∧
      ∀ before entry after, log ++ [(s, Sample.rollback 1 1)] = before ++ entry :: after →
        ∀ id, entry.2.RollsBack id → ∀ s', (system Sample.chain).step entry.1 entry.2 = some s' →
          ∃ first execution later v, before = first ++ execution :: later ∧
            execution.2.Executes id ∧ (∀ other ∈ first ++ later, ¬ other.2.Executes id) ∧
            execution.1.currentVersion = some v ∧ s'.currentVersion = some v ∧
            s'.wasmHash = some v.wasmHash ∧ s'.deployed.getLast? = some v.wasmHash := by
  have hpl : ((system Sample.chain).play ClockMonotone
      (Sample.pending 2 3 ++ [Sample.execute 1 1, Sample.execute 1 2]) (World.init 0 0)).any (fun s =>
        ((system Sample.chain).step s (Sample.rollback 1 1)).isSome) = true := by
    decide
  obtain ⟨s, hs, hend⟩ := (Option.any_eq_true _ _).mp hpl
  obtain ⟨w, hw⟩ := isSome_iff_exists.mp hend
  have hlog := logged_of_play (start_init Sample.chain 0 0) hs
  have hg : ClockMonotone s (Sample.rollback 1 1) := trivial
  have hrst := rollback_restores (hlog.step hg hw)
  exact ⟨_, s, w, hw, hrst.2.1, hrst.1⟩

/--
There the last upgrade before the rollback replaced version `2`, and was not rolled back; the rollback
restores version `1`.
-/
theorem skipped_version : ∃ (before : Log Nat) (x s w : World Nat),
    (system Sample.chain).Logged ClockMonotone w
        (before ++ [(x, Sample.execute 1 2)] ++ [(s, Sample.rollback 1 1)]) ∧
      x.currentVersion.map ContractVersion.version = some (Sample.tag 2) ∧
      w.currentVersion.map ContractVersion.version = some (Sample.tag 1) := by
  have hpl : ((system Sample.chain).play ClockMonotone (Sample.pending 2 3 ++ [Sample.execute 1 1])
      (World.init 0 0)).any (fun x =>
        decide (x.currentVersion.map ContractVersion.version = some (Sample.tag 2)) &&
        ((system Sample.chain).step x (Sample.execute 1 2)).any fun s =>
          ((system Sample.chain).step s (Sample.rollback 1 1)).any fun w =>
            decide (w.currentVersion.map ContractVersion.version = some (Sample.tag 1))) = true := by
    decide
  obtain ⟨x, hx, hend⟩ := (Option.any_eq_true _ _).mp hpl
  rw [Bool.and_eq_true] at hend
  obtain ⟨s, hs, hrst⟩ := (Option.any_eq_true _ _).mp hend.2
  obtain ⟨w, hw, hcur⟩ := (Option.any_eq_true _ _).mp hrst
  have hlog := logged_of_play (start_init Sample.chain 0 0) hx
  have hec : ClockMonotone x (Sample.execute 1 2) := trivial
  exact ⟨_, x, s, w, (hlog.step hec hs).step trivial hw, of_decide_eq_true hend.1, of_decide_eq_true hcur⟩

end AiNet.UpgradeManager
