import AiNet.AgentRegistry.Index

/-!
# Version histories

The versions of an agent are the ones that were published for it, each after the one
before, and all but the latest are marked as superseded: that is what the backward scan of
the versioned lookup relies on. Who published them is another matter. The owner that has to
sign is the one in the record passed in, which nothing compares with the agent's.
-/

namespace AiNet.AgentRegistry

open Core List Option Storage System

/-! ## The order of versions -/

theorem versionLt_iff {a b : AgentVersion} : versionLt a b = true ↔ a.major < b.major ∨ (a.major = b.major ∧
      (a.minor < b.minor ∨ (a.minor = b.minor ∧ a.patch < b.patch))) := by
  unfold versionLt
  by_cases hmaj : a.major = b.major
  · rw [if_neg (not_not.mpr hmaj)]
    by_cases hmin : a.minor = b.minor
    · rw [if_neg (not_not.mpr hmin), decide_eq_true_iff]
      omega
    · rw [if_pos hmin, decide_eq_true_iff]
      omega
  · rw [if_pos hmaj, decide_eq_true_iff]
    omega

theorem versionLt_irrefl (a : AgentVersion) : versionLt a a = false := by
  rw [← Bool.not_eq_true, versionLt_iff]
  omega

theorem versionLt_asymm {a b : AgentVersion} (h : versionLt a b = true) : versionLt b a = false := by
  rw [versionLt_iff] at h
  rw [← Bool.not_eq_true, versionLt_iff]
  omega

@[simp] theorem versionOf_triple (v : AgentVersion) : versionOf v.triple = v := rfl

/-! ## What a publication does -/

variable {Addr Sym : Type} [DecidableEq Addr] [DecidableEq Sym]
variable {env : Env Addr Sym} {w w' : World Addr Sym}

/-- The world after a version of `record` was published. -/
def publish (w : World Addr Sym) (record : AgentRecord Addr Sym) (v : AgentVersion) :
    World Addr Sym :=
  { supersedeLatest w record.id with
    versionRecords := (supersedeLatest w record.id).versionRecords.set (record.id, v.triple)
      ⟨record, v, false, w.now⟩
    versionIndex := w.versionIndex.set record.id (getVersionIndex w record.id ++ [v.triple]) }

/-- A publication that goes through: a later version than all before, signed by the owner it names. -/
structure Publishes (env : Env Addr Sym) (signed : Addr → Bool) (w : World Addr Sym)
    (record : AgentRecord Addr Sym) (versionStr : List UInt8) (v : AgentVersion) : Prop where
  parsed : parseVersion versionStr = .ok v
  signature : signed record.owner = true
  registered : w.agents.has record.id = true
  later : ∀ t ∈ getVersionIndex w record.id, versionLt (versionOf t) v = true

variable {record : AgentRecord Addr Sym}

theorem registerAgentVersion_ok {signed : Addr → Bool} {versionStr : List UInt8}
    (h : registerAgentVersion env signed record versionStr w = .ok w') :
    ∃ v, Publishes env signed w record versionStr v ∧ w' = publish w record v := by
  simp only [registerAgentVersion, bind_eq_ok, requireAuth_eq_ok, failIf_eq_ok, pure_eq_ok,
    Bool.not_eq_false, Bool.not_eq_true, List.any_eq_false] at h
  obtain ⟨-, -, -, -, -, hau, -, -, -, hreg, v, hv, -, hltr, rfl⟩ := h
  refine ⟨v, ⟨hv, hau.2, hreg, ?_⟩, ?_⟩
  · intro t ht
    have hnot := hltr t ht
    rwa [decide_eq_false_iff_not, Bool.not_eq_false] at hnot
  · unfold publish
    rw [supersedeLatest_frame]

section

omit [DecidableEq Addr]

theorem publish_index (record : AgentRecord Addr Sym) (v : AgentVersion) (id : Sym) :
    getVersionIndex (publish w record v) id
      = if id = record.id then getVersionIndex w id ++ [v.triple] else getVersionIndex w id := by
  unfold publish getVersionIndex
  dsimp only
  rw [get_set]
  by_cases hid : id = record.id
  · rw [if_pos hid, if_pos hid, hid]
    rfl
  · rw [if_neg hid, if_neg hid]

theorem supersedeLatest_get (w : World Addr Sym) (id x : Sym) (t : Nat × Nat × Nat) :
    (supersedeLatest w id).versionRecords.get (x, t)
      = if x = id ∧ (getVersionIndex w id).getLast? = some t then
          (w.versionRecords.get (x, t)).map fun vr => { vr with superseded := true }
        else w.versionRecords.get (x, t) := by
  unfold supersedeLatest
  cases hla : (getVersionIndex w id).getLast? with
  | none => rw [if_neg (by simp)]
  | some latest =>
    dsimp only
    cases hvr : w.versionRecords.get (id, latest) with
    | none =>
      by_cases hhe : x = id ∧ some latest = some t
      · obtain ⟨rfl, ht⟩ := hhe
        cases ht
        rw [if_pos ⟨rfl, rfl⟩, hvr]
        rfl
      · rw [if_neg hhe]
    | some =>
      dsimp only
      rw [get_set]
      by_cases hhe : x = id ∧ some latest = some t
      · obtain ⟨rfl, ht⟩ := hhe
        cases ht
        rw [if_pos rfl, if_pos ⟨rfl, rfl⟩, hvr]
        rfl
      · rw [if_neg hhe, if_neg]
        intro he
        exact hhe ⟨congrArg Prod.fst he, congrArg some (congrArg Prod.snd he).symm⟩

end

/-! ## Histories -/

/-- The versions of an agent are increasing, and exactly the last is not superseded. -/
structure OrderedHistory (w : World Addr Sym) (id : Sym) : Prop where
  increasing : (getVersionIndex w id).Pairwise fun t u => versionLt (versionOf t) (versionOf u) = true
  latest : ∀ t ∈ getVersionIndex w id, ∃ vr, w.versionRecords.get (id, t) = some vr ∧
    vr.version = versionOf t ∧ (vr.superseded = false ↔ (getVersionIndex w id).getLast? = some t)

section

omit [DecidableEq Addr]

theorem OrderedHistory.of_kept {id : Sym} (h : OrderedHistory w id)
    (hkpt : w'.toVersions = w.toVersions) : OrderedHistory w' id := by
  have hidx : getVersionIndex w' id = getVersionIndex w id := by
    unfold getVersionIndex
    rw [hkpt]
  refine ⟨hidx ▸ h.increasing, ?_⟩
  rw [hidx, hkpt]
  exact h.latest

theorem OrderedHistory.publish_other {id : Sym} (h : OrderedHistory w id) {v : AgentVersion}
    (hid : id ≠ record.id) :
    OrderedHistory (publish w record v) id := by
  have hidx := publish_index (w := w) record v id
  rw [if_neg hid] at hidx
  refine ⟨hidx ▸ h.increasing, ?_⟩
  rw [hidx]
  intro t ht
  obtain ⟨vr, hvr, hver, hla⟩ := h.latest t ht
  refine ⟨vr, ?_, hver, hla⟩
  unfold publish
  dsimp only
  rw [get_set, if_neg (fun he => hid (congrArg Prod.fst he)), supersedeLatest_get,
    if_neg (fun he => hid he.1), hvr]

theorem OrderedHistory.publish_self {v : AgentVersion} (h : OrderedHistory w record.id)
    (hltr : ∀ t ∈ getVersionIndex w record.id, versionLt (versionOf t) v = true) :
    OrderedHistory (publish w record v) record.id := by
  have hidx := publish_index (w := w) record v record.id
  rw [if_pos rfl] at hidx
  -- the new version is none of those before
  have hfr : ∀ t ∈ getVersionIndex w record.id, t ≠ v.triple := by
    intro t ht he
    have hlt := hltr t ht
    rw [he, versionOf_triple, versionLt_irrefl] at hlt
    cases hlt
  refine ⟨?_, ?_⟩
  · rw [hidx, pairwise_append]
    refine ⟨h.increasing, pairwise_singleton _ _, ?_⟩
    intro t ht u hu
    rw [mem_singleton.mp hu]
    exact hltr t ht
  · rw [hidx]
    intro t ht
    rw [List.getLast?_concat]
    rcases mem_append.mp ht with hold | hnew
    · obtain ⟨vr, hvr, hver, hla⟩ := h.latest t hold
      have hget : (publish w record v).versionRecords.get (record.id, t)
          = (supersedeLatest w record.id).versionRecords.get (record.id, t) := by
        unfold publish
        dsimp only
        rw [get_set, if_neg (fun he => hfr t hold (congrArg Prod.snd he))]
      have hne : some v.triple ≠ some t := fun he => hfr t hold (some.inj he).symm
      rw [hget, supersedeLatest_get, hvr]
      by_cases hwas : (getVersionIndex w record.id).getLast? = some t
      · rw [if_pos ⟨rfl, hwas⟩]
        refine ⟨_, rfl, hver, ?_⟩
        exact ⟨fun he => Bool.noConfusion (he : true = false), fun he => absurd he hne⟩
      · rw [if_neg (fun he => hwas he.2)]
        exact ⟨vr, rfl, hver, fun he => absurd (hla.mp he) hwas, fun he => absurd he hne⟩
    · obtain rfl := mem_singleton.mp hnew
      unfold publish
      dsimp only
      rw [get_set, if_pos rfl]
      exact ⟨_, rfl, rfl, fun _ => rfl, fun _ => rfl⟩

end

theorem exec_versions_kept {signed : Addr → Bool} {op : Op Addr Sym}
    (h : exec env signed op w = .ok w')
    (hop : ∀ record versionStr, op ≠ .registerAgentVersion record versionStr) :
    w'.toVersions = w.toVersions := by
  cases op with
  | registerAgentVersion record versionStr => exact absurd rfl (hop record versionStr)
  | control => rw [execControl_frame h]
  | multisig => rw [(execMultisig_moves h).2.frame]
  | registration => rw [execRegistration_frame h]
  | bond => rw [(execBond_moves h).2.frame]
  | metrics => rw [(execMetrics_moves h).2.frame]
  | reputation => rw [execReputation_frame h]
  | discoverAgents => rw [execDiscover_frame h]

/-! ## The versioned lookup -/

def GreatestVersion (w : World Addr Sym) (id : Sym) (t : Nat × Nat × Nat) : Prop :=
  t ∈ getVersionIndex w id ∧ ∀ u ∈ getVersionIndex w id, versionLt (versionOf t) (versionOf u) = false

section

omit [DecidableEq Addr]

theorem OrderedHistory.getLast?_iff {id : Sym} (h : OrderedHistory w id) {t : Nat × Nat × Nat} :
    (getVersionIndex w id).getLast? = some t ↔ GreatestVersion w id t := by
  have hin := h.increasing
  unfold GreatestVersion
  generalize getVersionIndex w id = index at *
  rcases eq_nil_or_concat index with rfl | ⟨older, last, rfl⟩
  · rw [List.getLast?_nil]
    constructor
    · intro he
      cases he
    · exact fun he => absurd he.1 not_mem_nil
  · rw [concat_eq_append] at *
    obtain ⟨-, -, hbel⟩ := pairwise_append.mp hin
    rw [List.getLast?_concat]
    constructor
    · intro he
      obtain rfl := some.inj he
      refine ⟨mem_append_right _ mem_cons_self, ?_⟩
      intro u hu
      rcases mem_append.mp hu with hold | hsf
      · exact versionLt_asymm (hbel u hold last mem_cons_self)
      · rw [mem_singleton.mp hsf]
        exact versionLt_irrefl _
    · rintro ⟨ht, hgr⟩
      rcases mem_append.mp ht with hold | hsf
      · have hnot := hgr last (mem_append_right _ mem_cons_self)
        rw [hbel t hold last mem_cons_self] at hnot
        cases hnot
      · rw [mem_singleton.mp hsf]

/-- **The backward scan stops at the last version**, the only one that is not superseded. -/
theorem OrderedHistory.scan {id : Sym} (h : OrderedHistory w id) {c : AgentVersion} :
    scanVersions w id c (getVersionIndex w id).reverse = true ↔
      ∃ t, GreatestVersion w id t ∧ versionLt (versionOf t) c = false := by
  simp only [← h.getLast?_iff]
  have hla := h.latest
  generalize getVersionIndex w id = index at *
  rcases eq_nil_or_concat index with rfl | ⟨older, last, rfl⟩
  · rw [List.getLast?_nil]
    constructor
    · exact fun he => Bool.noConfusion (he : false = true)
    · rintro ⟨t, ht, -⟩
      cases ht
  · rw [concat_eq_append] at *
    rw [reverse_append, List.getLast?_concat]
    obtain ⟨vr, hvr, hver, hcur⟩ :=
      hla last (mem_append_right _ mem_cons_self)
    rw [List.getLast?_concat] at hcur
    show scanVersions w id c (last :: older.reverse) = true ↔ _
    unfold scanVersions
    rw [hvr]
    dsimp only
    rw [if_pos (hcur.mpr rfl), hver, Bool.not_eq_true']
    constructor
    · exact fun hge => ⟨last, rfl, hge⟩
    · rintro ⟨t, ht, hge⟩
      rwa [some.inj ht]

theorem mem_lookupAgentsVersioned (hi : Indexed w) (ho : ∀ id, OrderedHistory w id) {capability : Sym}
    {c : AgentVersion} :
    record ∈ lookupAgentsVersioned w capability (some c) ↔
      ∃ id, w.agents.get id = some record ∧ record.capability = capability ∧
        ∃ t, GreatestVersion w id t ∧ versionLt (versionOf t) c = false := by
  unfold lookupAgentsVersioned
  rw [mem_filterMap]
  simp only [filter_eq_some_iff, all_some, (ho _).scan]
  constructor
  · intro h
    obtain ⟨id, hid, hr, hgr⟩ := h
    obtain ⟨r, hr', hcap⟩ := (hi.listed capability id).mp hid
    cases hr.symm.trans hr'
    exact ⟨id, hr, hcap, hgr⟩
  · intro h
    obtain ⟨id, hr, hcap, hgr⟩ := h
    exact ⟨id, (hi.listed capability id).mpr ⟨record, hr, hcap⟩, hr, hgr⟩

theorem nodup_lookupAgentsVersioned (hi : Indexed w) (capability : Sym)
    (c : Option AgentVersion) : (lookupAgentsVersioned w capability c).Nodup := by
  unfold lookupAgentsVersioned
  refine (hi.nodup capability).filterMap ?_
  -- a record is found under its own id only
  intro a b record ha hb
  obtain ⟨hra, -⟩ := filter_eq_some_iff.mp ha
  obtain ⟨hrb, -⟩ := filter_eq_some_iff.mp hb
  rw [← hi.ids a record hra, ← hi.ids b record hrb]

end

/-! ## Runs -/

/-- The version that an event publishes for an agent, if it goes through. -/
def Event.publication (id : Sym) : Event Addr Sym → Option (Nat × Nat × Nat)
  | .invoke _ (.registerAgentVersion record versionStr) =>
    if record.id = id then (parseVersion versionStr).toOption.map AgentVersion.triple else none
  | _ => none

/-- Did the account sign the event? -/
def Event.signedBy (a : Addr) : Event Addr Sym → Bool
  | .invoke signed _ => signed a
  | _ => false

/-- The versions published for an agent in a run. -/
def published (id : Sym) (log : List (World Addr Sym × Event Addr Sym)) :
    List (Nat × Nat × Nat) :=
  log.filterMap fun entry => entry.2.publication id

/-- The version history of the registered agents, in a state and after the run that led to it. -/
structure VersionHistory (w : World Addr Sym)
    (log : List (World Addr Sym × Event Addr Sym)) : Prop where
  index : ∀ id, w.agents.has id = true → getVersionIndex w id = published id log
  owned : ∀ id, w.agents.has id = true → ∀ entry ∈ log, ∀ t, entry.2.publication id = some t →
    ∃ r, entry.1.agents.get id = some r ∧ entry.2.signedBy r.owner = true
  ordered : ∀ id, w.agents.has id = true → OrderedHistory w id
  lookup : ∀ capability c record, record ∈ lookupAgentsVersioned w capability (some c) ↔
    ∃ id, w.agents.get id = some record ∧ record.capability = capability ∧
      ∃ t, GreatestVersion w id t ∧ versionLt (versionOf t) c = false
  once : ∀ capability c, (lookupAgentsVersioned w capability c).Nodup

/-- A publication names the registered owner of the agent as its owner. -/
def NamesOwner (w : World Addr Sym) : Event Addr Sym → Prop
  | .invoke _ (.registerAgentVersion record _) =>
    (w.agents.get record.id).map AgentRecord.owner = some record.owner
  | _ => True

/-- **The step**: a call keeps every history ordered, and adds to it what it publishes. -/
theorem step_versions {e : Event Addr Sym} (hs : (system env).step w e = some w')
    (ho : ∀ id, OrderedHistory w id) (id : Sym) :
    OrderedHistory w' id ∧ getVersionIndex w' id = getVersionIndex w id ++ (e.publication id).toList := by
  have hkpt : w'.toVersions = w.toVersions → e.publication id = none → OrderedHistory w' id ∧
      getVersionIndex w' id = getVersionIndex w id ++ (e.publication id).toList := by
    intro hkpt hno
    refine ⟨(ho id).of_kept hkpt, ?_⟩
    rw [hno, toList_none, append_nil]
    unfold getVersionIndex
    rw [hkpt]
  cases e with
  | close | lapse =>
    cases hs
    exact hkpt rfl rfl
  | invoke signed op =>
    have hec := step_invoke.mp hs
    cases op with
    | registerAgentVersion record versionStr =>
      obtain ⟨v, hv, rfl⟩ := registerAgentVersion_ok hec
      have hpu : (Event.invoke signed (.registerAgentVersion record versionStr)).publication
          id = if record.id = id then some v.triple else none := by
        show (if record.id = id then (parseVersion versionStr).toOption.map _ else none) = _
        rw [hv.parsed]
        rfl
      rw [hpu, publish_index]
      by_cases hid : id = record.id
      · rw [if_pos hid, if_pos hid.symm, hid]
        exact ⟨(ho record.id).publish_self hv.later, rfl⟩
      · rw [if_neg hid, if_neg (Ne.symm hid)]
        exact ⟨(ho id).publish_other hid, (append_nil _).symm⟩
    | _ => exact hkpt (exec_versions_kept hec (by simp)) rfl

omit [DecidableEq Addr] in
theorem orderedHistory_init (now sequence : Nat) (id : Sym) :
    OrderedHistory (World.init now sequence : World Addr Sym) id :=
  ⟨.nil, fun _ ht => absurd ht not_mem_nil⟩

theorem versions_of_logged {guard : World Addr Sym → Event Addr Sym → Prop}
    {log : List (World Addr Sym × Event Addr Sym)}
    (h : (system env).Logged guard w log) (id : Sym) :
    OrderedHistory w id ∧ getVersionIndex w id = published id log := by
  induction h generalizing id with
  | start h0 =>
    obtain ⟨now, sequence, rfl⟩ := h0
    exact ⟨orderedHistory_init now sequence id, rfl⟩
  | @step s s' e log _ _ hs ih =>
    obtain ⟨hord, hidx⟩ := step_versions hs (fun x => (ih x).1) id
    refine ⟨hord, ?_⟩
    have hla : published id [(s, e)] = (e.publication id).toList := by
      unfold published
      cases hp : e.publication id with
      | none | some => simp [hp]
    rw [hidx, (ih id).2, ← hla]
    exact filterMap_append.symm

theorem signedBy_of_namesOwner {e : Event Addr Sym} (hs : (system env).step w e = some w')
    (hnam : NamesOwner w e) {id : Sym} {t : Nat × Nat × Nat} (ht : e.publication id = some t) :
    ∃ r, w.agents.get id = some r ∧ e.signedBy r.owner = true := by
  unfold Event.publication at ht
  split at ht
  · rename_i signed record versionStr
    obtain ⟨rfl, -⟩ := ite_none_right_eq_some.mp ht
    obtain ⟨v, hv, -⟩ := registerAgentVersion_ok (step_invoke.mp hs)
    obtain ⟨r, hr, hown⟩ := map_eq_some_iff.mp hnam
    refine ⟨r, hr, ?_⟩
    rw [hown]
    exact hv.signature
  · cases ht

/--
**The version history** of the agents after a run in which every publication names the registered owner
of the agent: the index is what was published, each version with the signature of that owner, the
order and the marks are right, and so is the lookup.
-/
theorem versionHistory_of_namesOwner {log : List (World Addr Sym × Event Addr Sym)}
    (h : (system env).Logged NamesOwner w log) : VersionHistory w log := by
  have hi := indexed_reachable h.reachable
  have hve := versions_of_logged h
  refine ⟨?_, ?_, ?_, ?_, ?_⟩
  · exact fun id _ => (hve id).2
  · intro id _ entry hent t ht
    obtain ⟨before, after, hlog⟩ := append_of_mem hent
    obtain ⟨-, hnam, s', hs⟩ := h.split hlog
    exact signedBy_of_namesOwner hs hnam ht
  · exact fun id _ => (hve id).1
  · intro capability c record
    exact mem_lookupAgentsVersioned hi (fun id => (hve id).1)
  · exact nodup_lookupAgentsVersioned hi

/-! ## Runs of it -/

instance (w : World Addr Sym) (e : Event Addr Sym) : Decidable (NamesOwner w e) :=
  match e with
  | .invoke _ (.registerAgentVersion record _) =>
    inferInstanceAs (Decidable ((w.agents.get record.id).map AgentRecord.owner = some record.owner))
  | .close _ _ => isTrue trivial
  | .lapse _ => isTrue trivial
  | .invoke _ (.control _) => isTrue trivial
  | .invoke _ (.multisig _) => isTrue trivial
  | .invoke _ (.registration _) => isTrue trivial
  | .invoke _ (.bond _) => isTrue trivial
  | .invoke _ (.metrics _) => isTrue trivial
  | .invoke _ (.reputation _) => isTrue trivial
  | .invoke _ (.discoverAgents _) => isTrue trivial

namespace Sample

/-- The agent `44` of the owner `4`. -/
def owned : List (Event Nat Nat) :=
  installed ++ [call 4 (.registration (.registerAgent (agent 44 4 100)))]

def released : List (Event Nat Nat) :=
  owned ++
    [ call 4 (.registerAgentVersion (agent 44 4 100) [49, 46, 48, 46, 48]),
      call 4 (.registerAgentVersion (agent 44 4 100) [49, 46, 50, 46, 48]) ]

/-- A stranger publishes a version 9.0.0, in a record that names the stranger as the owner. -/
def usurpation : Event Nat Nat :=
  call 6 (.registerAgentVersion (agent 44 6 100) [57, 46, 48, 46, 48])

end Sample

/-- Two versions of the owner's. -/
theorem versionHistory_of_namesOwner_released : ∃ (w : World Nat Nat)
    (log : List (World Nat Nat × Event Nat Nat)),
    (system Sample.deployment).Logged NamesOwner w log ∧ VersionHistory w log ∧
      getVersionIndex w 44 = [(1, 0, 0), (1, 2, 0)] := by
  have hpl : ((system Sample.deployment).play NamesOwner Sample.released (World.init 0 0)).any
      (fun w => getVersionIndex w 44 = [(1, 0, 0), (1, 2, 0)]) = true := by
    decide
  obtain ⟨w, hlog, hend⟩ := exists_logged (start_init _ 0 0) hpl
  exact ⟨w, _, hlog, versionHistory_of_namesOwner hlog, hend⟩

/-- The version of a stranger: the registered owner `4` has not signed it. -/
theorem usurped_version : ∃ (w : World Nat Nat) (log : List (World Nat Nat × Event Nat Nat)),
    (system Sample.deployment).Logged ClockMonotone w log ∧ ¬ VersionHistory w log := by
  have hpl : ((system Sample.deployment).play ClockMonotone Sample.owned (World.init 0 0)).any
      (fun s => (s.agents.get 44).map AgentRecord.owner = some 4 ∧
        ((system Sample.deployment).step s Sample.usurpation).any fun w => w.agents.has 44) = true := by
    decide
  obtain ⟨s, hs, hown, hst⟩ := exists_logged (start_init _ 0 0) hpl
  obtain ⟨w, hw, hreg⟩ := (Option.any_eq_true _ _).mp hst
  have hlog := hs.step (e := Sample.usurpation)
    (by trivial) hw
  have hpu : Sample.usurpation.publication 44 = some (9, 0, 0) := by decide
  have hun : Sample.usurpation.signedBy 4 = false := by decide
  refine ⟨w, _, hlog, ?_⟩
  intro h
  obtain ⟨r, hr, hsgn⟩ := h.owned 44 hreg _ (mem_append_right _ mem_cons_self)
    (9, 0, 0) hpu
  rw [hr] at hown
  rw [some.inj hown] at hsgn
  exact absurd (hun.symm.trans hsgn) (by decide)

end AiNet.AgentRegistry
