import AiNet.AgentSignature.Calls

/-!
# One challenge, one request

`books` relates the store to what was issued: an entry is that of an issued challenge which was not
burnt. From it, `authorised`: whoever gets through presents a challenge that was issued for this
purpose, key and payload, before it expired, and the holder of the key has signed its message.
-/

namespace AiNet.AgentSignature

open Core List Option UniqueTable

variable {c : Crypto} {s s' : State}

/-! ## Steps -/

/-- What a call of `verifyAgentOwnership` adds to the accepted ones. -/
def acceptedBy (c : Crypto) (s : State) (req : Request) (input : VerifyAgentOwnershipInput) :
    List Accepted :=
  match (verifyAgentOwnership c s.clock req input s.pending).1, req.presents with
  | .ok (), some challenge => [⟨challenge, input, s.clock⟩]
  | _, _ => []

theorem acceptedBy_eq (c : Crypto) (s : State) (req : Request) (input : VerifyAgentOwnershipInput) :
    acceptedBy c s req input = [] ∨ ∃ challenge,
      (verifyAgentOwnership c s.clock req input s.pending).1 = .ok () ∧
      req.presents = some challenge ∧ acceptedBy c s req input = [⟨challenge, input, s.clock⟩] := by
  unfold acceptedBy
  split
  · rename_i challenge hok hpr
    exact .inr ⟨challenge, hok, hpr, rfl⟩
  · exact .inl rfl

variable {e : Event}

theorem of_step (h : (agentAuth c).step s e = some s') :
    match e with
    | .issueAgentChallenge input nonce ttlMs =>
      nonce.text ∉ s.issued.map (fun issued => issued.challenge.challenge) ∧
      s' = { s with
        pending := (issueAgentChallenge c s.clock ttlMs nonce.text input s.pending).2
        issued := s.issued ++ [newIssued c s.clock ttlMs nonce.text input]
        displaced := s.displaced ++
          (evicted s.clock s.pending).map fun row => (row.1, input.publicKey) }
    | .sign publicKey message => s' = { s with signed := s.signed ++ [(publicKey, message)] }
    | .verifyAgentOwnership req input => Unforged c s.signed req input ∧ s' = { s with
          pending := (verifyAgentOwnership c s.clock req input s.pending).2
          burnt := s.burnt ++
            (req.presents.filter fun challenge => (s.pending.find challenge).isSome).toList
          accepted := s.accepted ++ acceptedBy c s req input }
    | .tick clock => s.clock ≤ clock ∧ s' = { s with clock := clock } := by
  cases e with
  | issueAgentChallenge =>
    obtain ⟨hfr, h⟩ := ite_none_right_eq_some.mp h
    exact ⟨hfr, (some.inj h).symm⟩
  | sign => exact (some.inj h).symm
  | verifyAgentOwnership =>
    obtain ⟨hun, h⟩ := ite_none_right_eq_some.mp h
    exact ⟨hun, (some.inj h).symm⟩
  | tick =>
    obtain ⟨hle, h⟩ := ite_none_right_eq_some.mp h
    exact ⟨hle, (some.inj h).symm⟩

variable {nonce : Nonce}

theorem issue_of_fresh {input : IssueChallengeInput} {ttlMs : Nat}
    (hfr : nonce.text ∉ s.issued.map fun issued => issued.challenge.challenge) :
    ∃ s', (agentAuth c).step s (.issueAgentChallenge input nonce ttlMs) = some s' :=
  ⟨_, if_pos hfr⟩

/-! ## The store and what was issued -/

/--
The store holds issued challenges that were neither burnt nor displaced; those that were accepted
were burnt.
-/
structure Books (c : Crypto) (s : State) : Prop where
  nonces : (s.issued.map fun i => i.challenge.challenge).Nodup
  line : ∀ i ∈ s.issued, '\n' ∉ i.challenge.challenge
  message : ∀ i ∈ s.issued, i.challenge.message = buildAgentAuthMessage i.input.purpose
    i.input.publicKey i.challenge.challenge (hashAgentPayload c i.input.payload)
  rows : ∀ row ∈ s.pending.rows, row.1 ∉ s.burnt ∧ ∃ i ∈ s.issued, row = (i.challenge.challenge, i.entry c)
  burnt : ∀ challenge ∈ s.burnt, ∃ i ∈ s.issued, i.challenge.challenge = challenge
  accepted : ∀ a ∈ s.accepted, a.challenge ∈ s.burnt
  once : (s.accepted.map Accepted.challenge).Nodup
  cap : s.pending.rows.length ≤ maxPendingChallenges
  displaced : ∀ d ∈ s.displaced, (∃ i ∈ s.issued, i.challenge.challenge = d.1) ∧
    ∀ row ∈ s.pending.rows, row.1 ≠ d.1

theorem Books.rows_issue (hB : Books c s) (input : IssueChallengeInput) (ttlMs : Nat)
    (hfr : nonce.text ∉ s.issued.map fun issued => issued.challenge.challenge) :
    (issueAgentChallenge c s.clock ttlMs nonce.text input s.pending).2.rows =
      evictOldest (pruneExpired s.clock s.pending).rows ++
        [(nonce.text, (newIssued c s.clock ttlMs nonce.text input).entry c)] := by
  refine AgentSignature.rows_issue fun row hrow hkey => ?_
  obtain ⟨_, i, hi, heq⟩ := hB.rows row hrow
  rw [heq] at hkey
  exact hfr (hkey ▸ List.mem_map_of_mem hi)

theorem Books.issue {input : IssueChallengeInput} {ttlMs : Nat} (hB : Books c s)
    (h : (agentAuth c).step s (.issueAgentChallenge input nonce ttlMs) = some s') : Books c s' := by
  obtain ⟨hfr, rfl⟩ := of_step h
  have hfe : ∀ i ∈ s.issued, i.challenge.challenge ≠ nonce.text := by
    intro i hi heq
    exact hfr (heq ▸ List.mem_map_of_mem hi)
  have hrw := hB.rows_issue input ttlMs hfr
  refine ⟨?_, ?_, ?_, ?_, ?_, hB.accepted, hB.once, ?_, ?_⟩
  · rw [map_append, nodup_append]
    refine ⟨hB.nonces, nodup_singleton _, ?_⟩
    intro n hn n' hn' heq
    rw [mem_singleton.mp hn'] at heq
    rw [heq] at hn
    exact hfr hn
  · intro i hi
    rcases mem_append.mp hi with hi | hi
    · exact hB.line i hi
    · rw [mem_singleton.mp hi]
      exact nonce.newline_notMem
  · intro i hi
    rcases mem_append.mp hi with hi | hi
    · exact hB.message i hi
    · rw [mem_singleton.mp hi]
      rfl
  · intro row hrow
    rw [hrw] at hrow
    rcases mem_append.mp hrow with hrow | hrow
    · have hold := (mem_pruneExpired.mp ((evictOldest_suffix _).subset hrow)).1
      obtain ⟨hbrn, i, hi, heq⟩ := hB.rows row hold
      exact ⟨hbrn, i, mem_append_left _ hi, heq⟩
    · rw [mem_singleton.mp hrow]
      refine ⟨fun hbrn => ?_, _, mem_append_right _ (mem_singleton_self _), rfl⟩
      obtain ⟨i, hi, heq⟩ := hB.burnt _ hbrn
      exact hfe i hi heq
  · intro challenge hchl
    obtain ⟨i, hi, heq⟩ := hB.burnt challenge hchl
    exact ⟨i, mem_append_left _ hi, heq⟩
  · rw [hrw, length_append, length_singleton]
    exact evictOldest_length _
  · intro d hd
    have hiss : ∃ i ∈ s.issued, i.challenge.challenge = d.1 := by
      rcases mem_append.mp hd with hd | hd
      · exact (hB.displaced d hd).1
      · obtain ⟨row, hrow, rfl⟩ := List.mem_map.mp hd
        obtain ⟨_, i, hi, heq⟩ := hB.rows row (mem_pruneExpired.mp (mem_evicted.mp hrow).1).1
        exact ⟨i, hi, by rw [heq]⟩
    obtain ⟨i, hi, hchl⟩ := hiss
    refine ⟨⟨i, mem_append_left _ hi, hchl⟩, ?_⟩
    intro row' hrow'
    rw [hrw] at hrow'
    rcases mem_append.mp hrow' with hrow' | hrow'
    · have hpr := (evictOldest_suffix _).subset hrow'
      rcases mem_append.mp hd with hd | hd
      · exact (hB.displaced d hd).2 row' (mem_pruneExpired.mp hpr).1
      · obtain ⟨row, hrow, rfl⟩ := List.mem_map.mp hd
        obtain ⟨hmem, hgn⟩ := mem_evicted.mp hrow
        intro heq
        rw [unique hmem hpr heq.symm] at hgn
        exact hgn hrow'
    · rw [mem_singleton.mp hrow', ← hchl]
      exact fun heq => hfe i hi heq.symm

variable {req : Request} {input : VerifyAgentOwnershipInput}

theorem burnt_of_accepted (h : acceptedBy c s req input ≠ []) : ∃ challenge, ∃ row : Text × PendingChallenge,
      (req.presents.filter fun challenge => (s.pending.find challenge).isSome).toList = [challenge] ∧
      row ∈ s.pending.rows ∧ row.1 = challenge ∧
      acceptedBy c s req input = [⟨challenge, input, s.clock⟩] := by
  rcases acceptedBy_eq c s req input with hno | ⟨challenge, hok, hpr, hnew⟩
  · exact absurd hno h
  obtain ⟨challenge', _, row, _, hpr', _, _, hrow, hkey, _⟩ := of_ok hok
  cases hpr.symm.trans hpr'
  refine ⟨challenge, row, ?_, hrow, hkey, hnew⟩
  rw [hpr, filter_some, if_pos, toList_some]
  exact isSome_iff_exists.mpr ⟨row, find_eq_some.mpr ⟨hrow, hkey⟩⟩

theorem Books.verify (hB : Books c s)
    (h : (agentAuth c).step s (.verifyAgentOwnership req input) = some s') : Books c s' := by
  obtain ⟨_, rfl⟩ := of_step h
  have hprs : ∀ challenge ∈ (req.presents.filter fun challenge =>
      (s.pending.find challenge).isSome).toList, challenge ∈ req.presents ∧
        ∃ row ∈ s.pending.rows, row.1 = challenge := by
    intro challenge hmem
    obtain ⟨hmem, hfnd⟩ := filter_eq_some_iff.mp (mem_toList.mp hmem)
    obtain ⟨row, hfi⟩ := isSome_iff_exists.mp hfnd
    exact ⟨hmem, row, find_eq_some.mp hfi⟩
  refine ⟨hB.nonces, hB.line, hB.message, ?_, ?_, ?_, ?_, ?_, ?_⟩
  · intro row hrow
    obtain ⟨hold, hoth⟩ := mem_verify.mp hrow
    obtain ⟨hbrn, hiss⟩ := hB.rows row hold
    refine ⟨fun hmem => ?_, hiss⟩
    rcases mem_append.mp hmem with hmem | hmem
    · exact hbrn hmem
    · exact hoth row.1 (hprs row.1 hmem).1 rfl
  · intro challenge hmem
    rcases mem_append.mp hmem with hmem | hmem
    · exact hB.burnt challenge hmem
    · obtain ⟨_, row, hrow, hkey⟩ := hprs challenge hmem
      obtain ⟨_, i, hi, heq⟩ := hB.rows row hrow
      rw [heq] at hkey
      exact ⟨i, hi, hkey⟩
  · intro a ha
    rcases mem_append.mp ha with ha | ha
    · exact mem_append_left _ (hB.accepted a ha)
    · obtain ⟨challenge, row, hft, _, _, hnew⟩ := burnt_of_accepted (ne_nil_of_mem ha)
      rw [hnew, mem_singleton] at ha
      rw [ha, hft]
      exact mem_append_right _ (mem_singleton_self _)
  · rcases acceptedBy_eq c s req input with hno | ⟨challenge', _, _, hnew⟩
    · rw [hno, append_nil]
      exact hB.once
    · have hso : acceptedBy c s req input ≠ [] := by
        rw [hnew]
        exact cons_ne_nil _ _
      obtain ⟨challenge, row, _, hrow, hkey, hnew⟩ := burnt_of_accepted hso
      rw [hnew, map_append, nodup_append]
      refine ⟨hB.once, nodup_singleton _, ?_⟩
      intro n hn n' hn' heq
      have heq : n = challenge := heq.trans (mem_singleton.mp hn')
      obtain ⟨a, ha, hac⟩ := List.mem_map.mp hn
      -- the challenge was outstanding, and what was accepted is burnt
      refine (hB.rows row hrow).1 ?_
      rw [hkey, ← heq, ← hac]
      exact hB.accepted a ha
  · exact Nat.le_trans (sublist_verify.length_le) hB.cap
  · intro d hd
    obtain ⟨hiss, hgn⟩ := hB.displaced d hd
    exact ⟨hiss, fun row hrow => hgn row (mem_verify.mp hrow).1⟩

theorem Books.step (hB : Books c s) (h : (agentAuth c).step s e = some s') : Books c s' := by
  cases e with
  | issueAgentChallenge => exact hB.issue h
  | sign publicKey message =>
    have heq : s' = { s with signed := s.signed ++ [(publicKey, message)] } := of_step h
    rw [heq]
    exact ⟨hB.nonces, hB.line, hB.message, hB.rows, hB.burnt, hB.accepted, hB.once, hB.cap, hB.displaced⟩
  | verifyAgentOwnership => exact hB.verify h
  | tick =>
    obtain ⟨_, rfl⟩ := of_step h
    exact ⟨hB.nonces, hB.line, hB.message, hB.rows, hB.burnt, hB.accepted, hB.once, hB.cap, hB.displaced⟩

theorem books {p : State → Event → Prop} (h : (agentAuth c).Reachable p s) : Books c s := by
  refine System.Reachable.invariant ?_ ?_ h
  · intro s hsta
    obtain ⟨hpnd, hiss, hbrn, hdi, hacd, _⟩ := hsta
    refine ⟨?_, ?_, ?_, ?_, ?_, ?_, ?_, ?_, ?_⟩
    · rw [hiss]; exact nodup_nil
    · rw [hiss]; exact fun _ h => absurd h not_mem_nil
    · rw [hiss]; exact fun _ h => absurd h not_mem_nil
    · rw [hpnd]; exact fun _ h => absurd h not_mem_nil
    · rw [hbrn]; exact fun _ h => absurd h not_mem_nil
    · rw [hacd]; exact fun _ h => absurd h not_mem_nil
    · rw [hacd]; exact nodup_nil
    · rw [hpnd]; exact Nat.zero_le _
    · rw [hdi]; exact fun _ h => absurd h not_mem_nil
  · intro s e s' _ _ hB hst
    exact hB.step hst

/-! ## What was accepted -/

/-- The challenge was issued for this request, had not expired, and its message was signed. -/
def Authorised (s : State) (a : Accepted) : Prop :=
  ∃ i ∈ s.issued, i.challenge.challenge = a.challenge ∧ a.clock < i.challenge.expiresAtMs ∧
    a.input.purpose = i.input.purpose ∧ a.input.publicKey = i.input.publicKey ∧
    JsValue.JsonEqual a.input.payload i.input.payload ∧
    (∀ agentId ∈ i.input.agentId, agentId = a.input.agentId.getD []) ∧
    (i.input.publicKey, i.challenge.message) ∈ s.signed

/-- Each challenge lets one request through, the one it was issued for. -/
structure OneRequest (s : State) : Prop where
  once : (s.accepted.map Accepted.challenge).Nodup
  authorised : ∀ a ∈ s.accepted, Authorised s a
  /-- A signed message is that of one challenge. -/
  message : ∀ i ∈ s.issued, ∀ j ∈ s.issued, i.challenge.message = j.challenge.message → i = j

theorem grows (h : (agentAuth c).step s e = some s') :
    (∀ i ∈ s.issued, i ∈ s'.issued) ∧ ∀ m ∈ s.signed, m ∈ s'.signed := by
  cases e with
  | issueAgentChallenge =>
    obtain ⟨_, rfl⟩ := of_step h
    exact ⟨fun i hi => mem_append_left _ hi, fun m hm => hm⟩
  | sign publicKey message =>
    have heq : s' = { s with signed := s.signed ++ [(publicKey, message)] } := of_step h
    rw [heq]
    exact ⟨fun i hi => hi, fun m hm => mem_append_left _ hm⟩
  | verifyAgentOwnership | tick =>
    obtain ⟨_, rfl⟩ := of_step h
    exact ⟨fun i hi => hi, fun m hm => hm⟩

theorem Authorised.grows {a : Accepted} (ha : Authorised s a)
    (h : (agentAuth c).step s e = some s') : Authorised s' a := by
  obtain ⟨i, hi, hchl, hclk, hprp, hkey, hpa, hagt, hsgn⟩ := ha
  obtain ⟨hiss, hme⟩ := AgentSignature.grows h
  exact ⟨i, hiss i hi, hchl, hclk, hprp, hkey, hpa, hagt, hme _ hsgn⟩

theorem jsonEqual_of_hash (hsha : Function.Injective c.sha256) {payload payload' : JsValue}
    (h : hashAgentPayload c payload = hashAgentPayload c payload') : JsValue.JsonEqual payload payload' :=
  JsValue.jsonEqual_of_canonicalJson (hsha (toHex_injective h))

/-- **A call that returns normally is authorised by the challenge that it presents.** -/
theorem authorised_of_accepted (hsha : Function.Injective c.sha256) (hB : Books c s)
    (hun : Unforged c s.signed req input) {a : Accepted}
    (ha : a ∈ acceptedBy c s req input) : Authorised s a := by
  rcases acceptedBy_eq c s req input with hno | ⟨challenge, hok, hpr, hnew⟩
  · rw [hno] at ha
    cases ha
  rw [hnew, mem_singleton] at ha
  obtain ⟨challenge', signature, row, bytes, hpr', hrd, hsg, hrow, hkey, hexy, hbd, hde, hve⟩ := of_ok hok
  cases hpr.symm.trans hpr'
  obtain ⟨_, i, hi, hent⟩ := hB.rows row hrow
  rw [hent] at hkey hexy hbd
  obtain ⟨hprp, hpe, hsh, hagt⟩ := of_bound hbd
  have hme : input.message c challenge = i.challenge.message := by
    rw [hB.message i hi, VerifyAgentOwnershipInput.message, ← hprp, ← hpe, ← hsh, ← hkey]
    rfl
  have hsgn := hun challenge hrd signature hsg bytes hde hve
  rw [hme, ← hpe] at hsgn
  rw [ha]
  exact ⟨i, hi, hkey, hexy, hprp.symm, hpe.symm, (jsonEqual_of_hash hsha hsh).symm, hagt, hsgn⟩

/-- **In every run, each challenge lets one request through, the one it was issued for.** -/
theorem oneRequest (hsha : Function.Injective c.sha256) {p : State → Event → Prop}
    (h : (agentAuth c).Reachable p s) : OneRequest s := by
  have hau : ∀ a ∈ s.accepted, Authorised s a := by
    refine System.Reachable.invariant (I := fun s => ∀ a ∈ s.accepted, Authorised s a) ?_ ?_ h
    · intro s hsta a ha
      rw [hsta.2.2.2.2.1] at ha
      cases ha
    · intro s e s' hr _ hI hst a ha
      have hgrw : ∀ a ∈ s.accepted, Authorised s' a := fun a ha => (hI a ha).grows hst
      cases e with
      | issueAgentChallenge | tick =>
        obtain ⟨_, rfl⟩ := of_step hst
        exact hgrw a ha
      | sign publicKey message =>
        have heq : s' = { s with signed := s.signed ++ [(publicKey, message)] } := of_step hst
        rw [heq] at ha
        exact hgrw a ha
      | verifyAgentOwnership =>
        obtain ⟨hun, rfl⟩ := of_step hst
        rcases mem_append.mp ha with ha | ha
        · exact hgrw a ha
        · exact authorised_of_accepted hsha (books hr) hun ha
  have hB := books h
  refine ⟨hB.once, hau, ?_⟩
  intro i hi j hj heq
  rw [hB.message i hi, hB.message j hj] at heq
  refine inj_on_of_nodup_map hB.nonces hi hj ?_
  exact challenge_of_message (hB.line i hi) (hB.line j hj) (newline_notMem_toHex _)
    (newline_notMem_toHex _) heq

end AiNet.AgentSignature
