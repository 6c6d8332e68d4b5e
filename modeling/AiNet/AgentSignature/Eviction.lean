import AiNet.AgentSignature.Ownership

/-!
# Outstanding challenges and the cap

The store holds 10000 challenges. A burst larger than that should push out the caller's own new
challenges only; the loop takes the oldest one, whoever it was issued for. `Spares` says of an issue
that there is room, or that the oldest challenge belongs to the same key. `authorises_one_request`: a run
keeps every outstanding challenge exactly when all of its steps meet that.
-/

namespace AiNet.AgentSignature

open Core List Option

variable {c : Crypto} {s s' : State}

/--
A challenge that is neither burnt nor expired is outstanding, or it made room for another challenge of
its own key.
-/
def Kept (s : State) : Prop :=
  ∀ i ∈ s.issued, s.clock < i.challenge.expiresAtMs → i.challenge.challenge ∉ s.burnt →
    (∃ row ∈ s.pending.rows, row.1 = i.challenge.challenge) ∨
      (i.challenge.challenge, i.input.publicKey) ∈ s.displaced

/-- There is room for a new challenge, or the oldest one was issued for the same key. -/
def Spares (s : State) : Event → Prop
  | .issueAgentChallenge input _ _ =>
    (pruneExpired s.clock s.pending).rows.length < maxPendingChallenges ∨
      ∀ row ∈ (pruneExpired s.clock s.pending).rows.head?, row.2.publicKey = input.publicKey
  | .sign _ _ => True
  | .verifyAgentOwnership _ _ => True
  | .tick _ => True

instance (s : State) (e : Event) : Decidable (Spares s e) := by
  cases e with
  | issueAgentChallenge =>
    unfold Spares
    infer_instance
  | sign | verifyAgentOwnership | tick => exact .isTrue trivial

/-! ## Whose challenge goes -/

theorem pruned_length (hB : Books c s) :
    (pruneExpired s.clock s.pending).rows.length ≤ maxPendingChallenges :=
  Nat.le_trans (length_filter_le _ _) hB.cap

variable {input : IssueChallengeInput} {nonce : Nonce} {ttlMs : Nat}

theorem own_of_evicted (hB : Books c s) (hsps : Spares s (.issueAgentChallenge input nonce ttlMs))
    {row : Text × PendingChallenge} (hrow : row ∈ evicted s.clock s.pending) : row.2.publicKey = input.publicKey := by
  obtain ⟨hmem, hgn⟩ := mem_evicted.mp hrow
  rw [evictOldest_eq (pruned_length hB)] at hgn
  rcases hsps with hro | hhe
  · rw [if_pos hro] at hgn
    exact absurd hmem hgn
  · cases hrw : (pruneExpired s.clock s.pending).rows with
    | nil =>
      rw [hrw] at hmem
      cases hmem
    | cons =>
      rw [hrw] at hmem hgn hhe
      rcases mem_cons.mp hmem with rfl | hrst
      · exact hhe row rfl
      · split at hgn
        · exact absurd (mem_cons_of_mem _ hrst) hgn
        · exact absurd hrst hgn

theorem other_of_evicted (hB : Books c s) (hsps : ¬Spares s (.issueAgentChallenge input nonce ttlMs)) :
    ∃ row ∈ evicted s.clock s.pending, row.2.publicKey ≠ input.publicKey := by
  unfold Spares at hsps
  rw [not_or] at hsps
  obtain ⟨hfl, hhe⟩ := hsps
  cases hrw : (pruneExpired s.clock s.pending).rows with
  | nil =>
    rw [hrw] at hhe
    exact absurd (fun row hrow => by cases hrow) hhe
  | cons first =>
    rw [hrw] at hhe
    refine ⟨first, mem_evicted.mpr ⟨?_, ?_⟩, fun heq => hhe fun row hrow => ?_⟩
    · rw [hrw]
      exact mem_cons_self ..
    · rw [evictOldest_eq (pruned_length hB), if_neg hfl, hrw]
      intro hmem
      have hke := (pruneExpired s.clock s.pending).keys
      rw [hrw, map_cons, nodup_cons] at hke
      exact hke.1 (List.mem_map_of_mem hmem)
    · cases hrow
      exact heq

/-! ## What a step keeps -/

theorem Books.entry_of_key (hB : Books c s) {i : Issued} (hi : i ∈ s.issued)
    {row : Text × PendingChallenge} (hrow : row ∈ s.pending.rows)
    (hkey : row.1 = i.challenge.challenge) : row = (i.challenge.challenge, i.entry c) := by
  obtain ⟨_, j, hj, heq⟩ := hB.rows row hrow
  rw [heq] at hkey
  obtain rfl := inj_on_of_nodup_map hB.nonces hj hi hkey
  exact heq

theorem Kept.issue (hB : Books c s) (hkpt : Kept s)
    (h : (agentAuth c).step s (.issueAgentChallenge input nonce ttlMs) = some s')
    (hsps : Spares s (.issueAgentChallenge input nonce ttlMs)) : Kept s' := by
  obtain ⟨hfr, rfl⟩ := of_step h
  have hrw := hB.rows_issue input ttlMs hfr
  intro i hi hclk hbrn
  rcases mem_append.mp hi with hold | hnew
  · rcases hkpt i hold hclk hbrn with ⟨row, hrow, hkey⟩ | hdi
    · have hent := hB.entry_of_key hold hrow hkey
      have hpr : row ∈ (pruneExpired s.clock s.pending).rows := by
        refine mem_pruneExpired.mpr ⟨hrow, ?_⟩
        rw [hent]
        exact hclk
      by_cases hsty : row ∈ evictOldest (pruneExpired s.clock s.pending).rows
      · refine .inl ⟨row, ?_, hkey⟩
        rw [hrw]
        exact mem_append_left _ hsty
      · have hev := mem_evicted.mpr ⟨hpr, hsty⟩
        have hown := own_of_evicted hB hsps hev
        rw [hent] at hown
        refine .inr (mem_append_right _ (List.mem_map.mpr ⟨row, hev, ?_⟩))
        rw [hkey, ← hown]
        rfl
    · exact .inr (mem_append_left _ hdi)
  · rw [mem_singleton.mp hnew]
    refine .inl ⟨(nonce.text, (newIssued c s.clock ttlMs nonce.text input).entry c), ?_, rfl⟩
    rw [hrw]
    exact mem_append_right _ (mem_singleton_self _)

theorem Kept.verify {req : Request} {input : VerifyAgentOwnershipInput} (hkpt : Kept s)
    (h : (agentAuth c).step s (.verifyAgentOwnership req input) = some s') : Kept s' := by
  obtain ⟨_, rfl⟩ := of_step h
  intro i hi hclk hbrn
  rcases hkpt i hi hclk fun hmem => hbrn (mem_append_left _ hmem) with
    ⟨row, hrow, hkey⟩ | hdi
  · refine .inl ⟨row, mem_verify.mpr ⟨hrow, ?_⟩, hkey⟩
    -- a challenge that was outstanding and presented is burnt
    rintro challenge hpr rfl
    refine hbrn (mem_append_right _ (mem_toList.mpr (filter_eq_some_iff.mpr ?_)))
    rw [← hkey]
    exact ⟨hpr, isSome_iff_exists.mpr ⟨row, UniqueTable.find_eq_some.mpr ⟨hrow, rfl⟩⟩⟩
  · exact .inr hdi

theorem Kept.spares (hB : Books c s) (hB' : Books c s') (hkpt : Kept s')
    (h : (agentAuth c).step s (.issueAgentChallenge input nonce ttlMs) = some s') :
    Spares s (.issueAgentChallenge input nonce ttlMs) := by
  by_contra hsps
  obtain ⟨row, hev, hoth⟩ := other_of_evicted hB hsps
  obtain ⟨hpr, _⟩ := mem_evicted.mp hev
  obtain ⟨hrow, hexy⟩ := mem_pruneExpired.mp hpr
  obtain ⟨hbrn, i, hi, hent⟩ := hB.rows row hrow
  obtain ⟨_, rfl⟩ := of_step h
  have hdi : (row.1, input.publicKey) ∈ s.displaced ++
      (evicted s.clock s.pending).map fun row => (row.1, input.publicKey) :=
    mem_append_right _ (List.mem_map_of_mem hev)
  rw [hent] at hbrn hexy hoth hrow
  rcases hkpt i (mem_append_left _ hi) hexy hbrn with ⟨row', hrow', hkey⟩ | hmem
  · refine (hB'.displaced _ hdi).2 row' hrow' ?_
    rw [hkey, hent]
  · rcases mem_append.mp hmem with hmem | hmem
    · exact (hB.displaced _ hmem).2 _ hrow rfl
    · obtain ⟨_, _, heq⟩ := List.mem_map.mp hmem
      exact hoth (Prod.mk.inj heq).2.symm

/-- **A step keeps the outstanding challenges exactly when it spares the others.** -/
theorem kept_iff {e : Event} (hB : Books c s) (h : (agentAuth c).step s e = some s') (hkpt : Kept s) :
    Kept s' ↔ Spares s e := by
  cases e with
  | issueAgentChallenge =>
    exact ⟨fun hkpt' => hkpt'.spares hB (hB.step h) h, fun hsps => hkpt.issue hB h hsps⟩
  | sign publicKey message =>
    have heq : s' = { s with signed := s.signed ++ [(publicKey, message)] } := of_step h
    rw [heq]
    exact ⟨fun _ => trivial, fun _ => hkpt⟩
  | verifyAgentOwnership => exact ⟨fun _ => trivial, fun _ => hkpt.verify h⟩
  | tick =>
    obtain ⟨hle, rfl⟩ := of_step h
    exact ⟨fun _ => trivial, fun _ i hi hclk => hkpt i hi (Nat.lt_of_le_of_lt hle hclk)⟩

/-! ## Whole runs -/

/--
**An ownership proof authorises one request**, in every run. And the outstanding challenges of a run
are kept in all of its states exactly when every issue has room or takes the oldest challenge from its
own key.
-/
theorem authorises_one_request (hsha : Function.Injective c.sha256) {log : List (State × Event)}
    (h : (agentAuth c).Logged (fun _ _ => True) s log) :
    (∀ p ∈ log.map Prod.fst ++ [s], OneRequest p) ∧
      ((∀ p ∈ log.map Prod.fst ++ [s], Kept p) ↔ ∀ entry ∈ log, Spares entry.1 entry.2) := by
  constructor
  · intro p hp
    exact oneRequest hsha (h.passed hp)
  · refine h.forall_passed_iff ?_ ?_
    · intro s hsta i hi
      rw [hsta.2.1] at hi
      cases hi
    · intro s e s' hr _ hst hkpt
      exact kept_iff (books hr) hst hkpt

/-! ## A proof, and a flood -/

section Sample

/-- An agent's Stellar key. -/
def holder : Text := "GDLVVGABQKYQVN6VJP7NHSLEA45A5YLS6PNKMIZFV4BBU2HXA5IRVHUR".toList

/-- The request to delete the agent `a`. -/
def deletion : IssueChallengeInput where
  purpose := .delete
  publicKey := holder
  payload := .object [([97, 103, 101, 110, 116, 73, 100], .string [97])]
  agentId := some ['a']

def deletionDigest : List UInt8 :=
  [193, 18, 147, 31, 249, 218, 92, 141, 26, 76, 0, 209, 146, 1, 155, 117, 229, 14, 38, 53, 109, 75, 14,
    131, 61, 99, 73, 149, 84, 105, 42, 148]

def deletionSignature : Text :=
  "DQ8kPsZVcLrK8VQXfmQzw1lY4UQt7sCFEhOryJUAzKWKA4qsb1HcsmMs55+v8maNVkyPS1r3vQvfvrkQhfUeBQ==".toList

/-- The bytes of the characters, three each. -/
def wide (text : Text) : List UInt8 :=
  text.flatMap fun c => [UInt8.ofNat (c.toNat / 65536), UInt8.ofNat (c.toNat / 256 % 256),
    UInt8.ofNat (c.toNat % 256)]

theorem wide_injective {text text' : Text} (h : wide text = wide text') : text = text' := by
  induction text generalizing text' with
  | nil =>
    cases text' with
    | nil => rfl
    | cons => cases h
  | cons c text ih =>
    cases text' with
    | nil => cases h
    | cons c' =>
      obtain ⟨hhi, hrst⟩ := List.cons.inj h
      obtain ⟨hmi, hrst⟩ := List.cons.inj hrst
      obtain ⟨hlow, hrst⟩ := List.cons.inj hrst
      have hhi := congrArg UInt8.toNat hhi
      have hmi := congrArg UInt8.toNat hmi
      have hlow := congrArg UInt8.toNat hlow
      have hlt : ∀ c : Char, c.toNat < 1114112 := by
        intro c
        rcases c.valid with h | h
        · exact Nat.lt_trans h (by omega)
        · exact h.2
      have hc := hlt c
      have hc' := hlt c'
      simp only [UInt8.toNat_ofNat'] at hhi hmi hlow
      have hnat : c.toNat = c'.toNat := by omega
      rw [ih hrst, Char.toNat_inj.mp hnat]

/-- SHA-256 and Ed25519 where the deletion needs them. -/
def sample : Crypto where
  sha256 := fun text =>
    if text = deletion.payload.canonicalJson then deletionDigest else 0 :: wide text
  verify := fun publicKey message signature =>
    some (decide (publicKey = holder ∧
      message = buildAgentAuthMessage .delete holder (List.replicate 32 'A') (toHex deletionDigest) ∧
      some signature = decodeSignature deletionSignature))

theorem sample_injective : Function.Injective sample.sha256 := by
  intro text text' h
  simp only [sample] at h
  split at h
  · rename_i heq
    split at h
    · rename_i heq'
      exact heq.trans heq'.symm
    · exact absurd (List.cons.inj h).1 (by decide)
  · split at h
    · exact absurd (List.cons.inj h).1 (by decide)
    · exact wide_injective (List.cons.inj h).2

def sampleNonce : Nonce :=
  ⟨List.replicate 32 'A', by decide, fun _ hc => .inl (List.eq_of_mem_replicate hc ▸ rfl)⟩

/-- The agent is asked for a signature, makes it, and presents it. -/
def deletionRun : List Event :=
  [.issueAgentChallenge deletion sampleNonce 300000,
    .sign holder (buildAgentAuthMessage .delete holder (List.replicate 32 'A') (toHex deletionDigest)),
    .verifyAgentOwnership ⟨.one (List.replicate 32 'A'), .one deletionSignature⟩ ⟨deletion, none⟩]

def emptyStore : State := ⟨0, .empty _, [], [], [], [], []⟩

theorem authorises_one_request_deletion : ∃ (s : State) (log : List (State × Event)),
    s.accepted.length = 1 ∧ (∀ p ∈ log.map Prod.fst ++ [s], OneRequest p) ∧
      ((∀ p ∈ log.map Prod.fst ++ [s], Kept p) ↔ ∀ entry ∈ log, Spares entry.1 entry.2) := by
  have hpl : ((agentAuth sample).play (fun _ _ => True) deletionRun emptyStore).any
      (fun s => decide (s.accepted.length = 1)) = true := by
    have hhol : holder = _ := String.toList_ofList
    have hsig : deletionSignature = _ := String.toList_ofList
    unfold sample deletionRun deletion
    rw [hhol, hsig]
    decide +kernel
  have hsta : (agentAuth sample).start emptyStore := ⟨rfl, rfl, rfl, rfl, rfl, rfl⟩
  obtain ⟨s, hlgd, hacd⟩ := System.exists_logged hsta hpl
  exact ⟨s, _, hacd, authorises_one_request sample_injective hlgd⟩

/-- The last `k` decimal digits, the last one first. -/
def digits : Nat → Nat → Text
  | 0, _ => []
  | k + 1, n => Nat.digitChar (n % 10) :: digits k (n / 10)

theorem digits_length (k n : Nat) : (digits k n).length = k := by
  induction k generalizing n with
  | zero => rfl
  | succ k ih => rw [digits, length_cons, ih]

theorem digits_chars (k n : Nat) : ∀ c ∈ digits k n, c.isAlphanum ∨ c = '-' ∨ c = '_' := by
  have hdig : ∀ d < 10, (Nat.digitChar d).isAlphanum = true := by decide
  induction k generalizing n with
  | zero => exact fun _ h => absurd h not_mem_nil
  | succ k ih =>
    refine forall_mem_cons.mpr ⟨.inl (hdig _ (by omega)), ih (n / 10)⟩

theorem digits_injective {k n m : Nat} (hn : n < 10 ^ k) (hm : m < 10 ^ k)
    (h : digits k n = digits k m) : n = m := by
  have hdig : ∀ d < 10, ∀ d' < 10, Nat.digitChar d = Nat.digitChar d' → d = d' := by decide
  induction k generalizing n m with
  | zero => omega
  | succ k ih =>
    obtain ⟨hla, hrst⟩ := List.cons.inj h
    have hla := hdig _ (Nat.mod_lt n (by omega)) _ (Nat.mod_lt m (by omega)) hla
    have hdiv := ih (n := n / 10) (m := m / 10) (by omega) (by omega) hrst
    omega

def numbered (n : Nat) : Nonce := ⟨digits 32 n, digits_length 32 n, digits_chars 32 n⟩

/-- A challenge that anyone may ask for. -/
def other : IssueChallengeInput := { deletion with publicKey := ['B'] }

/-- The agent has asked for a challenge, and after it others have, `n` times. -/
structure Flooded (n : Nat) (s : State) : Prop where
  reachable : (agentAuth sample).Reachable (fun _ _ => True) s
  clock : s.clock = 0
  issued : ∀ i ∈ s.issued, ∃ m ≤ n, i.challenge.challenge = digits 32 m
  expiry : ∀ row ∈ s.pending.rows, 0 < row.2.expiresAtMs
  length : s.pending.rows.length = n + 1
  first : ∀ row ∈ s.pending.rows.head?, row.2.publicKey = holder

theorem pruned_flooded {n : Nat} (h : Flooded n s) :
    (pruneExpired s.clock s.pending).rows = s.pending.rows := by
  refine filter_eq_self.mpr fun row hrow => ?_
  have hexy := h.expiry row hrow
  rw [h.clock]
  simp only [Bool.not_eq_true', decide_eq_false_iff_not]
  omega

theorem issue_flooded {n : Nat} (h : Flooded n s) (hn : n + 1 < 10 ^ 32) :
    ∃ s', (agentAuth sample).step s (.issueAgentChallenge other (numbered (n + 1)) 300000) = some s' := by
  refine issue_of_fresh fun hmem => ?_
  obtain ⟨i, hi, hchl⟩ := List.mem_map.mp hmem
  obtain ⟨m, hm, heq⟩ := h.issued i hi
  have hnum := digits_injective hn (by omega) (hchl.symm.trans heq)
  omega

theorem flooded (n : Nat) (hn : n < maxPendingChallenges) : ∃ s, Flooded n s := by
  have hmax : maxPendingChallenges < 10 ^ 32 := by decide
  induction n with
  | zero =>
    have hsta : (agentAuth sample).start emptyStore := ⟨rfl, rfl, rfl, rfl, rfl, rfl⟩
    have hun : (numbered 0).text ∉ emptyStore.issued.map fun i => i.challenge.challenge :=
      not_mem_nil
    have hiss : ∃ s, (agentAuth sample).step emptyStore
        (.issueAgentChallenge deletion (numbered 0) 300000) = some s := issue_of_fresh hun
    obtain ⟨s, hs⟩ := hiss
    have h0 : (agentAuth sample).Reachable (fun _ _ => True) emptyStore := .init hsta
    have hB := books h0
    have hr := h0.tail trivial hs
    obtain ⟨_, rfl⟩ := of_step hs
    have hrw := hB.rows_issue deletion 300000 hun
    refine ⟨_, hr, rfl, ?_, ?_, ?_, ?_⟩
    · intro i hi
      rw [mem_singleton.mp hi]
      exact ⟨0, Nat.le_refl _, rfl⟩
    · intro row hrow
      rw [hrw] at hrow
      rw [mem_singleton.mp hrow]
      exact (by decide : 0 < 0 + 300000)
    · rw [hrw]
      rfl
    · intro row hrow
      rw [hrw] at hrow
      rw [← some.inj hrow]
      rfl
  | succ n ih =>
    obtain ⟨s, h⟩ := ih (by omega)
    obtain ⟨s', hs'⟩ := issue_flooded h (by omega)
    have hB := books h.reachable
    have hr := h.reachable.tail trivial hs'
    obtain ⟨hfr, rfl⟩ := of_step hs'
    have hrw := hB.rows_issue other 300000 hfr
    rw [pruned_flooded h, evictOldest_of_lt (by rw [h.length]; exact hn)] at hrw
    refine ⟨_, hr, h.clock, ?_, ?_, ?_, ?_⟩
    · intro i hi
      rcases mem_append.mp hi with hi | hi
      · obtain ⟨m, hm, heq⟩ := h.issued i hi
        exact ⟨m, Nat.le_succ_of_le hm, heq⟩
      · rw [mem_singleton.mp hi]
        exact ⟨n + 1, Nat.le_refl _, rfl⟩
    · intro row hrow
      rw [hrw] at hrow
      rcases mem_append.mp hrow with hrow | hrow
      · exact h.expiry row hrow
      · rw [mem_singleton.mp hrow]
        exact Nat.lt_of_lt_of_le (by omega : 0 < 300000) (Nat.le_add_left _ _)
    · rw [hrw, length_append, h.length]
      rfl
    · intro row hrow
      rw [hrw] at hrow
      refine h.first row ?_
      cases hpnd : s.pending.rows with
      | nil =>
        have hlen := h.length
        rw [hpnd] at hlen
        cases hlen
      | cons =>
        rw [hpnd] at hrow
        exact hrow

/--
**Ten thousand challenges for other keys.** The agent has been issued a challenge; the last of them
takes it away, though it has not expired and nobody has presented it.
-/
theorem flood_displaces : ∃ s, (agentAuth sample).Reachable (fun _ _ => True) s ∧ ¬Kept s := by
  obtain ⟨s, h⟩ := flooded 9999 (by decide)
  obtain ⟨s', hs'⟩ := issue_flooded h (by omega)
  have hB := books h.reachable
  refine ⟨s', h.reachable.tail trivial hs', fun hkpt => ?_⟩
  have hsps := hkpt.spares hB (hB.step hs') hs'
  rcases hsps with hro | hhe
  · rw [pruned_flooded h, h.length] at hro
    exact absurd hro (by decide)
  · rw [pruned_flooded h] at hhe
    cases hpnd : s.pending.rows with
    | nil =>
      have hlen := h.length
      rw [hpnd] at hlen
      cases hlen
    | cons first =>
      have hfst : first ∈ s.pending.rows.head? := by
        rw [hpnd]
        rfl
      have hke := (h.first first hfst).symm.trans (hhe first hfst)
      exact absurd hke (by decide)

end Sample

end AiNet.AgentSignature
