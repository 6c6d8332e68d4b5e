import AiNet.AgentSignature.Challenges

/-!
# What the two calls do

A message names its challenge: hashes and nonces are one line each. An issue puts the new challenge
last, after those that were not evicted (`rows_issue`); a call of `verifyAgentOwnership` takes the
presented challenge away (`mem_verify`), and `of_ok` says what it has checked when it returns normally.
-/

namespace AiNet.AgentSignature

open Core List Option UniqueTable

/-! ## Hashes and messages -/

theorem digits_toHex (b : UInt8) : Nat.digitChar (b.toNat / 16) ≠ '\n' ∧ Nat.digitChar (b.toNat % 16) ≠ '\n' := by
  have hdig : ∀ d < 16, Nat.digitChar d ≠ '\n' := by decide
  have hlt := b.toNat_lt
  exact ⟨hdig _ (by omega), hdig _ (by omega)⟩

theorem newline_notMem_toHex (bytes : List UInt8) : '\n' ∉ toHex bytes := by
  intro h
  obtain ⟨b, _, hb⟩ := mem_flatMap.mp h
  obtain ⟨hhi, hlow⟩ := digits_toHex b
  simp only [mem_cons, not_mem_nil, or_false] at hb
  rcases hb with hb | hb
  · exact hhi hb.symm
  · exact hlow hb.symm

theorem toHex_injective {bytes bytes' : List UInt8} (h : toHex bytes = toHex bytes') :
    bytes = bytes' := by
  induction bytes generalizing bytes' with
  | nil =>
    cases bytes' with
    | nil => rfl
    | cons => cases h
  | cons b bytes ih =>
    cases bytes' with
    | nil => cases h
    | cons b' =>
      obtain ⟨hhi, hrst⟩ := List.cons.inj h
      obtain ⟨hlow, hrst⟩ := List.cons.inj hrst
      have hlt := b.toNat_lt
      have hlt' := b'.toNat_lt
      have hhi := congrArg JsString.hexValue hhi
      have hlow := congrArg JsString.hexValue hlow
      rw [JsString.hexValue_digitChar _ (by omega), JsString.hexValue_digitChar _ (by omega)] at hhi
      rw [JsString.hexValue_digitChar _ (by omega), JsString.hexValue_digitChar _ (by omega)] at hlow
      have hby : b.toNat = b'.toNat := by
        rw [← Nat.div_add_mod b.toNat 16, ← Nat.div_add_mod b'.toNat 16, hhi, hlow]
      rw [ih hrst, UInt8.toNat_inj.mp hby]

theorem last_line {before before' line line' : Text} (hli : '\n' ∉ line) (hli' : '\n' ∉ line')
    (h : before ++ '\n' :: line = before' ++ '\n' :: line') : before = before' ∧ line = line' := by
  rcases append_eq_append_iff.mp h with ⟨more, hbf, hrst⟩ | ⟨more, hbf, hrst⟩
  · cases more with
    | nil =>
      rw [append_nil] at hbf
      exact ⟨hbf.symm, (List.cons.inj hrst).2⟩
    | cons =>
      obtain ⟨_, hrst⟩ := List.cons.inj hrst
      rw [hrst] at hli
      exact absurd (mem_append_right _ (mem_cons_self ..)) hli
  · cases more with
    | nil =>
      rw [append_nil] at hbf
      exact ⟨hbf, (List.cons.inj hrst).2.symm⟩
    | cons =>
      obtain ⟨_, hrst⟩ := List.cons.inj hrst
      rw [hrst] at hli'
      exact absurd (mem_append_right _ (mem_cons_self ..)) hli'

/-- **A message names its challenge**, whatever the key looks like. -/
theorem challenge_of_message {purpose purpose' : AgentAuthPurpose}
    {publicKey publicKey' challenge challenge' payloadHash payloadHash' : Text}
    (hchl : '\n' ∉ challenge) (hchl' : '\n' ∉ challenge') (hsh : '\n' ∉ payloadHash)
    (hsh' : '\n' ∉ payloadHash')
    (h : buildAgentAuthMessage purpose publicKey challenge payloadHash =
      buildAgentAuthMessage purpose' publicKey' challenge' payloadHash') : challenge = challenge' := by
  have hlin : ∀ (purpose : AgentAuthPurpose) (publicKey challenge payloadHash : Text),
      buildAgentAuthMessage purpose publicKey challenge payloadHash =
        ((agentAuthScheme ++ '\n' :: (purpose.text ++ '\n' :: publicKey)) ++ '\n' :: challenge) ++
          '\n' :: payloadHash := by
    intro purpose publicKey challenge payloadHash
    simp only [buildAgentAuthMessage, append_assoc, cons_append]
  rw [hlin, hlin] at h
  exact (last_line hchl hchl' (last_line hsh hsh' h).1).2

theorem Nonce.newline_notMem (nonce : Nonce) : '\n' ∉ nonce.text := by
  intro h
  rcases nonce.chars _ h with h | h | h
  · exact absurd h (by decide)
  · exact absurd h (by decide)
  · exact absurd h (by decide)

/-! ## What a call does -/

section Calls

variable {c : Crypto} {now ttlMs : Nat} {pending : Pending} {row : Text × PendingChallenge}

theorem mem_pruneExpired : row ∈ (pruneExpired now pending).rows ↔
    row ∈ pending.rows ∧ now < row.2.expiresAtMs := by
  unfold pruneExpired
  rw [mem_keep]
  simp

theorem evictOldest_of_lt {rows : List (Text × PendingChallenge)} (h : rows.length < maxPendingChallenges) :
    evictOldest rows = rows := by
  cases rows with
  | nil => rfl
  | cons =>
    unfold evictOldest
    rw [if_neg (Nat.not_le_of_lt h)]

theorem evictOldest_eq {rows : List (Text × PendingChallenge)} (h : rows.length ≤ maxPendingChallenges) :
    evictOldest rows = if rows.length < maxPendingChallenges then rows else rows.tail := by
  split
  · rename_i hlt
    exact evictOldest_of_lt hlt
  · rename_i hfl
    cases rows with
    | nil => rfl
    | cons =>
      unfold evictOldest
      rw [if_pos (Nat.le_of_not_lt hfl)]
      exact evictOldest_of_lt h

theorem evictOldest_length (rows : List (Text × PendingChallenge)) :
    (evictOldest rows).length < maxPendingChallenges := by
  induction rows with
  | nil => exact Nat.lt_of_lt_of_le Nat.zero_lt_one (by decide)
  | cons row rows ih =>
    unfold evictOldest
    split
    · exact ih
    · rename_i hlt
      exact Nat.lt_of_not_le hlt

theorem rows_setPending {nonce : Text} {entry : PendingChallenge}
    (h : ∀ row ∈ pending.rows, row.1 ≠ nonce) :
    (setPending pending nonce entry).rows = pending.rows ++ [(nonce, entry)] := by
  obtain ⟨pending', hin, hrw⟩ := insert_of_free (a := (nonce, entry)) h
  unfold setPending
  rw [hin]
  exact hrw

theorem mem_evicted : row ∈ evicted now pending ↔
    row ∈ (pruneExpired now pending).rows ∧ row ∉ evictOldest (pruneExpired now pending).rows := by
  unfold evicted
  rw [mem_filter, decide_eq_true_eq]
  rfl

def Issued.entry (c : Crypto) (i : Issued) : PendingChallenge :=
  ⟨i.input.publicKey, i.input.purpose, hashAgentPayload c i.input.payload, i.input.agentId,
    i.challenge.expiresAtMs⟩

def newIssued (c : Crypto) (now ttlMs : Nat) (nonce : Text) (input : IssueChallengeInput) : Issued :=
  ⟨input, ⟨nonce, buildAgentAuthMessage input.purpose input.publicKey nonce
    (hashAgentPayload c input.payload), now + ttlMs⟩⟩

theorem rows_issue {nonce : Text} {input : IssueChallengeInput}
    (h : ∀ row ∈ pending.rows, row.1 ≠ nonce) :
    (issueAgentChallenge c now ttlMs nonce input pending).2.rows =
      evictOldest (pruneExpired now pending).rows ++
        [(nonce, (newIssued c now ttlMs nonce input).entry c)] := by
  refine rows_setPending fun row hrow => h row ?_
  have hmem := (evictOldest_suffix _).subset hrow
  exact (mem_pruneExpired.mp hmem).1

variable {req : Request} {input : VerifyAgentOwnershipInput}

theorem mem_verify :
    row ∈ (verifyAgentOwnership c now req input pending).2.rows ↔
      row ∈ pending.rows ∧ ∀ challenge ∈ req.presents, row.1 ≠ challenge := by
  unfold verifyAgentOwnership Request.presents
  cases hsg : readHeader req.signature with
  | none =>
    cases hchl : readHeader req.challenge with
    | none | some => simp
  | some =>
    cases hchl : readHeader req.challenge with
    | none => simp
    | some challenge =>
      cases hfi : pending.find challenge with
      | none =>
        have hfr := find_eq_none.mp hfi
        simpa [hfi] using hfr row
      | some => simp [hfi, mem_keep]

theorem sublist_verify :
    (verifyAgentOwnership c now req input pending).2.rows.Sublist pending.rows := by
  unfold verifyAgentOwnership
  split
  · exact List.Sublist.refl _
  · split
    · exact List.Sublist.refl _
    · split
      · exact List.Sublist.refl _
      · exact filter_sublist

theorem of_ok (h : (verifyAgentOwnership c now req input pending).1 = .ok ()) :
    ∃ challenge signature row bytes, req.presents = some challenge ∧
      readHeader req.challenge = some challenge ∧ readHeader req.signature = some signature ∧
      row ∈ pending.rows ∧ row.1 = challenge ∧ now < row.2.expiresAtMs ∧ bound c row.2 input = true ∧
      decodeSignature signature = some bytes ∧
      c.verify input.publicKey (input.message c challenge) bytes = some true := by
  unfold verifyAgentOwnership at h
  unfold Request.presents
  cases hchl : readHeader req.challenge with
  | none => rw [hchl] at h; cases h
  | some challenge =>
    cases hsg : readHeader req.signature with
    | none => rw [hchl, hsg] at h; cases h
    | some signature =>
      cases hfi : pending.find challenge with
      | none => simp only [hchl, hsg, hfi] at h; cases h
      | some row =>
        obtain ⟨key, entry⟩ := row
        obtain ⟨hrow, hkey⟩ := find_eq_some.mp hfi
        simp only [hchl, hsg, hfi, checkEntry] at h
        split at h
        · cases h
        rename_i hexy
        split at h
        · rename_i hbd
          cases hde : decodeSignature signature with
          | none => rw [hde] at h; cases h
          | some bytes =>
            simp only [hde] at h
            split at h
            · rename_i hve
              refine ⟨challenge, signature, (key, entry), bytes, rfl, rfl, rfl, hrow, hkey,
                Nat.lt_of_not_le hexy, hbd, hde, ?_⟩
              cases hres : c.verify input.publicKey (input.message c challenge) bytes with
              | none => rw [hres] at hve; cases hve
              | some => rw [hres] at hve; rw [← hve]; rfl
            · cases h
        · cases h

theorem of_bound {entry : PendingChallenge} (h : bound c entry input = true) : entry.purpose = input.purpose ∧
      entry.publicKey = input.publicKey ∧ entry.payloadHash = hashAgentPayload c input.payload ∧
      ∀ agentId ∈ entry.agentId, agentId = input.agentId.getD [] := by
  unfold bound at h
  obtain ⟨h, hagt⟩ := Bool.and_eq_true_iff.mp h
  obtain ⟨h, hsh⟩ := Bool.and_eq_true_iff.mp h
  obtain ⟨hprp, hkey⟩ := Bool.and_eq_true_iff.mp h
  refine ⟨of_decide_eq_true hprp, of_decide_eq_true hkey, of_decide_eq_true hsh, ?_⟩
  intro agentId hmem
  rw [mem_def.mp hmem] at hagt
  exact of_decide_eq_true hagt

end Calls

end AiNet.AgentSignature
