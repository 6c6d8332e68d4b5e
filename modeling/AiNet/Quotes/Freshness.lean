import AiNet.OracleManager.Contract
import AiNet.PriceOracle.Contract
import AiNet.TaskStore.Contract

/-!
# Task store, oracle managers and price oracles

A task store among any number of oracle managers and price oracles, on one ledger. The
store asks the manager it is configured with, and the manager its oracle; a call of an
address without such a contract is aborted by the host. The ledger's clock is the one in
the store's state.
-/

namespace AiNet.Quotes

open Core List Option Storage System

section

/-- The contracts by address, and the store. -/
structure World (Addr Sym : Type) where
  store : TaskStore.World Addr Sym
  managers : Storage Addr (OracleManager.World Addr Sym)
  oracles : Storage Addr (PriceOracle.World Addr Sym)

/-- The store as deployed, before there is anything else. -/
def World.init {Addr Sym : Type} (now sequence : Nat) : World Addr Sym where
  store := TaskStore.World.init now sequence
  managers := ∅
  oracles := ∅

/-- What can happen in a run. -/
inductive Event (Addr Sym : Type) where
  /-- A ledger closes; calls from now on see this timestamp and number. -/
  | close (timestamp sequence : Nat)
  /-- A contract is deployed. -/
  | deployOracle (address : Addr)
  | deployManager (address : Addr)
  /-- A call of a contract, with the accounts that signed it. -/
  | oracle (address : Addr) (signed : Addr → Bool) (op : PriceOracle.Op Addr Sym)
  | manager (address : Addr) (signed : Addr → Bool) (op : OracleManager.Op Addr Sym)
  | store (signed : Addr → Bool) (op : TaskStore.Op Addr Sym)

variable {Addr Sym : Type} [DecidableEq Addr] [DecidableEq Sym]

/-! ## Calls between the contracts -/

/-- How `get_price` of an address comes back. -/
def World.getPrice (w : World Addr Sym) (oracle : Addr) (pair : Sym) :
    OracleManager.Fetched :=
  match w.oracles.get oracle with
  | none => .aborted
  | some o =>
    match PriceOracle.getPrice w.store.now o pair with
    | .ok result => .returned (some result.price) (some result.timestamp)
    | .error (.error e) => .contractError e.code
    | .error .trap => .aborted

/-- The price that `resolve_price` of an address returns, if it returns. -/
def World.resolvePrice (w : World Addr Sym) (manager : Addr) (pair : Sym) : Option Int :=
  match w.managers.get manager with
  | none => none
  | some m =>
    (OracleManager.resolvePrice w.getPrice m pair).toOption.map fun resolved => resolved.price

/-! ## The contracts as one system -/

variable (host : Host Addr Sym)

/-- No contract has the address yet. -/
def World.Vacant (w : World Addr Sym) (address : Addr) : Prop :=
  address ≠ host.self ∧ w.oracles.has address = false ∧ w.managers.has address = false

instance (w : World Addr Sym) (address : Addr) : Decidable (w.Vacant host address) :=
  inferInstanceAs (Decidable (_ ∧ _ ∧ _))

def World.onOracle (w : World Addr Sym) (address : Addr) (signed : Addr → Bool)
    (op : PriceOracle.Op Addr Sym) : Option (World Addr Sym) :=
  (w.oracles.get address).bind fun o =>
    (PriceOracle.exec { host with self := address } ⟨w.store.now, signed⟩ op o).toOption.map fun o =>
      { w with oracles := w.oracles.set address o }

def World.onManager (w : World Addr Sym) (address : Addr) (signed : Addr → Bool)
    (op : OracleManager.Op Addr Sym) : Option (World Addr Sym) :=
  (w.managers.get address).bind fun m =>
    (OracleManager.exec { host with self := address } signed op m).toOption.map fun m =>
      { w with managers := w.managers.set address m }

/-- A call of the store, which the managers answer. -/
def World.onStore (w : World Addr Sym) (signed : Addr → Bool)
    (op : TaskStore.Op Addr Sym) : Option (World Addr Sym) :=
  (TaskStore.exec host ⟨signed, w.resolvePrice⟩ op w.store).toOption.map fun store =>
    { w with store := store }

/-- The contracts among their callers. -/
def system : System (World Addr Sym) (Event Addr Sym) where
  start w := ∃ now sequence, w = World.init now sequence
  step w
    | .close timestamp seq =>
      some { w with store := { w.store with now := timestamp, sequence := seq } }
    | .deployOracle address =>
      if w.Vacant host address then
        some { w with oracles := w.oracles.set address PriceOracle.World.init }
      else none
    | .deployManager address =>
      if w.Vacant host address then
        some { w with managers := w.managers.set address OracleManager.World.init }
      else none
    | .oracle address signed op => w.onOracle host address signed op
    | .manager address signed op => w.onManager host address signed op
    | .store signed op => w.onStore host signed op

theorem start_init (now sequence : Nat) :
    (system host).start (World.init now sequence : World Addr Sym) := ⟨now, sequence, rfl⟩

variable {host} {w w' : World Addr Sym}

theorem onOracle_eq_some {address : Addr} {signed : Addr → Bool}
    {op : PriceOracle.Op Addr Sym} (h : w.onOracle host address signed op = some w') :
    ∃ o o', w.oracles.get address = some o ∧
      PriceOracle.exec { host with self := address } ⟨w.store.now, signed⟩ op o = .ok o' ∧
        w' = { w with oracles := w.oracles.set address o' } := by
  unfold World.onOracle at h
  obtain ⟨o, ho, h⟩ := bind_eq_some_iff.mp h
  obtain ⟨o', ho', rfl⟩ := map_eq_some_iff.mp h
  exact ⟨o, o', ho, toOption_eq_some.mp ho', rfl⟩

theorem onManager_eq_some {address : Addr} {signed : Addr → Bool}
    {op : OracleManager.Op Addr Sym} (h : w.onManager host address signed op = some w') :
    ∃ m m', w.managers.get address = some m ∧
      OracleManager.exec { host with self := address } signed op m = .ok m' ∧
        w' = { w with managers := w.managers.set address m' } := by
  unfold World.onManager at h
  obtain ⟨m, hm, h⟩ := bind_eq_some_iff.mp h
  obtain ⟨m', hm', rfl⟩ := map_eq_some_iff.mp h
  exact ⟨m, m', hm, toOption_eq_some.mp hm', rfl⟩

theorem onStore_eq_some {signed : Addr → Bool} {op : TaskStore.Op Addr Sym}
    (h : w.onStore host signed op = some w') :
    ∃ store, TaskStore.exec host ⟨signed, w.resolvePrice⟩ op w.store = .ok store ∧
      w' = { w with store := store } := by
  unfold World.onStore at h
  obtain ⟨store, hstr, rfl⟩ := map_eq_some_iff.mp h
  exact ⟨store, toOption_eq_some.mp hstr, rfl⟩

end

/-!
## Where a quoted price comes from

Whatever is stored for a pair was written last: the observation in an oracle, the fallback
price in a manager. So a price the store stamps on a task leads back to one accepted call,
of the oracle's admin if the manager's oracle answers, else of the manager's. An oracle does
not compare the times of observations. The one it hands out came last, and is the newest
when observations come in the order of their times.
-/

variable {Addr Sym : Type} [DecidableEq Addr] [DecidableEq Sym]
  {host : Host Addr Sym} {w w' : World Addr Sym}
  {guard : World Addr Sym → Event Addr Sym → Prop}
  {log : List (World Addr Sym × Event Addr Sym)}

/-! ## What is written -/

def Event.observes (oracle : Addr) (pair : Sym) :
    Event Addr Sym → Option PriceOracle.PriceEntry
  | .oracle address _ op => if address = oracle then op.observes pair else none
  | _ => none

/-- The fallback price of a pair that an event sets in a manager. -/
def Event.fallsBack (manager : Addr) (pair : Sym) : Event Addr Sym → Option Int
  | .manager address _ op => if address = manager then op.fallsBack pair else none
  | _ => none

/-- The observations of a pair that an oracle accepted, in the order it did. -/
def accepted (log : List (World Addr Sym × Event Addr Sym)) (oracle : Addr)
    (pair : Sym) : List PriceOracle.PriceEntry :=
  log.filterMap fun entry => entry.2.observes oracle pair

/-- The fallback prices of a pair that a manager was given, in order. -/
def fallbacks (log : List (World Addr Sym × Event Addr Sym)) (manager : Addr)
    (pair : Sym) : List Int :=
  log.filterMap fun entry => entry.2.fallsBack manager pair

theorem step_prices {e : Event Addr Sym} (h : (system host).step w e = some w')
    (oracle : Addr) (pair : Sym) :
    ((w'.oracles.get oracle).bind fun o => o.prices.get pair) =
      (e.observes oracle pair).or ((w.oracles.get oracle).bind fun o => o.prices.get pair) := by
  cases e with
  | close =>
    cases h
    rfl
  | deployOracle address =>
    obtain ⟨hvac, h⟩ := ite_none_right_eq_some.mp h
    cases h
    dsimp only [Event.observes]
    rw [get_set, none_or]
    split
    · -- a new oracle has no prices, and before it there was none
      rename_i hadr
      rw [hadr, has_eq_false.mp hvac.2.1]
      rfl
    · rfl
  | deployManager =>
    obtain ⟨_, h⟩ := ite_none_right_eq_some.mp h
    cases h
    rfl
  | oracle address =>
    obtain ⟨o, o', ho, hec, rfl⟩ := onOracle_eq_some h
    dsimp only [Event.observes]
    rw [get_set]
    by_cases hadr : oracle = address
    · rw [if_pos hadr, if_pos hadr.symm, hadr, ho]
      exact PriceOracle.exec_prices hec pair
    · rw [if_neg hadr, if_neg (Ne.symm hadr), none_or]
  | manager =>
    obtain ⟨_, _, _, _, rfl⟩ := onManager_eq_some h
    rfl
  | store =>
    obtain ⟨_, _, rfl⟩ := onStore_eq_some h
    rfl

theorem step_fallbackPrice {e : Event Addr Sym} (h : (system host).step w e = some w')
    (manager : Addr) (pair : Sym) :
    ((w'.managers.get manager).bind fun m => m.fallbackPrice.get pair) = (e.fallsBack manager pair).or
        ((w.managers.get manager).bind fun m => m.fallbackPrice.get pair) := by
  cases e with
  | close =>
    cases h
    rfl
  | deployOracle =>
    obtain ⟨_, h⟩ := ite_none_right_eq_some.mp h
    cases h
    rfl
  | deployManager address =>
    obtain ⟨hvac, h⟩ := ite_none_right_eq_some.mp h
    cases h
    dsimp only [Event.fallsBack]
    rw [get_set, none_or]
    split
    · rename_i hadr
      rw [hadr, has_eq_false.mp hvac.2.2]
      rfl
    · rfl
  | oracle =>
    obtain ⟨_, _, _, _, rfl⟩ := onOracle_eq_some h
    rfl
  | manager address =>
    obtain ⟨m, m', hm, hec, rfl⟩ := onManager_eq_some h
    dsimp only [Event.fallsBack]
    rw [get_set]
    by_cases hadr : manager = address
    · rw [if_pos hadr, if_pos hadr.symm, hadr, hm]
      exact OracleManager.exec_fallbackPrice hec pair
    · rw [if_neg hadr, if_neg (Ne.symm hadr), none_or]
  | store =>
    obtain ⟨_, _, rfl⟩ := onStore_eq_some h
    rfl

/-- **The stored observation of a pair is the one accepted last.** -/
theorem prices_last (hlog : (system host).Logged guard w log) {oracle : Addr}
    {o : PriceOracle.World Addr Sym} (ho : w.oracles.get oracle = some o) (pair : Sym) :
    o.prices.get pair = (accepted log oracle pair).getLast? := by
  have hla := hlog.last_written (fun w => (w.oracles.get oracle).bind fun o => o.prices.get pair)
    (fun e => e.observes oracle pair) ?_ fun s e s' hs => step_prices hs oracle pair
  · rw [ho] at hla
    exact hla
  · intro s h0
    obtain ⟨now, sequence, rfl⟩ := h0
    rfl

/-- **The fallback price of a pair is the one set last.** -/
theorem fallbackPrice_last (hlog : (system host).Logged guard w log) {manager : Addr}
    {m : OracleManager.World Addr Sym} (hm : w.managers.get manager = some m)
    (pair : Sym) : m.fallbackPrice.get pair = (fallbacks log manager pair).getLast? := by
  have hla := hlog.last_written
    (fun w => (w.managers.get manager).bind fun m => m.fallbackPrice.get pair)
    (fun e => e.fallsBack manager pair) ?_ fun s e s' hs => step_fallbackPrice hs manager pair
  · rw [hm] at hla
    exact hla
  · intro s h0
    obtain ⟨now, sequence, rfl⟩ := h0
    rfl

/-! ## What was accepted -/

theorem accepted_pos (hlog : (system host).Logged guard w log) {oracle : Addr} {pair : Sym}
    {entry : PriceOracle.PriceEntry} (hent : entry ∈ accepted log oracle pair) :
    0 < entry.price := by
  obtain ⟨⟨s, e⟩, hmem, hob⟩ := mem_filterMap.mp hent
  obtain ⟨before, after, hspl⟩ := append_of_mem hmem
  obtain ⟨_, _, s', hs⟩ := hlog.split hspl
  cases e with
  | oracle =>
    obtain ⟨_, _, _, hec, _⟩ := onOracle_eq_some hs
    dsimp only [Event.observes] at hob
    split at hob
    · exact (PriceOracle.exec_observes hec hob).1
    · cases hob
  | close | deployOracle | deployManager | manager | store => cases hob

theorem fallbacks_signed (hlog : (system host).Logged guard w log) {manager : Addr}
    {pair : Sym} {price : Int} (hprc : price ∈ fallbacks log manager pair) :
    0 < price ∧ ∃ s signed m admin, (s, Event.manager manager signed (.setFallbackPrice pair price)) ∈ log ∧
        s.managers.get manager = some m ∧ m.admin = some admin ∧ signed admin = true := by
  obtain ⟨⟨s, e⟩, hmem, hse⟩ := mem_filterMap.mp hprc
  obtain ⟨before, after, hspl⟩ := append_of_mem hmem
  obtain ⟨_, _, s', hs⟩ := hlog.split hspl
  cases e with
  | manager address signed op =>
    obtain ⟨m, _, hm, hec, _⟩ := onManager_eq_some hs
    dsimp only [Event.fallsBack] at hse
    split at hse
    · rename_i hadr
      obtain rfl := hadr
      obtain ⟨hpos, admin, hadm, hsgn⟩ := OracleManager.exec_fallsBack hec hse
      obtain rfl := OracleManager.Op.fallsBack_eq_some.mp hse
      exact ⟨hpos, s, signed, m, admin, hmem, hm, hadm, hsgn⟩
    · cases hse
  | close | deployOracle | deployManager | oracle | store => cases hse

/-! ## Where a price comes from -/

/-- The manager's oracle serves the price: the last observation it accepted, young enough. -/
def Live (w : World Addr Sym) (log : List (World Addr Sym × Event Addr Sym))
    (m : OracleManager.World Addr Sym) (pair : Sym) (price : Int) : Prop :=
  ∃ oracle o entry, m.oracleAddress = some oracle ∧ w.oracles.get oracle = some o ∧
    (accepted log oracle pair).getLast? = some entry ∧ entry.price = price ∧
      w.store.now ≤ entry.timestamp + PriceOracle.readMaxAge o

/-- No oracle is configured, or its `get_price` fails. -/
def Silent (w : World Addr Sym) (m : OracleManager.World Addr Sym) (pair : Sym) : Prop :=
  ∀ oracle o, m.oracleAddress = some oracle → w.oracles.get oracle = some o →
    ∃ fault, PriceOracle.getPrice w.store.now o pair = .error fault

/-- The price is the fallback that the admin of the manager set last, for want of a live one. -/
structure FallenBack (w : World Addr Sym)
    (log : List (World Addr Sym × Event Addr Sym)) (manager : Addr)
    (m : OracleManager.World Addr Sym) (pair : Sym) (price : Int) : Prop where
  last : (fallbacks log manager pair).getLast? = some price
  signed : ∃ s signed m₀ admin, (s, Event.manager manager signed (.setFallbackPrice pair price)) ∈ log ∧
      s.managers.get manager = some m₀ ∧ m₀.admin = some admin ∧ signed admin = true
  silent : Silent w m pair

/-- **What an oracle hands out was accepted last**, and is young enough. -/
theorem getPrice_accepted (hlog : (system host).Logged guard w log) {oracle : Addr}
    {o : PriceOracle.World Addr Sym} (ho : w.oracles.get oracle = some o) {pair : Sym}
    {result : PriceOracle.PriceResult Sym}
    (h : PriceOracle.getPrice w.store.now o pair = .ok result) :
    (accepted log oracle pair).getLast? = some ⟨result.price, result.timestamp⟩ ∧
      0 < result.price ∧ w.store.now ≤ result.timestamp + PriceOracle.readMaxAge o := by
  obtain ⟨_, hent, hage⟩ := PriceOracle.getPrice_ok h
  rw [prices_last hlog ho pair] at hent
  exact ⟨hent, accepted_pos hlog (mem_of_getLast? hent), hage⟩

theorem getPrice_returned {oracle : Addr} {pair : Sym} {price : Option Int}
    {timestamp : Option Nat} (h : w.getPrice oracle pair = .returned price timestamp) :
    ∃ o result, w.oracles.get oracle = some o ∧ PriceOracle.getPrice w.store.now o pair = .ok result ∧
        price = some result.price ∧ timestamp = some result.timestamp := by
  unfold World.getPrice at h
  cases ho : w.oracles.get oracle with
  | none =>
    rw [ho] at h
    cases h
  | some o =>
    rw [ho] at h
    dsimp only at h
    split at h
    · rename_i result hres
      cases h
      exact ⟨o, result, rfl, hres, rfl, rfl⟩
    · cases h
    · cases h

/-- **A price a manager resolves is live, or fallen back to.** -/
theorem resolvePrice_sourced (hlog : (system host).Logged guard w log) {manager : Addr}
    {pair : Sym} {price : Int} (h : w.resolvePrice manager pair = some price) :
    0 < price ∧ ∃ m, w.managers.get manager = some m ∧
      (Live w log m pair price ∨ FallenBack w log manager m pair price) := by
  unfold World.resolvePrice at h
  cases hm : w.managers.get manager with
  | none =>
    rw [hm] at h
    cases h
  | some m =>
    rw [hm] at h
    dsimp only at h
    obtain ⟨resolved, hrsd, rfl⟩ := map_eq_some_iff.mp h
    rcases OracleManager.resolvePrice_ok (toOption_eq_some.mp hrsd) with
      ⟨_, hlv⟩ | ⟨_, hfa, failure, hfai⟩
    · obtain ⟨hpos, oracle, timestamp, hor, hfe⟩ := OracleManager.livePrice_eq_ok.mp hlv
      obtain ⟨o, result, ho, hres, hprc, _⟩ := getPrice_returned hfe
      obtain ⟨hla, _, hage⟩ := getPrice_accepted hlog ho hres
      exact ⟨hpos, m, rfl, .inl ⟨oracle, o, _, hor, ho, hla, (Option.some.inj hprc).symm, hage⟩⟩
    · rw [fallbackPrice_last hlog hm pair] at hfa
      obtain ⟨hpos, hsgn⟩ := fallbacks_signed hlog (mem_of_getLast? hfa)
      refine ⟨hpos, m, rfl, .inr ⟨hfa, hsgn, ?_⟩⟩
      intro oracle o hor ho
      cases hres : PriceOracle.getPrice w.store.now o pair with
      | error fault => exact ⟨fault, rfl⟩
      | ok result =>
        -- an oracle that hands out a price would have been the source
        have hpo := (getPrice_accepted hlog ho hres).2.1
        have hlv : OracleManager.livePrice w.getPrice m pair = .ok result.price := by
          refine OracleManager.livePrice_eq_ok.mpr ⟨hpo, oracle, result.timestamp, hor, ?_⟩
          unfold World.getPrice
          rw [ho]
          dsimp only
          rw [hres]
        rw [hlv] at hfai
        cases hfai

/-! ## Stamps -/

section

omit [DecidableEq Addr] [DecidableEq Sym]

theorem quote_some {call : TaskStore.Call Addr Sym} {store : TaskStore.World Addr Sym}
    {pricePair stamped : Option Sym} {price : Int}
    (h : TaskStore.quote call store pricePair = .ok (some price, stamped)) :
    ∃ manager pair, store.oracleManager = some manager ∧ pricePair = some pair ∧
      stamped = some pair ∧ call.resolvePrice manager pair = some price := by
  unfold TaskStore.quote at h
  split at h
  · rename_i manager hma
    simp only [bind_eq_ok, okOr_eq_ok, pure_eq_ok] at h
    obtain ⟨pair, rfl, _, hrsv, heq⟩ := h
    obtain ⟨hprc, rfl⟩ := Prod.mk.inj heq
    cases hprc
    exact ⟨manager, pair, hma, rfl, rfl, (filter_eq_some_iff.mp hrsv).1⟩
  · cases h

theorem appendVersion_tasks (store : TaskStore.World Addr Sym) (taskId : TaskStore.TaskId)
    (status : TaskStore.TaskStatus) (updater : Addr) :
    (TaskStore.appendVersion store taskId status updater).1.tasks = store.tasks := by
  unfold TaskStore.appendVersion
  dsimp only
  split
  · rfl
  · rfl

end

omit [DecidableEq Sym] in
theorem storeTaskMetadata_quotes {call : TaskStore.Call Addr Sym}
    {store store' : TaskStore.World Addr Sym} {submitter : Addr} {taskId : TaskStore.TaskId}
    {promptHash : BytesN 32} {assignedAgents : List Addr} {compressedDag : List UInt8}
    {ttlDays : Nat} {pricePair : Option Sym}
    (h : TaskStore.storeTaskMetadata host call submitter taskId promptHash assignedAgents
      compressedDag ttlDays pricePair store = .ok store') :
    ∃ metadata, store'.tasks.get taskId = some metadata ∧ TaskStore.quote call store pricePair =
        .ok (metadata.quotedPriceStroops, metadata.pricePair) := by
  simp only [TaskStore.storeTaskMetadata, bind_eq_ok, pure_eq_ok, Prod.exists] at h
  obtain ⟨_, _, _, _, _, _, _, _, _, _, _, _, _, _, price, pair, hquo, rfl⟩ := h
  rw [appendVersion_tasks]
  exact ⟨_, get_set_self store.tasks taskId _, hquo⟩

/--
**Quotes are fresh or explicitly fallback.** A price stamped on a task is positive. It is the last
observation that the manager's oracle accepted, no older than the oracle allows, or else the fallback
that the manager's admin set last, because no oracle is configured or its call failed. What an
oracle hands out is the observation it accepted last, and the newest one if they came in order.
-/
theorem quotes_fresh_or_fallback (hlog : (system host).Logged guard w log) :
    (∀ signed submitter taskId promptHash assignedAgents compressedDag ttlDays pricePair w' metadata
        price,
      (system host).step w (.store signed (.storeTaskMetadata submitter taskId promptHash
        assignedAgents compressedDag ttlDays pricePair)) = some w' →
      w'.store.tasks.get taskId = some metadata → metadata.quotedPriceStroops = some price →
      0 < price ∧ ∃ manager m pair, w.store.oracleManager = some manager ∧
        w.managers.get manager = some m ∧ metadata.pricePair = some pair ∧
          (Live w log m pair price ∨ FallenBack w log manager m pair price)) ∧
    (∀ oracle o pair result, w.oracles.get oracle = some o →
      PriceOracle.getPrice w.store.now o pair = .ok result →
      (accepted log oracle pair).getLast? = some ⟨result.price, result.timestamp⟩ ∧
        (((accepted log oracle pair).map fun entry => entry.timestamp).Pairwise (· ≤ ·) →
          ∀ entry ∈ accepted log oracle pair, entry.timestamp ≤ result.timestamp)) := by
  refine ⟨?_, ?_⟩
  · intro signed submitter taskId promptHash assignedAgents compressedDag ttlDays pricePair w'
      metadata price hst hme hprc
    obtain ⟨store, hec, rfl⟩ := onStore_eq_some hst
    obtain ⟨stored, hsto, hquo⟩ := storeTaskMetadata_quotes hec
    cases hme.symm.trans hsto
    rw [hprc] at hquo
    obtain ⟨manager, pair, hma, _, hpa, hrsv⟩ := quote_some hquo
    obtain ⟨hpos, m, hm, hsrc⟩ := resolvePrice_sourced hlog hrsv
    exact ⟨hpos, manager, m, pair, hma, hm, hpa, hsrc⟩
  · intro oracle o pair result ho hres
    obtain ⟨hla, _, _⟩ := getPrice_accepted hlog ho hres
    refine ⟨hla, ?_⟩
    intro hord entry hent
    -- in a sorted list nothing exceeds the last element
    obtain ⟨before, hbf⟩ := List.getLast?_eq_some_iff.mp hla
    rw [hbf] at hord hent
    rw [map_append] at hord
    rcases mem_append.mp hent with hold | hnew
    · exact (pairwise_append.mp hord).2.2 _ (List.mem_map_of_mem hold) _
        (List.mem_map_of_mem (mem_singleton_self _))
    · rw [mem_singleton.mp hnew]

namespace Sample

/-- The pair all runs are about. -/
def pair : Nat := 7

/-- A store, the manager `60` without an oracle, and the oracle `50`, all with the admin `1`. -/
def deployed : List (Event Nat Nat) :=
  [ .store (fun _ => true) (.initializeContract 1), .deployManager 60,
    .manager 60 (fun a => a == 1) (.initializeContract 1 none),
    .store (fun a => a == 1) (.setOracleManager (some 60)),
    .deployOracle 50,
    .oracle 50 (fun a => a == 1) (.initializeContract 1 600) ]

/-- Account `2` submits a task with a price. -/
def submit : Event Nat Nat :=
  .store (fun a => a == 2)
    (.storeTaskMetadata 2 TaskStore.Sample.task (BytesN.zero 32) [3] [1] 0 (some pair))

/-- The oracle `50` is configured and has a price. -/
def served : List (Event Nat Nat) :=
  deployed ++
    [ .manager 60 (fun a => a == 1) (.setOracle (some 50)),
      .oracle 50 (fun a => a == 1) (.submitPrice pair 25 900) ]

/-- The manager has a fallback price and no oracle; a task is submitted. -/
def fellBack : List (Event Nat Nat) :=
  deployed ++
    [ .manager 60 (fun a => a == 1) (.setFallbackPrice pair 11), submit ]

/-- The oracle accepts an observation, then an older one. -/
def reversed : List (Event Nat Nat) :=
  served ++ [ .oracle 50 (fun a => a == 1) (.submitPrice pair 40 800) ]

def stamped (w : World Nat Nat) : Option Int :=
  (w.store.tasks.get TaskStore.Sample.task).bind fun metadata => metadata.quotedPriceStroops

theorem exists_served : ∃ w, (system TaskStore.Sample.chain).Logged (fun _ _ => True) w
      ((system TaskStore.Sample.chain).record served (World.init 1000 0)) ∧
    (((system TaskStore.Sample.chain).step w submit).any fun w' => stamped w' = some 25) = true := by
  have hpl : ((system TaskStore.Sample.chain).play (fun _ _ => True) served
      (World.init 1000 0)).any (fun w =>
        ((system TaskStore.Sample.chain).step w submit).any fun w' => stamped w' = some 25) = true := by
    decide
  obtain ⟨w, hw, hend⟩ := (Option.any_eq_true _ _).mp hpl
  exact ⟨w, logged_of_play (start_init _ 1000 0) hw, hend⟩

end Sample

/-- A price of the oracle stamped on a task, and the same price handed out. -/
theorem quotes_fresh_or_fallback_served : ∃ (w : World Nat Nat)
    (log : List (World Nat Nat × Event Nat Nat)) (manager : Nat)
    (m : OracleManager.World Nat Nat) (pair : Nat),
    (system TaskStore.Sample.chain).Logged (fun _ _ => True) w log ∧
      (Live w log m pair 25 ∨ FallenBack w log manager m pair 25) := by
  obtain ⟨w, hlog, hst⟩ := Sample.exists_served
  obtain ⟨w', hw', hsm⟩ := (Option.any_eq_true _ _).mp hst
  obtain ⟨metadata, hme, hprc⟩ := bind_eq_some_iff.mp (of_decide_eq_true hsm)
  obtain ⟨_, manager, m, pair, _, _, _, hsrc⟩ :=
    (quotes_fresh_or_fallback hlog).1 _ _ _ _ _ _ _ _ w' metadata 25 hw' hme hprc
  exact ⟨w, _, manager, m, pair, hlog, hsrc⟩

/--
A fallback price is stamped while no oracle is configured; and an oracle hands out an observation
older than one it has accepted.
-/
theorem fallback_without_oracle :
    (∃ w : World Nat Nat, (system TaskStore.Sample.chain).Reachable (fun _ _ => True) w ∧
      Sample.stamped w = some 11 ∧ w.store.oracleManager = some 60 ∧
        (w.managers.get 60).map (fun m => m.oracleAddress) = some none) ∧
    ∃ (w : World Nat Nat) (log : List (World Nat Nat × Event Nat Nat)),
      (system TaskStore.Sample.chain).Logged (fun _ _ => True) w log ∧
        ⟨25, 900⟩ ∈ accepted log 50 Sample.pair ∧
          w.getPrice 50 Sample.pair = .returned (some 40) (some 800) := by
  refine ⟨?_, ?_⟩
  · have hpl : ((system TaskStore.Sample.chain).play (fun _ _ => True) Sample.fellBack
        (World.init 1000 0)).any (fun w => Sample.stamped w = some 11 ∧ w.store.oracleManager = some 60 ∧
            (w.managers.get 60).map (fun m => m.oracleAddress) = some none) = true := by
      decide
    obtain ⟨w, hr, hend⟩ := exists_reachable_of_play (start_init _ 1000 0) hpl
    exact ⟨w, hr, of_decide_eq_true hend⟩
  · have hpl : ((system TaskStore.Sample.chain).play (fun _ _ => True) Sample.reversed
        (World.init 1000 0)).any (fun w =>
          w.getPrice 50 Sample.pair = .returned (some 40) (some 800)) = true := by
      decide
    obtain ⟨w, hw, hend⟩ := exists_logged (start_init _ 1000 0) hpl
    have hacd : ⟨25, 900⟩ ∈ accepted ((system TaskStore.Sample.chain).record Sample.reversed
        (World.init 1000 0)) 50 Sample.pair := by
      decide
    exact ⟨w, _, hw, hacd, hend⟩

end AiNet.Quotes
