import Mathlib.Data.List.TakeWhile

/-!
# Failover between the providers

A request goes to the first provider whose key is not cooling down, and on to the next one if it fails in a way that
another key or another provider may not. But the client has no `keyHealth`: the handler of a failure reads it first, and
throws a `TypeError`. So a request is answered as specified where no provider fails.
-/

namespace AiNet.Breaker.Failover

open List

/-- How a request fails: with a status, or without a usable answer. -/
inductive FetchError where
  | status (code : Nat)
  | transport (message : String)
  deriving DecidableEq

/-- A provider, whether its key is available when its turn comes, and what its request comes to. -/
structure Provider where
  apiKey : String
  available : Bool
  outcome : Except FetchError String

inductive ClientError where
  | provider (error : FetchError)
  | unavailable (keyCount : Nat)
  | unreachable
  | typeError
  deriving DecidableEq

inductive Effect where
  | recordResult (apiKey : String) (success : Bool)
  | settleSuccess
  | settleFailure
  deriving DecidableEq

/-- What a call does, and what it answers. -/
structure Run where
  effects : List Effect
  answer : Except ClientError String

def Run.after (effects : List Effect) (run : Run) : Run := ⟨effects ++ run.effects, run.answer⟩

def shouldFailoverToNextProvider : FetchError → Bool
  | .transport _ => true
  | .status code => code = 401 || code = 429 || decide (500 ≤ code)

/-- The store that failures are reported to. The class declares no such field, and its constructor sets none. -/
def keyHealth : Option Unit := none

/-- The loop from some provider on, with the number of attempts and the last error so far. -/
def fetchFrom (keyCount : Nat) : Nat → Option FetchError → List Provider → Run
  | 0, _, [] => ⟨[.settleFailure], .error (.unavailable keyCount)⟩
  | _ + 1, lastError, [] => ⟨[.settleFailure], .error (lastError.elim .unreachable .provider)⟩
  | attempted, lastError, provider :: rest =>
    if !provider.available then fetchFrom keyCount attempted lastError rest
    else match provider.outcome with
      | .ok content => ⟨[.recordResult provider.apiKey true, .settleSuccess], .ok content⟩
      | .error error => match keyHealth with
        | none => ⟨[], .error .typeError⟩
        | some _ =>
          let mayFailover := shouldFailoverToNextProvider error
          let recorded := if mayFailover then [.recordResult provider.apiKey false] else []
          if mayFailover ∧ rest ≠ [] then (fetchFrom keyCount (attempted + 1) (some error) rest).after recorded
          else ⟨recorded ++ [.settleFailure], .error (.provider error)⟩

def runVeniceFetch (providers : List Provider) : Run := fetchFrom providers.length 0 none providers

/-! ## What is specified -/

def Provider.failsOver (provider : Provider) : Bool :=
  match provider.outcome with
  | .ok _ => false
  | .error error => shouldFailoverToNextProvider error

/-- The available providers up to the first that succeeds, or fails in another way. -/
def tried (providers : List Provider) : List Provider :=
  let available := providers.filter Provider.available
  available.takeWhile Provider.failsOver ++ (available.dropWhile Provider.failsOver).take 1

def Provider.recorded (provider : Provider) : List Effect :=
  match provider.outcome with
  | .ok _ => [.recordResult provider.apiKey true]
  | .error error => if shouldFailoverToNextProvider error then [.recordResult provider.apiKey false] else []

/-- The last provider tried decides, and the breaker is settled once. -/
def specified (providers : List Provider) : Run :=
  let tried := tried providers
  match tried.getLast? with
  | none => ⟨[.settleFailure], .error (.unavailable providers.length)⟩
  | some last =>
    { effects := tried.flatMap Provider.recorded ++ match last.outcome with
        | .ok _ => [.settleSuccess]
        | .error _ => [.settleFailure]
      answer := last.outcome.mapError .provider }

/-- The first available provider does not fail. -/
def FirstSucceeds (providers : List Provider) : Prop :=
  ∀ provider ∈ (providers.filter Provider.available).head?, provider.outcome.isOk = true

theorem fetchFrom_filter (keyCount : Nat) (providers : List Provider) : fetchFrom keyCount 0 none providers =
    match (providers.filter Provider.available).head? with
    | none => ⟨[.settleFailure], .error (.unavailable keyCount)⟩
    | some provider => match provider.outcome with
      | .ok content => ⟨[.recordResult provider.apiKey true, .settleSuccess], .ok content⟩
      | .error _ => ⟨[], .error .typeError⟩ := by
  induction providers with
  | nil => rfl
  | cons provider rest ih =>
    unfold fetchFrom
    cases hav : provider.available with
    | false =>
      rw [filter_cons_of_neg (by simp [hav])]
      exact ih
    | true =>
      rw [filter_cons_of_pos hav]
      rfl

theorem specified_ne (providers : List Provider) : (specified providers).answer ≠ .error .typeError := by
  unfold specified
  dsimp only
  split
  · exact nofun
  · rename_i last _
    dsimp only
    cases last.outcome with
    | ok | error => exact nofun

/--
**The providers are tried as specified if and only if the first available one succeeds**, or none is available.
-/
theorem failover_exact_iff (providers : List Provider) :
    runVeniceFetch providers = specified providers ↔ FirstSucceeds providers := by
  unfold runVeniceFetch FirstSucceeds
  rw [fetchFrom_filter]
  cases hav : providers.filter Provider.available with
  | nil => simp [specified, tried, hav]
  | cons provider rest =>
    rw [head?_cons]
    dsimp only
    cases hout : provider.outcome with
    | ok content =>
      have hfo : provider.failsOver = false := by simp [Provider.failsOver, hout]
      simp [specified, tried, hav, hfo, hout, Provider.recorded, Except.mapError, Except.isOk, Except.toBool]
    | error error =>
      refine iff_of_false (fun heq => specified_ne providers (heq ▸ rfl)) fun hall => ?_
      have hsuc := hall provider rfl
      rw [hout] at hsuc
      cases hsuc

/-- The first provider is overloaded, and the second one is not asked. -/
theorem not_failed_over : runVeniceFetch [⟨"a", true, .error (.status 503)⟩, ⟨"b", true, .ok "answer"⟩] =
      ⟨[], .error .typeError⟩ ∧
    specified [⟨"a", true, .error (.status 503)⟩, ⟨"b", true, .ok "answer"⟩] =
      ⟨[.recordResult "a" false, .recordResult "b" true, .settleSuccess], .ok "answer"⟩ := ⟨rfl, rfl⟩

end AiNet.Breaker.Failover
