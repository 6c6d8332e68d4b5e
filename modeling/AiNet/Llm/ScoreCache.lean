import AiNet.Llm.Allowance
import AiNet.Core.Transition

/-!
# The cache of quality scores

A score is found again by the identity of its rules, the prompt, and the text of the output: a string without the blanks
around it, and any other value as JSON. The texts of different outputs may be the same, of an object and of the string
that is its JSON, say, and a score is right as long as that does not happen while it is kept.
-/

namespace AiNet.Llm.ScoreCache

open Core List Option System

/-- What `JSON.stringify` makes of a value. -/
inductive Stringified where
  | text (json : JsString)
  | undefined
  | thrown

inductive Output (Obj : Type) where
  | string (text : JsString)
  | value (obj : Obj)
  deriving DecidableEq

/-- A call of `score`. The rules are an object, which may not hold later what it holds now. -/
structure Call (Obj Rules : Type) where
  rulesId : Nat
  rules : Rules
  prompt : Option JsString
  output : Output Obj
  deriving DecidableEq

/-- A result, and what `computeScore` gives at that moment. -/
structure Scored (Score : Type) where
  result : Score
  computed : Score
  deriving DecidableEq

structure Entry (Obj Rules Score : Type) where
  call : Call Obj Rules
  score : Score

structure Scorer (Obj Rules Config Digest Score : Type) where
  config : Config
  historicalScores : List Rat
  entries : List (Digest × Entry Obj Rules Score)
  scored : List (Scored Score)

/-- An entry expires, or makes room for another one. -/
inductive Event (Obj Rules Config Digest : Type) where
  | score (call : Call Obj Rules)
  | reloadConfig (config : Config)
  | loadHistoricalScores (records : Option (List Rat))
  | setHistoricalScores (scores : List Rat)
  | clearCache
  | evict (key : Digest)

variable {Obj Rules Config Digest Score : Type} (stringify : Obj → Stringified)
  (sha256 : Nat × JsString × JsString → Digest)
  (computeScore : Config → List Rat → Output Obj → JsString → Rules → Score)

def body : Output Obj → Option JsString
  | .string text => some (trimBlanks text)
  | .value obj => match stringify obj with
    | .text json => some json
    | .undefined => some (.ofText "undefined".toList)
    | .thrown => none

def keyFor (call : Call Obj Rules) : Option Digest :=
  (body stringify call.output).map fun text => sha256 (call.rulesId, call.prompt.getD [], text)

def Scorer.compute (s : Scorer Obj Rules Config Digest Score) (call : Call Obj Rules) : Score :=
  computeScore s.config s.historicalScores call.output (call.prompt.getD []) call.rules

variable [DecidableEq Digest]

def Scorer.score (s : Scorer Obj Rules Config Digest Score) (call : Call Obj Rules) :
    Scorer Obj Rules Config Digest Score :=
  let computed := s.compute computeScore call
  match keyFor stringify sha256 call with
  | none => { s with scored := s.scored ++ [⟨computed, computed⟩] }
  | some key => match s.entries.lookup key with
    | some entry => { s with scored := s.scored ++ [⟨entry.score, computed⟩] }
    | none => { s with
        entries := (key, ⟨call, computed⟩) :: s.entries
        scored := s.scored ++ [⟨computed, computed⟩] }

/-- Scores that cannot be read leave everything as it is. -/
def step (s : Scorer Obj Rules Config Digest Score) :
    Event Obj Rules Config Digest → Scorer Obj Rules Config Digest Score
  | .score call => s.score stringify sha256 computeScore call
  | .reloadConfig config => { s with config := config, entries := [] }
  | .loadHistoricalScores none => s
  | .loadHistoricalScores (some scores) | .setHistoricalScores scores =>
    { s with historicalScores := scores, entries := [] }
  | .clearCache => { s with entries := [] }
  | .evict key => { s with entries := s.entries.filter fun entry => entry.1 ≠ key }

def system : System (Scorer Obj Rules Config Digest Score) (Event Obj Rules Config Digest) where
  start s := s.historicalScores = [] ∧ s.entries = [] ∧ s.scored = []
  step s e := some (step stringify sha256 computeScore s e)

/-- What is found under the key was scored for the same output and prompt, with rules that held the same. -/
def Same (s : Scorer Obj Rules Config Digest Score) : Event Obj Rules Config Digest → Prop
  | .score call => ∀ key ∈ keyFor stringify sha256 call, ∀ entry ∈ s.entries.lookup key,
      entry.call.output = call.output ∧ entry.call.prompt.getD [] = call.prompt.getD [] ∧ entry.call.rules = call.rules
  | _ => True

instance [DecidableEq Obj] [DecidableEq Rules] (s : Scorer Obj Rules Config Digest Score) :
    (e : Event Obj Rules Config Digest) → Decidable (Same stringify sha256 s e)
  | .score _ | .reloadConfig _ | .loadHistoricalScores _ | .setHistoricalScores _ | .clearCache | .evict _ => by
    unfold Same
    infer_instance

/-- What is kept is what would be computed now. -/
structure Fresh (s : Scorer Obj Rules Config Digest Score) : Prop where
  entries : ∀ entry ∈ s.entries, entry.2.score = s.compute computeScore entry.2.call
  scored : ∀ r ∈ s.scored, r.result = r.computed

variable {stringify sha256 computeScore} {s : Scorer Obj Rules Config Digest Score} {call : Call Obj Rules}

omit [DecidableEq Digest] in
theorem Fresh.answer {result : Score} (h : Fresh computeScore s) (hres : result = s.compute computeScore call) :
    ∀ r ∈ s.scored ++ [⟨result, s.compute computeScore call⟩], r.result = r.computed :=
  forall_mem_append.mpr ⟨h.scored, forall_mem_singleton.mpr hres⟩

theorem Fresh.score (h : Fresh computeScore s) (hsame : Same stringify sha256 s (.score call)) :
    Fresh computeScore (s.score stringify sha256 computeScore call) := by
  unfold Scorer.score
  dsimp only
  split
  · exact ⟨h.entries, h.answer rfl⟩
  · rename_i key hkey
    split
    · rename_i entry hfound
      obtain ⟨hout, hpro, hrul⟩ := hsame key hkey entry hfound
      obtain ⟨before, after, heq, -⟩ := lookup_eq_some_iff.mp hfound
      refine ⟨h.entries, h.answer ?_⟩
      rw [h.entries (key, entry) (heq ▸ mem_append_right _ (mem_cons_self ..))]
      unfold Scorer.compute
      rw [hout, hpro, hrul]
    · exact ⟨forall_mem_cons.mpr ⟨rfl, h.entries⟩, h.answer rfl⟩

/-- The empty object. -/
def stringifyEmpty (_ : Unit) : Stringified := .text (.ofText "\x7b\x7d".toList)

/-- Without required fields, and where only completeness has a weight. -/
def plainScore (_ : Unit) (_ : List Rat) (output : Output Unit) (_ : JsString) (_ : Unit) : Nat :=
  match output with
  | .string _ => 0
  | .value _ => 100

def emptyCall (output : Output Unit) : Call Unit Unit := ⟨1, (), none, output⟩

end AiNet.Llm.ScoreCache
