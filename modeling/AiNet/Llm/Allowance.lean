import AiNet.Core.Json
import AiNet.Core.Number
import Mathlib.Algebra.BigOperators.Group.List.Basic
import Mathlib.Tactic.Ring
import Mathlib.Data.List.Infix

/-!
# The base of the agents

An agent asks a language model for a JSON answer. `preparePrompt` trims a prompt to three quarters of
the node's token allowance, the client caps the completion at the allowance, and `callVeniceWithRetry`
asks once more where the first answer is not what the agent's schema wants. Each call of the client may
cost several requests: it goes through its providers and tries each of them again.
-/

namespace AiNet.Llm

open Core List Option

/-! ## Token estimates -/

/-- The double nearest to a quotient, as a quotient by a power of two. -/
def nearestDouble (num den : Nat) : Nat × Nat :=
  if num < den * 2 ^ 53 then
    let bits := Nat.findGreatest (fun bits => num * 2 ^ bits < den * 2 ^ 53) 1074
    (roundHalfEven (num * 2 ^ bits) den, 2 ^ bits)
  else
    let bits := Nat.log2 (num / den) - 52
    (roundHalfEven num (den * 2 ^ bits) * 2 ^ bits, 1)

def floorDouble (d : Nat × Nat) : Nat := d.1 / d.2

def ceilDouble (d : Nat × Nat) : Nat := (d.1 + d.2 - 1) / d.2

def CHARS_PER_TOKEN : Nat := 4

/-- The double `1.1`, times `2 ^ 52`. -/
def ESTIMATE_SAFETY_FACTOR : Nat := 4953959590107546

def TRUNCATION_MARKER : JsString :=
  JsString.ofText "\n\n[... context truncated to fit the task token budget ...]\n\n".toList

/-- A quarter of a length is a double, so the product with the factor is the only one that is rounded. -/
def estimateTokens (text : JsString) : Nat :=
  if text = [] then 0
  else ceilDouble (nearestDouble (text.length * ESTIMATE_SAFETY_FACTOR) (CHARS_PER_TOKEN * 2 ^ 52))

def maxCharsForTokens (maxTokens : Nat) : Nat :=
  if maxTokens = 0 then 0
  else
    let quotient := nearestDouble (maxTokens * 2 ^ 52) ESTIMATE_SAFETY_FACTOR
    floorDouble (quotient.1 * CHARS_PER_TOKEN, quotient.2)

/-- The double `0.6`, times `2 ^ 53`. -/
def headShare : Nat := 5404319552844595

def trimToTokenBudget (text : JsString) (maxTokens : Nat) : JsString :=
  let maxChars := maxCharsForTokens maxTokens
  if maxChars = 0 then []
  else if text.length ≤ maxChars then text
  else if maxChars ≤ TRUNCATION_MARKER.length then TRUNCATION_MARKER
  else
    let budgetChars := maxChars - TRUNCATION_MARKER.length
    let headChars := ceilDouble (nearestDouble (budgetChars * headShare) (2 ^ 53))
    let tailChars := budgetChars - headChars
    let head := text.take headChars
    let tail := if 0 < tailChars then text.drop (text.length - tailChars) else []
    head ++ TRUNCATION_MARKER ++ tail

/-! ## The client -/

structure VeniceBudgetContext where
  taskId : JsString
  nodeId : JsString
  agentId : JsString
  agentType : String
  maxTokens : Option Int
deriving DecidableEq

structure CompleteOptions where
  maxTokens : Option Int
  budget : Option VeniceBudgetContext
deriving DecidableEq

inductive VeniceFailure
  | tokenBudgetExceeded
  | circuitOpen
  | unavailable
deriving DecidableEq

/-- Token counts: what a call reports, and what an agent has counted for a task. -/
structure AgentUsage where
  promptTokens : Nat
  completionTokens : Nat
  totalTokens : Nat
deriving DecidableEq

def AgentUsage.none : AgentUsage := ⟨0, 0, 0⟩

def AgentUsage.add (usage reported : AgentUsage) : AgentUsage :=
  ⟨usage.promptTokens + reported.promptTokens, usage.completionTokens + reported.completionTokens,
    usage.totalTokens + reported.totalTokens⟩

/-- One request to a provider: the prompt, and the `max_tokens` of its body. -/
structure Request where
  prompt : JsString
  maxTokens : Int
deriving DecidableEq

/-- The estimated tokens of a request: those of its prompt, and those it asks for. -/
def Request.cost (request : Request) : Int := estimateTokens request.prompt + request.maxTokens

def spent (requests : List Request) : Int := (requests.map Request.cost).sum

/-- How a call of the client ends: the requests it makes, and the text it returns with the usage it reports.
A text from the cache costs no request. -/
structure Completion where
  requests : Nat
  answer : Except VeniceFailure (JsString × AgentUsage)

/-- What bounds the requests of one call: the providers, and how often each of them is tried again. -/
structure VeniceClient where
  providers : Nat
  maxRetries : Nat

def RETRY_DELAYS_MS : List Nat := [200, 400, 800, 1600]

def VeniceClient.maxAttempts (client : VeniceClient) : Nat := min client.maxRetries RETRY_DELAYS_MS.length + 1

def VeniceClient.maxRequests (client : VeniceClient) : Nat := client.providers * client.maxAttempts

def DEFAULT_MAX_TOKENS : Int := 2048
def HARD_TOKEN_CAP : Int := 8192

/-- The `max_tokens` of a call, unless the call is refused. -/
def completionLimit (options : CompleteOptions) : Except VeniceFailure Int :=
  let requested := options.maxTokens.getD DEFAULT_MAX_TOKENS
  let maxTokens :=
    match options.budget.bind (·.maxTokens) with
    | some allowance => if allowance = 0 then requested else min requested allowance
    | none => requested
  if HARD_TOKEN_CAP < maxTokens then .error .tokenBudgetExceeded
  else if maxTokens ≤ 0 then .error .tokenBudgetExceeded
  else .ok maxTokens

/-- A call of the client: the requests it makes, and how it ends. -/
def complete (prompt : JsString) (options : CompleteOptions) (completion : Completion) :
    List Request × Except VeniceFailure (JsString × AgentUsage) :=
  match completionLimit options with
  | .error failure => ([], .error failure)
  | .ok maxTokens => (List.replicate completion.requests ⟨prompt, maxTokens⟩, completion.answer)

/-! ## The agent -/

structure TaskBudget where
  maxTokens : Option Int

structure AgentTask where
  taskId : JsString
  nodeId : JsString
  prompt : JsString
  context : Option JsString
  upstreamResults : Option (List (Json JsString))
  budget : Option TaskBudget

/-- Stand-in task used by callers that predate per-task budget context. -/
def FALLBACK_TASK : AgentTask where
  taskId := JsString.ofText "unknown".toList
  nodeId := JsString.ofText "unknown".toList
  prompt := []
  context := none
  upstreamResults := none
  budget := none

/-- `task.budget?.maxTokens`. -/
def AgentTask.allowance (task : AgentTask) : Option Int := task.budget.bind (·.maxTokens)

/-- A schema, with the parser of JSON before it: a text without a JSON value of the schema has no output. -/
structure OutputSchema (Output : Type) where
  parse : JsString → Option Output
  parse_empty : parse [] = none

/-- An agent, under its id: its capability is also its type. -/
structure BaseAgent (Output : Type) where
  agentId : JsString
  capability : String
  schema : OutputSchema Output

/-- How `execute` ends. -/
inductive Result (Output : Type)
  | output (value : Output)
  | error (error : String)
  | thrown (name message : String)

/-- What `execute` does: its requests, what it has counted, and its result. -/
structure Execution (Output : Type) where
  requests : List Request
  usage : AgentUsage
  result : Result Output

/-- `\s`, and what `trim` takes off. -/
def isBlank (u : UInt16) : Bool := isSpace (Char.ofNat u.toNat)

def trimBlanks (text : JsString) : JsString :=
  ((text.dropWhile isBlank).reverse.dropWhile isBlank).reverse

def fence : JsString := JsString.ofText "```".toList

/-- An ASCII letter in lower case. -/
def lowerUnit (u : UInt16) : UInt16 := if 65 ≤ u.toNat ∧ u.toNat ≤ 90 then u + 32 else u

/-- Without the opening fence: `/^```(?:json)?\s*/i`. -/
def dropOpening (text : JsString) : JsString :=
  if fence.isPrefixOf text then
    let rest := text.drop fence.length
    let rest := if (rest.take 4).map lowerUnit = JsString.ofText "json".toList then rest.drop 4 else rest
    rest.dropWhile isBlank
  else text

/-- Without the closing fence: `/\s*```$/`. -/
def dropClosing (text : JsString) : JsString :=
  if fence.isPrefixOf text.reverse then ((text.reverse.drop fence.length).dropWhile isBlank).reverse
  else text

section Agent

variable {Output : Type} (agent : BaseAgent Output)

/-- `parseJsonResponse` and `validateOutput`. -/
def parseResponse (raw : JsString) : Option Output :=
  agent.schema.parse (dropClosing (dropOpening (trimBlanks raw)))

def callOptions (task : AgentTask) (maxTokens : Option Int) : CompleteOptions where
  maxTokens := maxTokens
  budget := some
    { taskId := task.taskId
      nodeId := task.nodeId
      agentId := agent.agentId
      agentType := agent.capability
      maxTokens := task.allowance }

/-- Three quarters of an allowance, as a double. -/
def promptCeiling (allowance : Nat) : Nat := max 1 (floorDouble (nearestDouble (allowance * 3) 4))

def preparePrompt (task : AgentTask) (prompt : JsString) : JsString :=
  match task.allowance with
  | none => prompt
  | some allowance =>
    if allowance ≤ 0 then prompt
    else if estimateTokens prompt ≤ promptCeiling allowance.toNat then prompt
    else trimToTokenBudget prompt (promptCeiling allowance.toNat)

def describeVeniceFailure : VeniceFailure → String
  | .tokenBudgetExceeded => "BUDGET_EXHAUSTED"
  | .circuitOpen => "VENICE_UNAVAILABLE"
  | .unavailable => "VENICE_UNAVAILABLE"

def blankLine : JsString := JsString.ofText "\n\n".toList

/-- `answers` says how the calls of the client end, the first and the second one. -/
def callVeniceWithRetry (systemPrompt userContent jsonModeAddendum : JsString) (task : Option AgentTask)
    (answers : Nat → Completion) : Execution Output :=
  let task := task.getD FALLBACK_TASK
  let options := callOptions agent task none
  let fullPrompt := preparePrompt task (systemPrompt ++ blankLine ++ userContent)
  let (requests, answer) := complete fullPrompt options (answers 0)
  match answer with
  | .error failure => ⟨requests, .none, .error (describeVeniceFailure failure)⟩
  | .ok (rawText, usage) =>
    match parseResponse agent rawText with
    | some validated => ⟨requests, usage, .output validated⟩
    | none =>
      let retryPrompt := preparePrompt task (systemPrompt ++ blankLine ++ userContent ++ jsonModeAddendum)
      let (retried, answer) := complete retryPrompt options (answers 1)
      match answer with
      | .error failure => ⟨requests ++ retried, usage, .error (describeVeniceFailure failure)⟩
      | .ok (retryText, retryUsage) =>
        match parseResponse agent retryText with
        | some validated => ⟨requests ++ retried, usage.add retryUsage, .output validated⟩
        | none => ⟨requests ++ retried, usage.add retryUsage, .error "VENICE_MALFORMED_RESPONSE"⟩

end Agent

/-!
## The agents and their allowance

Four agents are built on the base: one each for code, designs, reports and risks. They put their system
prompt before the task's prompt and its context and leave the rest to `callVeniceWithRetry`, without the
task. So the allowance of the task reaches neither the prompt nor the completion limit.
`allowance_kept_iff` says what an execution may cost.
-/

/-! ## Prompts -/

def lines (texts : List String) : JsString :=
  JsString.ofText (List.intercalate ['\n'] (texts.map String.toList))

def Coding.SYSTEM_PROMPT : JsString := lines [
  "You are an expert software developer. Generate clean, secure, well-documented code and return ONLY a valid JSON object with this structure:",
  "\x7b",
  "  \"language\": \"string (e.g., 'python', 'javascript', 'rust')\",",
  "  \"code\": \"string (the complete code)\",",
  "  \"explanation\": \"string (detailed explanation)\",",
  "  \"testScaffold\": \"string (optional test code)\"",
  "\x7d",
  "Focus on security best practices, clear documentation, and maintainable code."]

def Coding.JSON_MODE_ADDENDUM : JsString := lines [
  "",
  "",
  "CRITICAL: Your response was not valid JSON. You MUST respond with ONLY a raw JSON object that matches this schema:",
  "\x7b",
  "  \"language\": \"string\",",
  "  \"code\": \"string\", ",
  "  \"explanation\": \"string\",",
  "  \"testScaffold\": \"string\"",
  "\x7d"]

def Design.SYSTEM_PROMPT : JsString := lines [
  "You are a UI/UX design expert. Create comprehensive design specifications and return ONLY a valid JSON object with this structure:",
  "\x7b",
  "  \"wireframes\": [",
  "    \x7b",
  "      \"name\": \"string\",",
  "      \"description\": \"string\", ",
  "      \"components\": [\"string\"]",
  "    \x7d",
  "  ],",
  "  \"colorPalette\": [",
  "    \x7b",
  "      \"name\": \"string\",",
  "      \"hex\": \"#RRGGBB\",",
  "      \"usage\": \"string\"",
  "    \x7d",
  "  ],",
  "  \"componentHierarchy\": [",
  "    \x7b",
  "      \"component\": \"string\",",
  "      \"children\": [\"string\"],",
  "      \"props\": [\"string\"]",
  "    \x7d",
  "  ],",
  "  \"assetManifest\": [",
  "    \x7b",
  "      \"type\": \"string\",",
  "      \"name\": \"string\",",
  "      \"description\": \"string\",",
  "      \"dimensions\": \"string\"",
  "    \x7d",
  "  ]",
  "\x7d",
  "Focus on user-centered design, accessibility, and modern design patterns."]

def Design.JSON_MODE_ADDENDUM : JsString := lines [
  "",
  "",
  "CRITICAL: Your response was not valid JSON. You MUST respond with ONLY a raw JSON object that matches this schema:",
  "\x7b",
  "  \"wireframes\": [\x7b\"name\": \"string\", \"description\": \"string\", \"components\": [\"string\"]\x7d],",
  "  \"colorPalette\": [\x7b\"name\": \"string\", \"hex\": \"#RRGGBB\", \"usage\": \"string\"\x7d],",
  "  \"componentHierarchy\": [\x7b\"component\": \"string\", \"children\": [\"string\"], \"props\": [\"string\"]\x7d],",
  "  \"assetManifest\": [\x7b\"type\": \"string\", \"name\": \"string\", \"description\": \"string\", \"dimensions\": \"string\"\x7d]",
  "\x7d"]

def Report.SYSTEM_PROMPT : JsString := lines [
  "You are an expert report writer. Synthesize the provided upstream results into a comprehensive markdown report with exactly 5 sections and return ONLY a valid JSON object:",
  "\x7b",
  "  \"title\": \"string\",",
  "  \"sections\": [",
  "    \x7b",
  "      \"heading\": \"Executive Summary\",",
  "      \"content\": \"markdown content\",",
  "      \"sourceAgents\": [\"agent names\"]",
  "    \x7d,",
  "    \x7b",
  "      \"heading\": \"Findings\", ",
  "      \"content\": \"markdown content\",",
  "      \"sourceAgents\": [\"agent names\"]",
  "    \x7d,",
  "    \x7b",
  "      \"heading\": \"Risk Analysis\",",
  "      \"content\": \"markdown content\", ",
  "      \"sourceAgents\": [\"agent names\"]",
  "    \x7d,",
  "    \x7b",
  "      \"heading\": \"Recommendations\",",
  "      \"content\": \"markdown content\",",
  "      \"sourceAgents\": [\"agent names\"]",
  "    \x7d,",
  "    \x7b",
  "      \"heading\": \"Conclusion\",",
  "      \"content\": \"markdown content\",",
  "      \"sourceAgents\": [\"agent names\"]",
  "    \x7d",
  "  ],",
  "  \"wordCount\": number,",
  "  \"generatedAt\": \"ISO string\"",
  "\x7d",
  "Use the exact section headings shown above. Write professional, comprehensive content."]

def Report.JSON_MODE_ADDENDUM : JsString := lines [
  "",
  "",
  "CRITICAL: Your response was not valid JSON. You MUST respond with ONLY a raw JSON object with exactly 5 sections using these headings:",
  "\"Executive Summary\", \"Findings\", \"Risk Analysis\", \"Recommendations\", \"Conclusion\""]

def Risk.SYSTEM_PROMPT : JsString := lines [
  "You are a risk analysis expert. Analyze the given scenario and return ONLY a valid JSON object with the following structure:",
  "\x7b",
  "  \"risks\": [",
  "    \x7b",
  "      \"category\": \"string (e.g., 'Market', 'Technical', 'Regulatory')\",",
  "      \"description\": \"string\",",
  "      \"likelihood\": number (1-5 scale),",
  "      \"impact\": number (1-5 scale),",
  "      \"mitigations\": [\"string\"]",
  "    \x7d",
  "  ],",
  "  \"overallRiskScore\": number (0-5 scale, weighted average)",
  "\x7d",
  "Provide thorough risk analysis with realistic likelihood and impact scores."]

def Risk.JSON_MODE_ADDENDUM : JsString := lines [
  "",
  "",
  "CRITICAL: Your response was not valid JSON. You MUST respond with ONLY a raw JSON object that matches this schema:",
  "\x7b",
  "  \"risks\": [\x7b\"category\": \"string\", \"description\": \"string\", \"likelihood\": number, \"impact\": number, \"mitigations\": [\"string\"]\x7d],",
  "  \"overallRiskScore\": number",
  "\x7d"]

/-! ## What the agents ask -/

inductive Capability
  | coding | design | report | risk
deriving DecidableEq

/-- An agent's way to ask: its prompts, and the user's part of them. A task may be refused with an error's
name and message. -/
structure Asking where
  capability : String
  systemPrompt : JsString
  jsonModeAddendum : JsString
  userContent : AgentTask → Except (String × String) JsString

def present (text : Option JsString) : Option JsString := text.filter (· ≠ [])

def additionalContext : JsString := JsString.ofText "Additional context:\n".toList

def promptWithContext (task : AgentTask) : JsString :=
  match present task.context with
  | some context => task.prompt ++ blankLine ++ additionalContext ++ context
  | none => task.prompt

def UNSAFE_CODE_BLOCKLIST : List String :=
  ["malware", "virus", "exploit", "backdoor", "keylogger", "rootkit", "trojan", "ransomware", "shellcode",
    "buffer overflow", "sql injection", "xss", "csrf"]

/-- `toLowerCase` as far as it gives ASCII letters. The Kelvin sign and the dotted I give one, every other
letter that is not ASCII gives letters that are not. -/
def toLowerCase (text : JsString) : JsString :=
  text.flatMap fun u =>
    if u = 0x212A then [107]
    else if u = 0x130 then [105, 0x307]
    else [lowerUnit u]

def validateCodeSafety (text : JsString) : Option String :=
  UNSAFE_CODE_BLOCKLIST.find? fun term => decide (JsString.ofText term.toList <:+: toLowerCase text)

def unsafeCodeRequest (term : String) : String × String :=
  ("UnsafeCodeRequestError", "Unsafe code request detected: contains blocked term \"" ++ term ++ "\"")

def codingAgent : Asking where
  capability := "coding"
  systemPrompt := Coding.SYSTEM_PROMPT
  jsonModeAddendum := Coding.JSON_MODE_ADDENDUM
  userContent := fun task =>
    match validateCodeSafety task.prompt with
    | some term => .error (unsafeCodeRequest term)
    | none =>
      match (present task.context).bind validateCodeSafety with
      | some term => .error (unsafeCodeRequest term)
      | none => .ok (promptWithContext task)

def designAgent : Asking where
  capability := "design"
  systemPrompt := Design.SYSTEM_PROMPT
  jsonModeAddendum := Design.JSON_MODE_ADDENDUM
  userContent := fun task => .ok (promptWithContext task)

section Pretty

def joinLines : List (List Char) → List Char
  | [] => []
  | text :: texts => text ++ texts.flatMap fun text => ',' :: '\n' :: text

/-- Items on lines of their own between two brackets. -/
def bracketed (opening closing : Char) (indent : Nat) (items : List (List Char)) : List Char :=
  if items = [] then [opening, closing]
  else opening :: '\n' :: (joinLines items ++ '\n' :: (List.replicate indent ' ' ++ [closing]))

mutual

/-- `JSON.stringify(value, null, 2)`, within `indent` blanks. -/
def pretty (indent : Nat) : Json JsString → List Char
  | .null => "null".toList
  | .bool true => "true".toList
  | .bool false => "false".toList
  | .number n => n.text
  | .string s => JsString.quote s
  | .array items => bracketed '[' ']' indent (prettyItems (indent + 2) items)
  | .object members => bracketed (Char.ofNat 123) (Char.ofNat 125) indent (prettyMembers (indent + 2) members)

def prettyItems (indent : Nat) : List (Json JsString) → List (List Char)
  | [] => []
  | item :: items => (List.replicate indent ' ' ++ pretty indent item) :: prettyItems indent items

def prettyMembers (indent : Nat) : List (JsString × Json JsString) → List (List Char)
  | [] => []
  | (key, value) :: members =>
    (List.replicate indent ' ' ++ JsString.quote key ++ ':' :: ' ' :: pretty indent value) ::
      prettyMembers indent members

end

end Pretty

def reportAgent : Asking where
  capability := "report"
  systemPrompt := Report.SYSTEM_PROMPT
  jsonModeAddendum := Report.JSON_MODE_ADDENDUM
  userContent := fun task =>
    match task.upstreamResults.getD [] with
    | [] => .error ("InsufficientContextError", "No upstream agent results provided for report generation")
    | upstreamResults =>
      let upstreamContext := JsString.ofText (pretty 0 (.array upstreamResults))
      let context :=
        match present task.context with
        | some context => lines ["", ""] ++ additionalContext ++ context
        | none => []
      .ok (task.prompt ++ lines ["", "", "Upstream Results:", ""] ++ upstreamContext ++ blankLine ++ context)

def riskAgent : Asking where
  capability := "risk"
  systemPrompt := Risk.SYSTEM_PROMPT
  jsonModeAddendum := Risk.JSON_MODE_ADDENDUM
  userContent := fun task => .ok (promptWithContext task)

def Capability.asking : Capability → Asking
  | .coding => codingAgent
  | .design => designAgent
  | .report => reportAgent
  | .risk => riskAgent

/-! ## What an execution costs -/

section Execution

variable {Output : Type}

/-- An agent of a capability, under an id and with a schema for its answers. -/
def Capability.agent (capability : Capability) (agentId : JsString) (schema : OutputSchema Output) :
    BaseAgent Output where
  agentId := agentId
  capability := capability.asking.capability
  schema := schema

/-- What an agent does for a task. What the agent for risks and the one for reports still do with an
accepted answer comes after the calls, and is left out. -/
def execute (capability : Capability) (agentId : JsString) (schema : OutputSchema Output) (task : AgentTask)
    (answers : Nat → Completion) : Execution Output :=
  match capability.asking.userContent task with
  | .error (name, message) => ⟨[], .none, .thrown name message⟩
  | .ok userContent =>
    callVeniceWithRetry (capability.agent agentId schema) capability.asking.systemPrompt userContent
      capability.asking.jsonModeAddendum none answers

def AgentTask.withAllowance (task : AgentTask) (allowance : Int) : AgentTask :=
  { task with budget := some ⟨some allowance⟩ }

theorem userContent_withAllowance (capability : Capability) (task : AgentTask) (allowance : Int) :
    capability.asking.userContent (task.withAllowance allowance) = capability.asking.userContent task := by
  cases capability <;> rfl

/-- The answers that a client can give: each call makes at most the requests the client allows. -/
def Answers (client : VeniceClient) (answers : Nat → Completion) : Prop :=
  ∀ call, (answers call).requests ≤ client.maxRequests

/-- Whatever the providers answer, the execution of a task costs at most its allowance. -/
def StaysInside (client : VeniceClient) (capability : Capability) (agentId : JsString)
    (schema : OutputSchema Output) (task : AgentTask) (allowance : Int) : Prop :=
  ∀ answers, Answers client answers →
    spent (execute capability agentId schema (task.withAllowance allowance) answers).requests ≤ allowance

/-- The tokens of both calls on a content, for each request: the two prompts, and twice the default limit. -/
def bothCalls (asking : Asking) (userContent : JsString) : Int :=
  estimateTokens (asking.systemPrompt ++ blankLine ++ userContent) +
    estimateTokens (asking.systemPrompt ++ blankLine ++ userContent ++ asking.jsonModeAddendum) +
    2 * DEFAULT_MAX_TOKENS

/-- The agent refuses the task before its first call, or the allowance covers both calls with all their
requests. -/
def Affordable (client : VeniceClient) (asking : Asking) (task : AgentTask) (allowance : Int) : Prop :=
  match asking.userContent task with
  | .error _ => 0 ≤ allowance
  | .ok userContent => client.maxRequests * bothCalls asking userContent ≤ allowance

theorem spent_append (requests requests' : List Request) :
    spent (requests ++ requests') = spent requests + spent requests' := by
  unfold spent
  rw [map_append, sum_append]

theorem spent_replicate (n : Nat) (request : Request) : spent (List.replicate n request) = n * request.cost := by
  unfold spent
  rw [map_replicate, sum_replicate, nsmul_eq_mul]

theorem complete_fallback (agent : BaseAgent Output) (prompt : JsString) (completion : Completion) :
    complete (preparePrompt FALLBACK_TASK prompt) (callOptions agent FALLBACK_TASK none) completion =
      (List.replicate completion.requests ⟨prompt, DEFAULT_MAX_TOKENS⟩, completion.answer) := rfl

theorem spent_call_le {k n : Nat} (prompt : JsString) (h : n ≤ k) :
    spent (List.replicate n ⟨prompt, DEFAULT_MAX_TOKENS⟩) ≤ k * (estimateTokens prompt + DEFAULT_MAX_TOKENS) := by
  have hct : (0 : Int) ≤ estimateTokens prompt + DEFAULT_MAX_TOKENS := by
    unfold DEFAULT_MAX_TOKENS
    omega
  rw [spent_replicate]
  exact mul_le_mul_of_nonneg_right (Int.ofNat_le.mpr h) hct

theorem bothCalls_eq (k : Nat) (asking : Asking) (userContent : JsString) :
    k * bothCalls asking userContent =
      k * (estimateTokens (asking.systemPrompt ++ blankLine ++ userContent) + DEFAULT_MAX_TOKENS) +
        k * (estimateTokens (asking.systemPrompt ++ blankLine ++ userContent ++ asking.jsonModeAddendum) +
          DEFAULT_MAX_TOKENS) := by
  unfold bothCalls
  ring

section Calls

variable {agent : BaseAgent Output} {asking : Asking} {userContent : JsString} {answers : Nat → Completion} {k : Nat}

theorem spent_callVeniceWithRetry_le (han : ∀ call, (answers call).requests ≤ k) :
    spent (callVeniceWithRetry agent asking.systemPrompt userContent asking.jsonModeAddendum none answers).requests ≤
      k * bothCalls asking userContent := by
  have hfst := spent_call_le (asking.systemPrompt ++ blankLine ++ userContent) (han 0)
  have hret := spent_call_le (asking.systemPrompt ++ blankLine ++ userContent ++ asking.jsonModeAddendum) (han 1)
  have hno := spent_call_le (asking.systemPrompt ++ blankLine ++ userContent ++ asking.jsonModeAddendum) (Nat.zero_le k)
  have hemp : spent (List.replicate 0 ⟨asking.systemPrompt ++ blankLine ++ userContent ++ asking.jsonModeAddendum,
      DEFAULT_MAX_TOKENS⟩) = 0 := rfl
  rw [hemp] at hno
  rw [bothCalls_eq]
  unfold callVeniceWithRetry
  simp only [getD_none, complete_fallback]
  -- the first call fails, gives an output or is made again
  cases (answers 0).answer with
  | error => dsimp only; omega
  | ok answer =>
    dsimp only
    cases parseResponse agent answer.1 with
    | some => dsimp only; omega
    | none =>
      dsimp only
      have hbo := spent_append
        (List.replicate (answers 0).requests ⟨asking.systemPrompt ++ blankLine ++ userContent, DEFAULT_MAX_TOKENS⟩)
        (List.replicate (answers 1).requests
          ⟨asking.systemPrompt ++ blankLine ++ userContent ++ asking.jsonModeAddendum, DEFAULT_MAX_TOKENS⟩)
      cases (answers 1).answer with
      | error => dsimp only; omega
      | ok retried =>
        dsimp only
        cases parseResponse agent retried.1 with
        | some | none => dsimp only; omega

/-- An answer that says nothing, after all the requests. -/
def emptyAnswer (k : Nat) : Completion := ⟨k, .ok ([], .none)⟩

theorem parseResponse_empty (agent : BaseAgent Output) : parseResponse agent [] = none := agent.schema.parse_empty

theorem spent_callVeniceWithRetry_empty :
    spent (callVeniceWithRetry agent asking.systemPrompt userContent asking.jsonModeAddendum none
      fun _ => emptyAnswer k).requests = k * bothCalls asking userContent := by
  unfold callVeniceWithRetry
  simp only [getD_none, complete_fallback, emptyAnswer, parseResponse_empty]
  rw [spent_append, spent_replicate, spent_replicate, bothCalls_eq]
  rfl

end Calls

variable (client : VeniceClient) (capability : Capability) (agentId : JsString) (schema : OutputSchema Output)

/-- **An execution stays inside the allowance just when the agent refuses the task, or the allowance covers
both calls untrimmed and with the default limit.** -/
theorem allowance_kept_iff (task : AgentTask) (allowance : Int) :
    StaysInside client capability agentId schema task allowance ↔
      Affordable client capability.asking task allowance := by
  unfold StaysInside Affordable
  have hco := userContent_withAllowance capability task allowance
  cases hask : capability.asking.userContent task with
  | error =>
    dsimp only
    have hec : ∀ answers : Nat → Completion,
        (execute capability agentId schema (task.withAllowance allowance) answers).requests = [] := by
      intro answers
      unfold execute
      rw [hco, hask]
    constructor
    · intro h
      have hqt : Answers client fun _ => emptyAnswer 0 := fun _ => Nat.zero_le _
      have hspe := h _ hqt
      rw [hec] at hspe
      exact hspe
    · intro h answers _
      rw [hec]
      exact h
  | ok userContent =>
    dsimp only
    have hec : ∀ answers : Nat → Completion,
        execute capability agentId schema (task.withAllowance allowance) answers =
          callVeniceWithRetry (capability.agent agentId schema) capability.asking.systemPrompt userContent
            capability.asking.jsonModeAddendum none answers := by
      intro answers
      unfold execute
      rw [hco, hask]
    constructor
    · intro h
      have hspe := h (fun _ => emptyAnswer client.maxRequests) fun _ => Nat.le_refl _
      rw [hec, spent_callVeniceWithRetry_empty] at hspe
      exact hspe
    · intro h answers han
      rw [hec]
      exact (spent_callVeniceWithRetry_le han).trans h

end Execution

/-- A schema that takes no text. -/
def noOutput : OutputSchema Unit := ⟨fun _ => none, rfl⟩

def landingPage : AgentTask where
  taskId := JsString.ofText "task-1".toList
  nodeId := JsString.ofText "node-1".toList
  prompt := JsString.ofText "Design a landing page".toList
  context := none
  upstreamResults := none
  budget := none

/-- With an allowance of 1000 tokens, two empty answers have already cost more than four times as many. -/
theorem allowance_overdrawn :
    ∃ answers : Nat → Completion, Answers ⟨1, 3⟩ answers ∧ (∀ call, (answers call).requests = 1) ∧
      (landingPage.withAllowance 1000).allowance = some 1000 ∧
      4000 < spent (execute .design [] noOutput (landingPage.withAllowance 1000) answers).requests := by
  have hcs : spent (callVeniceWithRetry (Capability.design.agent [] noOutput) designAgent.systemPrompt
      (promptWithContext landingPage) designAgent.jsonModeAddendum none fun _ => emptyAnswer 1).requests =
        (1 : Nat) * bothCalls designAgent (promptWithContext landingPage) := spent_callVeniceWithRetry_empty
  have hspe : spent (execute .design [] noOutput (landingPage.withAllowance 1000) fun _ => emptyAnswer 1).requests =
      (1 : Nat) * bothCalls designAgent (promptWithContext landingPage) := hcs
  have halw : 1 ≤ VeniceClient.maxRequests ⟨1, 3⟩ := by decide
  refine ⟨fun _ => emptyAnswer 1, fun _ => halw, fun _ => rfl, rfl, ?_⟩
  rw [hspe]
  unfold bothCalls DEFAULT_MAX_TOKENS
  omega

end AiNet.Llm
