import Mathlib.Data.Int.Notation
import Mathlib.Data.List.Basic

/-!
# Token usage and the usage it is billed by

A response reports its tokens in the terms of its format: OpenAI counts cached tokens inside the prompt
tokens, Claude counts them apart, Gemini has its own metadata.  When a response is converted its counts
are, too, so the usage as the upstream reported it travels along as an attachment, the `BillingUsage`.

The attached usage has no attachment of its own: every function that makes or copies a `BillingUsage`
clears it.  So each format has its counts, a record without attachment, and the usage that a response
of the format carries, which adds one.
-/

namespace OneApi.Tokens

structure InputTokenDetails where
  cachedTokens : ℤ := 0
  cachedCreationTokens : ℤ := 0
  cacheWriteTokens : ℤ := 0
  textTokens : ℤ := 0
  audioTokens : ℤ := 0
  imageTokens : ℤ := 0
  deriving Repr, DecidableEq

structure OutputTokenDetails where
  textTokens : ℤ := 0
  audioTokens : ℤ := 0
  imageTokens : ℤ := 0
  reasoningTokens : ℤ := 0
  deriving Repr, DecidableEq

/-- `dto.Usage` without its attachment.  The cost some upstreams add is kept as they wrote it. -/
structure UsageCounts where
  promptTokens : ℤ := 0
  completionTokens : ℤ := 0
  totalTokens : ℤ := 0
  promptCacheHitTokens : ℤ := 0
  usageSemantic : String := ""
  usageSource : String := ""
  promptTokensDetails : InputTokenDetails := {}
  completionTokenDetails : OutputTokenDetails := {}
  inputTokens : ℤ := 0
  outputTokens : ℤ := 0
  inputTokensDetails : Option InputTokenDetails := none
  claudeCacheCreation5mTokens : ℤ := 0
  claudeCacheCreation1hTokens : ℤ := 0
  cost : Option String := none
  deriving Repr, DecidableEq

structure ClaudeCacheCreationUsage where
  ephemeral5mInputTokens : ℤ := 0
  ephemeral1hInputTokens : ℤ := 0
  deriving Repr, DecidableEq

/-- `dto.ClaudeUsage` without its attachment. -/
structure ClaudeUsageCounts where
  inputTokens : ℤ := 0
  cacheCreationInputTokens : ℤ := 0
  cacheReadInputTokens : ℤ := 0
  outputTokens : ℤ := 0
  cacheCreation : Option ClaudeCacheCreationUsage := none
  claudeCacheCreation5mTokens : ℤ := 0
  claudeCacheCreation1hTokens : ℤ := 0
  webSearchRequests : Option ℤ := none
  deriving Repr, DecidableEq

namespace ClaudeUsageCounts

def getCacheCreation5mTokens (usage : ClaudeUsageCounts) : ℤ :=
  match usage.cacheCreation with
  | none => 0
  | some creation => creation.ephemeral5mInputTokens

def getCacheCreation1hTokens (usage : ClaudeUsageCounts) : ℤ :=
  match usage.cacheCreation with
  | none => 0
  | some creation => creation.ephemeral1hInputTokens

end ClaudeUsageCounts

structure GeminiPromptTokensDetails where
  modality : String
  tokenCount : ℤ
  deriving Repr, DecidableEq

/-- `dto.GeminiUsageMetadata` without its attachment. -/
structure GeminiUsageCounts where
  promptTokenCount : ℤ := 0
  toolUsePromptTokenCount : ℤ := 0
  candidatesTokenCount : ℤ := 0
  totalTokenCount : ℤ := 0
  thoughtsTokenCount : ℤ := 0
  cachedContentTokenCount : ℤ := 0
  promptTokensDetails : List GeminiPromptTokensDetails := []
  toolUsePromptTokensDetails : List GeminiPromptTokensDetails := []
  candidatesTokensDetails : List GeminiPromptTokensDetails := []
  deriving Repr, DecidableEq

/-- The usage to bill by, with the format it came from. -/
structure BillingUsage where
  source : String := ""
  semantic : String := ""
  estimated : Bool := false
  openAIUsage : Option UsageCounts := none
  claudeUsage : Option ClaudeUsageCounts := none
  geminiUsageMetadata : Option GeminiUsageCounts := none
  deriving Repr, DecidableEq

structure Usage extends UsageCounts where
  billingUsage : Option BillingUsage := none
  deriving Repr, DecidableEq

structure ClaudeUsage extends ClaudeUsageCounts where
  billingUsage : Option BillingUsage := none
  deriving Repr, DecidableEq

structure GeminiUsageMetadata extends GeminiUsageCounts where
  billingUsage : Option BillingUsage := none
  deriving Repr, DecidableEq

/-! ## The constructors of `dto/billing_usage.go` -/

def billingUsageSourceClaudeMessages : String := "claude_messages"

def billingUsageSourceGeminiChat : String := "gemini_chat"

def billingUsageSourceOAIChat : String := "oai_chat"

def billingUsageSourceOAIResponses : String := "oai_responses"

def billingUsageSemanticAnthropic : String := "anthropic"

def billingUsageSemanticGemini : String := "gemini"

def billingUsageSemanticOpenAI : String := "openai"

/-- The deep copy of an attachment; what it holds has no attachment to clear. -/
def cloneBillingUsage (usage : Option BillingUsage) : Option BillingUsage := usage

def hasClaudeUsageTokens (usage : ClaudeUsageCounts) : Bool :=
  usage.inputTokens ≠ 0 || usage.outputTokens ≠ 0 || usage.cacheCreationInputTokens ≠ 0 ||
    usage.cacheReadInputTokens ≠ 0 || usage.claudeCacheCreation5mTokens ≠ 0 ||
    usage.claudeCacheCreation1hTokens ≠ 0 || usage.getCacheCreation5mTokens ≠ 0 ||
    usage.getCacheCreation1hTokens ≠ 0

def newClaudeMessagesBillingUsage (usage : ClaudeUsageCounts) : Option BillingUsage :=
  if hasClaudeUsageTokens usage then
    some { source := billingUsageSourceClaudeMessages, semantic := billingUsageSemanticAnthropic,
           claudeUsage := some usage }
  else none

/-- Some count of the prompt's details is there. -/
def InputTokenDetails.any (details : InputTokenDetails) : Bool :=
  details.cachedTokens ≠ 0 || details.cachedCreationTokens ≠ 0 || details.cacheWriteTokens ≠ 0 ||
    details.textTokens ≠ 0 || details.imageTokens ≠ 0 || details.audioTokens ≠ 0

/-- Details are copied if there are any; without any they are the empty ones. -/
theorem InputTokenDetails.copy_if_any (details : InputTokenDetails) :
    (if details.any then some details else none).getD {} = details := by
  split
  · rfl
  · cases details
    simp_all [InputTokenDetails.any]

/-- Some count of the completion's details is there. -/
def OutputTokenDetails.any (details : OutputTokenDetails) : Bool :=
  details.reasoningTokens ≠ 0 || details.textTokens ≠ 0 || details.imageTokens ≠ 0 ||
    details.audioTokens ≠ 0

theorem OutputTokenDetails.copy_if_any (details : OutputTokenDetails) :
    (if details.any then details else {}) = details := by
  split
  · rfl
  · cases details
    simp_all [OutputTokenDetails.any]

def hasOpenAIUsageTokens (usage : UsageCounts) : Bool :=
  usage.promptTokens ≠ 0 || usage.completionTokens ≠ 0 || usage.totalTokens ≠ 0 ||
    usage.inputTokens ≠ 0 || usage.outputTokens ≠ 0 || usage.promptCacheHitTokens ≠ 0 ||
    usage.claudeCacheCreation5mTokens ≠ 0 || usage.claudeCacheCreation1hTokens ≠ 0 ||
    usage.promptTokensDetails.any || usage.completionTokenDetails.any ||
    usage.inputTokensDetails.isSome

def newOpenAIBillingUsage (source : String) (usage : UsageCounts) : Option BillingUsage :=
  if hasOpenAIUsageTokens usage then
    some { source := source, semantic := billingUsageSemanticOpenAI, openAIUsage := some usage }
  else none

def newOpenAIChatBillingUsage (usage : UsageCounts) : Option BillingUsage :=
  newOpenAIBillingUsage billingUsageSourceOAIChat usage

def newOpenAIResponsesBillingUsage (usage : UsageCounts) : Option BillingUsage :=
  newOpenAIBillingUsage billingUsageSourceOAIResponses usage

def hasGeminiUsageMetadataTokens (metadata : GeminiUsageCounts) : Bool :=
  metadata.promptTokenCount ≠ 0 || metadata.toolUsePromptTokenCount ≠ 0 ||
    metadata.candidatesTokenCount ≠ 0 || metadata.totalTokenCount ≠ 0 ||
    metadata.thoughtsTokenCount ≠ 0 || metadata.cachedContentTokenCount ≠ 0 ||
    metadata.promptTokensDetails.any (·.tokenCount ≠ 0) ||
    metadata.toolUsePromptTokensDetails.any (·.tokenCount ≠ 0) ||
    metadata.candidatesTokensDetails.any (·.tokenCount ≠ 0)

def newGeminiChatBillingUsage (metadata : GeminiUsageCounts) : Option BillingUsage :=
  if hasGeminiUsageMetadataTokens metadata then
    some { source := billingUsageSourceGeminiChat, semantic := billingUsageSemanticGemini,
           geminiUsageMetadata := some metadata }
  else none

end OneApi.Tokens
