import OneApi.Tokens.Types

/-!
# The usage in each format

The functions that turn the usage of one format into the usage of another, as the response converters
call them.  Chat and Responses usage have the same type and differ in the fields that are filled:
`promptTokens` and its details in the one, `inputTokens` and its details in the other.
-/

namespace OneApi.Tokens

/-! ## Between chat and Responses -/

def usageFromChatUsage (src : Usage) : Usage where
  usageSemantic := src.usageSemantic
  usageSource := src.usageSource
  billingUsage :=
    (cloneBillingUsage src.billingUsage).or (newOpenAIChatBillingUsage src.toUsageCounts)
  cost := src.cost
  promptTokens := src.promptTokens
  inputTokens := src.promptTokens
  completionTokens := src.completionTokens
  outputTokens := src.completionTokens
  totalTokens :=
    if src.totalTokens ≠ 0 then src.totalTokens else src.promptTokens + src.completionTokens
  inputTokensDetails :=
    if src.promptTokensDetails.any then some src.promptTokensDetails else none
  completionTokenDetails :=
    if src.completionTokenDetails.any then src.completionTokenDetails else {}
  claudeCacheCreation5mTokens := src.claudeCacheCreation5mTokens
  claudeCacheCreation1hTokens := src.claudeCacheCreation1hTokens

def usageFromResponsesUsage : Option Usage → Usage
  | none => {}
  | some src =>
    { usageSemantic := src.usageSemantic
      usageSource := src.usageSource
      billingUsage :=
        (cloneBillingUsage src.billingUsage).or (newOpenAIResponsesBillingUsage src.toUsageCounts)
      cost := src.cost
      promptTokens := src.inputTokens
      inputTokens := src.inputTokens
      completionTokens := src.outputTokens
      outputTokens := src.outputTokens
      totalTokens :=
        if src.totalTokens ≠ 0 then src.totalTokens else src.inputTokens + src.outputTokens
      promptTokensDetails := src.inputTokensDetails.getD {}
      completionTokenDetails :=
        if src.completionTokenDetails.any then src.completionTokenDetails else {}
      claudeCacheCreation5mTokens := src.claudeCacheCreation5mTokens
      claudeCacheCreation1hTokens := src.claudeCacheCreation1hTokens }

/-! ## Claude -/

/-- The 5-minute part takes what the total has beyond both parts. -/
def normalizeCacheCreationSplit (totalTokens tokens5m tokens1h : ℤ) : ℤ × ℤ :=
  (tokens5m + max (totalTokens - tokens5m - tokens1h) 0, tokens1h)

def cacheCreationTokensForOpenAIUsage (usage : Usage) : ℤ :=
  let splitCacheCreationTokens :=
    usage.claudeCacheCreation5mTokens + usage.claudeCacheCreation1hTokens
  if splitCacheCreationTokens = 0 then usage.promptTokensDetails.cachedCreationTokens
  else if usage.promptTokensDetails.cachedCreationTokens > splitCacheCreationTokens then
    usage.promptTokensDetails.cachedCreationTokens
  else splitCacheCreationTokens

def buildOpenAIStyleUsageFromClaudeUsage (usage : Usage) : Usage :=
  let split := normalizeCacheCreationSplit usage.promptTokensDetails.cachedCreationTokens
    usage.claudeCacheCreation5mTokens usage.claudeCacheCreation1hTokens
  let cacheCreationTokens := cacheCreationTokensForOpenAIUsage usage
  let totalInputTokens :=
    usage.promptTokens + usage.promptTokensDetails.cachedTokens + cacheCreationTokens
  { usage with
    billingUsage := cloneBillingUsage usage.billingUsage
    claudeCacheCreation5mTokens := split.1
    claudeCacheCreation1hTokens := split.2
    promptTokensDetails :=
      { usage.promptTokensDetails with cacheWriteTokens := cacheCreationTokens }
    promptTokens := totalInputTokens
    inputTokens := totalInputTokens
    totalTokens := totalInputTokens + usage.completionTokens
    usageSemantic := "openai"
    usageSource := "anthropic" }

def usageFromClaudeAPIUsage (usage : ClaudeUsage) : Usage :=
  buildOpenAIStyleUsageFromClaudeUsage
    { promptTokens := usage.inputTokens
      completionTokens := usage.outputTokens
      usageSemantic := "anthropic"
      usageSource := "anthropic"
      billingUsage :=
        (cloneBillingUsage usage.billingUsage).or (newClaudeMessagesBillingUsage usage.toClaudeUsageCounts)
      promptTokensDetails :=
        { cachedTokens := usage.cacheReadInputTokens
          cachedCreationTokens := usage.cacheCreationInputTokens }
      claudeCacheCreation5mTokens := usage.getCacheCreation5mTokens
      claudeCacheCreation1hTokens := usage.getCacheCreation1hTokens }

def InputTokenDetails.cacheCreationTokensTotal (details : InputTokenDetails) : ℤ :=
  let total :=
    if details.cacheWriteTokens > details.cachedCreationTokens then details.cacheWriteTokens
    else details.cachedCreationTokens
  if total < 0 then 0 else total

/-- The Claude usage that is attached as the one to bill by. -/
def Usage.attachedClaudeUsage (usage : Usage) : Option ClaudeUsageCounts :=
  match cloneBillingUsage usage.billingUsage with
  | none => none
  | some billingUsage =>
    if billingUsage.source = billingUsageSourceClaudeMessages ∨
        billingUsage.semantic = billingUsageSemanticAnthropic then
      billingUsage.claudeUsage
    else none

/-- The attachment, if it holds an OpenAI usage to bill by, or one made of the usage itself:
`openAIBillingUsageFromUsage`, and the same steps in `buildClaudeUsageFromOpenAIUsage`. -/
def openAIBillingUsageFromUsage (usage : Usage) : Option BillingUsage :=
  match cloneBillingUsage usage.billingUsage with
  | none => newOpenAIChatBillingUsage usage.toUsageCounts
  | some existing =>
    if existing.openAIUsage.isSome ∧
        (existing.source = billingUsageSourceOAIChat ∨
          existing.source = billingUsageSourceOAIResponses ∨
          existing.semantic = billingUsageSemanticOpenAI) then
      some existing
    else newOpenAIChatBillingUsage usage.toUsageCounts

/-- Prompt tokens less what Claude counts apart, when the upstream reports cache writes. -/
def claudeInputTokens (usage : Usage) : ℤ :=
  if usage.promptTokensDetails.cacheWriteTokens > 0 then
    let inputTokens := usage.promptTokens - usage.promptTokensDetails.cachedTokens
      - usage.promptTokensDetails.cacheCreationTokensTotal
    if inputTokens < 0 then 0 else inputTokens
  else usage.promptTokens

def buildClaudeUsageFromOpenAIUsage (oaiUsage : Usage) : ClaudeUsage :=
  match oaiUsage.attachedClaudeUsage with
  | some claudeUsage => { claudeUsage with }
  | none =>
    let split := normalizeCacheCreationSplit oaiUsage.promptTokensDetails.cachedCreationTokens
      oaiUsage.claudeCacheCreation5mTokens oaiUsage.claudeCacheCreation1hTokens
    { inputTokens := claudeInputTokens oaiUsage
      outputTokens := oaiUsage.completionTokens
      cacheCreationInputTokens := oaiUsage.promptTokensDetails.cacheCreationTokensTotal
      cacheReadInputTokens := oaiUsage.promptTokensDetails.cachedTokens
      billingUsage := openAIBillingUsageFromUsage oaiUsage
      cacheCreation :=
        if split.1 > 0 ∨ split.2 > 0 then
          some { ephemeral5mInputTokens := split.1, ephemeral1hInputTokens := split.2 }
        else none }

/-! ## Gemini -/

def addGeminiInputTokenDetail (details : InputTokenDetails) (detail : GeminiPromptTokensDetails) : InputTokenDetails :=
  match detail.modality with
  | "AUDIO" => { details with audioTokens := details.audioTokens + detail.tokenCount }
  | "IMAGE" => { details with imageTokens := details.imageTokens + detail.tokenCount }
  | "TEXT" => { details with textTokens := details.textTokens + detail.tokenCount }
  | _ => details

def addGeminiOutputTokenDetail (details : OutputTokenDetails) (detail : GeminiPromptTokensDetails) :
    OutputTokenDetails :=
  match detail.modality with
  | "IMAGE" => { details with imageTokens := details.imageTokens + detail.tokenCount }
  | "AUDIO" => { details with audioTokens := details.audioTokens + detail.tokenCount }
  | "TEXT" => { details with textTokens := details.textTokens + detail.tokenCount }
  | _ => details

/-- The details of a Gemini prompt, of its own parts and of what its tools added. -/
def geminiInputDetails (metadata : GeminiUsageCounts) : InputTokenDetails :=
  metadata.toolUsePromptTokensDetails.foldl addGeminiInputTokenDetail
    (metadata.promptTokensDetails.foldl addGeminiInputTokenDetail
      { cachedTokens := metadata.cachedContentTokenCount })

def geminiOutputDetails (metadata : GeminiUsageCounts) : OutputTokenDetails :=
  metadata.candidatesTokensDetails.foldl addGeminiOutputTokenDetail
    { reasoningTokens := metadata.thoughtsTokenCount }

/-- A prompt without details by modality is text. -/
def defaultTextTokens (promptTokens : ℤ) (details : InputTokenDetails) : InputTokenDetails :=
  if promptTokens > 0 ∧ details.textTokens = 0 ∧ details.audioTokens = 0 then
    { details with textTokens := promptTokens }
  else details

def usageFromGeminiMetadata (metadata : Option GeminiUsageMetadata) (fallbackPromptTokens : ℤ) : Option Usage :=
  match metadata with
  | none =>
    if fallbackPromptTokens ≤ 0 then none
    else some { promptTokens := fallbackPromptTokens
                promptTokensDetails := { textTokens := fallbackPromptTokens } }
  | some metadata =>
    let counted := metadata.promptTokenCount + metadata.toolUsePromptTokenCount
    let promptTokens :=
      if counted ≤ 0 ∧ fallbackPromptTokens > 0 then fallbackPromptTokens else counted
    let completionTokens := metadata.candidatesTokenCount + metadata.thoughtsTokenCount
    some { promptTokens := promptTokens
           completionTokens :=
             if metadata.totalTokenCount > 0 ∧ completionTokens ≤ 0 then
               metadata.totalTokenCount - promptTokens
             else completionTokens
           totalTokens := metadata.totalTokenCount
           billingUsage :=
             (cloneBillingUsage metadata.billingUsage).or (newGeminiChatBillingUsage metadata.toGeminiUsageCounts)
           completionTokenDetails := geminiOutputDetails metadata.toGeminiUsageCounts
           promptTokensDetails :=
             defaultTextTokens promptTokens (geminiInputDetails metadata.toGeminiUsageCounts) }

/-- The Gemini metadata that is attached as the usage to bill by. -/
def geminiBillingMetadataFromOpenAIUsage (usage : Usage) : Option GeminiUsageCounts :=
  match usage.billingUsage with
  | none => none
  | some billingUsage =>
    if billingUsage.source ≠ billingUsageSourceGeminiChat ∧ billingUsage.semantic ≠ billingUsageSemanticGemini then none
    else billingUsage.geminiUsageMetadata

/-- The usage metadata of `ResponseOpenAI2Gemini`; the stream converter `StreamResponseOpenAI2Gemini`
leaves a missing total as it is. -/
def geminiMetadataFromOpenAIUsage (stream : Bool) (usage : Usage) : GeminiUsageMetadata :=
  match geminiBillingMetadataFromOpenAIUsage usage with
  | some metadata => { metadata with }
  | none =>
    { promptTokenCount := usage.promptTokens
      candidatesTokenCount := usage.completionTokens
      totalTokenCount :=
        if !stream ∧ usage.totalTokens = 0 then usage.promptTokens + usage.completionTokens
        else usage.totalTokens
      billingUsage := openAIBillingUsageFromUsage usage }

end OneApi.Tokens
