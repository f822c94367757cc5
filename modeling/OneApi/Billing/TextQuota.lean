import OneApi.Billing.Quota
import OneApi.Tokens.Billing

/-!
# The quota of a text request

`calculateTextQuotaSummary` bills tokens by ratios: the part of the prompt that is not priced apart counts
as it is, cached tokens, tokens written to a cache, image tokens and completion tokens count by their own
ratio, and all of it by the ratios of the model and the group.  A model with a price per call ignores the
tokens.  Calls of built-in tools are charged on top.

Ratios and prices are exact rationals.  Of the configuration only what the function reads is kept: prices
of tools are those that hold for the model, and `cost` is what the upstream reports as a number.
-/

namespace OneApi.Billing

open OneApi.Tokens OneApi.Billing.Quota

/-- The part of `types.PriceData` that text billing reads. -/
structure TextPrice where
  modelPrice : ℚ := 0
  modelRatio : ℚ := 0
  completionRatio : ℚ := 0
  cacheRatio : ℚ := 0
  cacheCreationRatio : ℚ := 0
  cacheCreation5mRatio : ℚ := 0
  cacheCreation1hRatio : ℚ := 0
  imageRatio : ℚ := 0
  otherRatios : List ℚ := []
  usePrice : Bool := false
  groupRatio : ℚ := 0
  deriving Repr, DecidableEq

/-- Calls of built-in tools.  `responses` are the counted calls of web search and file search, if the
request has such counts. -/
structure ToolCalls where
  responses : Option (ℤ × ℤ) := none
  isSearchPreviewModel : Bool := false
  webSearchPrice : ℚ := 0
  claudeWebSearchCount : ℤ := 0
  claudeWebSearchPrice : ℚ := 0
  fileSearchPrice : ℚ := 0
  imageGenerationPrice : Option ℚ := none
  deriving Repr, DecidableEq

structure TextRelay where
  priceData : TextPrice
  quotaPerUnit : ℚ
  finalRequestRelayFormat : RelayFormat := .openAI
  isOpenRouter : Bool := false
  hasCustomModelRatio : Bool := false
  estimatePromptTokens : ℤ := 0
  audioInputPrice : ℚ := 0
  cost : ℚ := 0
  toolCalls : ToolCalls := {}
  deriving Repr, DecidableEq

structure TextQuotaSummary where
  promptTokens : ℤ
  completionTokens : ℤ
  totalTokens : ℤ
  cacheTokens : ℤ
  cacheCreationTokens : ℤ
  cacheCreationTokens5m : ℤ
  cacheCreationTokens1h : ℤ
  imageTokens : ℤ
  audioTokens : ℤ
  isClaudeUsageSemantic : Bool
  toolCallSurchargeQuota : ℚ
  quota : ℤ := 0
  quotaClamp : Option QuotaClamp := none
  deriving Repr, DecidableEq

def usageSemanticFromUsage (relayInfo : TextRelay) (usage : Option UsageCounts) : String :=
  match usage with
  | some usage =>
    if usage.usageSemantic ≠ "" then usage.usageSemantic
    else if relayInfo.finalRequestRelayFormat = .claude then "anthropic" else "openai"
  | none => if relayInfo.finalRequestRelayFormat = .claude then "anthropic" else "openai"

def isLegacyClaudeDerivedOpenAIUsage (relayInfo : TextRelay) (usage : UsageCounts) : Bool :=
  relayInfo.finalRequestRelayFormat ≠ .claude && usage.usageSource = "" && usage.usageSemantic = "" &&
    (0 < usage.claudeCacheCreation5mTokens || 0 < usage.claudeCacheCreation1hTokens)

def calculateTextToolCallSurcharge (relayInfo : TextRelay) : ℚ :=
  let calls := relayInfo.toolCalls
  let perThousand := fun price : ℚ => price / 1000 * relayInfo.priceData.groupRatio * relayInfo.quotaPerUnit
  let webSearch :=
    match calls.responses with
    | some (webSearchCount, _) =>
      if 0 < webSearchCount then perThousand (calls.webSearchPrice * webSearchCount) else 0
    | none => if calls.isSearchPreviewModel then perThousand calls.webSearchPrice else 0
  let claudeWebSearch :=
    if 0 < calls.claudeWebSearchCount then
      perThousand calls.claudeWebSearchPrice * calls.claudeWebSearchCount
    else 0
  let fileSearch :=
    match calls.responses with
    | some (_, fileSearchCount) =>
      if 0 < fileSearchCount then perThousand (calls.fileSearchPrice * fileSearchCount) else 0
    | none => 0
  let imageGeneration :=
    match calls.imageGenerationPrice with
    | some price => price * relayInfo.priceData.groupRatio * relayInfo.quotaPerUnit
    | none => 0
  webSearch + claudeWebSearch + fileSearch + imageGeneration

/-- The tokens written to the cache that explain the cost the upstream reports. -/
def calcOpenRouterCacheCreateTokens (relayInfo : TextRelay) (usage : UsageCounts) : ℤ :=
  let price := relayInfo.priceData
  if price.cacheCreationRatio = 1 then 0
  else
    let quotaPrice := price.modelRatio / relayInfo.quotaPerUnit
    let promptCacheCreatePrice := quotaPrice * price.cacheCreationRatio
    let promptCacheReadPrice := quotaPrice * price.cacheRatio
    let completionPrice := quotaPrice * price.completionRatio
    roundAway ((relayInfo.cost - usage.promptTokens * quotaPrice +
        usage.promptTokensDetails.cachedTokens * (quotaPrice - promptCacheReadPrice) -
        usage.completionTokens * completionPrice) /
      (promptCacheCreatePrice - quotaPrice))

/-- The counts of a usage, before anything is priced. -/
def readUsage (relayInfo : TextRelay) (usage : UsageCounts) (isClaudeUsageSemantic : Bool) :
    TextQuotaSummary where
  promptTokens := usage.promptTokens
  completionTokens := usage.completionTokens
  totalTokens := usage.promptTokens + usage.completionTokens
  cacheTokens := usage.promptTokensDetails.cachedTokens
  cacheCreationTokens := usage.promptTokensDetails.cacheCreationTokensTotal
  cacheCreationTokens5m := usage.claudeCacheCreation5mTokens
  cacheCreationTokens1h := usage.claudeCacheCreation1hTokens
  imageTokens := usage.promptTokensDetails.imageTokens
  audioTokens := usage.promptTokensDetails.audioTokens
  isClaudeUsageSemantic := isClaudeUsageSemantic
  toolCallSurchargeQuota := calculateTextToolCallSurcharge relayInfo

/-- OpenRouter counts the cache inside the prompt of a Claude model, and may leave the writes out.  A
cost read from JSON is never the integer zero, so the check of the cost always passes. -/
def adjustOpenRouter (relayInfo : TextRelay) (usage : UsageCounts) (summary : TextQuotaSummary) : TextQuotaSummary :=
  if relayInfo.isOpenRouter && summary.isClaudeUsageSemantic then
    let price := relayInfo.priceData
    let promptTokens := summary.promptTokens - summary.cacheTokens
    let isUsingCustomSettings := price.usePrice || relayInfo.hasCustomModelRatio
    let maybe := calcOpenRouterCacheCreateTokens relayInfo usage
    let cacheCreationTokens :=
      if summary.cacheCreationTokens = 0 ∧ price.cacheCreationRatio ≠ 1 ∧ !isUsingCustomSettings ∧
          0 ≤ maybe ∧ maybe ≤ promptTokens then maybe
      else summary.cacheCreationTokens
    { summary with promptTokens := promptTokens - cacheCreationTokens, cacheCreationTokens }
  else summary

/-- The tokens of the prompt that are not priced apart, never less than none.  Where the prompt counts the
cache, the cached and written tokens are taken out of it. -/
def baseTokens (relayInfo : TextRelay) (summary : TextQuotaSummary) (legacyClaudeDerived : Bool) : ℚ :=
  let separate := summary.isClaudeUsageSemantic || legacyClaudeDerived
  let base : ℤ :=
    summary.promptTokens - (if separate then 0 else summary.cacheTokens)
      - (if separate then 0 else summary.cacheCreationTokens) - summary.imageTokens
      - (if 0 < relayInfo.audioInputPrice then summary.audioTokens else 0)
  if base < 0 then 0 else base

def cachedCreationTokensWithRatio (relayInfo : TextRelay) (summary : TextQuotaSummary)
    (legacyClaudeDerived : Bool) : ℚ :=
  let price := relayInfo.priceData
  if summary.cacheCreationTokens = 0 ∧ summary.cacheCreationTokens5m ≤ 0 ∧ summary.cacheCreationTokens1h ≤ 0 then 0
  else if summary.isClaudeUsageSemantic || legacyClaudeDerived then
    let remaining := summary.cacheCreationTokens - summary.cacheCreationTokens5m - summary.cacheCreationTokens1h
    (if remaining < 0 then 0 else remaining) * price.cacheCreationRatio +
      summary.cacheCreationTokens5m * price.cacheCreation5mRatio +
      summary.cacheCreationTokens1h * price.cacheCreation1hRatio
  else summary.cacheCreationTokens * price.cacheCreationRatio

def audioInputQuota (relayInfo : TextRelay) (summary : TextQuotaSummary) : ℚ :=
  if 0 < relayInfo.audioInputPrice then
    relayInfo.audioInputPrice / 1000000 * summary.audioTokens * relayInfo.priceData.groupRatio * relayInfo.quotaPerUnit
  else 0

def applyOtherRatiosToDecimal (price : TextPrice) (value : ℚ) : ℚ :=
  price.otherRatios.foldl (fun value ratio => if 0 < ratio ∧ ratio ≠ 1 then value * ratio else value) value

/-- The ratios of the model and the group. -/
def TextPrice.ratio (price : TextPrice) : ℚ := price.modelRatio * price.groupRatio

/-- `quotaCalculateDecimal`, by the tokens or by the price of a call. -/
def quotaCalculateDecimal (relayInfo : TextRelay) (summary : TextQuotaSummary) (legacyClaudeDerived : Bool) : ℚ :=
  let price := relayInfo.priceData
  if !price.usePrice then
    let promptQuota := baseTokens relayInfo summary legacyClaudeDerived +
      summary.cacheTokens * price.cacheRatio + summary.imageTokens * price.imageRatio +
      cachedCreationTokensWithRatio relayInfo summary legacyClaudeDerived
    let completionQuota := summary.completionTokens * price.completionRatio
    let value := applyOtherRatiosToDecimal price
      ((promptQuota + completionQuota) * price.ratio + summary.toolCallSurchargeQuota +
        audioInputQuota relayInfo summary)
    if price.ratio ≠ 0 ∧ value ≤ 0 then 1 else value
  else
    applyOtherRatiosToDecimal price
      (price.modelPrice * relayInfo.quotaPerUnit * price.groupRatio + summary.toolCallSurchargeQuota)

/-- Nothing is charged without tokens; with tokens and ratios at least one unit is. -/
def finalQuota (relayInfo : TextRelay) (totalTokens quota : ℤ) : ℤ :=
  if totalTokens = 0 then 0
  else if relayInfo.priceData.ratio ≠ 0 ∧ quota = 0 then 1
  else quota

def calculateTextQuotaSummary (relayInfo : TextRelay) (usage : Option UsageCounts) : TextQuotaSummary :=
  let isClaudeUsageSemantic := usageSemanticFromUsage relayInfo usage = "anthropic"
  let usage := usage.getD
    { promptTokens := relayInfo.estimatePromptTokens, totalTokens := relayInfo.estimatePromptTokens }
  let legacyClaudeDerived := isLegacyClaudeDerivedOpenAIUsage relayInfo usage
  let summary := adjustOpenRouter relayInfo usage (readUsage relayInfo usage isClaudeUsageSemantic)
  let converted := quotaFromDecimalChecked (quotaCalculateDecimal relayInfo summary legacyClaudeDerived)
  { summary with
    quota := finalQuota relayInfo summary.totalTokens converted.1
    quotaClamp := converted.2 }

end OneApi.Billing
