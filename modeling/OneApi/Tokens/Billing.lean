import OneApi.Lib.Go
import OneApi.Lib.Run
import OneApi.Tokens.Convert

/-!
# The usage that is billed, across conversions of the response

Quota is calculated from the usage attached to the usage that comes with a response
(`usageFromBillingUsage`).  `ConvertResponse` turns a response from one format into another, over chat
where there is no direct converter; here only what becomes of its usage matters, in the value that is
handed on and in the usage that is returned.

An OpenAI usage stays attached through every conversion.  A Claude or Gemini usage is restored when the
response comes back to its own format, and kept on the way over chat and Responses; but the converter to
the *other* of the two formats replaces it by one made of the chat usage, and the response read from
there is billed by that (`billed_iff_faithful`).
-/

namespace OneApi.Tokens

open Lib.Run OneApi.Lib.Go

/-! ## `service/billing_usage.go` -/

def usageFromOpenAIBillingUsage (billingUsage : BillingUsage) (usage : UsageCounts) : Usage :=
  let promptTokens :=
    if usage.promptTokens = 0 ∧ usage.inputTokens > 0 then usage.inputTokens else usage.promptTokens
  let completionTokens :=
    if usage.completionTokens = 0 ∧ usage.outputTokens > 0 then usage.outputTokens
    else usage.completionTokens
  { usage with
    promptTokens := promptTokens
    completionTokens := completionTokens
    inputTokens :=
      if usage.inputTokens = 0 ∧ promptTokens > 0 then promptTokens else usage.inputTokens
    outputTokens :=
      if usage.outputTokens = 0 ∧ completionTokens > 0 then completionTokens else usage.outputTokens
    totalTokens :=
      if usage.totalTokens = 0 then promptTokens + completionTokens else usage.totalTokens
    usageSemantic := billingUsageSemanticOpenAI
    usageSource := billingUsage.source
    billingUsage := cloneBillingUsage (some billingUsage) }

def usageFromClaudeBillingUsage (billingUsage : BillingUsage) (usage : ClaudeUsageCounts) : Usage where
  promptTokens := usage.inputTokens
  completionTokens := usage.outputTokens
  totalTokens := usage.inputTokens + usage.outputTokens
  inputTokens := usage.inputTokens + usage.cacheReadInputTokens + usage.cacheCreationInputTokens
  outputTokens := usage.outputTokens
  usageSemantic := billingUsageSemanticAnthropic
  usageSource := billingUsageSourceClaudeMessages
  billingUsage := cloneBillingUsage (some billingUsage)
  claudeCacheCreation5mTokens :=
    if usage.getCacheCreation5mTokens = 0 then usage.claudeCacheCreation5mTokens
    else usage.getCacheCreation5mTokens
  claudeCacheCreation1hTokens :=
    if usage.getCacheCreation1hTokens = 0 then usage.claudeCacheCreation1hTokens
    else usage.getCacheCreation1hTokens
  promptTokensDetails :=
    { cachedTokens := usage.cacheReadInputTokens
      cachedCreationTokens := usage.cacheCreationInputTokens }

def usageFromGeminiBillingUsage (billingUsage : BillingUsage) (metadata : GeminiUsageCounts) : Usage :=
  let promptTokens := metadata.promptTokenCount + metadata.toolUsePromptTokenCount
  let completionTokens := metadata.candidatesTokenCount + metadata.thoughtsTokenCount
  { promptTokens := promptTokens
    completionTokens :=
      if metadata.totalTokenCount ≠ 0 ∧ completionTokens ≤ 0 then
        metadata.totalTokenCount - promptTokens
      else completionTokens
    totalTokens :=
      if metadata.totalTokenCount = 0 then promptTokens + completionTokens
      else metadata.totalTokenCount
    usageSemantic := billingUsageSemanticGemini
    usageSource := billingUsageSourceGeminiChat
    billingUsage := cloneBillingUsage (some billingUsage)
    completionTokenDetails := geminiOutputDetails metadata
    promptTokensDetails := defaultTextTokens promptTokens (geminiInputDetails metadata) }

/-- What an attachment is billed by: the first of its usages that its source or semantic names. -/
def readBillingUsage (billingUsage : BillingUsage) : Option Usage :=
  let source := trimSpace billingUsage.source
  let semantic := trimSpace billingUsage.semantic
  let isOpenAI := equalFold source billingUsageSourceOAIChat ||
    equalFold source billingUsageSourceOAIResponses ||
    equalFold semantic billingUsageSemanticOpenAI
  let isClaude := equalFold source billingUsageSourceClaudeMessages ||
    equalFold semantic billingUsageSemanticAnthropic
  let isGemini := equalFold source billingUsageSourceGeminiChat ||
    equalFold semantic billingUsageSemanticGemini
  (if isOpenAI then billingUsage.openAIUsage.map (usageFromOpenAIBillingUsage billingUsage)
    else none).or
  ((if isClaude then billingUsage.claudeUsage.map (usageFromClaudeBillingUsage billingUsage)
    else none).or
  (if isGemini then
    billingUsage.geminiUsageMetadata.map (usageFromGeminiBillingUsage billingUsage)
    else none))

/-- `usageFromBillingUsage`; the usage to bill by, if one is attached. -/
def usageFromBillingUsage (usage : Option Usage) : Option Usage :=
  usage.bind fun usage => usage.billingUsage.bind readBillingUsage

/-! ## `ConvertResponse`, as far as the usage goes -/

inductive RelayFormat
  | openAI
  | claude
  | gemini
  | openAIResponses
  deriving Repr, DecidableEq

/-- The usage in a response, in the terms of its format. -/
inductive Reported
  | openAI (usage : Usage)
  | claude (usage : ClaudeUsage)
  | gemini (metadata : GeminiUsageMetadata)
  | openAIResponses (usage : Usage)
  deriving Repr, DecidableEq

/-- `inferResponseRelayFormat`. -/
def Reported.format : Reported → RelayFormat
  | .openAI _ => .openAI
  | .claude _ => .claude
  | .gemini _ => .gemini
  | .openAIResponses _ => .openAIResponses

/-- The usage of a response that is returned as it is. -/
def canonicalUsageFromResponse : Reported → Option Usage
  | .openAI usage => some (usageFromChatUsage usage)
  | .claude usage => some (usageFromClaudeAPIUsage usage)
  | .gemini metadata => usageFromGeminiMetadata (some metadata) 0
  | .openAIResponses usage => some (usageFromResponsesUsage (some usage))

/-- A converted response and the usage that is returned beside it. -/
structure ResponseResult where
  value : Reported
  usage : Option Usage
  deriving Repr, DecidableEq

/-- The response as it is, with the usage that is returned for it. -/
def Reported.asIs (response : Reported) : ResponseResult :=
  ⟨response, canonicalUsageFromResponse response⟩

/-- The converters to chat: the usage of the chat response, and the usage that is returned. -/
def toChat (estimatePromptTokens : ℤ) : Reported → Usage × Option Usage
  | .openAI usage => (usage, some (usageFromChatUsage usage))
  | .claude usage =>
    let chat := usageFromClaudeAPIUsage usage
    (chat, some chat)
  | .gemini metadata =>
    let chat := usageFromGeminiMetadata (some metadata) estimatePromptTokens
    (chat.getD {}, chat)
  | .openAIResponses usage =>
    let chat := usageFromResponsesUsage (some usage)
    (chat, some chat)

/-- The converters from chat. -/
def fromChat (stream : Bool) (usage : Usage) : RelayFormat → ResponseResult
  | .openAI => ⟨.openAI usage, some (usageFromChatUsage usage)⟩
  | .claude => ⟨.claude (buildClaudeUsageFromOpenAIUsage usage), some (usageFromChatUsage usage)⟩
  | .gemini =>
    ⟨.gemini (geminiMetadataFromOpenAIUsage stream usage), some (usageFromChatUsage usage)⟩
  | .openAIResponses =>
    ⟨.openAIResponses (usageFromChatUsage usage), some (usageFromChatUsage usage)⟩

/-- `ConvertResponse`.  The route between two other formats is the one to chat and the one from it. -/
def convertResponse (estimatePromptTokens : ℤ) (stream : Bool) (target : RelayFormat)
    (response : Reported) : ResponseResult :=
  if response.format = target then response.asIs
  else if response.format ≠ .openAI ∧ target = .openAI then
    ⟨.openAI (toChat estimatePromptTokens response).1, (toChat estimatePromptTokens response).2⟩
  else fromChat stream (toChat estimatePromptTokens response).1 target

/-- The response after a chain of conversions; without any, it is returned as it is. -/
def convertAlong (estimatePromptTokens : ℤ) (stream : Bool) (response : Reported)
    (targets : List RelayFormat) : ResponseResult :=
  run (fun result target => convertResponse estimatePromptTokens stream target result.value) response.asIs targets

/-! ## What a response is billed by -/

/-- The attachment that a response is billed by when it is returned as it is. -/
def Reported.billed (response : Reported) : Option BillingUsage :=
  (canonicalUsageFromResponse response).bind Usage.billingUsage

/-- The attachment of the usage that is returned. -/
def ResponseResult.billed (result : ResponseResult) : Option BillingUsage :=
  result.usage.bind Usage.billingUsage

theorem usageFromBillingUsage_eq (result : ResponseResult) :
    usageFromBillingUsage result.usage = result.billed.bind readBillingUsage := by
  rw [usageFromBillingUsage, ResponseResult.billed, Option.bind_assoc]

@[simp] theorem billed_openAI (usage : Usage) : (Reported.openAI usage).billed
    = usage.billingUsage.or (newOpenAIChatBillingUsage usage.toUsageCounts) := rfl

@[simp] theorem billed_claude (usage : ClaudeUsage) : (Reported.claude usage).billed
    = usage.billingUsage.or (newClaudeMessagesBillingUsage usage.toClaudeUsageCounts) := rfl

@[simp] theorem billed_gemini (metadata : GeminiUsageMetadata) : (Reported.gemini metadata).billed
    = metadata.billingUsage.or (newGeminiChatBillingUsage metadata.toGeminiUsageCounts) := rfl

@[simp] theorem billed_openAIResponses (usage : Usage) : (Reported.openAIResponses usage).billed
    = usage.billingUsage.or (newOpenAIResponsesBillingUsage usage.toUsageCounts) := rfl

/-- The chat usage that another format is converted to has the attachment attached. -/
theorem billingUsage_toChat {response : Reported} (h : response.format ≠ .openAI) (est : ℤ) :
    (toChat est response).1.billingUsage = response.billed ∧
      (toChat est response).2.bind Usage.billingUsage = response.billed := by
  cases response with
  | openAI usage => exact absurd rfl h
  | claude usage | gemini metadata | openAIResponses usage => exact ⟨rfl, rfl⟩

theorem billed_fromChat (stream : Bool) (usage : Usage) (target : RelayFormat) :
    (fromChat stream usage target).billed = (Reported.openAI usage).billed := by
  cases target <;> rfl

/-- Billed by an OpenAI usage. -/
structure BillingUsage.IsOpenAI (b : BillingUsage) : Prop where
  usage : b.openAIUsage.isSome
  semantic : b.semantic = billingUsageSemanticOpenAI
  source : b.source = billingUsageSourceOAIChat ∨ b.source = billingUsageSourceOAIResponses

variable {b : BillingUsage}

theorem isOpenAI_of_new {source : String} {usage : UsageCounts}
    (hsource : source = billingUsageSourceOAIChat ∨ source = billingUsageSourceOAIResponses)
    (h : newOpenAIBillingUsage source usage = some b) : b.IsOpenAI := by
  rw [newOpenAIBillingUsage] at h
  split at h
  · obtain rfl := Option.some.inj h
    exact ⟨rfl, rfl, hsource⟩
  · exact absurd h nofun

theorem BillingUsage.IsOpenAI.source_ne (h : b.IsOpenAI) :
    b.source ≠ billingUsageSourceClaudeMessages ∧ b.source ≠ billingUsageSourceGeminiChat := by
  rcases h.source with hs | hs <;> rw [hs] <;> decide

variable {usage : Usage}

theorem BillingUsage.IsOpenAI.attachedClaudeUsage (h : b.IsOpenAI)
    (hb : usage.billingUsage = some b) : usage.attachedClaudeUsage = none := by
  rw [Usage.attachedClaudeUsage, cloneBillingUsage, hb]
  refine if_neg ?_
  rintro (hs | hs)
  · exact h.source_ne.1 hs
  · rw [h.semantic] at hs
    exact absurd hs (by decide)

theorem BillingUsage.IsOpenAI.geminiBillingMetadata (h : b.IsOpenAI) (hb : usage.billingUsage = some b) :
    geminiBillingMetadataFromOpenAIUsage usage = none := by
  rw [geminiBillingMetadataFromOpenAIUsage, hb]
  refine if_pos ⟨h.source_ne.2, ?_⟩
  rw [h.semantic]
  decide

theorem BillingUsage.IsOpenAI.openAIBillingUsage (h : b.IsOpenAI)
    (hb : usage.billingUsage = some b) : openAIBillingUsageFromUsage usage = some b := by
  rw [openAIBillingUsageFromUsage, cloneBillingUsage, hb]
  refine if_pos ⟨h.usage, ?_⟩
  rcases h.source with hs | hs
  · exact .inl hs
  · exact .inr (.inl hs)

/-- A chat usage that is billed as OpenAI usage hands that on to Claude and Gemini. -/
theorem attached_of_billed_openAI (hb : b.IsOpenAI) (h : (Reported.openAI usage).billed = some b) :
    usage.attachedClaudeUsage = none ∧ geminiBillingMetadataFromOpenAIUsage usage = none ∧
      openAIBillingUsageFromUsage usage = some b := by
  rw [billed_openAI] at h
  cases hattached : usage.billingUsage with
  | some b' =>
    rw [hattached] at h
    obtain rfl : b' = b := Option.some.inj h
    exact ⟨hb.attachedClaudeUsage hattached, hb.geminiBillingMetadata hattached, hb.openAIBillingUsage hattached⟩
  | none =>
    rw [hattached] at h
    refine ⟨?_, ?_, ?_⟩
    · rw [Usage.attachedClaudeUsage, cloneBillingUsage, hattached]
    · rw [geminiBillingMetadataFromOpenAIUsage, hattached]
    · rw [openAIBillingUsageFromUsage, cloneBillingUsage, hattached]
      exact h

theorem billed_value_fromChat_openAI (hb : b.IsOpenAI)
    (h : (Reported.openAI usage).billed = some b) (stream : Bool) (target : RelayFormat) :
    (fromChat stream usage target).value.billed = some b := by
  obtain ⟨hclaude, hgemini, hopenAI⟩ := attached_of_billed_openAI hb h
  cases target with
  | openAI => exact h
  | claude => simp only [fromChat, billed_claude, buildClaudeUsageFromOpenAIUsage, hclaude, hopenAI,
      Option.some_or]
  | gemini => simp only [fromChat, billed_gemini, geminiMetadataFromOpenAIUsage, hgemini, hopenAI,
      Option.some_or]
  | openAIResponses =>
    have husage : (usageFromChatUsage usage).billingUsage = some b := h
    simp only [fromChat, billed_openAIResponses, husage, Option.some_or]

/-- A response without a usage to bill by: nothing is attached, and nothing was counted. -/
theorem billed_openAI_eq_none :
    (Reported.openAI usage).billed = none ↔
      usage.billingUsage = none ∧ hasOpenAIUsageTokens usage.toUsageCounts = false := by
  rw [billed_openAI, newOpenAIChatBillingUsage, newOpenAIBillingUsage]
  cases usage.billingUsage <;> cases hasOpenAIUsageTokens usage.toUsageCounts <;> simp

theorem billed_value_fromChat_none (h : (Reported.openAI usage).billed = none)
    (stream : Bool) (target : RelayFormat) : (fromChat stream usage target).value.billed = none := by
  obtain ⟨hattached, hzero⟩ := billed_openAI_eq_none.mp h
  simp only [hasOpenAIUsageTokens, InputTokenDetails.any, OutputTokenDetails.any, ne_eq,
    decide_not, Bool.or_eq_false_iff, Bool.not_eq_eq_eq_not, Bool.not_false, decide_eq_true_eq,
    Option.isSome_eq_false_iff, Option.isNone_iff_eq_none] at hzero
  have hnew : newOpenAIChatBillingUsage usage.toUsageCounts = none := by
    rw [billed_openAI, hattached] at h
    exact h
  have hopenAI : openAIBillingUsageFromUsage usage = none := by
    rw [openAIBillingUsageFromUsage, cloneBillingUsage, hattached]
    exact hnew
  cases target with
  | openAI => exact h
  | claude =>
    have hclaude : usage.attachedClaudeUsage = none := by
      rw [Usage.attachedClaudeUsage, cloneBillingUsage, hattached]
    simp only [fromChat, billed_claude, buildClaudeUsageFromOpenAIUsage, hclaude, hopenAI, Option.none_or]
    simp [newClaudeMessagesBillingUsage, hasClaudeUsageTokens, claudeInputTokens,
      InputTokenDetails.cacheCreationTokensTotal, normalizeCacheCreationSplit,
      ClaudeUsageCounts.getCacheCreation5mTokens, ClaudeUsageCounts.getCacheCreation1hTokens, hzero]
  | gemini =>
    have hgemini : geminiBillingMetadataFromOpenAIUsage usage = none := by
      rw [geminiBillingMetadataFromOpenAIUsage, hattached]
    simp only [fromChat, billed_gemini, geminiMetadataFromOpenAIUsage, hgemini, hopenAI, Option.none_or]
    simp [newGeminiChatBillingUsage, hasGeminiUsageMetadataTokens, hzero]
  | openAIResponses =>
    have husage : (usageFromChatUsage usage).billingUsage = none := h
    simp only [fromChat, billed_openAIResponses, husage, Option.none_or]
    simp [newOpenAIResponsesBillingUsage, newOpenAIBillingUsage, hasOpenAIUsageTokens,
      usageFromChatUsage, InputTokenDetails.any, OutputTokenDetails.any, hzero]

variable {detail : GeminiPromptTokensDetails}

/-- Details without tokens add nothing. -/
theorem addGeminiInputTokenDetail_zero (details : InputTokenDetails) (h : detail.tokenCount = 0) :
    addGeminiInputTokenDetail details detail = details := by
  rw [addGeminiInputTokenDetail, h]
  split <;> simp only [Int.add_zero]

theorem addGeminiOutputTokenDetail_zero (details : OutputTokenDetails) (h : detail.tokenCount = 0) :
    addGeminiOutputTokenDetail details detail = details := by
  rw [addGeminiOutputTokenDetail, h]
  split <;> simp only [Int.add_zero]

/-- What is not billed has no attachment, and no tokens in the terms of its format. -/
theorem or_new_eq_none {attached : Option BillingUsage} {tokens : Bool}
    (h : attached.or (if tokens then some b else none) = none) : attached = none ∧ tokens = false := by
  cases attached <;> cases tokens <;> simp at h ⊢

variable {metadata : GeminiUsageMetadata}

/-- The chat usage of a Gemini response without tokens: only an estimate of the prompt, if there is
one. -/
theorem toChat_gemini_none (h : (Reported.gemini metadata).billed = none) (est : ℤ) :
    (toChat est (.gemini metadata)).1
      = { promptTokens := max est 0, promptTokensDetails := { textTokens := max est 0 } } := by
  obtain ⟨hattached, hzero⟩ := or_new_eq_none h
  simp only [hasGeminiUsageMetadataTokens, ne_eq, decide_not, Bool.or_eq_false_iff,
    Bool.not_eq_eq_eq_not, Bool.not_false, decide_eq_true_eq, List.any_eq_false, Bool.not_true,
    decide_eq_false_iff_not, not_not] at hzero
  obtain ⟨⟨⟨⟨⟨⟨⟨⟨hp, ht⟩, hc⟩, htotal⟩, hth⟩, hcached⟩, hpd⟩, htd⟩, hcd⟩ := hzero
  have hin : geminiInputDetails metadata.toGeminiUsageCounts = {} := by
    rw [geminiInputDetails, foldl_eq_self fun a d hd => addGeminiInputTokenDetail_zero a (htd d hd),
      foldl_eq_self fun a d hd => addGeminiInputTokenDetail_zero a (hpd d hd), hcached]
  have hout : geminiOutputDetails metadata.toGeminiUsageCounts = {} := by
    rw [geminiOutputDetails, foldl_eq_self fun a d hd => addGeminiOutputTokenDetail_zero a (hcd d hd), hth]
  have hnew : metadata.billingUsage.or (newGeminiChatBillingUsage metadata.toGeminiUsageCounts) = none := h
  simp only [toChat, usageFromGeminiMetadata, cloneBillingUsage, hnew, Option.getD_some, hin, hout,
    hp, ht, hc, htotal, hth, Int.add_zero]
  by_cases hest : est > 0
  · simp [defaultTextTokens, hest, Int.max_eq_left (Int.le_of_lt hest)]
  · simp [defaultTextTokens, hest, Int.max_eq_right (Int.not_lt.mp hest)]

/-- Without a usage to bill by there is none in chat either, unless the prompt of a Gemini response is
estimated. -/
theorem billed_toChat_none {response : Reported} (h : response.billed = none) {est : ℤ}
    (hest : response.format = .gemini → est ≤ 0) : (Reported.openAI (toChat est response).1).billed = none := by
  cases response with
  | openAI usage => exact h
  | claude usage =>
    have hzero := (or_new_eq_none h).2
    refine billed_openAI_eq_none.mpr ⟨h, ?_⟩
    simp only [hasClaudeUsageTokens, ne_eq, decide_not, Bool.or_eq_false_iff,
      Bool.not_eq_eq_eq_not, Bool.not_false, decide_eq_true_eq] at hzero
    simp [hasOpenAIUsageTokens, toChat, usageFromClaudeAPIUsage,
      buildOpenAIStyleUsageFromClaudeUsage, normalizeCacheCreationSplit,
      cacheCreationTokensForOpenAIUsage, InputTokenDetails.any, OutputTokenDetails.any, hzero]
  | gemini metadata =>
    rw [toChat_gemini_none h, Int.max_eq_right (hest rfl)]
    rfl
  | openAIResponses usage =>
    have hzero := (or_new_eq_none h).2
    refine billed_openAI_eq_none.mpr ⟨h, ?_⟩
    simp only [hasOpenAIUsageTokens, InputTokenDetails.any, OutputTokenDetails.any, ne_eq,
      decide_not, Bool.or_eq_false_iff, Bool.not_eq_eq_eq_not, Bool.not_false, decide_eq_true_eq,
      Option.isSome_eq_false_iff, Option.isNone_iff_eq_none] at hzero
    simp [hasOpenAIUsageTokens, toChat, usageFromResponsesUsage, InputTokenDetails.any, OutputTokenDetails.any, hzero]

/-- The estimated prompt of a Gemini response is billed as if an OpenAI upstream had reported it. -/
theorem billed_toChat_estimate (h : (Reported.gemini metadata).billed = none) {est : ℤ} (hest : 0 < est) :
    ∃ b, (Reported.openAI (toChat est (.gemini metadata)).1).billed = some b ∧ b.IsOpenAI := by
  have hne : est ≠ 0 := by omega
  rw [toChat_gemini_none h, Int.max_eq_left (Int.le_of_lt hest)]
  have hnew : (Reported.openAI { promptTokens := est
                                 promptTokensDetails := { textTokens := est } }).billed
      = newOpenAIChatBillingUsage { promptTokens := est
                                    promptTokensDetails := { textTokens := est } } := rfl
  have htokens : hasOpenAIUsageTokens { promptTokens := est
                                        promptTokensDetails := { textTokens := est } } = true := by
    simp [hasOpenAIUsageTokens, hne]
  rw [hnew, newOpenAIChatBillingUsage, newOpenAIBillingUsage, htokens]
  exact ⟨_, rfl, ⟨rfl, rfl, .inl rfl⟩⟩

/-! ## Chains of conversions -/

variable {foreign : RelayFormat}

section Chains

variable {est : ℤ} {stream : Bool} {target : RelayFormat} {response : Reported} {b : BillingUsage}

/-- What a conversion returns: the attachment of the response, or, over chat to a third format, that of
the chat response on the way. -/
theorem billed_convertResponse : (convertResponse est stream target response).billed =
      if response.format = target ∨ response.format = .openAI ∨ target = .openAI then response.billed
      else (Reported.openAI (toChat est response).1).billed := by
  rw [convertResponse]
  by_cases hsame : response.format = target
  · rw [if_pos hsame, if_pos (.inl hsame)]
    rfl
  rw [if_neg hsame]
  by_cases hchat : response.format = .openAI
  · rw [if_neg fun h => h.1 hchat, if_pos (.inr (.inl hchat)), billed_fromChat]
    cases response <;> first | rfl | exact absurd hchat nofun
  by_cases htarget : target = .openAI
  · rw [if_pos ⟨hchat, htarget⟩, if_pos (.inr (.inr htarget))]
    exact (billingUsage_toChat hchat est).2
  · rw [if_neg fun h => htarget h.2, if_neg (not_or.mpr ⟨hsame, not_or.mpr ⟨hchat, htarget⟩⟩), billed_fromChat]

/-- What is handed on by a conversion to another format. -/
theorem value_convertResponse (h : response.format ≠ target) :
    (convertResponse est stream target response).value =
      if target = .openAI then .openAI (toChat est response).1
      else (fromChat stream (toChat est response).1 target).value := by
  rw [convertResponse, if_neg h]
  by_cases htarget : target = .openAI
  · rw [if_pos ⟨fun hchat => h (hchat.trans htarget.symm), htarget⟩, if_pos htarget]
  · rw [if_neg fun h => htarget h.2, if_neg htarget]

theorem format_convertResponse : (convertResponse est stream target response).value.format = target := by
  by_cases h : response.format = target
  · rw [convertResponse, if_pos h]
    exact h
  · rw [value_convertResponse h]
    cases target <;> rfl

/-- An attachment is kept on the way to chat. -/
theorem billed_toChat_some (h : response.billed = some b) (est : ℤ) :
    (Reported.openAI (toChat est response).1).billed = some b := by
  by_cases hchat : response.format = .openAI
  · cases response <;> first | exact h | exact absurd hchat nofun
  · rw [billed_openAI, (billingUsage_toChat hchat est).1, h, Option.some_or]

/-- A response that is billed stays billed the same in what a conversion returns. -/
theorem billed_convertResponse_some (h : response.billed = some b) :
    (convertResponse est stream target response).billed = some b := by
  rw [billed_convertResponse]
  split
  · exact h
  · exact billed_toChat_some h est

/-- An OpenAI usage is handed on by every conversion. -/
theorem value_convertResponse_openAI (hb : b.IsOpenAI) (h : response.billed = some b) :
    (convertResponse est stream target response).value.billed = some b := by
  by_cases hsame : response.format = target
  · rw [convertResponse, if_pos hsame]
    exact h
  · rw [value_convertResponse hsame]
    split
    · exact billed_toChat_some h est
    · exact billed_value_fromChat_openAI hb (billed_toChat_some h est) stream target

/-- Billed by nothing, or by an OpenAI usage. -/
def NotNative (billed : Option BillingUsage) : Prop := ∀ b, billed = some b → b.IsOpenAI

theorem notNative_none : NotNative none := by
  intro b hb
  cases hb

theorem BillingUsage.IsOpenAI.notNative (h : b.IsOpenAI) : NotNative (some b) :=
  fun _ heq => Option.some.inj heq ▸ h

theorem notNative_chat (h : NotNative response.billed) (est : ℤ) :
    NotNative (Reported.openAI (toChat est response).1).billed := by
  intro b hb
  by_cases hchat : response.format = .openAI
  · cases response <;> first | exact h b hb | exact absurd hchat nofun
  · rw [billed_openAI, (billingUsage_toChat hchat est).1] at hb
    cases hbilled : response.billed with
    | some b' =>
      rw [hbilled] at hb
      obtain rfl : b' = b := Option.some.inj hb
      exact h b' hbilled
    | none =>
      rw [hbilled] at hb
      exact isOpenAI_of_new (.inl rfl) hb

theorem notNative_fromChat (h : NotNative (Reported.openAI usage).billed) :
    NotNative (fromChat stream usage target).value.billed := by
  cases hbilled : (Reported.openAI usage).billed with
  | none =>
    rw [billed_value_fromChat_none hbilled]
    exact notNative_none
  | some b =>
    have hb : b.IsOpenAI := h b hbilled
    rw [billed_value_fromChat_openAI hb hbilled]
    exact hb.notNative

/-- What is not billed as Claude or Gemini usage never is after a conversion. -/
theorem notNative_convertResponse (h : NotNative response.billed) :
    NotNative (convertResponse est stream target response).value.billed ∧
      NotNative (convertResponse est stream target response).billed := by
  have hchat := notNative_chat h est
  refine ⟨?_, ?_⟩
  · by_cases hsame : response.format = target
    · rw [convertResponse, if_pos hsame]
      exact h
    · rw [value_convertResponse hsame]
      split
      · exact hchat
      · generalize (toChat est response).1 = usage at hchat
        exact notNative_fromChat hchat
  · rw [billed_convertResponse]
    split
    · exact h
    · exact hchat

variable {result : ResponseResult}

/-- A chain of at least one conversion does not return a Claude or Gemini usage either. -/
theorem notNative_convertAlong {targets : List RelayFormat} (hne : targets ≠ []) (h : NotNative result.value.billed) :
    NotNative (run (fun result target => convertResponse est stream target result.value) result targets).billed := by
  have hstep : ∀ (result : ResponseResult) (target : RelayFormat),
      NotNative result.value.billed ∧ NotNative result.billed →
        NotNative (convertResponse est stream target result.value).value.billed ∧
          NotNative (convertResponse est stream target result.value).billed :=
    fun result target hboth => notNative_convertResponse hboth.1
  cases targets with
  | nil => exact absurd rfl hne
  | cons target targets =>
    rw [run_cons]
    exact (run_preserves hstep targets (notNative_convertResponse h)).2

/-- After an OpenAI usage every conversion returns it. -/
theorem billed_run_openAI (hb : b.IsOpenAI)
    (hvalue : result.value.billed = some b) (hbilled : result.billed = some b) (targets : List RelayFormat) :
    (run (fun result target => convertResponse est stream target result.value) result targets).billed = some b := by
  have hstep : ∀ (result : ResponseResult) (target : RelayFormat),
      result.value.billed = some b ∧ result.billed = some b →
        (convertResponse est stream target result.value).value.billed = some b ∧
          (convertResponse est stream target result.value).billed = some b :=
    fun result target h => ⟨value_convertResponse_openAI hb h.1, billed_convertResponse_some h.1⟩
  exact (run_preserves hstep targets ⟨hvalue, hbilled⟩).2

/-- Without a usage to bill by, a conversion finds none, but for the estimate. -/
theorem billed_convertResponse_none (h : response.billed = none)
    (hest : response.format = .gemini → target ≠ .gemini → est ≤ 0) :
    (convertResponse est stream target response).value.billed = none ∧
      (convertResponse est stream target response).billed = none := by
  by_cases hsame : response.format = target
  · rw [convertResponse, if_pos hsame]
    exact ⟨h, h⟩
  have hchat : (Reported.openAI (toChat est response).1).billed = none :=
    billed_toChat_none h fun hgemini => hest hgemini fun htarget => hsame (hgemini.trans htarget.symm)
  rw [value_convertResponse hsame, billed_convertResponse]
  constructor
  · split
    · exact hchat
    · exact billed_value_fromChat_none hchat stream target
  · split
    · exact h
    · exact hchat

/-- On the way from a Gemini response the estimated prompt gets into a usage that is returned: at once
when it is converted over chat to a third format, and with the next conversion when it is converted to
chat. -/
def estimateReturned : RelayFormat → List RelayFormat → Bool
  | _, [] => false
  | .gemini, .gemini :: targets => estimateReturned .gemini targets
  | .gemini, .openAI :: targets => !targets.isEmpty
  | .gemini, _ :: _ => true
  | _, target :: targets => estimateReturned target targets

theorem estimateReturned_cons {format : RelayFormat} (h : format = .gemini → target = .gemini)
    (targets : List RelayFormat) : estimateReturned format (target :: targets) = estimateReturned target targets := by
  cases format with
  | gemini => rw [h rfl, estimateReturned]
  | openAI | claude | openAIResponses => cases target <;> rfl

/-- The usage of a format of its own: which other format loses it, and that all others keep it. -/
structure Native (b : BillingUsage) (foreign : RelayFormat) : Prop where
  keeps : ∀ {est : ℤ} {stream : Bool} {target : RelayFormat} {response : Reported},
    response.billed = some b → target ≠ foreign → (convertResponse est stream target response).value.billed = some b
  loses : ∀ {est : ℤ} {stream : Bool} {response : Reported}, response.billed = some b →
    response.format ≠ foreign → NotNative (convertResponse est stream foreign response).value.billed
  read : ∀ {billed : Option BillingUsage}, NotNative billed → billed.bind readBillingUsage ≠ readBillingUsage b

/-- A usage of a format of its own is billed after a chain exactly if the chain does not go on from the
format that loses it. -/
theorem Native.billed_iff (h : Native b foreign)
    (hvalue : result.value.billed = some b) (hformat : result.value.format ≠ foreign)
    (hbilled : result.billed = some b) (targets : List RelayFormat) :
    (run (fun result target => convertResponse est stream target result.value) result
        targets).billed.bind readBillingUsage = readBillingUsage b ↔
      foreign ∉ targets.dropLast := by
  induction targets generalizing result with
  | nil =>
    rw [run_nil, hbilled, Option.bind_some]
    exact iff_of_true rfl List.not_mem_nil
  | cons target targets ih =>
    have hbilled' : (convertResponse est stream target result.value).billed = some b :=
      billed_convertResponse_some hvalue
    rw [run_cons]
    cases targets with
    | nil =>
      rw [run_nil, hbilled', Option.bind_some]
      exact iff_of_true rfl List.not_mem_nil
    | cons next rest =>
      rw [List.dropLast_cons_cons, List.mem_cons]
      by_cases htarget : target = foreign
      · subst htarget
        have hnot : NotNative (convertResponse est stream target result.value).value.billed :=
          h.loses hvalue hformat
        refine iff_of_false ?_ fun hmem => hmem (.inl rfl)
        exact h.read (notNative_convertAlong (List.cons_ne_nil next rest) hnot)
      · have hvalue' : (convertResponse est stream target result.value).value.billed = some b :=
          h.keeps hvalue htarget
        have hformat' : (convertResponse est stream target result.value).value.format ≠ foreign := by
          rw [format_convertResponse]
          exact htarget
        rw [ih hvalue' hformat' hbilled', or_iff_right (Ne.symm htarget)]

end Chains

/-! ## The upstream usages -/

def claudeBilling (usage : ClaudeUsageCounts) : BillingUsage :=
  { source := billingUsageSourceClaudeMessages, semantic := billingUsageSemanticAnthropic
    claudeUsage := some usage }

def geminiBilling (metadata : GeminiUsageCounts) : BillingUsage :=
  { source := billingUsageSourceGeminiChat, semantic := billingUsageSemanticGemini
    geminiUsageMetadata := some metadata }

variable {b : BillingUsage}

/-- An OpenAI usage is read in OpenAI's terms. -/
theorem semantic_readBillingUsage (h : b.IsOpenAI) :
    (readBillingUsage b).map (fun usage => usage.usageSemantic) = some billingUsageSemanticOpenAI := by
  obtain ⟨usage, husage⟩ := Option.isSome_iff_exists.mp h.usage
  have hfold : equalFold (trimSpace billingUsageSemanticOpenAI)
      billingUsageSemanticOpenAI = true := by decide +kernel
  simp only [readBillingUsage, h.semantic, hfold, Bool.or_true, if_true, husage, Option.map_some, Option.some_or]
  rfl

theorem semantic_of_notNative {billed : Option BillingUsage} (h : NotNative billed) :
    (billed.bind readBillingUsage).map (fun usage => usage.usageSemantic)
      ∈ [none, some billingUsageSemanticOpenAI] := by
  cases billed with
  | none => exact List.mem_cons_self
  | some b =>
    rw [Option.bind_some, semantic_readBillingUsage (h b rfl)]
    exact List.mem_cons_of_mem _ List.mem_cons_self

theorem readBillingUsage_claudeBilling (usage : ClaudeUsageCounts) :
    readBillingUsage (claudeBilling usage) = some (usageFromClaudeBillingUsage (claudeBilling usage) usage) := by
  have hfold : equalFold (trimSpace billingUsageSemanticAnthropic)
      billingUsageSemanticAnthropic = true := by decide +kernel
  simp [readBillingUsage, claudeBilling, hfold]

theorem readBillingUsage_geminiBilling (metadata : GeminiUsageCounts) :
    readBillingUsage (geminiBilling metadata)
      = some (usageFromGeminiBillingUsage (geminiBilling metadata) metadata) := by
  have hfold : equalFold (trimSpace billingUsageSemanticGemini)
      billingUsageSemanticGemini = true := by decide +kernel
  simp [readBillingUsage, geminiBilling, hfold]

/-- A chat usage that is billed as a Claude or Gemini usage has it attached. -/
theorem attached_of_billed (hb : ¬b.IsOpenAI) (h : (Reported.openAI usage).billed = some b) :
    usage.billingUsage = some b := by
  rw [billed_openAI] at h
  cases hattached : usage.billingUsage with
  | some b' =>
    rw [hattached] at h
    exact h
  | none =>
    rw [hattached] at h
    exact absurd (isOpenAI_of_new (.inl rfl) h) hb

/-- It is enough to look at the converters from chat to the two formats: the one of the usage hands on what is attached,
and the other works as if nothing was. -/
theorem native_of_fromChat {usage : Usage} {own : RelayFormat} (hb : b.openAIUsage = none)
    (hformats : own = .claude ∧ foreign = .gemini ∨ own = .gemini ∧ foreign = .claude)
    (hkeeps : ∀ (stream : Bool) (chat : Usage), chat.billingUsage = some b →
      (fromChat stream chat own).value.billed = some b)
    (hloses : ∀ (stream : Bool) (chat : Usage), chat.billingUsage = some b →
      openAIBillingUsageFromUsage chat = newOpenAIChatBillingUsage chat.toUsageCounts →
      (fromChat stream chat foreign).value = (fromChat stream { chat with billingUsage := none } foreign).value)
    (hread : readBillingUsage b = some usage)
    (hsemantic : usage.usageSemantic ≠ billingUsageSemanticOpenAI) : Native b foreign := by
  have hnot : ¬ b.IsOpenAI := fun h => by simpa [hb] using h.usage
  refine ⟨?_, ?_, ?_⟩
  · intro est stream target response hbilled htarget
    have hchat := billed_toChat_some hbilled est
    have hattached := attached_of_billed hnot hchat
    by_cases hsame : response.format = target
    · rw [convertResponse, if_pos hsame]
      exact hbilled
    · rw [value_convertResponse hsame]
      split
      · exact hchat
      · obtain ⟨rfl, rfl⟩ | ⟨rfl, rfl⟩ := hformats <;> cases target <;>
          first | exact hkeeps stream _ hattached | exact absurd rfl ‹_› |
            simp only [fromChat, billed_openAIResponses, usageFromChatUsage, cloneBillingUsage, hattached, Option.some_or]
  · intro est stream response hbilled hformat
    have hattached := attached_of_billed hnot (billed_toChat_some hbilled est)
    have hopenAI : openAIBillingUsageFromUsage (toChat est response).1 =
        newOpenAIChatBillingUsage (toChat est response).1.toUsageCounts := by
      simp [openAIBillingUsageFromUsage, cloneBillingUsage, hattached, hb]
    have hforeign : foreign ≠ .openAI := by
      obtain ⟨-, rfl⟩ | ⟨-, rfl⟩ := hformats <;> nofun
    rw [value_convertResponse hformat, if_neg hforeign, hloses stream _ hattached hopenAI]
    exact notNative_fromChat fun b hb => isOpenAI_of_new (.inl rfl) hb
  · intro billed hnative heq
    have hmem := semantic_of_notNative hnative
    rw [heq, hread, Option.map_some, List.mem_cons, List.mem_singleton] at hmem
    rcases hmem with h | h
    · exact absurd h nofun
    · exact hsemantic (Option.some.inj h)

theorem native_claudeBilling {usage : ClaudeUsageCounts} (h : hasClaudeUsageTokens usage = true) :
    Native (claudeBilling usage) .gemini := by
  refine native_of_fromChat rfl (.inl ⟨rfl, rfl⟩) (fun stream chat hattached => ?_)
    (fun stream chat hattached hopenAI => ?_) (readBillingUsage_claudeBilling usage)
    (by decide : billingUsageSemanticAnthropic ≠ billingUsageSemanticOpenAI)
  · have hclaude : chat.attachedClaudeUsage = some usage := by
      rw [Usage.attachedClaudeUsage, cloneBillingUsage, hattached]
      rfl
    simp only [fromChat, billed_claude, buildClaudeUsageFromOpenAIUsage, hclaude, Option.none_or,
      newClaudeMessagesBillingUsage, h, if_true, claudeBilling]
  · have hgemini : geminiBillingMetadataFromOpenAIUsage chat = none := by
      rw [geminiBillingMetadataFromOpenAIUsage, hattached]
      rfl
    simp only [fromChat, geminiMetadataFromOpenAIUsage, hgemini, hopenAI]
    rfl

theorem native_geminiBilling {metadata : GeminiUsageCounts}
    (h : hasGeminiUsageMetadataTokens metadata = true) : Native (geminiBilling metadata) .claude := by
  refine native_of_fromChat rfl (.inr ⟨rfl, rfl⟩) (fun stream chat hattached => ?_)
    (fun stream chat hattached hopenAI => ?_) (readBillingUsage_geminiBilling metadata)
    (by decide : billingUsageSemanticGemini ≠ billingUsageSemanticOpenAI)
  · have hgemini : geminiBillingMetadataFromOpenAIUsage chat = some metadata := by
      rw [geminiBillingMetadataFromOpenAIUsage, hattached]
      rfl
    simp only [fromChat, billed_gemini, geminiMetadataFromOpenAIUsage, hgemini, Option.none_or,
      newGeminiChatBillingUsage, h, if_true, geminiBilling]
  · have hclaude : chat.attachedClaudeUsage = none := by
      rw [Usage.attachedClaudeUsage, cloneBillingUsage, hattached]
      rfl
    simp only [fromChat, buildClaudeUsageFromOpenAIUsage, hclaude, hopenAI]
    rfl

/-- An OpenAI usage is always read. -/
theorem readBillingUsage_openAI_ne_none (h : b.IsOpenAI) : readBillingUsage b ≠ none := by
  intro hnone
  have hsemantic := semantic_readBillingUsage h
  rw [hnone] at hsemantic
  exact absurd hsemantic nofun

variable {est : ℤ} {stream : Bool}

/-- Once the estimate is attached, it is billed. -/
theorem billed_run_ne_none {result : ResponseResult}
    (hb : b.IsOpenAI) (hvalue : result.value.billed = some b) (hbilled : result.billed = some b)
    (targets : List RelayFormat) :
    (run (fun result target => convertResponse est stream target result.value) result
        targets).billed.bind readBillingUsage ≠ none := by
  rw [billed_run_openAI hb hvalue hbilled, Option.bind_some]
  exact readBillingUsage_openAI_ne_none hb

variable {response : Reported}

/-- A Gemini response without tokens, converted to another format with an estimate. -/
theorem estimate_convertResponse (hest : 0 < est) (h : response.billed = none) (hgemini : response.format = .gemini)
    {target : RelayFormat} (htarget : target ≠ .gemini) : ∃ b : BillingUsage, b.IsOpenAI ∧
      (convertResponse est stream target response).value.billed = some b ∧
        (convertResponse est stream target response).billed = if target = .openAI then none else some b := by
  cases response with
  | openAI usage | claude usage | openAIResponses usage => exact absurd hgemini nofun
  | gemini metadata =>
    obtain ⟨b, hbilled, hb⟩ := billed_toChat_estimate h hest
    refine ⟨b, hb, ?_, ?_⟩
    · rw [value_convertResponse (Ne.symm htarget)]
      split
      · exact hbilled
      · exact billed_value_fromChat_openAI hb hbilled stream target
    · rw [billed_convertResponse, hbilled, h]
      by_cases hchat : target = .openAI
      · rw [if_pos (.inr (.inr hchat)), if_pos hchat]
      · rw [if_neg hchat, if_neg]
        rintro (hsame | hsame | hsame)
        · exact htarget hsame.symm
        · exact absurd hsame nofun
        · exact hchat hsame

/-- A response without tokens is billed after a chain exactly if the chain returns an estimate. -/
theorem billed_run_none_iff (hest : 0 < est) {result : ResponseResult} (hvalue : result.value.billed = none)
    (hbilled : result.billed = none) (targets : List RelayFormat) :
    (run (fun result target => convertResponse est stream target result.value) result
        targets).billed.bind readBillingUsage = none ↔
      estimateReturned result.value.format targets = false := by
  induction targets generalizing result with
  | nil =>
    rw [run_nil, hbilled]
    exact iff_of_true rfl (by rw [estimateReturned])
  | cons target targets ih =>
    rw [run_cons]
    by_cases hformat : result.value.format = .gemini → target = .gemini
    · -- no estimate is made
      have hnone : (convertResponse est stream target result.value).value.billed = none ∧
          (convertResponse est stream target result.value).billed = none :=
        billed_convertResponse_none hvalue fun h hne => absurd (hformat h) hne
      rw [estimateReturned_cons hformat, ih hnone.1 hnone.2, format_convertResponse]
    · rw [Classical.not_imp] at hformat
      obtain ⟨b, hb, hvalue', hbilled'⟩ :=
        estimate_convertResponse hest hvalue hformat.1 hformat.2
      rw [hformat.1]
      by_cases hchat : target = .openAI
      · rw [if_pos hchat] at hbilled'
        rw [hchat] at hvalue' hbilled' ⊢
        cases targets with
        | nil =>
          rw [run_nil, hbilled']
          exact iff_of_true rfl rfl
        | cons next targets =>
          refine iff_of_false ?_ Bool.noConfusion
          rw [run_cons]
          exact billed_run_ne_none hb (value_convertResponse_openAI hb hvalue')
            (billed_convertResponse_some hvalue') targets
      · rw [if_neg hchat] at hbilled'
        refine iff_of_false (billed_run_ne_none hb hvalue' hbilled' targets) ?_
        cases target with
        | openAI => exact absurd rfl hchat
        | gemini => exact absurd rfl hformat.2
        | claude | openAIResponses => exact Bool.noConfusion

/-! ## Billing is independent of the client's format, up to the lost attachments -/

/-- What an upstream reports; it attaches nothing itself. -/
inductive Upstream
  | openAI (usage : UsageCounts)
  | claude (usage : ClaudeUsageCounts)
  | gemini (metadata : GeminiUsageCounts)
  | openAIResponses (usage : UsageCounts)
  deriving Repr, DecidableEq

def Upstream.reported : Upstream → Reported
  | .openAI usage => .openAI { usage with }
  | .claude usage => .claude { usage with }
  | .gemini metadata => .gemini { metadata with }
  | .openAIResponses usage => .openAIResponses { usage with }

def Upstream.hasTokens : Upstream → Bool
  | .openAI usage => hasOpenAIUsageTokens usage
  | .claude usage => hasClaudeUsageTokens usage
  | .gemini metadata => hasGeminiUsageMetadataTokens metadata
  | .openAIResponses usage => hasOpenAIUsageTokens usage

/-- The chain does not go on from the format that would lose the usage. -/
def Upstream.KeepsUsage : Upstream → List RelayFormat → Prop
  | .openAI _, _ => True
  | .claude _, targets => .gemini ∉ targets.dropLast
  | .gemini _, targets => .claude ∉ targets.dropLast
  | .openAIResponses _, _ => True

/-- A Claude usage is not converted on from Gemini, nor a Gemini usage from Claude; and of a response
without tokens no estimate is returned. -/
def Faithful (estimatePromptTokens : ℤ) (upstream : Upstream) (targets : List RelayFormat) : Prop :=
  if upstream.hasTokens then upstream.KeepsUsage targets
  else estimatePromptTokens ≤ 0 ∨ estimateReturned upstream.reported.format targets = false

theorem billed_convertAlong_openAI (hb : b.IsOpenAI) (h : response.billed = some b) (targets : List RelayFormat) :
    (convertAlong est stream response targets).billed = response.billed := by
  have hasIs : response.asIs.billed = some b := h
  rw [convertAlong, h]
  exact billed_run_openAI hb h hasIs targets

theorem Native.billed_convertAlong (h : Native b foreign)
    (hbilled : response.billed = some b) (hformat : response.format ≠ foreign) (targets : List RelayFormat) :
    (convertAlong est stream response targets).billed.bind readBillingUsage
        = response.billed.bind readBillingUsage ↔ foreign ∉ targets.dropLast := by
  have hasIs : response.asIs.billed = some b := hbilled
  rw [convertAlong, hbilled, Option.bind_some]
  exact h.billed_iff hbilled hformat hasIs targets

variable {upstream : Upstream}

theorem Upstream.billed_eq_none (h : upstream.hasTokens = false) : upstream.reported.billed = none := by
  cases upstream <;>
    simp_all [Upstream.hasTokens, Upstream.reported, newOpenAIChatBillingUsage,
      newOpenAIResponsesBillingUsage, newOpenAIBillingUsage, newClaudeMessagesBillingUsage,
      newGeminiChatBillingUsage]

/-- The usage of an upstream with tokens after a chain of conversions. -/
theorem Upstream.billed_iff_keepsUsage (est : ℤ) (stream : Bool)
    (h : upstream.hasTokens = true) (targets : List RelayFormat) :
    (convertAlong est stream upstream.reported targets).billed.bind readBillingUsage
        = upstream.reported.billed.bind readBillingUsage ↔ upstream.KeepsUsage targets := by
  cases upstream with
  | openAI usage =>
    have hnew : (Upstream.openAI usage).reported.billed = some _ := if_pos h
    rw [billed_convertAlong_openAI (isOpenAI_of_new (.inl rfl) hnew) hnew]
    exact iff_of_true rfl trivial
  | claude usage =>
    have hnew : (Upstream.claude usage).reported.billed = some (claudeBilling usage) := if_pos h
    exact (native_claudeBilling h).billed_convertAlong hnew nofun targets
  | gemini metadata =>
    have hnew : (Upstream.gemini metadata).reported.billed = some (geminiBilling metadata) :=
      if_pos h
    exact (native_geminiBilling h).billed_convertAlong hnew nofun targets
  | openAIResponses usage =>
    have hnew : (Upstream.openAIResponses usage).reported.billed = some _ := if_pos h
    rw [billed_convertAlong_openAI (isOpenAI_of_new (.inr rfl) hnew) hnew]
    exact iff_of_true rfl trivial

/-- The usage of an upstream without tokens: there is nothing to bill, unless the prompt is estimated. -/
theorem Upstream.billed_iff_no_estimate (est : ℤ) (stream : Bool)
    (h : upstream.hasTokens = false) (targets : List RelayFormat) :
    (convertAlong est stream upstream.reported targets).billed.bind readBillingUsage
        = upstream.reported.billed.bind readBillingUsage ↔
      est ≤ 0 ∨ estimateReturned upstream.reported.format targets = false := by
  have hnone := upstream.billed_eq_none h
  have hasIs : upstream.reported.asIs.billed = none := hnone
  rw [convertAlong, hnone]
  by_cases hest : 0 < est
  · rw [or_iff_right (Int.not_le.mpr hest)]
    exact billed_run_none_iff hest hnone hasIs targets
  · have hstep : ∀ (result : ResponseResult) (target : RelayFormat),
        result.value.billed = none ∧ result.billed = none →
          (convertResponse est stream target result.value).value.billed = none ∧
            (convertResponse est stream target result.value).billed = none :=
      fun result target hboth => billed_convertResponse_none hboth.1 fun _ _ => Int.not_lt.mp hest
    rw [(run_preserves hstep targets ⟨hnone, hasIs⟩).2]
    exact iff_of_true rfl (.inl (Int.not_lt.mp hest))

/-- The usage that quota is calculated from is the same with and without the conversions exactly if the
chain is faithful. -/
theorem billed_iff_faithful (est : ℤ) (stream : Bool) (upstream : Upstream) (targets : List RelayFormat) :
    usageFromBillingUsage (convertAlong est stream upstream.reported targets).usage
        = usageFromBillingUsage (canonicalUsageFromResponse upstream.reported) ↔
      Faithful est upstream targets := by
  rw [usageFromBillingUsage_eq, Faithful]
  have hasis : usageFromBillingUsage (canonicalUsageFromResponse upstream.reported)
      = upstream.reported.billed.bind readBillingUsage :=
    usageFromBillingUsage_eq upstream.reported.asIs
  rw [hasis]
  cases htokens : upstream.hasTokens with
  | true => exact Upstream.billed_iff_keepsUsage est stream htokens targets
  | false => exact Upstream.billed_iff_no_estimate est stream htokens targets

/-- A Claude usage, as in a message that was read partly from the cache. -/
def cachedClaudeUsage : ClaudeUsageCounts :=
  { inputTokens := 10, cacheReadInputTokens := 90, outputTokens := 5 }

/-- Converted to Gemini and on to chat it is billed as OpenAI usage, with a prompt of 100 tokens instead
of 10 beside the cached ones. -/
theorem cachedClaudeUsage_billed_as_openAI :
    usageFromBillingUsage
        (convertAlong 0 false (Upstream.claude cachedClaudeUsage).reported [.gemini, .openAI]).usage
      ≠ usageFromBillingUsage
        (canonicalUsageFromResponse (Upstream.claude cachedClaudeUsage).reported) := by
  decide +kernel

end OneApi.Tokens
