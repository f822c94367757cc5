import OneApi.Tokens.Convert

/-!
# The prompt total of a Claude usage

OpenAI counts cached and cache-written tokens inside the prompt tokens; Claude reports three disjoint
counts, the tokens read anew, those read from the cache and those written to it.  So the three counts
of a Claude usage made from an OpenAI usage have to add up to the prompt tokens again.

`claudeInputTokens` takes the cached tokens out only when the usage reports cache writes.  A usage with
cached tokens and no cache write counts them twice.
-/

namespace OneApi.Tokens

/-- No count of the prompt is negative, and what the cache was read for and written with is part of
the prompt. -/
structure PromptCounts (usage : Usage) : Prop where
  prompt : 0 ≤ usage.promptTokens
  cached : 0 ≤ usage.promptTokensDetails.cachedTokens
  creation : 0 ≤ usage.promptTokensDetails.cachedCreationTokens
  write : 0 ≤ usage.promptTokensDetails.cacheWriteTokens
  within : usage.promptTokensDetails.cachedTokens + usage.promptTokensDetails.cacheWriteTokens ≤ usage.promptTokens

/-- All tokens of the prompt, as Claude counts them. -/
def ClaudeUsageCounts.promptTotal (usage : ClaudeUsageCounts) : ℤ :=
  usage.inputTokens + usage.cacheReadInputTokens + usage.cacheCreationInputTokens

/-- The usage counts its cached tokens once in Claude's terms: an attached Claude usage has the prompt
tokens of the usage; without one there are cache writes and what was cached and created fits into the
prompt, or nothing was cached and nothing created. -/
def CountsOnce (usage : Usage) : Prop :=
  match usage.attachedClaudeUsage with
  | some claudeUsage => claudeUsage.promptTotal = usage.promptTokens
  | none =>
    let details := usage.promptTokensDetails
    if details.cacheWriteTokens > 0 then
      details.cachedTokens + max details.cachedCreationTokens details.cacheWriteTokens ≤ usage.promptTokens
    else details.cachedTokens = 0 ∧ details.cachedCreationTokens = 0

theorem cacheCreationTokensTotal_eq_max {details : InputTokenDetails} (h : 0 ≤ details.cachedCreationTokens) :
    details.cacheCreationTokensTotal = max details.cachedCreationTokens details.cacheWriteTokens := by
  rw [InputTokenDetails.cacheCreationTokensTotal]
  split <;> split <;> omega

/-- **Prompt total of a Claude usage.**  The three prompt counts of the Claude usage built from an
OpenAI usage add up to its prompt tokens exactly if the usage counts its cached tokens once. -/
theorem promptTotal_iff_countsOnce (usage : Usage) (h : PromptCounts usage) :
    (buildClaudeUsageFromOpenAIUsage usage).promptTotal = usage.promptTokens ↔ CountsOnce usage := by
  rw [buildClaudeUsageFromOpenAIUsage, CountsOnce]
  cases usage.attachedClaudeUsage with
  | some claudeUsage => exact Iff.rfl
  | none =>
    have htotal := cacheCreationTokensTotal_eq_max h.creation
    have hcached := h.cached
    have hcreation := h.creation
    have hwrite := h.write
    dsimp only [ClaudeUsageCounts.promptTotal]
    rw [claudeInputTokens, htotal]
    by_cases hpos : usage.promptTokensDetails.cacheWriteTokens > 0
    · -- the remainder is clamped at zero, which keeps the sum only when it is not negative
      rw [if_pos hpos, if_pos hpos]
      dsimp only
      split <;> omega
    · rw [if_neg hpos, if_neg hpos]
      omega

/-- A prompt of 100 tokens, 40 of them read from the cache. -/
def cachedPrompt : Usage :=
  { promptTokens := 100, completionTokens := 5, totalTokens := 105
    promptTokensDetails := { cachedTokens := 40 } }

/-- The cached tokens are counted as read anew, too: 140 tokens for a prompt of 100. -/
theorem cachedPrompt_counted_twice :
    PromptCounts cachedPrompt ∧
      (buildClaudeUsageFromOpenAIUsage cachedPrompt).promptTotal ≠ cachedPrompt.promptTokens :=
  ⟨⟨by decide, by decide, by decide, by decide, by decide⟩, by decide⟩

/-- A prompt of 100 tokens, 40 of them read from the cache and 10 written to it. -/
def writtenPrompt : Usage :=
  { promptTokens := 100, completionTokens := 5, totalTokens := 105
    promptTokensDetails := { cachedTokens := 40, cacheWriteTokens := 10 } }

theorem writtenPrompt_counted_once :
    (buildClaudeUsageFromOpenAIUsage writtenPrompt).promptTotal = writtenPrompt.promptTokens :=
  (promptTotal_iff_countsOnce writtenPrompt
    ⟨by decide, by decide, by decide, by decide, by decide⟩).mpr
    (show (40 : ℤ) + max 0 10 ≤ 100 by decide)

end OneApi.Tokens
