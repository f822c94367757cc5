import OneApi.Billing.TextQuota

/-!
# Tiered billing

A model can be billed by an expression over the token counts instead of ratios (`pkg/billingexpr`): the
expression gives dollars for a million tokens of each kind, and names the tier it has chosen.  The variables
`p` and `c` stand for the tokens that the expression does not price apart, so the counts it is given
depend on the variables it uses.
-/

namespace OneApi.Billing

open OneApi.Tokens OneApi.Billing.Quota

/-- The token counts an expression can name. -/
inductive TokenVar
  | p
  | c
  | len
  | cr
  | cc
  | cc1h
  | img
  | imgO
  | ai
  | ao
  deriving Repr, DecidableEq

abbrev TokenParams := TokenVar → ℚ

/-- What this code uses of the expression language, which is a library of its own: running an expression gives
its value and the tier that was matched last, or an error, and the variables it names can be asked for. -/
structure ExprLang (ε : Type*) where
  runExpr : ε → TokenParams → Option (ℚ × String)
  usedVars : ε → TokenVar → Bool

def clampZero (value : ℚ) : ℚ := if value < 0 then 0 else value

def buildTieredTokenParams (usage : UsageCounts) (isClaudeUsageSemantic : Bool) (used : TokenVar → Bool) :
    TokenParams :=
  let prompt := usage.promptTokensDetails
  let anthropic := usage.usageSemantic = "anthropic"
  let p : ℚ := usage.promptTokens
  let c : ℚ := usage.completionTokens
  let cr : ℚ := prompt.cachedTokens
  let cc5m : ℚ :=
    if anthropic then usage.claudeCacheCreation5mTokens else prompt.cacheCreationTokensTotal
  let cc1h : ℚ := if anthropic then usage.claudeCacheCreation1hTokens else 0
  let img : ℚ := prompt.imageTokens
  let ai : ℚ := prompt.audioTokens
  let imgO : ℚ := usage.completionTokenDetails.imageTokens
  let ao : ℚ := usage.completionTokenDetails.audioTokens
  -- a count is taken out of the total that holds it if the expression prices it apart
  let apart := fun (v : TokenVar) (count : ℚ) => if !isClaudeUsageSemantic && used v then count else 0
  fun
  | .p => clampZero (p - apart .cr cr - apart .cc cc5m - apart .cc1h cc1h - apart .img img - apart .ai ai)
  | .c => clampZero (c - apart .imgO imgO - apart .ao ao)
  | .len => if isClaudeUsageSemantic then p + cr + cc5m + cc1h else p
  | .cr => cr
  | .cc => cc5m
  | .cc1h => cc1h
  | .img => img
  | .imgO => imgO
  | .ai => ai
  | .ao => ao

/-- The billing rule as it was when the request started. -/
structure BillingSnapshot (ε : Type*) where
  expr : ε
  groupRatio : ℚ
  estimatedTier : String := ""
  quotaPerUnit : ℚ
  deriving Repr, DecidableEq

structure TieredResult where
  actualQuotaBeforeGroup : ℚ
  actualQuotaAfterGroup : ℤ
  matchedTier : String
  crossedTier : Bool
  clamp : Option QuotaClamp
  deriving Repr, DecidableEq

/-- The coefficients are dollars for a million tokens. -/
def quotaConversion {ε : Type*} (exprOutput : ℚ) (snap : BillingSnapshot ε) : ℚ :=
  exprOutput / 1000000 * snap.quotaPerUnit

def quotaRoundChecked (value : ℚ) : ℤ × Option QuotaClamp := saturateQuota (roundAway value) "QuotaRound"

def computeTieredQuota {ε : Type*} (lang : ExprLang ε) (snap : BillingSnapshot ε) (params : TokenParams) :
    Option TieredResult :=
  match lang.runExpr snap.expr params with
  | none => none
  | some (cost, matchedTier) =>
    let quotaBeforeGroup := quotaConversion cost snap
    let (afterGroup, clamp) := quotaRoundChecked (quotaBeforeGroup * snap.groupRatio)
    some
      { actualQuotaBeforeGroup := quotaBeforeGroup
        actualQuotaAfterGroup := afterGroup
        matchedTier := matchedTier
        crossedTier := matchedTier ≠ snap.estimatedTier
        clamp := clamp }

/-! ## Ratios as an expression -/

/-- The price of a million tokens that a ratio of the model stands for. -/
def ratioPrice (quotaPerUnit modelRatio ratio : ℚ) : ℚ := modelRatio * ratio * 1000000 / quotaPerUnit

/-- What an expression computes that prices the tokens by their ratios, in one tier. -/
structure PricesByRatio {ε : Type*} (lang : ExprLang ε) (quotaPerUnit : ℚ) (price : TextPrice) (e : ε) : Prop where
  cost : ∀ params, ∃ matched, lang.runExpr e params = some
    (params .p * ratioPrice quotaPerUnit price.modelRatio 1 +
      params .c * ratioPrice quotaPerUnit price.modelRatio price.completionRatio +
      params .cr * ratioPrice quotaPerUnit price.modelRatio price.cacheRatio +
      params .cc * ratioPrice quotaPerUnit price.modelRatio price.cacheCreationRatio +
      params .img * ratioPrice quotaPerUnit price.modelRatio price.imageRatio, matched)
  used : ∀ v, lang.usedVars e v = decide (v ∈ [.p, .c, .cr, .cc, .img])

/-- A usage in the terms of OpenAI, without a split of the cache writes and without audio, billed by ratios
alone. -/
structure PlainText (relayInfo : TextRelay) (usage : UsageCounts) : Prop where
  semantic : usageSemanticFromUsage relayInfo (some usage) ≠ "anthropic"
  noSplit5m : usage.claudeCacheCreation5mTokens = 0
  noSplit1h : usage.claudeCacheCreation1hTokens = 0
  noAudioInput : usage.promptTokensDetails.audioTokens = 0
  noAudioOutput : usage.completionTokenDetails.audioTokens = 0
  prompt : 0 ≤ usage.promptTokens
  completion : 0 ≤ usage.completionTokens
  cached : 0 ≤ usage.promptTokensDetails.cachedTokens
  image : 0 ≤ usage.promptTokensDetails.imageTokens
  some_tokens : 1 ≤ usage.promptTokens + usage.completionTokens
  modelRatio : 0 ≤ relayInfo.priceData.modelRatio
  completionRatio : 0 ≤ relayInfo.priceData.completionRatio
  cacheRatio : 0 ≤ relayInfo.priceData.cacheRatio
  cacheCreationRatio : 0 ≤ relayInfo.priceData.cacheCreationRatio
  imageRatio : 0 ≤ relayInfo.priceData.imageRatio
  groupRatio : 0 ≤ relayInfo.priceData.groupRatio
  byRatio : relayInfo.priceData.usePrice = false
  noOtherRatios : relayInfo.priceData.otherRatios = []
  noSurcharge : calculateTextToolCallSurcharge relayInfo = 0

variable {relayInfo : TextRelay} {usage : UsageCounts}

theorem cacheCreationTokensTotal_nonneg (details : InputTokenDetails) : 0 ≤ details.cacheCreationTokensTotal := by
  rw [InputTokenDetails.cacheCreationTokensTotal]
  split <;> omega

/-- The value that both ways round. -/
def plainValue (relayInfo : TextRelay) (usage : UsageCounts) : ℚ :=
  (clampZero (usage.promptTokens - usage.promptTokensDetails.cachedTokens
      - usage.promptTokensDetails.cacheCreationTokensTotal - usage.promptTokensDetails.imageTokens) +
    usage.promptTokensDetails.cachedTokens * relayInfo.priceData.cacheRatio +
    usage.promptTokensDetails.imageTokens * relayInfo.priceData.imageRatio +
    usage.promptTokensDetails.cacheCreationTokensTotal * relayInfo.priceData.cacheCreationRatio +
    usage.completionTokens * relayInfo.priceData.completionRatio) * relayInfo.priceData.ratio

namespace PlainText

variable (h : PlainText relayInfo usage)

include h

theorem usageSemantic_ne : usage.usageSemantic ≠ "anthropic" := by
  intro heq
  apply h.semantic
  rw [usageSemanticFromUsage, heq]
  rfl

theorem not_legacy : isLegacyClaudeDerivedOpenAIUsage relayInfo usage = false := by
  rw [isLegacyClaudeDerivedOpenAIUsage, h.noSplit5m, h.noSplit1h]
  simp

/-- The tokens of the prompt without what is priced apart. -/
theorem baseTokens_eq :
    baseTokens relayInfo (readUsage relayInfo usage false) false
      = clampZero (usage.promptTokens - usage.promptTokensDetails.cachedTokens
        - usage.promptTokensDetails.cacheCreationTokensTotal - usage.promptTokensDetails.imageTokens) := by
  rw [baseTokens, clampZero]
  simp only [readUsage, h.noAudioInput, Bool.or_false, Bool.false_eq_true, if_false, ite_self, sub_zero]
  norm_cast

theorem plainValue_nonneg : 0 ≤ plainValue relayInfo usage := by
  have hbase : ∀ q : ℚ, 0 ≤ clampZero q := by
    intro q
    rw [clampZero]
    split
    · exact le_refl 0
    · exact not_lt.mp (by assumption)
  have hcached : (0 : ℚ) ≤ usage.promptTokensDetails.cachedTokens := by exact_mod_cast h.cached
  have himage : (0 : ℚ) ≤ usage.promptTokensDetails.imageTokens := by exact_mod_cast h.image
  have hcreation : (0 : ℚ) ≤ usage.promptTokensDetails.cacheCreationTokensTotal := by
    exact_mod_cast cacheCreationTokensTotal_nonneg usage.promptTokensDetails
  have hcompletion : (0 : ℚ) ≤ usage.completionTokens := by exact_mod_cast h.completion
  rw [plainValue, TextPrice.ratio]
  refine mul_nonneg ?_ (mul_nonneg h.modelRatio h.groupRatio)
  exact add_nonneg (add_nonneg (add_nonneg (add_nonneg (hbase _) (mul_nonneg hcached h.cacheRatio))
    (mul_nonneg himage h.imageRatio)) (mul_nonneg hcreation h.cacheCreationRatio))
    (mul_nonneg hcompletion h.completionRatio)

theorem cachedCreation_eq :
    cachedCreationTokensWithRatio relayInfo (readUsage relayInfo usage false) false
      = usage.promptTokensDetails.cacheCreationTokensTotal * relayInfo.priceData.cacheCreationRatio := by
  rw [cachedCreationTokensWithRatio]
  simp only [readUsage, h.noSplit5m, h.noSplit1h, le_refl, and_true, Bool.or_false, Bool.false_eq_true, if_false]
  split
  next hzero => simp [hzero]
  next => rfl

theorem quotaCalculateDecimal_eq :
    quotaCalculateDecimal relayInfo (readUsage relayInfo usage false) false
      = if relayInfo.priceData.ratio ≠ 0 ∧ plainValue relayInfo usage ≤ 0 then 1 else plainValue relayInfo usage := by
  have haudio : audioInputQuota relayInfo (readUsage relayInfo usage false) = 0 := by
    rw [audioInputQuota, readUsage, h.noAudioInput]
    simp
  have hsurcharge : (readUsage relayInfo usage false).toolCallSurchargeQuota = 0 := h.noSurcharge
  rw [quotaCalculateDecimal, h.byRatio]
  simp only [Bool.not_false, if_true, h.baseTokens_eq, h.cachedCreation_eq, haudio, hsurcharge, add_zero,
    applyOtherRatiosToDecimal, h.noOtherRatios, List.foldl_nil]
  rfl

theorem quota_eq :
    (calculateTextQuotaSummary relayInfo (some usage)).quota
      = finalQuota relayInfo (usage.promptTokens + usage.completionTokens)
        (quotaFromDecimalChecked
          (if relayInfo.priceData.ratio ≠ 0 ∧ plainValue relayInfo usage ≤ 0 then 1 else plainValue relayInfo usage)).1 := by
  have hclaude : decide (usageSemanticFromUsage relayInfo (some usage) = "anthropic") = false :=
    decide_eq_false h.semantic
  have hadjust : adjustOpenRouter relayInfo usage (readUsage relayInfo usage false)
      = readUsage relayInfo usage false := by
    rw [adjustOpenRouter, if_neg]
    simp [readUsage]
  rw [calculateTextQuotaSummary]
  simp only [hclaude, Option.getD_some, hadjust, h.not_legacy, h.quotaCalculateDecimal_eq]
  rfl

end PlainText

/-- The value of the expression on the parameters of a plain usage. -/
theorem PricesByRatio.cost_plain {ε : Type*} {lang : ExprLang ε} {e : ε}
    (he : PricesByRatio lang relayInfo.quotaPerUnit relayInfo.priceData e) (h : PlainText relayInfo usage)
    (hunit : relayInfo.quotaPerUnit ≠ 0) :
    ∃ cost matched, lang.runExpr e (buildTieredTokenParams usage false (lang.usedVars e)) = some (cost, matched) ∧
      cost / 1000000 * relayInfo.quotaPerUnit * relayInfo.priceData.groupRatio = plainValue relayInfo usage := by
  have hcompletion : clampZero usage.completionTokens = usage.completionTokens := by
    rw [clampZero, if_neg]
    have hle : (0 : ℚ) ≤ usage.completionTokens := by exact_mod_cast h.completion
    exact not_lt.mpr hle
  have hp : buildTieredTokenParams usage false (lang.usedVars e) .p
      = clampZero (usage.promptTokens - usage.promptTokensDetails.cachedTokens
        - usage.promptTokensDetails.cacheCreationTokensTotal
        - usage.promptTokensDetails.imageTokens) := by
    simp [buildTieredTokenParams, he.used, h.usageSemantic_ne]
  have hc : buildTieredTokenParams usage false (lang.usedVars e) .c = usage.completionTokens := by
    simpa [buildTieredTokenParams, he.used] using hcompletion
  have hcr : buildTieredTokenParams usage false (lang.usedVars e) .cr = usage.promptTokensDetails.cachedTokens := rfl
  have hcc : buildTieredTokenParams usage false (lang.usedVars e) .cc
      = usage.promptTokensDetails.cacheCreationTokensTotal := by
    simp [buildTieredTokenParams, h.usageSemantic_ne]
  have himg : buildTieredTokenParams usage false (lang.usedVars e) .img = usage.promptTokensDetails.imageTokens := rfl
  obtain ⟨matched, hrun⟩ := he.cost (buildTieredTokenParams usage false (lang.usedVars e))
  refine ⟨_, matched, hrun, ?_⟩
  rw [hp, hc, hcr, hcc, himg, plainValue]
  simp only [ratioPrice, TextPrice.ratio]
  field_simp
  ring

theorem saturateQuota_fst (value : ℚ) (op op' : String) : (saturateQuota value op).1 = (saturateQuota value op').1 := by
  rw [saturateQuota, saturateQuota]
  split
  · rfl
  split <;> rfl

/-- **Ratios and tiers agree.**  A plain usage costs the same by the ratios and by an expression in one tier
that prices every kind of tokens by its ratio, but for the least charge of one unit. -/
theorem tiered_agrees_with_ratios {ε : Type*} (lang : ExprLang ε) (relayInfo : TextRelay) (usage : UsageCounts)
    (h : PlainText relayInfo usage) (hunit : relayInfo.quotaPerUnit ≠ 0) (e : ε)
    (he : PricesByRatio lang relayInfo.quotaPerUnit relayInfo.priceData e) (estimatedTier : String) :
    ∃ result,
      computeTieredQuota lang ⟨e, relayInfo.priceData.groupRatio, estimatedTier, relayInfo.quotaPerUnit⟩
        (buildTieredTokenParams usage false (lang.usedVars e)) = some result ∧
      |result.actualQuotaAfterGroup - (calculateTextQuotaSummary relayInfo (some usage)).quota| ≤ 1 := by
  obtain ⟨cost, matched, hrun, hcost⟩ := he.cost_plain h hunit
  rw [computeTieredQuota, hrun]
  refine ⟨_, rfl, ?_⟩
  have htiered : (quotaRoundChecked (cost / 1000000 * relayInfo.quotaPerUnit * relayInfo.priceData.groupRatio)).1
      = (quotaFromDecimalChecked (plainValue relayInfo usage)).1 := by
    rw [hcost, quotaRoundChecked, quotaFromDecimalChecked]
    exact saturateQuota_fst _ _ _
  show |(quotaRoundChecked (cost / 1000000 * relayInfo.quotaPerUnit * relayInfo.priceData.groupRatio)).1 - _| ≤ 1
  have htotal : ¬ usage.promptTokens + usage.completionTokens = 0 := by
    have := h.some_tokens
    omega
  rw [htiered, h.quota_eq, finalQuota, if_neg htotal, abs_le]
  by_cases hleast : relayInfo.priceData.ratio ≠ 0 ∧ plainValue relayInfo usage ≤ 0
  · -- nothing to charge: one unit by the ratios, none by the expression
    have hzero : plainValue relayInfo usage = 0 := le_antisymm hleast.2 h.plainValue_nonneg
    have hnone : (quotaFromDecimalChecked 0).1 = 0 := by decide +kernel
    have hone : (quotaFromDecimalChecked 1).1 = 1 := by decide +kernel
    rw [if_pos hleast, hzero, hnone, hone, if_neg fun hq => absurd hq.2 one_ne_zero]
    decide
  · rw [if_neg hleast]
    split
    next hq =>
      rw [hq.2]
      decide
    next =>
      rw [sub_self]
      decide

/-- Sums and products of variables and numbers, with a tier around them. -/
inductive BillingExpr
  | num (value : ℚ)
  | var (name : TokenVar)
  | add (e e' : BillingExpr)
  | mul (e e' : BillingExpr)
  | tier (name : String) (e : BillingExpr)
  deriving Repr, DecidableEq

namespace BillingExpr

/-- The value of an expression, and the tier that was matched last. -/
def run (params : TokenParams) : BillingExpr → String → ℚ × String
  | num value, matched => (value, matched)
  | var name, matched => (params name, matched)
  | add e e', matched =>
    let (value, matched) := e.run params matched
    let (value', matched) := e'.run params matched
    (value + value', matched)
  | mul e e', matched =>
    let (value, matched) := e.run params matched
    let (value', matched) := e'.run params matched
    (value * value', matched)
  | tier name e, matched => ((e.run params matched).1, name)

def usedVars : BillingExpr → TokenVar → Bool
  | num _, _ => false
  | var name, v => name = v
  | add e e', v => e.usedVars v || e'.usedVars v
  | mul e e', v => e.usedVars v || e'.usedVars v
  | tier _ e, v => e.usedVars v

def lang : ExprLang BillingExpr := ⟨fun e params => some (e.run params ""), usedVars⟩

end BillingExpr

/-- One tier that prices every kind of tokens by its ratio. -/
def ratioExpr (name : String) (quotaPerUnit : ℚ) (price : TextPrice) : BillingExpr :=
  let term := fun (v : TokenVar) (ratio : ℚ) =>
    BillingExpr.mul (.var v) (.num (ratioPrice quotaPerUnit price.modelRatio ratio))
  .tier name (.add (.add (.add (.add (term .p 1) (term .c price.completionRatio))
    (term .cr price.cacheRatio)) (term .cc price.cacheCreationRatio)) (term .img price.imageRatio))

theorem ratioExpr_pricesByRatio (name : String) (quotaPerUnit : ℚ) (price : TextPrice) :
    PricesByRatio BillingExpr.lang quotaPerUnit price (ratioExpr name quotaPerUnit price) where
  cost _ := ⟨name, rfl⟩
  used v := by cases v <;> rfl

/-- A prompt whose cached, written and image tokens exceed it. -/
def overlapUsage : UsageCounts :=
  { promptTokens := 100, completionTokens := 7
    promptTokensDetails := { cachedTokens := 80, cacheWriteTokens := 40, imageTokens := 5 } }

def overlapRelay : TextRelay :=
  { priceData :=
      { modelRatio := 5 / 4, completionRatio := 4, cacheRatio := 1 / 10, cacheCreationRatio := 5 / 4
        imageRatio := 2, groupRatio := 4 / 5 }
    quotaPerUnit := 500000 }

theorem overlapUsage_agrees :
    (calculateTextQuotaSummary overlapRelay (some overlapUsage)).quota = 96 ∧ ∃ result,
      computeTieredQuota BillingExpr.lang ⟨ratioExpr "base" 500000 overlapRelay.priceData, 4 / 5, "base", 500000⟩
        (buildTieredTokenParams overlapUsage false (ratioExpr "base" 500000 overlapRelay.priceData).usedVars)
          = some result ∧
      |result.actualQuotaAfterGroup - (calculateTextQuotaSummary overlapRelay (some overlapUsage)).quota| ≤ 1 :=
  ⟨by decide +kernel,
    tiered_agrees_with_ratios BillingExpr.lang overlapRelay overlapUsage
      (by constructor <;> decide +kernel) (by decide +kernel)
      (ratioExpr "base" 500000 overlapRelay.priceData) (ratioExpr_pricesByRatio "base" 500000 _) "base"⟩

/-! ## Every token once -/

def cacheSplit (usage : UsageCounts) : ℤ :=
  usage.claudeCacheCreation5mTokens + usage.claudeCacheCreation1hTokens

/-- The tokens written to a cache that a usage reports: the larger of the total and the split. -/
def cacheWritesReported (usage : UsageCounts) : ℤ :=
  max usage.promptTokensDetails.cacheCreationTokensTotal (cacheSplit usage)

/-- Of the total and the split the one that is read, by the semantic the usage names, is the larger. -/
def LargerIsRead (usage : UsageCounts) : Prop :=
  if usage.usageSemantic = "anthropic" then
    usage.promptTokensDetails.cacheCreationTokensTotal ≤ cacheSplit usage
  else cacheSplit usage ≤ usage.promptTokensDetails.cacheCreationTokensTotal

/-- The input tokens that an expression prices apart. -/
def pricedApart (params : TokenParams) (used : TokenVar → Bool) : ℚ :=
  (([.cr, .cc, .cc1h, .img, .ai].filter used).map params).sum

/-- The parameters hold every token once: the cache writes of a usage in the terms of Claude, the prompt of one
that is not. -/
structure AccountsOnce (usage : UsageCounts) (isClaude : Bool) (used : TokenVar → Bool) : Prop where
  cacheWrites : isClaude = true →
    buildTieredTokenParams usage isClaude used .cc + buildTieredTokenParams usage isClaude used .cc1h
      = cacheWritesReported usage
  len : isClaude = true → buildTieredTokenParams usage isClaude used .len
    = usage.promptTokens + usage.promptTokensDetails.cachedTokens + cacheWritesReported usage
  prompt : isClaude = false →
    buildTieredTokenParams usage isClaude used .p + pricedApart (buildTieredTokenParams usage isClaude used) used
      = max (usage.promptTokens : ℚ) (pricedApart (buildTieredTokenParams usage isClaude used) used)

theorem clampZero_sub_add (a b : ℚ) : clampZero (a - b) + b = max a b := by
  rw [clampZero]
  split
  next h => rw [zero_add, max_eq_right (by linarith)]
  next h => rw [sub_add_cancel, max_eq_left (by linarith)]

theorem pricedApart_eq (params : TokenParams) (used : TokenVar → Bool) :
    pricedApart params used = ([.cr, .cc, .cc1h, .img, .ai].map fun v => if used v then params v else 0).sum := by
  rw [pricedApart]
  induction ([.cr, .cc, .cc1h, .img, .ai] : List TokenVar) with
  | nil => rfl
  | cons v vars ih => by_cases hv : used v <;> simp [hv, ih]

theorem cacheWrites_accounted_iff (used : TokenVar → Bool) :
    buildTieredTokenParams usage true used .cc + buildTieredTokenParams usage true used .cc1h
      = cacheWritesReported usage ↔ LargerIsRead usage := by
  rw [cacheWritesReported, LargerIsRead]
  by_cases hsemantic : usage.usageSemantic = "anthropic"
  · simp only [buildTieredTokenParams, hsemantic, if_true]
    norm_cast
    rw [eq_comm, ← cacheSplit, max_eq_right_iff]
  · simp only [buildTieredTokenParams, hsemantic, if_false, add_zero]
    norm_cast
    rw [eq_comm, max_eq_left_iff]

/-- What is priced apart is taken out of the prompt once. -/
theorem prompt_accounted (used : TokenVar → Bool) :
    buildTieredTokenParams usage false used .p + pricedApart (buildTieredTokenParams usage false used) used
      = max (usage.promptTokens : ℚ) (pricedApart (buildTieredTokenParams usage false used) used) := by
  rw [← clampZero_sub_add, pricedApart_eq]
  simp only [buildTieredTokenParams, Bool.not_false, Bool.true_and, List.map_cons, List.map_nil,
    List.sum_cons, List.sum_nil]
  ring_nf

/-- **Every token once.**  A usage that is not in the terms of Claude is always accounted for once; one that is,
exactly if of its cache writes the larger count is the one that is read. -/
theorem tokens_accounted_once_iff (usage : UsageCounts) (isClaude : Bool) :
    (∀ used, AccountsOnce usage isClaude used) ↔ (isClaude = true → LargerIsRead usage) := by
  cases isClaude with
  | false =>
    refine iff_of_true (fun used => ⟨?_, ?_, fun _ => prompt_accounted used⟩) ?_
    all_goals
      intro hclaude
      cases hclaude
  | true =>
    constructor
    · intro h _
      exact (cacheWrites_accounted_iff fun _ => false).mp ((h _).cacheWrites rfl)
    · intro hread used
      have hwrites := (cacheWrites_accounted_iff used).mpr (hread rfl)
      refine ⟨fun _ => hwrites, fun _ => ?_, fun hclaude => nomatch hclaude⟩
      rw [← hwrites]
      simp only [buildTieredTokenParams, if_true]
      ring

/-- A usage of Claude that reports its cache writes as a total only. -/
def totalOnlyUsage : UsageCounts :=
  { promptTokens := 10, usageSemantic := "anthropic"
    promptTokensDetails := { cachedTokens := 20, cachedCreationTokens := 100 } }

theorem totalOnly_lost :
    cacheWritesReported totalOnlyUsage = 100 ∧
      buildTieredTokenParams totalOnlyUsage true (fun _ => true) .cc
        + buildTieredTokenParams totalOnlyUsage true (fun _ => true) .cc1h = 0 ∧
      buildTieredTokenParams totalOnlyUsage true (fun _ => true) .len = 30 := by
  decide +kernel

end OneApi.Billing
