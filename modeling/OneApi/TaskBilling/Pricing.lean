import Mathlib.Data.List.AList
import OneApi.Billing.Quota
import OneApi.TaskBilling.Submit

/-!
# The price of a task

A task is priced in three places.  `ResolveOriginTask` runs once before the attempts and, for a
remix, puts the ratios of the origin task into the price data.  `ModelPriceHelperPerCall` computes
the base quota of an attempt, and `RelayTaskSubmit` puts its answer in place of the price data
before the ratios are applied.  The Sora adaptor estimates nothing for a remix, since it counts on
the ratios of the first place.

So the ratios of the origin never reach the quota: a remix costs the base quota, and that is the
price of its origin exactly when those ratios would not have moved it (`remix_priced_like_origin`).
Values are exact rationals.
-/

namespace OneApi.TaskBilling.Pricing

open OneApi.Lib OneApi.Lib.Go OneApi.Billing.Quota OneApi.TaskBilling.Submit

/-! ## Price data -/

/-- A Go map from names to ratios. -/
abbrev Ratios := AList fun _ : String => ℚ

structure PriceData where
  freeModel : Bool := false
  modelPrice : ℚ := 0
  modelRatio : ℚ := 0
  groupRatio : ℚ := 0
  usePrice : Bool := false
  quota : ℤ := 0
  otherRatios : Ratios := ∅

/-- `isValidOtherRatio`; a rational is finite. -/
def isValidOtherRatio (ratio : ℚ) : Bool := 0 < ratio

namespace PriceData

def addOtherRatio (p : PriceData) (key : String) (ratio : ℚ) : PriceData :=
  if isValidOtherRatio ratio then { p with otherRatios := p.otherRatios.insert key ratio } else p

/-- The loops that add the entries of a map. -/
def addOtherRatios (p : PriceData) (ratios : Ratios) : PriceData :=
  ratios.entries.foldl (fun p entry => p.addOtherRatio entry.1 entry.2) p

def otherRatioMultiplier (p : PriceData) : ℚ :=
  ((p.otherRatios.entries.map Sigma.snd).filter fun ratio =>
    isValidOtherRatio ratio ∧ ratio ≠ 1).prod

def applyOtherRatiosToFloat (p : PriceData) (value : ℚ) : ℚ := value * p.otherRatioMultiplier

end PriceData

/-! ## The origin of a remix -/

/-- The product of the valid ratios of a map. -/
def ratioProduct (ratios : List ℚ) : ℚ := (ratios.filter isValidOtherRatio).prod

/-- What pricing reads of an origin task: the ratios of its billing context, when it has one, and
the fields `seconds`, `size` and `model` of its data, when they are strings. -/
structure OriginTask where
  channelId : ℤ
  originModelName : String
  upstreamModelName : String
  billingContext : Option Ratios
  seconds : Option String
  size : Option String
  model : Option String

inductive Action
  | remix
  | other (name : String)
  deriving Repr, DecidableEq

def Action.text : Action → String
  | .remix => "remixGenerate"
  | .other name => name

/-- The part of `RelayInfo` that pricing reads and writes. -/
structure TaskInfo where
  platform : String
  action : Action
  originTaskID : String
  originModelName : String
  channelId : ℤ
  acceptUnsetRatioModel : Bool
  userGroup : String
  usingGroup : String
  priceData : PriceData := {}
  quotaClamp : Option QuotaClamp := none

/-- A `TaskError`; `error` is the text before `MaskSensitiveInfo`. -/
structure TaskError where
  error : String
  code : String
  statusCode : ℕ
  localError : Bool
  deriving Repr, DecidableEq

/-- `strconv.Atoi` with its error dropped: zero for what is not a number.  A number out of range is
left as it is, since it is clamped below anyway. -/
def atoi (s : String) : ℤ :=
  let number (digits : List Char) : ℤ :=
    if digits ≠ [] ∧ digits.all Char.isDigit then
      digits.foldl (fun n d => 10 * n + (d.toNat - '0'.toNat)) 0
    else 0
  match s.toList with
  | '-' :: digits => -number digits
  | '+' :: digits => number digits
  | digits => number digits

def maxTaskDurationSeconds : ℤ := 3600

/-- The duration of an origin without a billing context. -/
def originSeconds (task : OriginTask) : ℤ :=
  let seconds := atoi (task.seconds.getD "")
  let seconds := if seconds ≤ 0 then 4 else seconds
  if maxTaskDurationSeconds < seconds then maxTaskDurationSeconds else seconds

def isLargeSize (size : String) : Prop := size = "1792x1024" ∨ size = "1024x1792"

instance (size : String) : Decidable (isLargeSize size) := inferInstanceAs (Decidable (_ ∨ _))

/-- The remix part of `ResolveOriginTask`: the ratios of the origin go into the price data. -/
def addOriginRatios (p : PriceData) (task : OriginTask) : PriceData :=
  match task.billingContext with
  | some otherRatios => p.addOtherRatios otherRatios
  | none =>
    let p := (p.addOtherRatio "seconds" (originSeconds task)).addOtherRatio "size" 1
    if isLargeSize (task.size.getD "") then p.addOtherRatio "size" (1666667 / 1000000) else p

/-- The name of the model, from the origin task when the request has none. -/
def originModel (info : TaskInfo) (task : OriginTask) : String :=
  if info.originModelName ≠ "" then info.originModelName
  else if task.originModelName ≠ "" then task.originModelName
  else if task.upstreamModelName ≠ "" then task.upstreamModelName
  else task.model.getD ""

/-- What `ResolveOriginTask` meets: the path and its parameter, the origin task, its channel and,
when the request was for another channel, the next key of it. -/
structure OriginLookup where
  path : String
  videoID : String
  originTask : Except String (Option OriginTask)
  channelEnabled : Except String Bool
  nextKey : Except (String × ℕ) Unit

def isRemixPath (path : String) : Bool :=
  contains path "/v1/videos/" ∧ "/remix".toList <:+ path.toList

/-- The part of `ResolveOriginTask` after the origin task is found. -/
def resolveFound (l : OriginLookup) (info : TaskInfo) (task : OriginTask) : Except TaskError TaskInfo :=
  match l.channelEnabled with
  | .error e => .error ⟨e, "channel_not_found", 400, true⟩
  | .ok false =>
    .error ⟨"the channel of the origin task is disabled", "task_channel_disable", 400, true⟩
  | .ok true =>
    let info := { info with originModelName := originModel info task }
    match if task.channelId ≠ info.channelId then l.nextKey else .ok () with
    | .error (e, statusCode) => .error ⟨e, "channel_no_available_key", statusCode, false⟩
    | .ok () =>
      .ok { info with
        channelId := task.channelId
        priceData :=
          if info.action = .remix then addOriginRatios info.priceData task
          else info.priceData }

def resolveOriginTask (l : OriginLookup) (info : TaskInfo) : Except TaskError TaskInfo :=
  let info := if isRemixPath l.path then { info with action := .remix } else info
  if info.action = .remix ∧ trimSpace l.videoID = "" then
    .error ⟨"video_id is required", "invalid_request", 400, true⟩
  else
    let info := if info.action = .remix then { info with originTaskID := l.videoID } else info
    if info.originTaskID = "" then .ok info
    else
      match l.originTask with
      | .error e => .error ⟨e, "get_origin_task_failed", 500, false⟩
      | .ok none => .error ⟨"task_origin_not_exist", "task_not_exist", 400, true⟩
      | .ok (some task) => resolveFound l info task

/-! ## The base quota -/

/-- The settings a price is computed from. -/
structure Settings where
  modelPrice : String → Option ℚ
  defaultModelPrice : String → Option ℚ
  modelRatio : String → ℚ × Bool × String
  groupGroupRatio : String → String → Option ℚ
  groupRatio : String → ℚ
  autoGroup : Option String
  quotaPerUnit : ℚ
  enableFreeModelPreConsume : Bool
  taskPricePatches : List String
  isAdmin : Bool

inductive PriceError
  | notConfigured (modelName : String) (isAdmin : Bool)
  | clamp (c : QuotaClamp)
  deriving Repr, DecidableEq

def PriceError.message (formatG : ℚ → String) : PriceError → String
  | .notConfigured name true =>
    "模型 " ++ name ++ " 的价格未配置。请前往「系统设置 → 运营设置」开启自用模式，或在「系统设置 → 分组与模型定价设置」中为该模型配置价格；" ++
      "Model " ++ name ++ " price not configured. Go to System Settings → Operation Settings to enable self-use mode, or configure the model price in System Settings → Group & Model Pricing."
  | .notConfigured name false =>
    "模型 " ++ name ++ " 的价格尚未由管理员配置，暂时无法使用，请联系站点管理员开启该模型；" ++
      "Model " ++ name ++ " has not been priced by the administrator yet. Please contact the site administrator to enable this model."
  | .clamp c => c.message formatG

/-- `HandleGroupRatio`: the group in use and its ratio. -/
def handleGroupRatio (st : Settings) (info : TaskInfo) : String × ℚ :=
  let usingGroup := st.autoGroup.getD info.usingGroup
  (usingGroup, (st.groupGroupRatio info.userGroup usingGroup).getD (st.groupRatio usingGroup))

/-- How a model is priced: by a price, or by a ratio. -/
def modelPricing (st : Settings) (info : TaskInfo) : Except PriceError (ℚ ⊕ ℚ) :=
  match (st.modelPrice info.originModelName).or (st.defaultModelPrice info.originModelName) with
  | some modelPrice => .ok (.inl modelPrice)
  | none =>
    match st.modelRatio info.originModelName with
    | (modelRatio, success, matchName) =>
      if ¬ success ∧ ¬ info.acceptUnsetRatioModel then
        .error (.notConfigured matchName st.isAdmin)
      else .ok (.inr modelRatio)

/-- The two branches of `ModelPriceHelperPerCall` share this: `value` is the quota before it is
converted, and `free` the price or ratio that makes a model free. -/
def perCallPrice (st : Settings) (groupRatio value free : ℚ) (p : PriceData) : Except PriceError PriceData :=
  match quotaFromFloatStrict value with
  | .error c => .error (.clamp c)
  | .ok quota =>
    if ¬ st.enableFreeModelPreConsume ∧ (groupRatio = 0 ∨ free = 0) then
      .ok { p with quota := 0, freeModel := true, groupRatio }
    else .ok { p with quota, groupRatio }

/-- `ModelPriceHelperPerCall`: price data built anew, and the group it was built for. -/
def modelPriceHelperPerCall (st : Settings) (info : TaskInfo) : Except PriceError (PriceData × String) :=
  let (usingGroup, groupRatio) := handleGroupRatio st info
  match modelPricing st info with
  | .error e => .error e
  | .ok (.inl modelPrice) =>
    (perCallPrice st groupRatio (modelPrice * st.quotaPerUnit * groupRatio) modelPrice
      { modelPrice, usePrice := true }).map fun p => (p, usingGroup)
  | .ok (.inr modelRatio) =>
    (perCallPrice st groupRatio (modelRatio / 2 * st.quotaPerUnit * groupRatio) modelRatio
      { modelPrice := -1, modelRatio }).map fun p => (p, usingGroup)

/-! ## The price of an attempt -/

/-- The request of a Sora task, as far as the estimate reads it; `none` is one that cannot be
read. -/
structure SoraRequest where
  seconds : String
  duration : ℤ
  size : String

/-- `EstimateBilling` of the Sora adaptor. -/
def estimateBilling (request : Option SoraRequest) (info : TaskInfo) : Ratios :=
  if info.action = .remix then ∅
  else
    match request with
    | none => ∅
    | some req =>
      let seconds := atoi req.seconds
      let seconds := if seconds = 0 then req.duration else seconds
      let seconds := if seconds ≤ 0 then 4 else seconds
      let size := if req.size = "" then "720x1280" else req.size
      (AList.insert "size" (if isLargeSize size then 1666667 / 1000000 else 1) ∅).insert "seconds" (seconds : ℚ)

/-- Step 2 of `RelayTaskSubmit`: a task without a model is named after its action. -/
def nameModel (info : TaskInfo) : TaskInfo :=
  if info.originModelName = "" then
    { info with originModelName := info.platform.toLower ++ "_" ++ info.action.text.toLower }
  else info

/-- Steps 2 to 6 of `RelayTaskSubmit`: the base price replaces the price data, the estimate of the
adaptor is added, and the ratios are applied unless the model is patched. -/
def priceAttempt (st : Settings) (request : Option SoraRequest) (info : TaskInfo) : Except PriceError TaskInfo :=
  let info := nameModel info
  match modelPriceHelperPerCall st info with
  | .error e => .error e
  | .ok (base, usingGroup) =>
    let info := { info with priceData := base, usingGroup }
    let p := base.addOtherRatios (estimateBilling request info)
    if info.originModelName ∈ st.taskPricePatches then .ok { info with priceData := p }
    else
      let (quota, clamp) := quotaFromFloatChecked (p.applyOtherRatiosToFloat p.quota)
      .ok { info with
        priceData := { p with quota }
        quotaClamp := info.quotaClamp.or clamp }

/-- What an attempt hands to `PreConsumeBilling` and records. -/
def TaskInfo.price (formatG : ℚ → String) (info : TaskInfo) : Price :=
  ⟨info.priceData.quota, info.priceData.freeModel, info.quotaClamp.map (·.message formatG)⟩

/-! ## What the ratios come to -/

/-- The product of the ratios of an origin task. -/
def originProduct (task : OriginTask) : ℚ :=
  match task.billingContext with
  | some otherRatios => ratioProduct (otherRatios.entries.map Sigma.snd)
  | none =>
    originSeconds task * if isLargeSize (task.size.getD "") then 1666667 / 1000000 else 1

@[simp] theorem ratioProduct_nil : ratioProduct [] = 1 := rfl

@[simp] theorem ratioProduct_cons (ratio : ℚ) (ratios : List ℚ) :
    ratioProduct (ratio :: ratios) = (if isValidOtherRatio ratio then ratio else 1) * ratioProduct ratios := by
  rw [ratioProduct, ratioProduct, List.filter_cons]
  split
  · rw [List.prod_cons]
  · rw [one_mul]

theorem ratioProduct_pos (ratios : List ℚ) : 0 < ratioProduct ratios := by
  induction ratios with
  | nil => exact one_pos
  | cons ratio ratios ih =>
    rw [ratioProduct_cons]
    refine mul_pos ?_ ih
    split
    · rename_i hvalid
      exact of_decide_eq_true hvalid
    · exact one_pos

/-- Leaving out the ratios that are one changes nothing. -/
theorem otherRatioMultiplier_eq (p : PriceData) :
    p.otherRatioMultiplier = ratioProduct (p.otherRatios.entries.map Sigma.snd) := by
  rw [PriceData.otherRatioMultiplier]
  induction p.otherRatios.entries.map Sigma.snd with
  | nil => rfl
  | cons ratio ratios ih =>
    rw [ratioProduct_cons, ← ih, List.filter_cons]
    by_cases hvalid : isValidOtherRatio ratio = true
    · by_cases hone : ratio = 1
      · simp [hone]
      · simp [hvalid, hone]
    · simp [hvalid]

variable {p : PriceData}

theorem addOtherRatio_multiplier {key : String} (ratio : ℚ) (hkey : key ∉ p.otherRatios) :
    (p.addOtherRatio key ratio).otherRatioMultiplier =
      p.otherRatioMultiplier * if isValidOtherRatio ratio then ratio else 1 := by
  rw [PriceData.addOtherRatio]
  split
  · rename_i hvalid
    rw [otherRatioMultiplier_eq, otherRatioMultiplier_eq, AList.entries_insert_of_notMem hkey,
      List.map_cons, ratioProduct_cons, if_pos hvalid, mul_comm]
  · rw [mul_one]

theorem mem_addOtherRatio {key key' : String} {ratio : ℚ}
    (h : key' ∈ (p.addOtherRatio key ratio).otherRatios) : key' = key ∨ key' ∈ p.otherRatios := by
  rw [PriceData.addOtherRatio] at h
  split at h
  · exact (AList.mem_insert p.otherRatios).mp h
  · exact .inr h

/-- **Adding the entries of a map** multiplies by the product of its valid ratios. -/
theorem addOtherRatios_multiplier (p : PriceData) (ratios : Ratios) (hnew : ∀ key ∈ ratios, key ∉ p.otherRatios) :
    (p.addOtherRatios ratios).otherRatioMultiplier =
      p.otherRatioMultiplier * ratioProduct (ratios.entries.map Sigma.snd) := by
  obtain ⟨entries, hnodup⟩ := ratios
  rw [PriceData.addOtherRatios]
  have hnew' : ∀ entry ∈ entries, entry.1 ∉ p.otherRatios := fun entry hentry =>
    hnew entry.1 (AList.mem_keys.mpr (List.mem_keys_of_mem hentry))
  clear hnew
  simp only
  induction entries generalizing p with
  | nil => simp
  | cons entry entries ih =>
    obtain ⟨hfresh, htail⟩ := List.nodupKeys_cons.mp hnodup
    rw [List.foldl_cons, ih (p.addOtherRatio entry.1 entry.2) htail,
      addOtherRatio_multiplier _ (hnew' entry List.mem_cons_self), List.map_cons,
      ratioProduct_cons, mul_assoc]
    intro e he hmem
    obtain hsame | hold := mem_addOtherRatio hmem
    · exact hfresh (hsame ▸ List.mem_keys_of_mem he)
    · exact hnew' e (List.mem_cons_of_mem entry he) hold

variable (task : OriginTask)

theorem originSeconds_pos : 0 < originSeconds task := by
  rw [originSeconds]
  simp only [maxTaskDurationSeconds]
  split
  · decide
  · split <;> omega

/-- **`ResolveOriginTask` does its part**: it leaves the ratios of the origin in the price data. -/
theorem addOriginRatios_multiplier (hempty : p.otherRatios = ∅) :
    (addOriginRatios p task).otherRatioMultiplier = originProduct task := by
  have hone : p.otherRatioMultiplier = 1 := by
    rw [otherRatioMultiplier_eq, hempty]
    rfl
  rw [addOriginRatios, originProduct]
  cases task.billingContext with
  | some otherRatios =>
    simp only
    rw [addOtherRatios_multiplier p otherRatios (by simp [hempty]), hone, one_mul]
  | none =>
    have hseconds : isValidOtherRatio (originSeconds task : ℚ) = true :=
      decide_eq_true (Int.cast_pos.mpr (originSeconds_pos task))
    have hunit : isValidOtherRatio 1 = true := rfl
    have hlarge : isValidOtherRatio (1666667 / 1000000) = true := by decide +kernel
    simp only [PriceData.addOtherRatio, hseconds, hunit, hlarge, if_true, hempty]
    split
    · rw [otherRatioMultiplier_eq]
      show ratioProduct [1666667 / 1000000, (originSeconds task : ℚ)] = _
      rw [ratioProduct_cons, ratioProduct_cons, if_pos hlarge, if_pos hseconds, ratioProduct_nil, mul_one, mul_comm]
    · rw [otherRatioMultiplier_eq]
      show ratioProduct [1, (originSeconds task : ℚ)] = _
      rw [ratioProduct_cons, ratioProduct_cons, if_pos hunit, if_pos hseconds, ratioProduct_nil, mul_one, one_mul]

theorem originProduct_pos : 0 < originProduct task := by
  rw [originProduct]
  split
  · exact ratioProduct_pos _
  · refine mul_pos (Int.cast_pos.mpr (originSeconds_pos task)) ?_
    split
    · norm_num
    · exact one_pos

/-! ## The quota of a remix -/

/-- The ratios of the origin would not have moved the base quota: there is none, or their product
is at least one and adds less than one unit. -/
def RatiosIdle (base : ℤ) (product : ℚ) : Prop :=
  base = 0 ∨ (1 ≤ product ∧ |(base : ℚ)| * (product - 1) < 1)

/-- A positive factor leaves an integer as it is exactly when it is idle. -/
theorem truncate_mul_eq_iff (n : ℤ) {q : ℚ} (hq : 0 < q) : truncate (n * q) = n ↔ RatiosIdle n q := by
  rw [RatiosIdle, truncate]
  rcases lt_trichotomy n 0 with hn | rfl | hn
  · have hneg : (n : ℚ) < 0 := Int.cast_lt_zero.mpr hn
    rw [if_neg (not_le.mpr (mul_neg_of_neg_of_pos hneg hq)), Int.ceil_eq_iff, abs_of_neg hneg]
    constructor
    · rintro ⟨hlow, hhigh⟩
      refine .inr ⟨?_, by linarith⟩
      by_contra hlt
      nlinarith [not_le.mp hlt]
    · rintro (hzero | ⟨hone, hless⟩)
      · exact absurd hzero hn.ne
      · exact ⟨by linarith, by nlinarith⟩
  · simp
  · have hpos : (0 : ℚ) < n := Int.cast_pos.mpr hn
    rw [if_pos (mul_pos hpos hq).le, Int.floor_eq_iff, abs_of_pos hpos]
    constructor
    · rintro ⟨hlow, hhigh⟩
      refine .inr ⟨?_, by linarith⟩
      by_contra hlt
      nlinarith [not_le.mp hlt]
    · rintro (hzero | ⟨hone, hless⟩)
      · exact absurd hzero hn.ne'
      · exact ⟨by nlinarith, by linarith⟩

/-- A quota that was converted strictly is in range. -/
theorem quotaFromFloatStrict_range {value : ℚ} {quota : ℤ}
    (h : quotaFromFloatStrict value = .ok quota) : minQuota < quota ∧ quota < maxQuota := by
  rw [quotaFromFloatStrict, quotaFromFloatChecked, saturateQuota] at h
  by_cases hhigh : ((maxQuota : ℤ) : ℚ) ≤ value
  · simp [if_pos hhigh] at h
  by_cases hlow : value ≤ ((minQuota : ℤ) : ℚ)
  · simp [if_neg hhigh, if_pos hlow] at h
  simp only [if_neg hhigh, if_neg hlow, Except.ok.injEq] at h
  subst h
  rw [truncate]
  have hmax : (0 : ℤ) < maxQuota := by decide
  have hmin : minQuota < (0 : ℤ) := by decide
  split
  · rename_i hsign
    have hfloor := Int.floor_nonneg.mpr hsign
    exact ⟨by omega, Int.floor_lt.mpr (not_le.mp hhigh)⟩
  · rename_i hsign
    have hceil : ⌈value⌉ ≤ 0 := Int.ceil_le.mpr (by simpa using (not_le.mp hsign).le)
    exact ⟨Int.lt_ceil.mpr (not_le.mp hlow), by omega⟩

/-- A quota in range is converted to itself. -/
theorem quotaFromFloatChecked_intCast {n : ℤ} (h : minQuota < n ∧ n < maxQuota) :
    quotaFromFloatChecked (n : ℚ) = (n, none) := by
  rw [quotaFromFloatChecked, saturateQuota, if_neg, if_neg, truncate_intCast]
  · exact not_le.mpr (Int.cast_lt.mpr h.1)
  · exact not_le.mpr (Int.cast_lt.mpr h.2)

variable {st : Settings}

theorem perCallPrice_ok {groupRatio value free : ℚ} {p' : PriceData}
    (h : perCallPrice st groupRatio value free p = .ok p') :
    p'.otherRatios = p.otherRatios ∧ minQuota < p'.quota ∧ p'.quota < maxQuota := by
  rw [perCallPrice] at h
  split at h
  · cases h
  rename_i quota hquota
  have hzero : minQuota < 0 ∧ 0 < maxQuota := by decide
  split at h
  · cases h
    exact ⟨rfl, hzero⟩
  · cases h
    exact ⟨rfl, quotaFromFloatStrict_range hquota⟩

variable {info : TaskInfo} {base : PriceData} {group : String}

/-- The price data of an attempt are built anew, without ratios and with a quota in range. -/
theorem modelPriceHelperPerCall_ok (h : modelPriceHelperPerCall st info = .ok (base, group)) :
    base.otherRatios = ∅ ∧ minQuota < base.quota ∧ base.quota < maxQuota := by
  have hmap : ∀ {answer : Except PriceError PriceData} {usingGroup : String},
      answer.map (fun p => (p, usingGroup)) = .ok (base, group) → answer = .ok base := by
    intro answer usingGroup h
    cases answer with
    | error e => cases h
    | ok p => cases h; rfl
  rw [modelPriceHelperPerCall] at h
  simp only at h
  split at h
  · cases h
  · exact perCallPrice_ok (hmap h)
  · exact perCallPrice_ok (hmap h)

/-- An attempt with a base price has a price. -/
theorem priceAttempt_total (request : Option SoraRequest)
    (hbase : modelPriceHelperPerCall st (nameModel info) = .ok (base, group)) :
    ∃ info', priceAttempt st request info = .ok info' := by
  rw [priceAttempt]
  simp only [hbase]
  split
  · exact ⟨_, rfl⟩
  · exact ⟨_, rfl⟩

variable {info' : TaskInfo}

/-- **A remix is charged its base quota**, whatever the price data were before. -/
theorem priceAttempt_remix {request : Option SoraRequest} (hremix : info.action = .remix)
    (hbase : modelPriceHelperPerCall st (nameModel info) = .ok (base, group))
    (h : priceAttempt st request info = .ok info') : info'.priceData.quota = base.quota := by
  obtain ⟨hempty, hrange⟩ := modelPriceHelperPerCall_ok hbase
  have haction : (nameModel info).action = .remix := by
    rw [nameModel]
    split <;> exact hremix
  rw [priceAttempt] at h
  simp only [hbase, estimateBilling, haction, if_true] at h
  have hsame : base.addOtherRatios ∅ = base := rfl
  have hone : base.otherRatioMultiplier = 1 := by
    rw [otherRatioMultiplier_eq, hempty]
    rfl
  rw [hsame] at h
  split at h
  · cases h
    rfl
  · simp only [PriceData.applyOtherRatiosToFloat, hone, mul_one,
      quotaFromFloatChecked_intCast hrange] at h
    cases h
    rfl

theorem resolveFound_ok {l : OriginLookup} {task : OriginTask} (h : resolveFound l info task = .ok info') :
    info'.action = info.action ∧ (info.action = .remix → info'.priceData = addOriginRatios info.priceData task) := by
  rw [resolveFound] at h
  split at h
  · cases h
  · cases h
  · simp only at h
    generalize (if task.channelId ≠ info.channelId then l.nextKey else Except.ok ()) = key at h
    cases key with
    | error e => cases h
    | ok _ =>
      cases h
      exact ⟨rfl, fun hremix => if_pos hremix⟩

/-- `ResolveOriginTask` for a remix has found the origin and added its ratios. -/
theorem resolveOriginTask_remix {l : OriginLookup} {task : OriginTask}
    (htask : l.originTask = .ok (some task)) (h : resolveOriginTask l info = .ok info')
    (hremix : info'.action = .remix) : info'.priceData = addOriginRatios info.priceData task := by
  have hmarked : (if isRemixPath l.path then { info with action := .remix } else info).priceData =
      info.priceData := by
    split <;> rfl
  rw [resolveOriginTask, htask] at h
  revert h hmarked
  generalize (if isRemixPath l.path then { info with action := .remix } else info) = marked
  intro h hmarked
  simp only at h
  split at h
  · cases h
  rename_i hvideo
  by_cases haction : marked.action = .remix
  · rw [if_pos haction] at h
    have hid : l.videoID ≠ "" := by
      intro hid
      exact hvideo ⟨haction, by rw [hid]; decide⟩
    simp only [if_neg hid] at h
    rw [(resolveFound_ok h).2 haction, ← hmarked]
  · rw [if_neg haction] at h
    split at h
    · cases h
      exact absurd hremix haction
    · exact absurd ((resolveFound_ok h).1.symm.trans hremix) haction

/-- **A remix is priced like its origin exactly when the ratios of the origin are idle.**  For every
origin task, all settings and every request: `ResolveOriginTask` leaves the product of the origin's
ratios in the price data, and still the quota that is pre-consumed and recorded is the base quota
times that product if and only if the product would not have moved the base quota. -/
theorem remix_priced_like_origin (l : OriginLookup) (st : Settings) (request : Option SoraRequest)
    (formatG : ℚ → String) (info resolved priced : TaskInfo) (task : OriginTask)
    (base : PriceData) (group : String) (htask : l.originTask = .ok (some task))
    (hempty : info.priceData.otherRatios = ∅) (hresolve : resolveOriginTask l info = .ok resolved)
    (hremix : resolved.action = .remix) (hbase : modelPriceHelperPerCall st (nameModel resolved) = .ok (base, group))
    (hprice : priceAttempt st request resolved = .ok priced) :
    resolved.priceData.otherRatioMultiplier = originProduct task ∧
    (((priced.price formatG).quota = truncate (base.quota * originProduct task) ∧
        ∀ p a p' quota, a.price = some (priced.price formatG) → a.answer = some none →
          relayTaskSubmit p a = some (p', some quota) → quota = truncate (base.quota * originProduct task)) ↔
      RatiosIdle base.quota (originProduct task)) := by
  have hquota : (priced.price formatG).quota = base.quota := priceAttempt_remix hremix hbase hprice
  refine ⟨?_, ?_⟩
  · rw [resolveOriginTask_remix htask hresolve hremix]
    exact addOriginRatios_multiplier task hempty
  · rw [← truncate_mul_eq_iff base.quota (originProduct_pos task), hquota]
    constructor
    · rintro ⟨heq, -⟩
      exact heq.symm
    · intro heq
      refine ⟨heq.symm, fun p a p' quota ha hanswer h => ?_⟩
      rw [relayTaskSubmit_unadjusted ha hanswer h, hquota, heq]

/-- A remix of a Sora task whose billing context has the given ratios. -/
def sampleLookup (otherRatios : Ratios) : OriginLookup where
  path := "/v1/videos/task_1/remix"
  videoID := "task_1"
  originTask := .ok (some ⟨5, "sora-2", "", some otherRatios, none, none, none⟩)
  channelEnabled := .ok true
  nextKey := .ok ()

def sampleInfo : TaskInfo where
  platform := "sora"
  action := .other "generate"
  originTaskID := ""
  originModelName := "sora-2"
  channelId := 5
  acceptUnsetRatioModel := false
  userGroup := "default"
  usingGroup := "default"

/-- A price of a tenth of a unit, 50000 in quota. -/
def sampleSettings : Settings where
  modelPrice := fun _ => some (1 / 10)
  defaultModelPrice := fun _ => none
  modelRatio := fun name => (0, false, name)
  groupGroupRatio := fun _ _ => none
  groupRatio := fun _ => 1
  autoGroup := none
  quotaPerUnit := 500000
  enableFreeModelPreConsume := false
  taskPricePatches := []
  isAdmin := false

/-- The remix once its origin is found. -/
def sampleResolved (otherRatios : Ratios) : TaskInfo :=
  { sampleInfo with
    action := .remix
    originTaskID := "task_1"
    priceData := { otherRatios } }

def sampleBase : PriceData :=
  { modelPrice := 1 / 10, usePrice := true, quota := 50000, groupRatio := 1 }

theorem sampleBase_eq (otherRatios : Ratios) :
    modelPriceHelperPerCall sampleSettings (nameModel (sampleResolved otherRatios)) = .ok (sampleBase, "default") := by
  have hquota : quotaFromFloatStrict (1 / 10 * 500000 * 1) = .ok 50000 := by decide +kernel
  show (perCallPrice sampleSettings 1 (1 / 10 * 500000 * 1) (1 / 10)
    { modelPrice := 1 / 10, usePrice := true }).map (fun p => (p, "default")) = _
  rw [perCallPrice, hquota]
  simp only
  rw [if_neg (by norm_num)]
  rfl

/-- The origin ran for one second. -/
theorem remix_priced_like_origin_unit : ∃ priced,
    priceAttempt sampleSettings none (sampleResolved (AList.insert "seconds" 1 ∅)) = .ok priced ∧
      (priced.price fun _ => "").quota = truncate (50000 * originProduct
        ⟨5, "sora-2", "", some (AList.insert "seconds" 1 ∅), none, none, none⟩) := by
  obtain ⟨priced, hpriced⟩ := priceAttempt_total none (sampleBase_eq (AList.insert "seconds" 1 ∅))
  exact ⟨priced, hpriced, ((remix_priced_like_origin (sampleLookup (AList.insert "seconds" 1 ∅))
    sampleSettings none (fun _ => "") sampleInfo (sampleResolved (AList.insert "seconds" 1 ∅))
    priced _ sampleBase "default" rfl rfl rfl rfl (sampleBase_eq _) hpriced).2.mpr
    (.inr (by decide +kernel))).1⟩

/-- **A remix is charged the base quota only**: for an origin of 8 seconds at the large size, 50000
instead of 666666. -/
theorem remix_loses_ratios :
    (match resolveOriginTask (sampleLookup ((AList.insert "seconds" 8 ∅).insert "size"
        (1666667 / 1000000))) sampleInfo with
      | .ok resolved =>
        match priceAttempt sampleSettings none resolved with
        | .ok priced => some ((priced.price fun _ => "").quota,
            truncate (50000 * resolved.priceData.otherRatioMultiplier))
        | .error _ => none
      | .error _ => none) = some (50000, 666666) := by
  decide +kernel

end OneApi.TaskBilling.Pricing
