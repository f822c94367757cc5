import OneApi.Lib.Run
import Mathlib.Algebra.Order.BigOperators.Group.List
import Mathlib.Algebra.Order.Group.Nat
import Mathlib.Algebra.Order.Ring.Int
import Mathlib.Data.List.AList

/-!
# The batch updater

With batch updates enabled, a change of a quota is not written at once: `addNewRecord` adds it to a
map in memory, one map for each type of change, and `batchUpdate` writes the maps out from time to
time.  A run of `batchUpdate` looks for a map that is not empty, takes the maps away one by one, each
under its own lock, and then makes one update for each token, channel and user it has a change for,
in no particular order.  Records come in between any two of these steps.

What a map holds is in the database, or still in memory, or in the hands of the run, until an update
fails: then the run logs the error and goes on without the change.  So after a last run without
failures the database has all that was recorded for a row exactly when the changes that failed updates
carried for it sum to zero (`stored_iff_nothing_lost`).
-/

namespace OneApi.Billing.BatchUpdater

open OneApi.Lib.Run Function

/-! ## The stores and the tables -/

/-- `BatchUpdateType*`. -/
inductive BatchUpdateType
  | userQuota
  | tokenQuota
  | usedQuota
  | channelUsedQuota
  | requestCount
  deriving Repr, DecidableEq

/-- The types in the order of their numbers. -/
def BatchUpdateType.all : List BatchUpdateType :=
  [.userQuota, .tokenQuota, .usedQuota, .channelUsedQuota, .requestCount]

theorem BatchUpdateType.mem_all (type : BatchUpdateType) : type ∈ all := by
  cases type <;> decide

/-- A `map[int]int`. -/
abbrev Deltas := AList fun _ : ℤ => ℤ

/-- `m[id]`, which is zero for a key that is not there. -/
def deltaOf (m : Deltas) (id : ℤ) : ℤ := (m.lookup id).getD 0

/-- One map for each type. -/
abbrev Stores := BatchUpdateType → Deltas

/-- What `addNewRecord` does to the map of its type. -/
def addRecord (m : Deltas) (id value : ℤ) : Deltas :=
  match m.lookup id with
  | none => m.insert id value
  | some old => m.insert id (old + value)

structure UserRow where
  quota : ℤ
  usedQuota : ℤ
  requestCount : ℤ
  deriving Repr, DecidableEq

structure TokenRow where
  remainQuota : ℤ
  usedQuota : ℤ
  deriving Repr, DecidableEq

/-- The rows the updates write; of a channel, its used quota. -/
structure Tables where
  users : ℤ → Option UserRow
  tokens : ℤ → Option TokenRow
  channels : ℤ → Option ℤ

/-- `UPDATE .. WHERE id = ?`, which is no error when there is no such row. -/
def updateRow {ρ : Type} (rows : ℤ → Option ρ) (id : ℤ) (f : ρ → ρ) : ℤ → Option ρ :=
  fun k => if k = id then (rows k).map f else rows k

def increaseTokenQuota (ok : Bool) (db : Tables) (id quota : ℤ) : Tables :=
  if ok then
    { db with tokens := updateRow db.tokens id fun t =>
        ⟨t.remainQuota + quota, t.usedQuota - quota⟩ }
  else db

def updateChannelUsedQuota (ok : Bool) (db : Tables) (id quota : ℤ) : Tables :=
  if ok then { db with channels := updateRow db.channels id (· + quota) } else db

def updateUserQuotaUsedQuotaAndRequestCount (ok : Bool) (db : Tables) (id quota usedQuota requestCount : ℤ) : Tables :=
  if quota = 0 ∧ usedQuota = 0 ∧ requestCount = 0 then db
  else if ok then
    { db with users := updateRow db.users id fun u =>
        ⟨u.quota + quota, u.usedQuota + usedQuota, u.requestCount + requestCount⟩ }
  else db

/-- The column a type of change is for. -/
def Tables.stored (db : Tables) (type : BatchUpdateType) (id : ℤ) : Option ℤ :=
  match type with
  | .userQuota => (db.users id).map UserRow.quota
  | .tokenQuota => (db.tokens id).map TokenRow.remainQuota
  | .usedQuota => (db.users id).map UserRow.usedQuota
  | .channelUsedQuota => db.channels id
  | .requestCount => (db.users id).map UserRow.requestCount

/-! ## A run of `batchUpdate` -/

/-- The types whose maps the next update of a run reads: the loop over the tokens comes first, then
that over the channels, then that over the users. -/
def nextTypes (stores : Stores) : List BatchUpdateType :=
  if (stores .tokenQuota).keys ≠ [] then [.tokenQuota]
  else if (stores .channelUsedQuota).keys ≠ [] then [.channelUsedQuota]
  else [.userQuota, .usedQuota, .requestCount]

/-- The next update, for the key `id`. -/
def flush (ok : Bool) (db : Tables) (stores : Stores) (id : ℤ) : Tables :=
  if (stores .tokenQuota).keys ≠ [] then
    increaseTokenQuota ok db id (deltaOf (stores .tokenQuota) id)
  else if (stores .channelUsedQuota).keys ≠ [] then
    updateChannelUsedQuota ok db id (deltaOf (stores .channelUsedQuota) id)
  else
    updateUserQuotaUsedQuotaAndRequestCount ok db id (deltaOf (stores .userQuota) id)
      (deltaOf (stores .usedQuota) id) (deltaOf (stores .requestCount) id)

/-- What a run has still to write once it has been at the key `id`. -/
def without (stores : Stores) (id : ℤ) : Stores :=
  fun type => if type ∈ nextTypes stores then (stores type).erase id else stores type

/-- Where the run stands: looking for a map that is not empty, taking the maps away, or writing. -/
inductive Phase
  | idle
  | checking (rest : List BatchUpdateType)
  | taking (rest : List BatchUpdateType) (stores : Stores)
  | updating (stores : Stores)

/-- What the run has taken. -/
def Phase.taken : Phase → Stores
  | .taking _ stores => stores
  | .updating stores => stores
  | _ => fun _ => ∅

structure State where
  stores : Stores
  db : Tables
  phase : Phase

def initial (db : Tables) : State := ⟨fun _ => ∅, db, .idle⟩

/-- A record, the start of a run, its next step under a lock or its end, and its update for a key,
which may fail. -/
inductive Action
  | addNewRecord (type : BatchUpdateType) (id value : ℤ)
  | start
  | next
  | update (id : ℤ) (ok : Bool)
  deriving Repr, DecidableEq

def addNewRecord (stores : Stores) (type : BatchUpdateType) (id value : ℤ) : Stores :=
  update stores type (addRecord (stores type) id value)

/-- The steps of `batchUpdate` but its updates. -/
def next (s : State) : State :=
  match s.phase with
  | .idle => s
  | .checking [] => { s with phase := .idle }
  | .checking (type :: rest) =>
    if (s.stores type).keys ≠ [] then
      { s with phase := .taking BatchUpdateType.all fun _ => ∅ }
    else { s with phase := .checking rest }
  | .taking [] stores => { s with phase := .updating stores }
  | .taking (type :: rest) stores =>
    { s with
      stores := update s.stores type ∅
      phase := .taking rest (update stores type (s.stores type)) }
  | .updating stores =>
    if ∀ type ∈ BatchUpdateType.all, (stores type).keys = [] then { s with phase := .idle } else s

/-- One step.  A key is updated while it is still to be written in the loop the run is in. -/
def step (s : State) : Action → State
  | .addNewRecord type id value => { s with stores := addNewRecord s.stores type id value }
  | .start =>
    match s.phase with
    | .idle => { s with phase := .checking BatchUpdateType.all }
    | _ => s
  | .next => next s
  | .update id ok =>
    match s.phase with
    | .updating stores =>
      if ∃ type ∈ nextTypes stores, id ∈ stores type then
        { s with db := flush ok s.db stores id, phase := .updating (without stores id) }
      else s
    | _ => s

/-! ## What one step does to one column -/

theorem deltaOf_of_notMem {m : Deltas} {id : ℤ} (h : id ∉ m) : deltaOf m id = 0 := by
  rw [deltaOf, AList.lookup_eq_none.mpr h]
  rfl

theorem deltaOf_of_keys_nil {m : Deltas} (h : m.keys = []) (id : ℤ) : deltaOf m id = 0 := by
  refine deltaOf_of_notMem fun hmem => ?_
  rw [AList.mem_keys, h] at hmem
  cases hmem

theorem deltaOf_empty (id : ℤ) : deltaOf ∅ id = 0 := rfl

theorem deltaOf_erase (m : Deltas) (id k : ℤ) : deltaOf (m.erase id) k = if k = id then 0 else deltaOf m k := by
  rw [deltaOf, deltaOf]
  split
  · rename_i hk
    rw [hk, AList.lookup_erase]
    rfl
  · rename_i hk
    rw [AList.lookup_erase_ne hk]

theorem deltaOf_addRecord (m : Deltas) (id value k : ℤ) :
    deltaOf (addRecord m id value) k = deltaOf m k + if k = id then value else 0 := by
  rw [addRecord, deltaOf, deltaOf]
  by_cases hk : k = id
  · subst hk
    rw [if_pos rfl]
    split
    · rename_i hnone
      rw [AList.lookup_insert, hnone]
      exact (zero_add value).symm
    · rename_i old hold
      rw [AList.lookup_insert, hold]
      rfl
  · rw [if_neg hk, add_zero]
    split
    · rw [AList.lookup_insert_ne hk]
    · rw [AList.lookup_insert_ne hk]

theorem deltaOf_addNewRecord (stores : Stores) (type type' : BatchUpdateType) (id value k : ℤ) :
    deltaOf (addNewRecord stores type id value type') k =
      deltaOf (stores type') k + if type = type' ∧ id = k then value else 0 := by
  rw [addNewRecord]
  by_cases htype : type' = type
  · subst htype
    rw [update_self, deltaOf_addRecord]
    simp only [true_and, eq_comm]
  · rw [update_of_ne htype, if_neg fun h => htype h.1.symm, add_zero]

theorem updateRow_map {ρ : Type} {rows : ℤ → Option ρ} {f : ρ → ρ} {column : ρ → ℤ} {delta : ℤ}
    (hf : ∀ r, column (f r) = column r + delta) (id k : ℤ) :
    (updateRow rows id f k).map column =
      if k = id then ((rows k).map column).map (· + delta) else (rows k).map column := by
  rw [updateRow]
  split
  · rw [Option.map_map, Option.map_map]
    exact congrArg (Option.map · (rows k)) (funext hf)
  · rfl

variable (db : Tables)

theorem increaseTokenQuota_stored (id quota : ℤ) (type : BatchUpdateType) (k : ℤ) :
    (increaseTokenQuota true db id quota).stored type k =
      if type = .tokenQuota ∧ k = id then (db.stored type k).map (· + quota)
      else db.stored type k := by
  cases type with
  | tokenQuota =>
    simp only [true_and]
    exact updateRow_map (fun _ => rfl) id k
  | userQuota | usedQuota | channelUsedQuota | requestCount => rfl

theorem updateChannelUsedQuota_stored (id quota : ℤ) (type : BatchUpdateType) (k : ℤ) :
    (updateChannelUsedQuota true db id quota).stored type k =
      if type = .channelUsedQuota ∧ k = id then (db.stored type k).map (· + quota)
      else db.stored type k := by
  cases type with
  | channelUsedQuota =>
    simp only [true_and]
    rfl
  | userQuota | tokenQuota | usedQuota | requestCount => rfl

/-- The update of a user writes three columns; with nothing to add to any of them it is left out. -/
theorem updateUser_stored (id : ℤ) (delta : BatchUpdateType → ℤ) (type : BatchUpdateType) (k : ℤ) :
    (updateUserQuotaUsedQuotaAndRequestCount true db id (delta .userQuota) (delta .usedQuota)
        (delta .requestCount)).stored type k =
      if type ∈ [BatchUpdateType.userQuota, .usedQuota, .requestCount] ∧ k = id then
        (db.stored type k).map (· + delta type)
      else db.stored type k := by
  rw [updateUserQuotaUsedQuotaAndRequestCount]
  split
  · rename_i hzero
    have hsame : ∀ v : Option ℤ, v.map (· + 0) = v := fun v => by simp
    cases type with
    | userQuota => rw [hzero.1, hsame, ite_self]
    | usedQuota => rw [hzero.2.1, hsame, ite_self]
    | requestCount => rw [hzero.2.2, hsame, ite_self]
    | tokenQuota | channelUsedQuota => rfl
  · simp only [if_true]
    cases type with
    | userQuota =>
      simp only [List.mem_cons, true_or, true_and]
      exact updateRow_map (fun _ => rfl) id k
    | usedQuota | requestCount =>
      simp only [List.mem_cons, true_or, or_true, true_and]
      exact updateRow_map (fun _ => rfl) id k
    | tokenQuota | channelUsedQuota => rfl

/-- An update that fails writes nothing. -/
theorem flush_failed (stores : Stores) (id : ℤ) : flush false db stores id = db := by
  rw [flush, increaseTokenQuota, updateChannelUsedQuota, updateUserQuotaUsedQuotaAndRequestCount]
  simp only [Bool.false_eq_true, if_false, ite_self]

/-- An update writes the change of its key to the columns of its types. -/
theorem flush_stored (stores : Stores) (id : ℤ) (type : BatchUpdateType) (k : ℤ) :
    (flush true db stores id).stored type k =
      if type ∈ nextTypes stores ∧ k = id then
        (db.stored type k).map (· + deltaOf (stores type) id)
      else db.stored type k := by
  rw [flush, nextTypes]
  split
  · rw [increaseTokenQuota_stored]
    simp only [List.mem_singleton]
    split
    · rename_i h
      rw [h.1]
    · rfl
  split
  · rw [updateChannelUsedQuota_stored]
    simp only [List.mem_singleton]
    split
    · rename_i h
      rw [h.1]
    · rfl
  · exact updateUser_stored db id (fun type => deltaOf (stores type) id) type k

theorem without_deltaOf (stores : Stores) (id : ℤ) (type : BatchUpdateType) (k : ℤ) :
    deltaOf (without stores id type) k =
      if type ∈ nextTypes stores ∧ k = id then 0 else deltaOf (stores type) k := by
  rw [without]
  by_cases htype : type ∈ nextTypes stores
  · rw [if_pos htype, deltaOf_erase]
    simp only [htype, true_and]
  · rw [if_neg htype, if_neg fun h => htype h.1]

/-! ## Nothing is lost but what failed updates carry -/

section Column

variable (type : BatchUpdateType) (id : ℤ)

/-- What an action records for a row. -/
def recordedBy : Action → ℤ
  | .addNewRecord type' id' value => if type' = type ∧ id' = id then value else 0
  | _ => 0

/-- What an action loses of a row: the change in the hands of the run when its update fails. -/
def lostBy (s : State) : Action → ℤ
  | .update k false =>
    match s.phase with
    | .updating stores =>
      if type ∈ nextTypes stores ∧ id = k then deltaOf (stores type) id else 0
    | _ => 0
  | _ => 0

/-- What is known of a row: the column, what memory holds for it and what the run has taken. -/
def known (s : State) : ℤ :=
  (s.db.stored type id).getD 0 + deltaOf (s.stores type) id + deltaOf (s.phase.taken type) id

/-- The row is there. -/
def Present (s : State) : Prop := (s.db.stored type id).isSome

variable {type id}

variable {s s' : State} {a : Action}

/-- What a step can do. -/
inductive Steps : State → Action → State → Prop
  | record (m : Stores) (db : Tables) (phase : Phase) (type : BatchUpdateType) (id value : ℤ) :
    Steps ⟨m, db, phase⟩ (.addNewRecord type id value) ⟨addNewRecord m type id value, db, phase⟩
  | nothing (s : State) (a : Action) (h : ∀ type id, recordedBy type id a = 0 ∧ lostBy type id s a = 0) :
    Steps s a s
  | start (m : Stores) (db : Tables) :
    Steps ⟨m, db, .idle⟩ .start ⟨m, db, .checking BatchUpdateType.all⟩
  | allEmpty (m : Stores) (db : Tables) : Steps ⟨m, db, .checking []⟩ .next ⟨m, db, .idle⟩
  | found (m : Stores) (db : Tables) (type : BatchUpdateType) (rest : List BatchUpdateType) :
    Steps ⟨m, db, .checking (type :: rest)⟩ .next ⟨m, db, .taking BatchUpdateType.all fun _ => ∅⟩
  | passed (m : Stores) (db : Tables) (type : BatchUpdateType) (rest : List BatchUpdateType)
    (h : (m type).keys = []) : Steps ⟨m, db, .checking (type :: rest)⟩ .next ⟨m, db, .checking rest⟩
  | taken (m : Stores) (db : Tables) (stores : Stores) :
    Steps ⟨m, db, .taking [] stores⟩ .next ⟨m, db, .updating stores⟩
  | takes (m : Stores) (db : Tables) (type : BatchUpdateType) (rest : List BatchUpdateType)
    (stores : Stores) : Steps ⟨m, db, .taking (type :: rest) stores⟩ .next
      ⟨update m type ∅, db, .taking rest (update stores type (m type))⟩
  | ends (m : Stores) (db : Tables) (stores : Stores)
    (h : ∀ type ∈ BatchUpdateType.all, (stores type).keys = []) :
    Steps ⟨m, db, .updating stores⟩ .next ⟨m, db, .idle⟩
  | updates (m : Stores) (db : Tables) (stores : Stores) (k : ℤ) (ok : Bool) :
    Steps ⟨m, db, .updating stores⟩ (.update k ok) ⟨m, flush ok db stores k, .updating (without stores k)⟩

theorem steps_step : Steps s a (step s a) := by
  obtain ⟨m, db, phase⟩ := s
  cases a with
  | addNewRecord type id value => exact .record m db phase type id value
  | start =>
    cases phase with
    | idle => exact .start m db
    | checking rest | taking rest stores | updating stores => exact .nothing _ _ fun _ _ => ⟨rfl, rfl⟩
  | next =>
    show Steps _ _ (next _)
    rw [next]
    cases phase with
    | idle => exact .nothing _ _ fun _ _ => ⟨rfl, rfl⟩
    | checking rest =>
      cases rest with
      | nil => exact .allEmpty m db
      | cons type rest =>
        simp only
        split
        · exact .found m db type rest
        · rename_i hempty
          exact .passed m db type rest (not_not.mp hempty)
    | taking rest stores =>
      cases rest with
      | nil => exact .taken m db stores
      | cons type rest => exact .takes m db type rest stores
    | updating stores =>
      simp only
      split
      · rename_i hempty
        exact .ends m db stores hempty
      · exact .nothing _ _ fun _ _ => ⟨rfl, rfl⟩
  | update k ok =>
    rw [step]
    cases phase with
    | idle | checking rest | taking rest stores =>
      exact .nothing _ _ fun _ _ => ⟨rfl, by cases ok <;> rfl⟩
    | updating stores =>
      simp only
      split
      · exact .updates m db stores k ok
      · rename_i hkey
        refine .nothing _ _ fun type id => ⟨rfl, ?_⟩
        cases ok with
        | true => rfl
        | false =>
          refine ite_eq_right_iff.mpr fun hhit => ?_
          exact deltaOf_of_notMem fun hmem => hkey ⟨type, hhit.1, hhit.2 ▸ hmem⟩

theorem Steps.present (hs : Steps s a s') (h : Present type id s) : Present type id s' := by
  cases hs with
  | record | nothing | start | allEmpty | found | passed | taken | takes | ends => exact h
  | updates m db stores k ok =>
    rw [Present]
    cases ok with
    | false =>
      rw [flush_failed]
      exact h
    | true =>
      rw [flush_stored]
      split
      · rw [Option.isSome_map]
        exact h
      · exact h

/-- A map is taken once: those still to be taken are not yet in the hands of the run. -/
def TakesOnce (s : State) : Prop :=
  ∀ rest stores, s.phase = .taking rest stores → rest.Nodup ∧ ∀ type ∈ rest, stores type = ∅

theorem Steps.takesOnce (hs : Steps s a s') (h : TakesOnce s) : TakesOnce s' := by
  intro rest stores hphase
  cases hs with
  | record | nothing => exact h rest stores hphase
  | start | allEmpty | passed | taken | ends | updates => cases hphase
  | found =>
    cases hphase
    exact ⟨by decide, fun _ _ => rfl⟩
  | takes m db type' rest' stores' =>
    obtain ⟨hnodup, hempty⟩ := h _ _ rfl
    cases hphase
    refine ⟨(List.nodup_cons.mp hnodup).2, fun type htype => ?_⟩
    have hne : type ≠ type' := fun heq => (List.nodup_cons.mp hnodup).1 (heq ▸ htype)
    rw [update_of_ne hne]
    exact hempty type (List.mem_cons_of_mem type' htype)

/-- **One step**: a row gains what is recorded for it and loses what a failed update carries. -/
theorem Steps.known (hs : Steps s a s') (h : Present type id s ∧ TakesOnce s) :
    known type id s' + lostBy type id s a = known type id s + recordedBy type id a := by
  cases hs with
  | record m db phase type' id' value =>
    simp only [BatchUpdater.known, recordedBy, lostBy, deltaOf_addNewRecord]
    omega
  | nothing s a hquiet => rw [(hquiet type id).1, (hquiet type id).2]
  | start | allEmpty | found | passed | taken => rfl
  | takes m db type' rest stores =>
    -- the changes move from memory to the hands of the run
    have hempty := (h.2 _ _ rfl).2 type' List.mem_cons_self
    simp only [BatchUpdater.known, recordedBy, lostBy, Phase.taken]
    by_cases htype : type = type'
    · subst htype
      rw [update_self, update_self, hempty, deltaOf_empty]
      omega
    · rw [update_of_ne htype, update_of_ne htype]
  | ends m db stores hempty =>
    simp only [BatchUpdater.known, recordedBy, lostBy, Phase.taken, deltaOf_empty,
      deltaOf_of_keys_nil (hempty type type.mem_all)]
  | updates m db stores k ok =>
    -- a change moves from the hands of the run to the column, or is lost
    obtain ⟨value, hvalue⟩ := Option.isSome_iff_exists.mp h.1
    simp only at hvalue
    cases ok with
    | true =>
      simp only [BatchUpdater.known, recordedBy, lostBy, Phase.taken, without_deltaOf, flush_stored, hvalue]
      split
      · rename_i hhit
        rw [Option.map_some, Option.getD_some, Option.getD_some, hhit.2]
        omega
      · rfl
    | false =>
      simp only [BatchUpdater.known, recordedBy, lostBy, Phase.taken, without_deltaOf, flush_failed]
      split <;> omega

end Column

/-! ## Whole runs -/

/-- A step of `batchUpdate` that does not fail. -/
def Action.succeeds : Action → Bool
  | .next => true
  | .update _ ok => ok
  | _ => false

/-- What a run that meets no record has emptied so far. -/
def Emptied (s : State) : Prop :=
  match s.phase with
  | .checking rest => ∀ type, type ∉ rest → (s.stores type).keys = []
  | .taking rest _ => ∀ type, type ∉ rest → (s.stores type).keys = []
  | _ => ∀ type, (s.stores type).keys = []

variable {s s' : State}

theorem Steps.emptied {a : Action} (hs : Steps s a s') (ha : a.succeeds = true) (h : Emptied s) : Emptied s' := by
  cases hs with
  | record | start => cases ha
  | nothing | ends | updates => exact h
  | allEmpty | taken => exact fun type => h type List.not_mem_nil
  | found => exact fun type htype => (htype type.mem_all).elim
  | passed m db type' rest hempty =>
    intro type htype
    by_cases heq : type = type'
    · rw [heq]
      exact hempty
    · exact h type (List.not_mem_cons_of_ne_of_not_mem heq htype)
  | takes m db type' rest stores =>
    intro type htype
    by_cases heq : type = type'
    · rw [heq]
      simp only [update_self]
      rfl
    · simp only [update_of_ne heq]
      exact h type (List.not_mem_cons_of_ne_of_not_mem heq htype)

/-! ## A run ends -/

/-- From here a run that does not fail can be brought to its end. -/
def Ends (s : State) : Prop :=
  ∃ final : List Action, (∀ a ∈ final, a.succeeds = true) ∧ (run step s final).phase = .idle

theorem Ends.cons {a : Action} (ha : a.succeeds = true) (h : Ends (step s a)) : Ends s := by
  obtain ⟨final, hfinal, hidle⟩ := h
  exact ⟨a :: final, List.forall_mem_cons.mpr ⟨ha, hfinal⟩, hidle⟩

/-- The keys a run has still to write. -/
def keysLeft (stores : Stores) : ℕ := (BatchUpdateType.all.map fun type => (stores type).keys.length).sum

variable {stores : Stores}

theorem keysLeft_without {type : BatchUpdateType} {id : ℤ} (htype : type ∈ nextTypes stores) (hid : id ∈ stores type) :
    keysLeft (without stores id) < keysLeft stores := by
  refine List.sum_lt_sum _ _ (fun type' _ => ?_) ⟨type, type.mem_all, ?_⟩
  · rw [without]
    split
    · rw [AList.keys_erase]
      exact List.length_erase_le
    · exact le_rfl
  · rw [without, if_pos htype, AList.keys_erase, List.length_erase_of_mem hid]
    exact Nat.sub_lt (List.length_pos_of_mem hid) Nat.one_pos

/-- While a key is left, there is one in the loop the run is in. -/
theorem exists_next {type : BatchUpdateType} (h : (stores type).keys ≠ []) :
    ∃ type' ∈ nextTypes stores, (stores type').keys ≠ [] := by
  rw [nextTypes]
  split
  · rename_i htoken
    exact ⟨.tokenQuota, List.mem_singleton_self _, htoken⟩
  rename_i htoken
  split
  · rename_i hchannel
    exact ⟨.channelUsedQuota, List.mem_singleton_self _, hchannel⟩
  rename_i hchannel
  refine ⟨type, ?_, h⟩
  cases type with
  | tokenQuota => exact (htoken h).elim
  | channelUsedQuota => exact (hchannel h).elim
  | userQuota | usedQuota | requestCount => decide

theorem updating_ends (hphase : s.phase = .updating stores) : Ends s := by
  induction hn : keysLeft stores using Nat.strong_induction_on generalizing s stores with
  | _ n ih =>
    by_cases hdone : ∀ type ∈ BatchUpdateType.all, (stores type).keys = []
    · refine Ends.cons (a := .next) rfl ⟨[], by simp, ?_⟩
      show (next s).phase = .idle
      rw [next, hphase]
      simp only [if_pos hdone]
    · simp only [not_forall] at hdone
      obtain ⟨type, -, hkeys⟩ := hdone
      obtain ⟨type', htype, hne⟩ := exists_next hkeys
      obtain ⟨id, hid⟩ := List.exists_mem_of_ne_nil _ hne
      have hkey : ∃ type ∈ nextTypes stores, id ∈ stores type := ⟨type', htype, hid⟩
      have hnext : (step s (.update id true)).phase = .updating (without stores id) := by
        rw [step, hphase]
        simp only [if_pos hkey]
      have hless : keysLeft (without stores id) < n := by
        rw [← hn]
        exact keysLeft_without htype hid
      exact Ends.cons (a := .update id true) rfl (ih _ hless hnext rfl)

theorem taking_ends (rest : List BatchUpdateType) (hphase : s.phase = .taking rest stores) : Ends s := by
  induction rest generalizing s stores with
  | nil =>
    have hnext : (step s .next).phase = .updating stores := by
      rw [step, next, hphase]
    exact Ends.cons (a := .next) rfl (updating_ends hnext)
  | cons type rest ih =>
    have hnext : (step s .next).phase = .taking rest (update stores type (s.stores type)) := by
      rw [step, next, hphase]
    exact Ends.cons (a := .next) rfl (ih hnext)

theorem checking_ends (rest : List BatchUpdateType) (hphase : s.phase = .checking rest) : Ends s := by
  induction rest generalizing s with
  | nil =>
    refine Ends.cons (a := .next) rfl ⟨[], by simp, ?_⟩
    show (next s).phase = .idle
    rw [next, hphase]
  | cons type rest ih =>
    refine Ends.cons (a := .next) rfl ?_
    show Ends (next s)
    rw [next, hphase]
    simp only
    split
    · exact taking_ends BatchUpdateType.all rfl
    · exact ih rfl

/-- **A run of `batchUpdate` ends**, whatever the maps hold when it starts. -/
theorem batchUpdate_ends (hidle : s.phase = .idle) : Ends (step s .start) := by
  refine checking_ends BatchUpdateType.all ?_
  rw [step, hidle]

/-- A run of `batchUpdate` can be brought to its end from wherever it is. -/
theorem ends (s : State) : Ends s := by
  cases hphase : s.phase with
  | idle => exact ⟨[], by simp, hphase⟩
  | checking rest => exact checking_ends rest hphase
  | taking rest stores => exact taking_ends rest hphase
  | updating stores => exact updating_ends hphase

/-! ## What is stored in the end -/

/-- What the actions record for a row. -/
def recorded (type : BatchUpdateType) (id : ℤ) (acts : List Action) : ℤ :=
  (acts.map (recordedBy type id)).sum

theorem recorded_eq_along (s : State) (type : BatchUpdateType) (id : ℤ) (acts : List Action) :
    recorded type id acts = along step (fun _ a => recordedBy type id a) s acts :=
  (along_map (recordedBy type id)).symm

/-- A step that does not fail records nothing and loses nothing. -/
theorem quiet_of_succeeds (type : BatchUpdateType) (id : ℤ) {a : Action} (h : a.succeeds = true) :
    recordedBy type id a = 0 ∧ ∀ s, lostBy type id s a = 0 := by
  cases a with
  | addNewRecord type' id' value | start => cases h
  | next => exact ⟨rfl, fun _ => rfl⟩
  | update k ok =>
    cases ok with
    | true => exact ⟨rfl, fun _ => rfl⟩
    | false => cases h

/-- What the failed updates of a run carried for a row. -/
def lost (type : BatchUpdateType) (id : ℤ) (s : State) (acts : List Action) : ℤ :=
  along step (lostBy type id) s acts

/-- A run from its start to its end that meets no record leaves no map behind. -/
theorem run_emptied {final : List Action} (hidle : s.phase = .idle) (hfinal : ∀ a ∈ final, a.succeeds = true)
    (hend : (run step s (.start :: final)).phase = .idle) (type : BatchUpdateType) :
    ((run step s (.start :: final)).stores type).keys = [] := by
  have hstart : Emptied (step s .start) := by
    rw [step, hidle]
    exact fun type htype => (htype type.mem_all).elim
  have hemptied : Emptied (run step (step s .start) final) :=
    run_preserves_of_respects (fun s a => steps_step.emptied) (respects_of_forall hfinal _) hstart
  rw [← run_cons step s, Emptied, hend] at hemptied
  exact hemptied type

/-- **The balance of a row** over any run. -/
theorem known_run (acts : List Action) {type : BatchUpdateType} {id value : ℤ} (hrow : db.stored type id = some value) :
    known type id (run step (initial db) acts) + lost type id (initial db) acts = value + recorded type id acts := by
  have hinitial : Present type id (initial db) ∧ TakesOnce (initial db) := by
    refine ⟨?_, fun rest stores hphase => by cases hphase⟩
    rw [Present]
    exact Option.isSome_of_eq_some hrow
  have hknown : known type id (initial db) = value := by
    rw [known]
    show (db.stored type id).getD 0 + 0 + 0 = value
    rw [hrow, Option.getD_some, add_zero, add_zero]
  rw [recorded_eq_along (initial db), ← hknown]
  exact run_balance (fun s a h => ⟨steps_step.present h.1, steps_step.takesOnce h.2⟩)
    (fun s a => steps_step.known) hinitial

/-- **What the batch updater stores.**  Whatever was recorded and whatever runs of `batchUpdate` made
of it, with any of their updates failing: after a last run without failures, the column of a row is
its first value and all that was recorded for it exactly when the changes the failed updates carried
for it sum to zero. -/
theorem stored_iff_nothing_lost (db : Tables) (acts final : List Action)
    (hidle : (run step (initial db) acts).phase = .idle) (hfinal : ∀ a ∈ final, a.succeeds = true)
    (hend : (run step (initial db) (acts ++ .start :: final)).phase = .idle)
    (type : BatchUpdateType) (id value : ℤ) (hrow : db.stored type id = some value) :
    (run step (initial db) (acts ++ .start :: final)).db.stored type id =
        some (value + recorded type id acts) ↔
      lost type id (initial db) acts = 0 := by
  have hbalance := known_run db (acts ++ .start :: final) hrow
  -- the last run records nothing and loses nothing
  have hquiet : ∀ a ∈ Action.start :: final, recordedBy type id a = 0 ∧ ∀ s, lostBy type id s a = 0 := by
    intro a ha
    rcases List.mem_cons.mp ha with rfl | ha
    · exact ⟨rfl, fun _ => rfl⟩
    · exact quiet_of_succeeds type id (hfinal a ha)
  have hrecorded : recorded type id (acts ++ .start :: final) = recorded type id acts := by
    rw [recorded_eq_along (initial db), along_append, ← recorded_eq_along, add_eq_left]
    exact along_eq_zero (fun a ha _ => (hquiet a ha).1) _
  have hlost : lost type id (initial db) (acts ++ .start :: final) = lost type id (initial db) acts := by
    rw [lost, along_append, ← lost, add_eq_left]
    exact along_eq_zero (fun a ha => (hquiet a ha).2) _
  have hpresent : Present type id (run step (initial db) (acts ++ .start :: final)) :=
    run_preserves (fun s a => steps_step.present) _ (Option.isSome_of_eq_some hrow)
  obtain ⟨stored, hstored⟩ := Option.isSome_iff_exists.mp hpresent
  -- it leaves nothing in memory and nothing in its hands
  have hempty : ((run step (initial db) (acts ++ .start :: final)).stores type).keys = [] := by
    rw [run_append] at hend ⊢
    exact run_emptied hidle hfinal hend type
  have hknown : known type id (run step (initial db) (acts ++ .start :: final)) = stored := by
    rw [known, hstored, deltaOf_of_keys_nil hempty, hend, Option.getD_some]
    show stored + 0 + 0 = stored
    rw [add_zero, add_zero]
  rw [hknown, hrecorded, hlost] at hbalance
  rw [hstored, Option.some.injEq]
  omega

/-- **Nothing need stay in memory.**  Wherever the updater is after any run, the run of `batchUpdate` it is in comes
to its end by steps that succeed, and one more such run leaves it idle with no change in any map. -/
theorem batchUpdate_drains (db : Tables) (acts : List Action) :
    ∃ rest flush : List Action, (∀ a ∈ rest ++ flush, a ≠ .start ∧ a.succeeds = true) ∧
      (run step (initial db) (acts ++ rest)).phase = .idle ∧
      (run step (initial db) (acts ++ rest ++ .start :: flush)).phase = .idle ∧
      ∀ type, ((run step (initial db) (acts ++ rest ++ .start :: flush)).stores type).keys = [] := by
  obtain ⟨rest, hrest, hidle⟩ := ends (run step (initial db) acts)
  rw [← run_append] at hidle
  obtain ⟨flush, hflush, hend⟩ := ends (step (run step (initial db) (acts ++ rest)) .start)
  refine ⟨rest, flush, ?_, hidle, ?_⟩
  · have hsucceed : ∀ a ∈ rest ++ flush, a.succeeds = true := by
      intro a ha
      exact (List.mem_append.mp ha).elim (hrest a) (hflush a)
    intro a ha
    refine ⟨?_, hsucceed a ha⟩
    rintro rfl
    exact Bool.noConfusion (hsucceed .start ha)
  · rw [run_append]
    exact ⟨hend, run_emptied hidle hflush hend⟩

/-- A user with a quota of 1000 and a token with 500 left. -/
def oneUser : Tables where
  users := fun id => if id = 1 then some ⟨1000, 0, 0⟩ else none
  tokens := fun id => if id = 5 then some ⟨500, 0⟩ else none
  channels := fun _ => none

/-- A request costs 100. -/
def oneRequest : List Action := [.addNewRecord .userQuota 1 (-100), .addNewRecord .tokenQuota 5 (-100)]

/-- A run whose update of the user succeeds or fails. -/
def runWith (ok : Bool) : List Action :=
  [.next, .next, .next, .next, .next, .next, .next, .update 5 true, .update 1 ok, .next]

theorem stored_iff_nothing_lost_one_run :
    (run step (initial oneUser) (oneRequest ++ .start :: runWith true)).phase matches .idle ∧
      ((run step (initial oneUser) (oneRequest ++ .start :: runWith true)).db.stored .userQuota 1 =
          some (1000 + recorded .userQuota 1 oneRequest) ↔
        lost .userQuota 1 (initial oneUser) oneRequest = 0) :=
  ⟨by decide, stored_iff_nothing_lost oneUser oneRequest (runWith true) rfl (by decide) rfl .userQuota 1 1000 rfl⟩

/-- A run that finds every map empty. -/
def emptyRun : List Action := [.next, .next, .next, .next, .next, .next]

/-- The update of the user fails once: the last run finds nothing to write, and the 100 that were
recorded are not taken from the user. -/
theorem failed_update_is_lost :
    (run step (initial oneUser) (oneRequest ++ .start :: runWith false)).phase matches .idle ∧
      (run step (initial oneUser) ((oneRequest ++ .start :: runWith false) ++ .start :: emptyRun)).phase
        matches .idle ∧
      recorded .userQuota 1 (oneRequest ++ .start :: runWith false) = -100 ∧
      (run step (initial oneUser) ((oneRequest ++ .start :: runWith false) ++
        .start :: emptyRun)).db.stored .userQuota 1 = some 1000 := by
  decide

end OneApi.Billing.BatchUpdater
