import NexaHR.Services.StageStats
import NexaHR.System.Installation

/-! # Stage statistics add up

Every visit is counted once in its stage and once under its owner, the running visit of a record is
at the status of the record, and a record has one owner at each stage.

* `bucket_eq`, `ownerBucket_eq`: what a bucket holds, as counts over the visits of its key.
* `StagesConserve`: what the rows owe to the records of the scope.
* `stageStats_conserve`: it holds for every database, clock, window and period.
* `finalized_counts_as_active`: the active visits are not those of the open records alone.
-/

namespace NexaHR

open Foundations

set_option autoImplicit false

/-- The record has a running visit at a stage. -/
def EvaluationRecord.activeAt (db : Database) (env : Env) (r : EvaluationRecord) (status : EvaluationStatus) :
    Prop :=
  ∃ visit ∈ visitsOf db env r, visit.isCurrent = true ∧ visit.status = status

instance (db : Database) (env : Env) (r : EvaluationRecord) (status : EvaluationStatus) :
    Decidable (r.activeAt db env status) :=
  inferInstanceAs (Decidable (∃ visit ∈ visitsOf db env r, visit.isCurrent = true ∧ visit.status = status))

/-! ## What a bucket holds -/

namespace StageBucket

def isCurrent (x : EvaluationRecord × StageVisit) : Bool := x.2.isCurrent

theorem foldl_count_passes (items : List (EvaluationRecord × StageVisit)) (b : StageBucket) :
    (items.foldl count b).passes = b.passes + items.length := by
  induction items generalizing b with
  | nil => rfl
  | cons x items ih =>
    rw [List.foldl_cons, ih, List.length_cons]
    simp only [count]
    omega

theorem foldl_count_active (items : List (EvaluationRecord × StageVisit)) (b : StageBucket) :
    (items.foldl count b).active = b.active + items.countP isCurrent := by
  induction items generalizing b with
  | nil => rfl
  | cons x items ih =>
    rw [List.foldl_cons, ih, List.countP_cons]
    cases hcurrent : x.2.isCurrent <;> simp [count, isCurrent, hcurrent]
    omega

theorem foldl_count_closed (items : List (EvaluationRecord × StageVisit)) (b : StageBucket) :
    (items.foldl count b).closed = b.closed + items.countP fun x => !isCurrent x := by
  induction items generalizing b with
  | nil => rfl
  | cons x items ih =>
    rw [List.foldl_cons, ih, List.countP_cons]
    cases hcurrent : x.2.isCurrent <;> simp [count, isCurrent, hcurrent]
    omega

theorem foldl_count_records (items : List (EvaluationRecord × StageVisit)) (b : StageBucket) :
    (items.foldl count b).records = b.records ∪ (items.map fun x => x.1.id).toFinset := by
  induction items generalizing b with
  | nil => simp
  | cons x items ih =>
    rw [List.foldl_cons, ih, List.map_cons, List.toFinset_cons]
    simp only [count]
    ext k
    simp only [Finset.mem_union, Finset.mem_insert]
    grind

end StageBucket

/-! ## The two tables of buckets -/

def stageKey (x : EvaluationRecord × StageVisit) : Option EvaluationStatus :=
  if x.2.status ∈ stageOrder then some x.2.status else none

def ownerKey (x : EvaluationRecord × StageVisit) : Option (EvaluationStatus × Nat) :=
  if x.2.status ∈ stageOrder then (x.1.ownerAt x.2.status).map fun ownerId => (x.2.status, ownerId) else none

theorem stageKey_eq_some {x : EvaluationRecord × StageVisit} {status : EvaluationStatus} :
    stageKey x = some status ↔ x.2.status = status ∧ status ∈ stageOrder := by
  unfold stageKey
  split <;> grind

theorem status_of_ownerKey {x : EvaluationRecord × StageVisit} {k : EvaluationStatus × Nat}
    (h : ownerKey x = some k) : stageKey x = some k.1 := by
  unfold ownerKey at h
  split at h
  · rename_i hstage
    obtain ⟨_, _, rfl⟩ := Option.map_eq_some_iff.mp h
    exact if_pos hstage
  · cases h

/-- The loop fills the two tables independently. -/
theorem foldl_countVisit (items : List (EvaluationRecord × StageVisit)) (t : StageTally) :
    items.foldl countVisit t =
      ⟨tally StageBucket.count {} stageKey t.buckets items, tally StageBucket.count {} ownerKey t.perOwner items⟩ := by
  unfold tally
  induction items generalizing t with
  | nil => rfl
  | cons x items ih =>
    rw [List.foldl_cons, ih, List.foldl_cons, List.foldl_cons]
    unfold countVisit addKeyed stageKey ownerKey
    by_cases hstage : x.2.status ∈ stageOrder
    · cases x.1.ownerAt x.2.status <;> simp [hstage]
    · simp [hstage]

section

variable {db : Database} {env : Env} {records : List EvaluationRecord} {windowDays : Nat} {periodId : Option Nat}

/-- The visits at a stage. -/
def visitsAt (db : Database) (env : Env) (records : List EvaluationRecord) (status : EvaluationStatus) :
    List (EvaluationRecord × StageVisit) :=
  (scopeVisits db env records).filter fun x => stageKey x = some status

theorem bucket_eq (status : EvaluationStatus) :
    groupOf {} status (stageTally db env records).buckets =
      (visitsAt db env records status).foldl StageBucket.count {} := by
  unfold stageTally
  rw [foldl_countVisit, groupOf_tally]
  have hempty : groupOf {} status (stageOrder.map fun status => (status, ({} : StageBucket))) = {} := by
    cases status <;> rfl
  rw [hempty]
  rfl

theorem perOwner_eq : (stageTally db env records).perOwner =
    tally StageBucket.count {} ownerKey [] (scopeVisits db env records) := by
  unfold stageTally
  rw [foldl_countVisit]

theorem owners_nodup : ((stageTally db env records).perOwner.map Prod.fst).Nodup := by
  rw [perOwner_eq]
  apply nodup_tally
  exact List.nodup_nil

theorem ownerBucket_eq {group : (EvaluationStatus × Nat) × StageBucket}
    (h : group ∈ (stageTally db env records).perOwner) :
    group.2 = ((scopeVisits db env records).filter fun x => ownerKey x = some group.1).foldl StageBucket.count {} := by
  have hgroup : groupOf {} group.1 (stageTally db env records).perOwner = group.2 :=
    groupOf_of_mem owners_nodup h
  rw [← hgroup, perOwner_eq, groupOf_tally]
  rfl

/-! ## The running visits -/

theorem closedVisits_over {entered : Nat} {changes : List StageChange} {visit : StageVisit}
    (h : visit ∈ closedVisits entered changes) : visit.isCurrent = false := by
  induction changes generalizing entered with
  | nil => cases h
  | cons change changes ih =>
    rcases List.mem_cons.mp h with rfl | h
    · rfl
    · exact ih h

/-- Of the visits of a record one is running, at its status. -/
theorem visitsOf_current (r : EvaluationRecord) :
    (visitsOf db env r).filter StageVisit.isCurrent = [⟨r.status, (env.now : Int) - r.stageEnteredAt, true⟩] := by
  have hover : (closedVisits r.createdAt (stageChangesOf db r.id)).filter StageVisit.isCurrent = [] := by
    rw [List.filter_eq_nil_iff]
    intro visit hvisit
    rw [closedVisits_over hvisit]
    exact Bool.false_ne_true
  unfold visitsOf stageVisits
  rw [List.filter_append, hover]
  rfl

theorem scopeVisits_current :
    (scopeVisits db env records).filter StageBucket.isCurrent =
      records.map fun r => (r, ⟨r.status, (env.now : Int) - r.stageEnteredAt, true⟩) := by
  have hone (r : EvaluationRecord) :
      ((visitsOf db env r).map fun visit => (r, visit)).filter StageBucket.isCurrent =
        [(r, ⟨r.status, (env.now : Int) - r.stageEnteredAt, true⟩)] := by
    rw [List.filter_map]
    show ((visitsOf db env r).filter StageVisit.isCurrent).map _ = _
    rw [visitsOf_current]
    rfl
  unfold scopeVisits
  rw [List.filter_flatMap, List.map_eq_flatMap]
  simp only [hone]

/-- A stage has as many running visits as records are at its status. -/
theorem active_visitsAt {status : EvaluationStatus} (hstage : status ∈ stageOrder) :
    (visitsAt db env records status).countP StageBucket.isCurrent = records.countP fun r => r.status = status := by
  have hswap : (visitsAt db env records status).countP StageBucket.isCurrent =
      ((scopeVisits db env records).filter StageBucket.isCurrent).countP fun x => stageKey x = some status := by
    unfold visitsAt
    rw [List.countP_filter, List.countP_filter]
    simp only [Bool.and_comm]
  rw [hswap, scopeVisits_current, List.countP_map]
  apply List.countP_congr
  intro r _
  simp only [Function.comp_apply, stageKey_eq_some, hstage, and_true, decide_eq_true_eq]

/-! ## The rows -/

/-- Without records every bucket is empty, so that the rows are those of the branch for an empty scope. -/
theorem stageStats_eq : stageStats db env windowDays periodId =
    stageOrder.map (stageRow db (stageTally db env (stageScope db env windowDays periodId))
      (stageScope db env windowDays periodId).length) := by
  unfold stageStats
  cases hscope : stageScope db env windowDays periodId with
  | nil =>
    apply List.map_congr_left
    intro status _
    have hshare : roundTo 1 ((0 * 100 : Nat) / (([] : List EvaluationRecord).length : Rat)) = 0 := by
      rw [Nat.zero_mul, Nat.cast_zero, zero_div]
      exact roundTo_zero 1
    have hbucket : groupOf {} status (stageTally db env []).buckets = {} := by
      cases status <;> rfl
    simp only [stageRow, hbucket, Finset.card_empty, hshare]
    cases status <;> rfl
  | cons r records => rfl

theorem exists_status {row : StageRow} (h : row ∈ stageStats db env windowDays periodId) :
    ∃ status ∈ stageOrder, row = stageRow db (stageTally db env (stageScope db env windowDays periodId))
      (stageScope db env windowDays periodId).length status := by
  rw [stageStats_eq] at h
  obtain ⟨status, hstage, rfl⟩ := List.mem_map.mp h
  exact ⟨status, hstage, rfl⟩

variable (db env records) in
theorem stageRow_passes (n : Nat) (status : EvaluationStatus) :
    (stageRow db (stageTally db env records) n status).passes = (visitsAt db env records status).length := by
  unfold stageRow
  simp only [bucket_eq, StageBucket.foldl_count_passes, Nat.zero_add]

variable (db env records) in
theorem stageRow_active (n : Nat) (status : EvaluationStatus) :
    (stageRow db (stageTally db env records) n status).active =
      (visitsAt db env records status).countP StageBucket.isCurrent := by
  unfold stageRow
  simp only [bucket_eq, StageBucket.foldl_count_active, Nat.zero_add]

variable (db env records) in
theorem stageRow_closed (n : Nat) (status : EvaluationStatus) :
    (stageRow db (stageTally db env records) n status).closed =
      (visitsAt db env records status).countP fun x => !StageBucket.isCurrent x := by
  unfold stageRow
  simp only [bucket_eq, StageBucket.foldl_count_closed, Nat.zero_add]

variable (db env records) in
theorem stageRow_total (n : Nat) (status : EvaluationStatus) :
    (stageRow db (stageTally db env records) n status).total =
      ((visitsAt db env records status).map fun x => x.1.id).toFinset.card := by
  unfold stageRow
  simp only [bucket_eq, StageBucket.foldl_count_records, Finset.empty_union]

/-! ## The owners of a stage -/

/-- The keys of the owners that a stage shows. -/
def ownerKeys (db : Database) (env : Env) (records : List EvaluationRecord) (status : EvaluationStatus) :
    List (EvaluationStatus × Nat) :=
  ((stageTally db env records).perOwner.filter fun group => group.1.1 = status).map Prod.fst

theorem ownerKeys_nodup (status : EvaluationStatus) : (ownerKeys db env records status).Nodup := by
  apply List.Nodup.sublist _ (@owners_nodup db env records)
  exact List.filter_sublist.map _

/-- The visits under an owner are visits at the stage. -/
theorem filter_ownerKey {k : EvaluationStatus × Nat} {status : EvaluationStatus} (hk : k.1 = status) :
    (scopeVisits db env records).filter (fun x => ownerKey x = some k) =
      (visitsAt db env records status).filter fun x => ownerKey x = some k := by
  unfold visitsAt
  rw [List.filter_filter]
  apply List.filter_congr
  intro x _
  have hstage := @status_of_ownerKey x k
  grind

/-- An amount summed over the rows of the owners, as a sum over their keys. -/
theorem sum_ownersOf {status : EvaluationStatus} (f : OwnerRow → Nat)
    (g : List (EvaluationRecord × StageVisit) → Nat)
    (hfg : ∀ name items, f (finishOwner name (items.foldl StageBucket.count {})) = g items) :
    ((ownersOf db (stageTally db env records).perOwner status).map f).sum =
      ((ownerKeys db env records status).map fun k =>
        g ((visitsAt db env records status).filter fun x => ownerKey x = some k)).sum := by
  unfold ownersOf ownerKeys
  rw [((List.perm_insertionSort _ _).map f).sum_eq, List.map_map, List.map_map]
  congr 1
  apply List.map_congr_left
  intro group hgroup
  rw [List.mem_filter, decide_eq_true_eq] at hgroup
  simp only [Function.comp_apply]
  rw [ownerBucket_eq hgroup.1, hfg, filter_ownerKey hgroup.2]

/-- Visits of one kind, counted under the owners. -/
theorem sum_owners_countP_le (status : EvaluationStatus) (kind : EvaluationRecord × StageVisit → Bool) :
    ((ownerKeys db env records status).map fun k =>
        ((visitsAt db env records status).filter fun x => ownerKey x = some k).countP kind).sum ≤
      (visitsAt db env records status).countP kind := by
  have hle := sum_countP_le (@ownerKeys_nodup db env records status) ownerKey
    ((visitsAt db env records status).filter kind)
  rw [← List.countP_eq_length_filter] at hle
  simp only [List.countP_filter] at hle ⊢
  simp only [Bool.and_comm] at hle ⊢
  exact hle

theorem mem_of_mem_visitsAt {x : EvaluationRecord × StageVisit} {status : EvaluationStatus}
    (h : x ∈ visitsAt db env records status) : x.1 ∈ records ∧ x.2.status = status := by
  unfold visitsAt scopeVisits at h
  simp only [List.mem_filter, List.mem_flatMap, List.mem_map, decide_eq_true_eq, stageKey_eq_some] at h
  obtain ⟨⟨r, hr, visit, _, rfl⟩, hstatus, _⟩ := h
  exact ⟨hr, hstatus⟩

/-- A record has one owner at a stage, so that it counts under one. -/
theorem sum_owners_card_le (status : EvaluationStatus)
    (hids : ∀ r ∈ records, ∀ r' ∈ records, r.id = r'.id → r = r') :
    ((ownerKeys db env records status).map fun k =>
        (((visitsAt db env records status).filter fun x => ownerKey x = some k).map fun x => x.1.id).toFinset.card).sum ≤
      ((visitsAt db env records status).map fun x => x.1.id).toFinset.card := by
  apply sum_card_le (ownerKeys_nodup status)
  intro x hx y hy hid
  obtain ⟨hx, hxstatus⟩ := mem_of_mem_visitsAt hx
  obtain ⟨hy, hystatus⟩ := mem_of_mem_visitsAt hy
  unfold ownerKey
  rw [hids x.1 hx y.1 hy hid, hxstatus, hystatus]

/-! ## The sums over the rows -/

theorem activeAt_iff {r : EvaluationRecord} {status : EvaluationStatus} :
    r.activeAt db env status ↔ status = r.status := by
  have hcurrent := @visitsOf_current db env r
  constructor
  · intro ⟨visit, hvisit, hrunning, hstatus⟩
    have hmem : visit ∈ (visitsOf db env r).filter StageVisit.isCurrent := List.mem_filter.mpr ⟨hvisit, hrunning⟩
    rw [hcurrent, List.mem_singleton] at hmem
    rw [← hstatus, hmem]
  · intro hstatus
    have hmem : ⟨r.status, (env.now : Int) - r.stageEnteredAt, true⟩ ∈
        (visitsOf db env r).filter StageVisit.isCurrent := by
      rw [hcurrent]
      exact List.mem_singleton_self _
    exact ⟨_, (List.mem_filter.mp hmem).1, rfl, hstatus.symm⟩

/-- The stages but the last, and the one status that is no stage, split the records. -/
theorem sum_stages (records : List EvaluationRecord) :
    (stageOrder.map fun status => records.countP fun r => r.status = status).sum =
        records.countP (fun r => r.status ≠ .cancelled) ∧
      ((stageOrder.filter fun status => status ≠ .finalized).map fun status =>
          records.countP fun r => r.status = status).sum = records.countP EvaluationRecord.isOpen := by
  induction records with
  | nil => exact ⟨rfl, rfl⟩
  | cons r records ih =>
    simp only [stageOrder, List.countP_cons, EvaluationRecord.isOpen_eq] at ih ⊢
    cases hstatus : r.status <;> simp at ih ⊢ <;> omega

theorem row_active {row : StageRow} (h : row ∈ stageStats db env windowDays periodId) :
    row.active = (stageScope db env windowDays periodId).countP fun r => r.status = row.status := by
  obtain ⟨status, hstage, rfl⟩ := exists_status h
  rw [stageRow_active]
  exact active_visitsAt hstage

end

/-- What the rows owe to the records of the scope. A finalized record is active at its stage, a cancelled
one at none. -/
structure StagesConserve (db : Database) (env : Env) (windowDays : Nat) (periodId : Option Nat) : Prop where
  stages : (stageStats db env windowDays periodId).map StageRow.status = stageOrder
  passes_eq : ∀ row ∈ stageStats db env windowDays periodId, row.passes = row.active + row.closed
  active_sum : ((stageStats db env windowDays periodId).map StageRow.active).sum =
    (stageScope db env windowDays periodId).countP fun r => r.status ≠ .cancelled
  open_sum : (((stageStats db env windowDays periodId).filter fun row => row.status ≠ .finalized).map
    StageRow.active).sum = (stageScope db env windowDays periodId).countP EvaluationRecord.isOpen
  active_eq : ∀ row ∈ stageStats db env windowDays periodId,
    row.active = (stageScope db env windowDays periodId).countP fun r => r.activeAt db env row.status
  one_stage : ∀ r ∈ stageScope db env windowDays periodId, r.status ≠ .cancelled →
    ∃! row, row ∈ stageStats db env windowDays periodId ∧ r.activeAt db env row.status
  no_stage : ∀ r ∈ stageScope db env windowDays periodId, r.status = .cancelled →
    ∀ row ∈ stageStats db env windowDays periodId, ¬ r.activeAt db env row.status
  one_visit : ∀ r ∈ stageScope db env windowDays periodId,
    (visitsOf db env r).countP StageVisit.isCurrent = 1
  owners_total : ∀ row ∈ stageStats db env windowDays periodId, (row.byOwner.map OwnerRow.total).sum ≤ row.total
  owners_active : ∀ row ∈ stageStats db env windowDays periodId,
    (row.byOwner.map OwnerRow.active).sum ≤ row.active
  owners_closed : ∀ row ∈ stageStats db env windowDays periodId,
    (row.byOwner.map OwnerRow.closed).sum ≤ row.closed

theorem stageStats_conserve (db : Database) (env : Env) (windowDays : Nat) (periodId : Option Nat) :
    StagesConserve db env windowDays periodId where
  stages := by
    rw [stageStats_eq, List.map_map]
    exact List.map_id' _
  passes_eq := by
    intro row hrow
    obtain ⟨status, _, rfl⟩ := exists_status hrow
    rw [stageRow_passes, stageRow_active, stageRow_closed]
    rw [List.length_eq_countP_add_countP StageBucket.isCurrent]
    simp only [Bool.not_eq_true, Bool.decide_eq_false]
  active_sum := by
    have hrows : (stageStats db env windowDays periodId).map StageRow.active =
        stageOrder.map fun status => (stageScope db env windowDays periodId).countP fun r => r.status = status := by
      rw [stageStats_eq, List.map_map]
      apply List.map_congr_left
      intro status hstage
      exact (stageRow_active ..).trans (active_visitsAt hstage)
    rw [hrows]
    exact (sum_stages _).1
  open_sum := by
    have hrows : ((stageStats db env windowDays periodId).filter fun row => row.status ≠ .finalized).map
        StageRow.active = (stageOrder.filter fun status => status ≠ .finalized).map fun status =>
          (stageScope db env windowDays periodId).countP fun r => r.status = status := by
      rw [stageStats_eq, List.filter_map, List.map_map]
      apply List.map_congr_left
      intro status hstage
      exact (stageRow_active ..).trans (active_visitsAt (List.mem_filter.mp hstage).1)
    rw [hrows]
    exact (sum_stages _).2
  active_eq := by
    intro row hrow
    rw [row_active hrow]
    apply List.countP_congr
    intro r _
    simp only [decide_eq_true_eq, activeAt_iff]
    exact eq_comm
  one_stage := by
    intro r _ hnot
    have hstage : r.status ∈ stageOrder := by
      cases hstatus : r.status <;> simp [stageOrder, hstatus] at hnot ⊢
    rw [stageStats_eq]
    refine ⟨_, ⟨List.mem_map_of_mem hstage, activeAt_iff.mpr rfl⟩, ?_⟩
    intro row ⟨hrow, hactive⟩
    obtain ⟨status, _, rfl⟩ := List.mem_map.mp hrow
    have hstatus : status = r.status := activeAt_iff.mp hactive
    rw [hstatus]
  no_stage := by
    intro r _ hcancelled row hrow hactive
    obtain ⟨status, hstage, rfl⟩ := exists_status hrow
    have hstatus : status = r.status := activeAt_iff.mp hactive
    rw [hstatus, hcancelled] at hstage
    revert hstage
    decide
  one_visit := by
    intro r _
    rw [List.countP_eq_length_filter, visitsOf_current]
    rfl
  owners_total := by
    intro row hrow
    obtain ⟨status, _, rfl⟩ := exists_status hrow
    rw [stageRow_total]
    refine le_of_eq_of_le (sum_ownersOf OwnerRow.total (fun items => (items.map fun x => x.1.id).toFinset.card) ?_)
      (sum_owners_card_le status ?_)
    · intro name items
      simp only [finishOwner, StageBucket.foldl_count_records, Finset.empty_union]
    · intro r hr r' hr' hid
      exact Table.eq_of_id_eq (List.mem_filter.mp hr).1 (List.mem_filter.mp hr').1 hid
  owners_active := by
    intro row hrow
    obtain ⟨status, _, rfl⟩ := exists_status hrow
    rw [stageRow_active]
    refine le_of_eq_of_le (sum_ownersOf OwnerRow.active (fun items => items.countP StageBucket.isCurrent) ?_)
      (sum_owners_countP_le status StageBucket.isCurrent)
    intro name items
    simp only [finishOwner, StageBucket.foldl_count_active, Nat.zero_add]
  owners_closed := by
    intro row hrow
    obtain ⟨status, _, rfl⟩ := exists_status hrow
    rw [stageRow_closed]
    refine le_of_eq_of_le
      (sum_ownersOf OwnerRow.closed (fun items => items.countP fun x => !StageBucket.isCurrent x) ?_)
      (sum_owners_countP_le status fun x => !StageBucket.isCurrent x)
    intro name items
    simp only [finishOwner, StageBucket.foldl_count_closed, Nat.zero_add]

/-- After its way to the final document the only record is not open, and still an active visit. -/
theorem finalized_counts_as_active : ∃ trace db, SystemRun trace db ∧
    ((stageStats db someDay 1095 none).map StageRow.active).sum ≠
      (stageScope db someDay 1095 none).countP EvaluationRecord.isOpen := by
  refine ⟨_, _, finalizedByAll_run, ?_⟩
  decide

end NexaHR
