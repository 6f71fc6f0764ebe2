import Mathlib.Data.String.Basic
import NexaHR.Core.JsonReading

/-! # Values through a JSON column

A value is written into a `jsonb` column as JSON and read back as Python's values. The column keeps numbers
as decimals, so that it forgets how a float was written, and every key comes back as a text.

* `PyJson.isAccepted`: `json.dumps` with sorted keys and the column take the value.
* `PyJson.readBack`: what the column gives back.
* `PyJson.isStable`: no float of sixteen digits before the point or more, no negative zero, and keys whose
  texts are in their order.
* `PyJson.sorted_readBack`: these are the values that come back as the same JSON.
-/

namespace NexaHR

open Foundations

set_option autoImplicit false

/-! ## Numbers -/

def PyFloat.zero : PyFloat := ⟨false, 0, [0], none, by decide⟩

def PyFloat.isNegativeZero (x : PyFloat) : Bool :=
  x.negative && decide (x.whole = 0 ∧ x.fraction = [0] ∧ x.power = none)

/-- The digits before and after the point as one number. -/
def PyFloat.digits (x : PyFloat) : Nat := x.fraction.foldl (fun n d => 10 * n + d.val) x.whole

/-- A float from ten to the sixteenth on is a whole number in the column, which has no negative zero. -/
def PyNumber.readBack : PyNumber → PyNumber
  | .int n => .int n
  | .float x =>
    match x.power with
    | some power =>
      if 16 ≤ power then
        .int ((if x.negative then -1 else 1) * (x.digits * 10 ^ (power - x.fraction.length).toNat : Nat))
      else .float x
    | none => if x.isNegativeZero then .float PyFloat.zero else .float x

def PyNumber.isStable : PyNumber → Bool
  | .int _ => true
  | .float x => decide (x.power.getD 0 < 16) && !x.isNegativeZero

theorem PyNumber.readBack_eq (n : PyNumber) : n.readBack = n ↔ n.isStable = true := by
  cases n with
  | int n => exact ⟨fun _ => rfl, fun _ => rfl⟩
  | float x =>
    unfold readBack isStable
    cases hpower : x.power with
    | some power =>
      have hzero : x.isNegativeZero = false := by simp [PyFloat.isNegativeZero, hpower]
      by_cases hlarge : 16 ≤ power
      · simp [hpower, hlarge]
      · simp [hpower, hlarge, hzero]
        omega
    | none =>
      by_cases hzero : x.isNegativeZero = true
      · have hne : x ≠ PyFloat.zero := by
          rintro rfl
          cases hzero
        simp [hpower, hzero, Ne.symm hne]
      · simp [hpower, hzero]

/-! ## Values -/

mutual

/-- The value that comes back: every key a text. -/
def PyJson.readBack : PyJson → PyJson
  | .none => .none
  | .bool b => .bool b
  | .number n => .number n.readBack
  | .str s => .str s
  | .list items => .list (readBackList items)
  | .dict items => .dict (readBackItems items)

def readBackList : List PyJson → List PyJson
  | [] => []
  | v :: items => v.readBack :: readBackList items

def readBackItems : List (PyKey × PyJson) → List (PyKey × PyJson)
  | [] => []
  | (k, v) :: items => (.str k.text, v.readBack) :: readBackItems items

end

/-- The texts of the keys are in the order of the keys. -/
def keysInOrder (items : List (PyKey × PyJson)) : Bool :=
  decide (((sortedItems items).map fun item => item.1.text).Pairwise (· ≤ ·))

mutual

def PyJson.isStable : PyJson → Bool
  | .number n => n.isStable
  | .list items => allStable items
  | .dict items => keysInOrder items && valuesStable items
  | _ => true

def allStable : List PyJson → Bool
  | [] => true
  | v :: items => v.isStable && allStable items

def valuesStable : List (PyKey × PyJson) → Bool
  | [] => true
  | (_, v) :: items => v.isStable && valuesStable items

end

/-! ## What is accepted -/

/-- The column takes no character zero. -/
def isStorable (s : String) : Bool := s.toList.all (· ≠ '\x00')

/-- Python can sort the keys: texts or numbers only, unless there is just one. No key comes twice. -/
def isSortable (keys : List PyKey) : Bool :=
  decide keys.Nodup && (decide (keys.length ≤ 1) || keys.all PyKey.isStr || keys.all fun k => k.value.isSome)

def PyKey.isStorable : PyKey → Bool
  | .str s => NexaHR.isStorable s
  | _ => true

mutual

def PyJson.isAccepted : PyJson → Bool
  | .str s => isStorable s
  | .list items => allAccepted items
  | .dict items =>
    isSortable (items.map Prod.fst) && items.all (fun item => item.1.isStorable) && valuesAccepted items
  | _ => true

def allAccepted : List PyJson → Bool
  | [] => true
  | v :: items => v.isAccepted && allAccepted items

def valuesAccepted : List (PyKey × PyJson) → Bool
  | [] => true
  | (_, v) :: items => v.isAccepted && valuesAccepted items

end

/-! ## The lists of a value -/

theorem readBackList_eq (items : List PyJson) : readBackList items = items.map PyJson.readBack := by
  induction items with
  | nil => rw [readBackList]; rfl
  | cons v items ih => rw [readBackList, ih]; rfl

theorem readBackItems_eq (items : List (PyKey × PyJson)) :
    readBackItems items = items.map fun item => (.str item.1.text, item.2.readBack) := by
  induction items with
  | nil => rw [readBackItems]; rfl
  | cons item items ih =>
    obtain ⟨k, v⟩ := item
    rw [readBackItems, ih]
    rfl

theorem sortedList_eq (items : List PyJson) : sortedList items = items.map PyJson.sorted := by
  induction items with
  | nil => rw [sortedList]; rfl
  | cons v items ih => rw [sortedList, ih]; rfl

theorem sortedValues_eq (items : List (PyKey × PyJson)) :
    sortedValues items = items.map fun item => (item.1, item.2.sorted) := by
  induction items with
  | nil => rw [sortedValues]; rfl
  | cons item items ih =>
    obtain ⟨k, v⟩ := item
    rw [sortedValues, ih]
    rfl

theorem allStable_iff (items : List PyJson) :
    allStable items = true ↔ ∀ v ∈ items, v.isStable = true := by
  induction items with
  | nil => simp [allStable]
  | cons v items ih => simp [allStable, ih]

theorem valuesStable_iff (items : List (PyKey × PyJson)) :
    valuesStable items = true ↔ ∀ item ∈ items, item.2.isStable = true := by
  induction items with
  | nil => simp [valuesStable]
  | cons item items ih => simp [valuesStable, ih]

theorem allAccepted_iff (items : List PyJson) :
    allAccepted items = true ↔ ∀ v ∈ items, v.isAccepted = true := by
  induction items with
  | nil => simp [allAccepted]
  | cons v items ih => simp [allAccepted, ih]

theorem valuesAccepted_iff (items : List (PyKey × PyJson)) :
    valuesAccepted items = true ↔ ∀ item ∈ items, item.2.isAccepted = true := by
  induction items with
  | nil => simp [valuesAccepted]
  | cons item items ih => simp [valuesAccepted, ih]

/-- The induction over a value and the values in it. -/
theorem PyJson.induction {P : PyJson → Prop} (none : P .none) (bool : ∀ b, P (.bool b))
    (number : ∀ n, P (.number n)) (str : ∀ s, P (.str s))
    (list : ∀ items : List PyJson, (∀ v ∈ items, P v) → P (.list items))
    (dict : ∀ items : List (PyKey × PyJson), (∀ item ∈ items, P item.2) → P (.dict items)) (v : PyJson) :
    P v := by
  refine PyJson.rec (motive_1 := P) (motive_2 := fun items => ∀ v ∈ items, P v)
    (motive_3 := fun items => ∀ item ∈ items, P item.2) (motive_4 := fun item => P item.2)
    none bool number str list dict ?_ ?_ ?_ ?_ ?_ v
  · intro v hv
    cases hv
  · intro v items hv hitems w hw
    rcases List.mem_cons.mp hw with rfl | hw
    · exact hv
    · exact hitems w hw
  · intro item hitem
    cases hitem
  · intro item items hitem hitems i hi
    rcases List.mem_cons.mp hi with rfl | hi
    · exact hitem
    · exact hitems i hi
  · intro k v hv
    exact hv

/-! ## The keys of an accepted dictionary -/

/-- A number is not written like a boolean. -/
theorem text_number_ne (n : PyNumber) (b : Bool) :
    (PyKey.number n).text ≠ (PyKey.bool b).text := by
  intro heq
  have hlist := congrArg String.toList heq
  obtain ⟨c, hclass, hc⟩ := numberText_head n.parts []
  have hhead : (PyKey.number n).text.toList.head? = some c := by
    rw [← hc]
    simp [PyKey.text, PyNumber.text]
  rw [hlist] at hhead
  cases b with
  | true =>
    have ht : c = 't' := (Option.some.inj hhead).symm
    subst ht
    rcases hclass with h | h <;> cases h
  | false =>
    have hf : c = 'f' := (Option.some.inj hhead).symm
    subst hf
    rcases hclass with h | h <;> cases h

theorem text_inj_of_value {k k' : PyKey} (hk : k.value.isSome = true) (hk' : k'.value.isSome = true)
    (h : k.text = k'.text) : k = k' := by
  cases k with
  | str s => cases hk
  | none => cases hk
  | number n =>
    cases k' with
    | str s => cases hk'
    | none => cases hk'
    | number m => rw [PyNumber.text_inj (String.ofList_injective h)]
    | bool b => exact absurd h (text_number_ne n b)
  | bool b =>
    cases k' with
    | str s => cases hk'
    | none => cases hk'
    | number m => exact absurd h.symm (text_number_ne m b)
    | bool b' => cases b <;> cases b' <;> first | rfl | (exact absurd h (by decide))

theorem text_inj_of_str {k k' : PyKey} (hk : k.isStr = true) (hk' : k'.isStr = true)
    (h : k.text = k'.text) : k = k' := by
  cases k with
  | str s =>
    cases k' with
    | str t => exact congrArg PyKey.str h
    | _ => cases hk'
  | _ => cases hk

theorem nodup_texts {keys : List PyKey} (h : isSortable keys = true) : (keys.map PyKey.text).Nodup := by
  unfold isSortable at h
  simp only [Bool.and_eq_true, Bool.or_eq_true, decide_eq_true_eq, List.all_eq_true] at h
  obtain ⟨hnodup, (hone | hstr) | hvalue⟩ := h
  · match keys, hone with
    | [], _ => exact List.nodup_nil
    | [k], _ => exact List.nodup_singleton _
  · exact (List.nodup_map_iff_inj_on hnodup).mpr fun k hk k' hk' => text_inj_of_str (hstr k hk) (hstr k' hk')
  · exact (List.nodup_map_iff_inj_on hnodup).mpr fun k hk k' hk' =>
      text_inj_of_value (hvalue k hk) (hvalue k' hk')

/-! ## The fields of a dictionary -/

section

variable {α β : Type}

theorem sortedItems_map (f : α → β) (items : List (PyKey × α)) :
    sortedItems (items.map fun item => (item.1, f item.2)) =
      (sortedItems items).map fun item => (item.1, f item.2) := by
  unfold sortedItems
  exact (List.map_insertionSort (fun a b : PyKey × α => a.1.le b.1 = true)
    (fun a b : PyKey × β => a.1.le b.1 = true) _ items fun a _ b _ => Iff.rfl).symm

theorem perm_sortedItems (items : List (PyKey × α)) : (sortedItems items).Perm items :=
  List.perm_insertionSort (fun a b : PyKey × α => a.1.le b.1 = true) items

theorem fieldsOf_str (fields : List (String × α)) :
    fieldsOf (fields.map fun f => (PyKey.str f.1, f.2)) = fields := by
  unfold fieldsOf
  rw [List.map_map]
  exact List.map_id fields

/-- Items with texts for keys are sorted by them. -/
theorem pairwise_fieldsOf_str (fields : List (String × α)) :
    (fieldsOf (sortedItems (fields.map fun f => (PyKey.str f.1, f.2)))).Pairwise fun a b => a.1 ≤ b.1 := by
  have hsort : sortedItems (fields.map fun f => (PyKey.str f.1, f.2)) =
      (fields.insertionSort fun a b => a.1 ≤ b.1).map fun f => (PyKey.str f.1, f.2) := by
    unfold sortedItems
    refine (List.map_insertionSort (fun a b : String × α => a.1 ≤ b.1)
      (fun a b : PyKey × α => a.1.le b.1 = true) _ fields fun a _ b _ => ?_).symm
    simp [PyKey.le]
  have htotal : Std.Total fun a b : String × α => a.1 ≤ b.1 := ⟨fun a b => le_total a.1 b.1⟩
  have htrans : IsTrans (String × α) fun a b => a.1 ≤ b.1 := ⟨fun a b c => le_trans⟩
  rw [hsort, fieldsOf_str]
  exact List.pairwise_insertionSort (fun a b : String × α => a.1 ≤ b.1) fields

/-- Fields under different keys have one order by their keys. -/
theorem fields_unique {fields fields' : List (String × α)} (hperm : fields.Perm fields')
    (hnodup : (fields.map Prod.fst).Nodup) (h : fields.Pairwise fun a b => a.1 ≤ b.1)
    (h' : fields'.Pairwise fun a b => a.1 ≤ b.1) : fields = fields' := by
  refine hperm.eq_of_pairwise ?_ h h'
  intro a b ha hb hab hba
  exact List.inj_on_of_nodup_map hnodup ha (hperm.mem_iff.mpr hb) (le_antisymm hab hba)

end

/-! ## What comes back -/

/-- The dictionary that comes back, as JSON. -/
theorem sorted_readBack_dict (items : List (PyKey × PyJson)) :
    (PyJson.dict items).readBack.sorted = .dict (fieldsOf (sortedItems
      ((items.map fun item => (item.1.text, item.2.readBack.sorted)).map
        fun f => (PyKey.str f.1, f.2)))) := by
  rw [PyJson.readBack, PyJson.sorted, readBackItems_eq, sortedValues_eq, List.map_map, List.map_map]
  rfl

theorem sorted_dict (items : List (PyKey × PyJson)) :
    (PyJson.dict items).sorted =
      .dict ((sortedItems items).map fun item => (item.1.text, item.2.sorted)) := by
  rw [PyJson.sorted, sortedValues_eq, sortedItems_map]
  unfold fieldsOf
  rw [List.map_map]
  rfl

/-- Of a dictionary under different keys the same JSON comes back when the texts of its keys are in their
order and the same JSON comes back of its values. -/
theorem sorted_readBack_dict_iff {items : List (PyKey × PyJson)}
    (hnodup : (items.map fun item => item.1.text).Nodup) :
    (PyJson.dict items).readBack.sorted = (PyJson.dict items).sorted ↔
      keysInOrder items = true ∧ ∀ item ∈ items, item.2.readBack.sorted = item.2.sorted := by
  have hback := pairwise_fieldsOf_str (items.map fun item => (item.1.text, item.2.readBack.sorted))
  have hbackPerm : (fieldsOf (sortedItems ((items.map fun item =>
      (item.1.text, item.2.readBack.sorted)).map fun f => (PyKey.str f.1, f.2)))).Perm
      (items.map fun item => (item.1.text, item.2.readBack.sorted)) := by
    have hsorted := (perm_sortedItems ((items.map fun item =>
      (item.1.text, item.2.readBack.sorted)).map fun f => (PyKey.str f.1, f.2))).map
        fun item => (item.1.text, item.2)
    exact hsorted.trans (List.Perm.of_eq (fieldsOf_str _))
  have hperm : ((sortedItems items).map fun item => (item.1.text, item.2.sorted)).Perm
      (items.map fun item => (item.1.text, item.2.sorted)) := (perm_sortedItems items).map _
  rw [sorted_readBack_dict, sorted_dict, Json.dict.injEq]
  unfold keysInOrder
  rw [decide_eq_true_eq]
  constructor
  · intro heq
    rw [heq] at hback hbackPerm
    refine ⟨?_, ?_⟩
    · rw [List.pairwise_map] at hback ⊢
      exact hback
    · intro item hitem
      have hmem : (item.1.text, item.2.readBack.sorted) ∈
          items.map fun item => (item.1.text, item.2.sorted) := by
        apply hperm.mem_iff.mp
        apply hbackPerm.mem_iff.mpr
        exact List.mem_map.mpr ⟨item, hitem, rfl⟩
      obtain ⟨other, hother, hsame⟩ := List.mem_map.mp hmem
      rw [Prod.mk.injEq] at hsame
      have hkey : other = item := List.inj_on_of_nodup_map hnodup hother hitem hsame.1
      rw [← hsame.2, hkey]
  · rintro ⟨horder, hvalues⟩
    have hcongr : (items.map fun item => (item.1.text, item.2.readBack.sorted)) =
        items.map fun item => (item.1.text, item.2.sorted) := by
      apply List.map_congr_left
      intro item hitem
      rw [hvalues item hitem]
    rw [hcongr] at hback hbackPerm ⊢
    refine fields_unique (hbackPerm.trans hperm.symm) ?_ hback ?_
    · apply (hbackPerm.map Prod.fst).nodup_iff.mpr
      rw [List.map_map]
      exact hnodup
    · rw [List.pairwise_map] at horder ⊢
      exact horder

/-- The accepted values that come back as the same JSON. -/
theorem PyJson.sorted_readBack (v : PyJson) (h : v.isAccepted = true) :
    v.readBack.sorted = v.sorted ↔ v.isStable = true := by
  induction v using PyJson.induction with
  | none => simp [readBack, isStable]
  | bool b => simp [readBack, isStable]
  | str s => simp [readBack, isStable]
  | number n =>
    rw [readBack, sorted, sorted, Json.number.injEq, isStable]
    exact n.readBack_eq
  | list items ih =>
    rw [isAccepted, allAccepted_iff] at h
    rw [readBack, sorted, sorted, Json.list.injEq, isStable, allStable_iff, readBackList_eq, sortedList_eq,
      sortedList_eq, List.map_map, List.map_inj_left]
    constructor
    · intro hsame v hv
      exact (ih v hv (h v hv)).mp (hsame v hv)
    · intro hstable v hv
      exact (ih v hv (h v hv)).mpr (hstable v hv)
  | dict items ih =>
    rw [isAccepted, Bool.and_eq_true, Bool.and_eq_true, valuesAccepted_iff] at h
    obtain ⟨⟨hsortable, -⟩, hvalues⟩ := h
    have hnodup := nodup_texts hsortable
    rw [List.map_map] at hnodup
    rw [sorted_readBack_dict_iff hnodup, isStable, Bool.and_eq_true, valuesStable_iff]
    constructor
    · rintro ⟨horder, hsame⟩
      exact ⟨horder, fun item hitem => (ih item hitem (hvalues item hitem)).mp (hsame item hitem)⟩
    · rintro ⟨horder, hstable⟩
      exact ⟨horder, fun item hitem => (ih item hitem (hvalues item hitem)).mpr (hstable item hitem)⟩

end NexaHR
