import Mathlib.Data.List.Find
import Mathlib.Data.List.Nodup

/-! # Tables of rows with a serial key

A `Table α` is what a relational table with a serial primary key gives to the code above it:
a list of rows whose keys are pairwise different, and the last key handed out. Both facts are
fields, so a table with two rows of one key cannot be written down. A row is never moved to
another key: `map` asks for a function that keeps keys, `insert` picks the next key itself.

* `get? t k`: the row of key `k`.
* `put t b`: the row of `b`'s key becomes `b`; a table without that key is unchanged.
* `insert t mk`: a new row under the next key.
* `filter t p`: the rows that satisfy `p`; the sequence does not go back.
-/

namespace NexaHR.Foundations

set_option autoImplicit false

/-- Rows that carry their own key. -/
class HasId (α : Type) where
  id : α → Nat

/-- Rows with pairwise different keys, none above the sequence's last value. -/
structure Table (α : Type) [HasId α] where
  rows : List α
  seq : Nat
  nodup : (rows.map HasId.id).Nodup
  le_seq : ∀ a ∈ rows, HasId.id a ≤ seq

namespace Table

variable {α : Type} [HasId α]

instance : Membership α (Table α) := ⟨fun t a => a ∈ t.rows⟩

theorem mem_def {t : Table α} {a : α} : a ∈ t ↔ a ∈ t.rows := Iff.rfl

/-- The table without rows. -/
def empty : Table α := ⟨[], 0, List.nodup_nil, by simp⟩

/-- The table of the given rows. -/
def ofRows (rows : List α) (h : (rows.map HasId.id).Nodup) : Table α where
  rows := rows
  seq := (rows.map HasId.id).foldr max 0
  nodup := h
  le_seq := by
    intro a ha
    have hmem : HasId.id a ∈ rows.map HasId.id := List.mem_map_of_mem ha
    generalize rows.map HasId.id = ks at hmem ⊢
    induction ks with
    | nil => cases hmem
    | cons k ks ih =>
      rw [List.foldr_cons]
      rcases List.mem_cons.mp hmem with rfl | hk
      · exact Nat.le_max_left _ _
      · exact Nat.le_trans (ih hk) (Nat.le_max_right _ _)

/-- The row of key `k`. -/
def get? (t : Table α) (k : Nat) : Option α := t.rows.find? fun a => HasId.id a == k

/-- Every row rewritten by a function that keeps keys. -/
def map (t : Table α) (f : α → α) (hf : ∀ a, HasId.id (f a) = HasId.id a) : Table α where
  rows := t.rows.map f
  seq := t.seq
  nodup := by
    rw [List.map_map, show HasId.id ∘ f = HasId.id from funext hf]
    exact t.nodup
  le_seq := by
    intro b hb
    obtain ⟨a, ha, rfl⟩ := List.mem_map.mp hb
    rw [hf]
    exact t.le_seq a ha

/-- The row of `b`'s key becomes `b`. -/
def put (t : Table α) (b : α) : Table α :=
  t.map (fun a => if HasId.id a = HasId.id b then b else a) (by
    intro a
    split
    next h => exact h.symm
    next => rfl)

/-- A new row under the next key of the sequence. -/
def insert (t : Table α) (mk : Nat → α) (hmk : ∀ n, HasId.id (mk n) = n) : Table α where
  rows := t.rows ++ [mk (t.seq + 1)]
  seq := t.seq + 1
  nodup := by
    rw [List.map_append, List.map_singleton, hmk]
    refine List.nodup_append.mpr ⟨t.nodup, List.nodup_singleton _, ?_⟩
    intro k hk l hl
    obtain ⟨a, ha, rfl⟩ := List.mem_map.mp hk
    rw [List.mem_singleton.mp hl]
    have hle := t.le_seq a ha
    omega
  le_seq := by
    intro a ha
    rcases List.mem_append.mp ha with h | h
    · exact Nat.le_succ_of_le (t.le_seq a h)
    · rw [List.mem_singleton.mp h]
      exact Nat.le_of_eq (hmk _)

/-- The rows that satisfy `p`. -/
def filter (t : Table α) (p : α → Bool) : Table α where
  rows := t.rows.filter p
  seq := t.seq
  nodup := t.nodup.sublist (List.filter_sublist.map _)
  le_seq := fun a ha => t.le_seq a (List.mem_of_mem_filter ha)

/-! ## Lookup -/

theorem eq_of_id_eq {t : Table α} {a b : α} (ha : a ∈ t) (hb : b ∈ t)
    (h : HasId.id a = HasId.id b) : a = b :=
  List.inj_on_of_nodup_map t.nodup ha hb h

theorem get?_eq_some {t : Table α} {k : Nat} {a : α} :
    t.get? k = some a ↔ a ∈ t ∧ HasId.id a = k := by
  constructor
  · intro h
    exact ⟨List.mem_of_find?_eq_some h, by simpa using List.find?_some h⟩
  · rintro ⟨ha, rfl⟩
    cases h : t.get? (HasId.id a) with
    | none =>
      have hne := List.find?_eq_none.mp h a ha
      simp at hne
    | some b =>
      have hb : b ∈ t := List.mem_of_find?_eq_some h
      have hid : HasId.id b = HasId.id a := by simpa using List.find?_some h
      rw [eq_of_id_eq hb ha hid]

theorem mem_of_get? {t : Table α} {k : Nat} {a : α} (h : t.get? k = some a) : a ∈ t :=
  (get?_eq_some.mp h).1

theorem id_of_get? {t : Table α} {k : Nat} {a : α} (h : t.get? k = some a) : HasId.id a = k :=
  (get?_eq_some.mp h).2

theorem get?_of_mem {t : Table α} {a : α} (h : a ∈ t) : t.get? (HasId.id a) = some a :=
  get?_eq_some.mpr ⟨h, rfl⟩

theorem le_seq_of_get? {t : Table α} {k : Nat} {a : α} (h : t.get? k = some a) : k ≤ t.seq := by
  rw [← id_of_get? h]
  exact t.le_seq a (mem_of_get? h)

@[simp] theorem get?_empty (k : Nat) : (empty : Table α).get? k = none := rfl

@[simp] theorem not_mem_empty (a : α) : a ∉ (empty : Table α) := List.not_mem_nil

/-! ## What each operation does to lookups and membership -/

theorem mem_map {t : Table α} {f : α → α} {hf : ∀ a, HasId.id (f a) = HasId.id a} {b : α} :
    b ∈ t.map f hf ↔ ∃ a ∈ t, f a = b := List.mem_map

theorem get?_map (t : Table α) (f : α → α) (hf : ∀ a, HasId.id (f a) = HasId.id a) (k : Nat) :
    (t.map f hf).get? k = (t.get? k).map f := by
  have h : ((fun a => HasId.id a == k) ∘ f) = fun a => HasId.id a == k :=
    funext fun a => by simp [hf a]
  show (t.rows.map f).find? (fun a => HasId.id a == k) = _
  rw [List.find?_map, h]
  rfl

theorem get?_put_self {t : Table α} {a b : α} (h : t.get? (HasId.id b) = some a) :
    (t.put b).get? (HasId.id b) = some b := by
  have hid := id_of_get? h
  rw [put, get?_map, h]
  simp [hid]

theorem get?_put_ne {t : Table α} {b : α} {k : Nat} (h : k ≠ HasId.id b) :
    (t.put b).get? k = t.get? k := by
  rw [put, get?_map]
  cases hk : t.get? k with
  | none => rfl
  | some a =>
    have hid := id_of_get? hk
    simp [hid, h]

theorem mem_put {t : Table α} {b c : α} (h : c ∈ t.put b) :
    (c ∈ t ∧ HasId.id c ≠ HasId.id b) ∨ c = b := by
  obtain ⟨a, ha, rfl⟩ := mem_map.mp h
  by_cases hid : HasId.id a = HasId.id b
  · right; simp [hid]
  · left; simp [hid, ha]

theorem mem_put_of_ne {t : Table α} {a b : α} (ha : a ∈ t) (h : HasId.id a ≠ HasId.id b) : a ∈ t.put b :=
  mem_map.mpr ⟨a, ha, if_neg h⟩

theorem mem_put_self {t : Table α} {a b : α} (ha : a ∈ t) (h : HasId.id a = HasId.id b) : b ∈ t.put b :=
  mem_map.mpr ⟨a, ha, if_pos h⟩

@[simp] theorem seq_map (t : Table α) (f : α → α) (hf : ∀ a, HasId.id (f a) = HasId.id a) :
    (t.map f hf).seq = t.seq := rfl

@[simp] theorem seq_put (t : Table α) (b : α) : (t.put b).seq = t.seq := rfl

@[simp] theorem seq_insert (t : Table α) (mk : Nat → α) (hmk : ∀ n, HasId.id (mk n) = n) :
    (t.insert mk hmk).seq = t.seq + 1 := rfl

@[simp] theorem seq_filter (t : Table α) (p : α → Bool) : (t.filter p).seq = t.seq := rfl

theorem mem_insert {t : Table α} {mk : Nat → α} (hmk : ∀ n, HasId.id (mk n) = n) {a : α} :
    a ∈ t.insert mk hmk ↔ a ∈ t ∨ a = mk (t.seq + 1) := by
  simp [mem_def, insert]

theorem get?_insert_self (t : Table α) (mk : Nat → α) (hmk : ∀ n, HasId.id (mk n) = n) :
    (t.insert mk hmk).get? (t.seq + 1) = some (mk (t.seq + 1)) :=
  get?_eq_some.mpr ⟨(mem_insert hmk).mpr (Or.inr rfl), hmk _⟩

theorem get?_insert_ne (t : Table α) (mk : Nat → α) (hmk : ∀ n, HasId.id (mk n) = n) {k : Nat}
    (h : k ≠ t.seq + 1) : (t.insert mk hmk).get? k = t.get? k := by
  have hne : t.seq + 1 ≠ k := fun he => h he.symm
  simp [get?, insert, hmk, hne]

theorem get?_insert_of_get? {t : Table α} {mk : Nat → α} (hmk : ∀ n, HasId.id (mk n) = n)
    {k : Nat} {a : α} (h : t.get? k = some a) : (t.insert mk hmk).get? k = some a := by
  have hle := le_seq_of_get? h
  rw [get?_insert_ne t mk hmk (by omega)]
  exact h

theorem mem_filter {t : Table α} {p : α → Bool} {a : α} : a ∈ t.filter p ↔ a ∈ t ∧ p a = true :=
  List.mem_filter

theorem get?_filter (t : Table α) (p : α → Bool) (k : Nat) :
    (t.filter p).get? k = (t.get? k).filter p := by
  cases h : t.get? k with
  | none =>
    refine Option.eq_none_iff_forall_ne_some.mpr fun a ha => ?_
    obtain ⟨hm, hid⟩ := get?_eq_some.mp ha
    have := get?_eq_some.mpr ⟨(mem_filter.mp hm).1, hid⟩
    rw [h] at this
    exact absurd this (by simp)
  | some a =>
    obtain ⟨hm, hid⟩ := get?_eq_some.mp h
    cases hp : p a with
    | true =>
      rw [Option.filter_some, hp]
      exact get?_eq_some.mpr ⟨mem_filter.mpr ⟨hm, hp⟩, hid⟩
    | false =>
      rw [Option.filter_some, hp]
      refine Option.eq_none_iff_forall_ne_some.mpr fun b hb => ?_
      obtain ⟨hbm, hbid⟩ := get?_eq_some.mp hb
      obtain ⟨hbt, hbp⟩ := mem_filter.mp hbm
      rw [eq_of_id_eq hbt hm (hbid.trans hid.symm), hp] at hbp
      exact absurd hbp (by simp)

theorem get?_put (t : Table α) (b : α) (k : Nat) :
    (t.put b).get? k = (t.get? k).map fun a => if HasId.id a = HasId.id b then b else a :=
  get?_map t _ _ k

/-- A row is found by the same columns after `put`, where the new row agrees in them with the old one. -/
theorem find?_put {t : Table α} {a b : α} {p : α → Bool} (ha : a ∈ t) (hid : HasId.id a = HasId.id b)
    (hp : p b = p a) :
    (t.put b).rows.find? p = (t.rows.find? p).map fun c => if HasId.id c = HasId.id b then b else c := by
  show (t.rows.map _).find? p = _
  rw [List.find?_map]
  refine congrArg (Option.map _) (List.find?_congr ?_)
  intro c hc
  show p (if HasId.id c = HasId.id b then b else c) = p c
  by_cases hcb : HasId.id c = HasId.id b
  · have hca : c = a := eq_of_id_eq hc ha (hcb.trans hid.symm)
    rw [if_pos hcb, hca, hp]
  · rw [if_neg hcb]

/-! ## Growth -/

/-- Rows are only added, under keys that were not handed out before. -/
structure Grows (t t' : Table α) : Prop where
  keeps : ∀ k a, t.get? k = some a → t'.get? k = some a
  fresh : ∀ k a, t'.get? k = some a → t.get? k = some a ∨ t.seq < k
  seq_le : t.seq ≤ t'.seq

theorem Grows.refl (t : Table α) : Grows t t where
  keeps := fun _ _ h => h
  fresh := fun _ _ h => Or.inl h
  seq_le := Nat.le_refl _

theorem Grows.trans {t t' t'' : Table α} (h : Grows t t') (h' : Grows t' t'') : Grows t t'' where
  keeps := fun k a hk => h'.keeps k a (h.keeps k a hk)
  fresh := by
    intro k a hk
    rcases h'.fresh k a hk with hk' | hlt
    · exact h.fresh k a hk'
    · exact Or.inr (Nat.lt_of_le_of_lt h.seq_le hlt)
  seq_le := Nat.le_trans h.seq_le h'.seq_le

theorem Grows.of_insert (t : Table α) {mk : Nat → α} (hmk : ∀ n, HasId.id (mk n) = n) :
    Grows t (t.insert mk hmk) where
  keeps := fun k a hk => get?_insert_of_get? hmk hk
  fresh := by
    intro k a hk
    by_cases hnew : k = t.seq + 1
    · right
      omega
    · left
      rw [get?_insert_ne t mk hmk hnew] at hk
      exact hk
  seq_le := Nat.le_succ _

end Table

end NexaHR.Foundations
