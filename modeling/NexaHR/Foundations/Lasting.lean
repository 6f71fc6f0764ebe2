import NexaHR.Foundations.Table

/-! # Tables later on

Rows are written, added and deleted; keys are not given twice. What the writes keep of a row, the rows that
are read later under its key have as well.

* `Table.Later R t t'`: every row of `t'` is a row of `t` as `R` allows it to change, or has a new key.
* `Table.Settled P k t`: the key was given, and no row without `P` bears it.
* `Table.Settled.later`: this stays so, if the allowed changes keep `P`.
-/

namespace NexaHR.Foundations

set_option autoImplicit false

namespace Table

variable {α : Type} [HasId α] {R : α → α → Prop} {t t' t'' : Table α}

structure Later (R : α → α → Prop) (t t' : Table α) : Prop where
  seq_le : t.seq ≤ t'.seq
  rows : ∀ b ∈ t', (∃ a ∈ t, HasId.id a = HasId.id b ∧ R a b) ∨ t.seq < HasId.id b

/-- Some rows are kept, possibly changed, and none is added. -/
theorem Later.of_old (hseq : t'.seq = t.seq)
    (hrows : ∀ b ∈ t', ∃ a ∈ t, HasId.id a = HasId.id b ∧ R a b) : Later R t t' where
  seq_le := Nat.le_of_eq hseq.symm
  rows := fun b hb => Or.inl (hrows b hb)

theorem Later.refl (hR : ∀ a, R a a) (t : Table α) : Later R t t :=
  Later.of_old rfl fun a ha => ⟨a, ha, rfl, hR a⟩

theorem Later.trans (hR : ∀ a b c, R a b → R b c → R a c) (h : Later R t t') (h' : Later R t' t'') :
    Later R t t'' where
  seq_le := Nat.le_trans h.seq_le h'.seq_le
  rows := by
    intro c hc
    obtain ⟨b, hb, hbc, hRbc⟩ | hnew := h'.rows c hc
    · obtain ⟨a, ha, hab, hRab⟩ | hnew := h.rows b hb
      · exact Or.inl ⟨a, ha, hab.trans hbc, hR a b c hRab hRbc⟩
      · right
        omega
    · have hle := h.seq_le
      right
      omega

theorem later_put {a b : α} (hR : ∀ a, R a a) (ha : a ∈ t) (hid : HasId.id a = HasId.id b) (hab : R a b) :
    Later R t (t.put b) := by
  refine Later.of_old (seq_put t b) ?_
  intro c hc
  obtain ⟨hold, -⟩ | rfl := mem_put hc
  · exact ⟨c, hold, rfl, hR c⟩
  · exact ⟨a, ha, hid, hab⟩

theorem later_filter (hR : ∀ a, R a a) (t : Table α) (keep : α → Bool) : Later R t (t.filter keep) := by
  refine Later.of_old (seq_filter t keep) ?_
  intro a ha
  exact ⟨a, (mem_filter.mp ha).1, rfl, hR a⟩

theorem later_insert (hR : ∀ a, R a a) (t : Table α) {mk : Nat → α} (hmk : ∀ n, HasId.id (mk n) = n) :
    Later R t (t.insert mk hmk) where
  seq_le := Nat.le_succ _
  rows := by
    intro a ha
    obtain hold | rfl := (mem_insert hmk).mp ha
    · exact Or.inl ⟨a, hold, rfl, hR a⟩
    · right
      rw [hmk]
      exact Nat.lt_succ_self _

/-! ## What stays true of a key -/

def Settled (P : α → Prop) (k : Nat) (t : Table α) : Prop :=
  k ≤ t.seq ∧ ∀ a ∈ t, HasId.id a = k → P a

theorem settled_of_mem {P : α → Prop} {a : α} (ha : a ∈ t) (hP : P a) : Settled P (HasId.id a) t := by
  refine ⟨t.le_seq a ha, ?_⟩
  intro b hb hid
  rw [eq_of_id_eq hb ha hid]
  exact hP

theorem Settled.later {P : α → Prop} {k : Nat} (h : Settled P k t) (hP : ∀ a b, R a b → P a → P b)
    (hlater : Later R t t') : Settled P k t' := by
  refine ⟨Nat.le_trans h.1 hlater.seq_le, ?_⟩
  intro b hb hid
  obtain ⟨a, ha, hab, hRab⟩ | hnew := hlater.rows b hb
  · exact hP a b hRab (h.2 a ha (hab.trans hid))
  · have hle := h.1
    omega

theorem Settled.mono {P Q : α → Prop} {k : Nat} (h : Settled P k t) (hPQ : ∀ a, P a → Q a) :
    Settled Q k t :=
  ⟨h.1, fun a ha hid => hPQ a (h.2 a ha hid)⟩

/-- The row that is put has the property, if it is put under the key. -/
theorem Settled.put {P : α → Prop} {k : Nat} {b : α} (h : Settled P k t) (hb : HasId.id b = k → P b) :
    Settled P k (t.put b) := by
  refine ⟨h.1, ?_⟩
  intro c hc hid
  obtain ⟨hold, -⟩ | rfl := mem_put hc
  · exact h.2 c hold hid
  · exact hb hid

theorem Settled.insert {P : α → Prop} {k : Nat} {mk : Nat → α} (h : Settled P k t)
    (hmk : ∀ n, HasId.id (mk n) = n) : Settled P k (t.insert mk hmk) := by
  refine ⟨Nat.le_succ_of_le h.1, ?_⟩
  intro a ha hid
  obtain hold | rfl := (mem_insert hmk).mp ha
  · exact h.2 a hold hid
  · rw [hmk] at hid
    have hle := h.1
    omega

theorem Settled.filter {P : α → Prop} {k : Nat} {keep : α → Bool} (h : Settled P k t) :
    Settled P k (t.filter keep) :=
  ⟨h.1, fun a ha hid => h.2 a (mem_filter.mp ha).1 hid⟩

end Table

end NexaHR.Foundations
