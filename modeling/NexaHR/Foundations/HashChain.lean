import Mathlib.Data.List.Basic
import Mathlib.Tactic.Common

/-! # Hash chains

Rows that each carry the digest of their content, where the content names the digest of the row before.

* `Chaining`: where a row keeps its content, its digest and the digest before it.
* `Linked`: the rows form a chain from a digest on.
* `CollisionFree`: the hash is injective, and no content has the digest that the chain starts from.
* `digests_place`: no digest comes twice in a chain.
* `content_of_digests`: a chain of old digests only is a beginning of the old chain.
* `not_linked_edited`, `not_linked_removed`, `not_linked_inserted`, `not_linked_reordered`: what breaks
  a chain.
-/

namespace NexaHR.Foundations

set_option autoImplicit false

variable {ρ κ δ : Type}

/-- Where a row keeps its content and its digests. The content names the digest before it. -/
structure Chaining (ρ κ δ : Type) where
  content : ρ → κ
  digest : ρ → δ
  prev : κ → δ
  hash : κ → δ

/-- Every row names the digest before it and carries the digest of its content. -/
def Linked (c : Chaining ρ κ δ) : δ → List ρ → Prop
  | _, [] => True
  | d, r :: rows => c.prev (c.content r) = d ∧ c.hash (c.content r) = c.digest r ∧ Linked c (c.digest r) rows

/-- The digest that a chain ends with. -/
def lastDigest (c : Chaining ρ κ δ) (d : δ) (rows : List ρ) : δ := rows.foldl (fun _ r => c.digest r) d

structure CollisionFree (c : Chaining ρ κ δ) (genesis : δ) : Prop where
  injective : ∀ k k', c.hash k = c.hash k' → k = k'
  avoids : ∀ k, c.hash k ≠ genesis

section

variable {c : Chaining ρ κ δ} {d genesis : δ} {rows rows' pre post : List ρ} {r r' : ρ}

/-! ## Chains in parts -/

@[simp] theorem linked_nil : Linked c d [] := trivial

@[simp] theorem linked_cons : Linked c d (r :: rows) ↔
    c.prev (c.content r) = d ∧ c.hash (c.content r) = c.digest r ∧ Linked c (c.digest r) rows := Iff.rfl

theorem linked_append : Linked c d (pre ++ post) ↔ Linked c d pre ∧ Linked c (lastDigest c d pre) post := by
  induction pre generalizing d with
  | nil => exact ⟨fun h => ⟨trivial, h⟩, fun h => h.2⟩
  | cons r pre ih =>
    rw [List.cons_append, linked_cons, linked_cons, ih]
    simp only [lastDigest, List.foldl_cons, and_assoc]

/-- The digests of a chain, with the one that it starts from. -/
def digests (c : Chaining ρ κ δ) (d : δ) (rows : List ρ) : List δ := d :: rows.map c.digest

theorem length_digests : (digests c d rows).length = rows.length + 1 := by simp [digests]

theorem digests_append : digests c d (pre ++ post) = digests c d pre ++ post.map c.digest := by
  simp [digests]

/-- What a chain says of its row at a place. -/
theorem linked_place (h : Linked c d rows) {i : Nat} (hr : rows[i]? = some r) :
    (digests c d rows)[i]? = some (c.prev (c.content r)) ∧
      (digests c d rows)[i + 1]? = some (c.digest r) ∧ c.hash (c.content r) = c.digest r := by
  induction rows generalizing d i with
  | nil => simp at hr
  | cons s rows ih =>
    obtain ⟨hprev, hhash, hrest⟩ := h
    cases i with
    | zero =>
      have hs : s = r := by simpa using hr
      rw [← hs, hprev, hhash]
      simp [digests]
    | succ i =>
      have hstep := ih hrest (i := i) (by simpa using hr)
      simp only [digests, List.map_cons, List.getElem?_cons_succ] at hstep ⊢
      exact hstep

theorem Linked.hash_eq (h : Linked c d rows) (hr : r ∈ rows) : c.hash (c.content r) = c.digest r := by
  obtain ⟨i, hi⟩ := List.getElem?_of_mem hr
  exact (linked_place h hi).2.2

/-- The row behind a digest other than the first. -/
theorem row_of_digest {i : Nat} {e : δ} (hi : (digests c d rows)[i + 1]? = some e) :
    ∃ r, rows[i]? = some r ∧ c.digest r = e := by
  simpa [digests] using hi

/-! ## Digests -/

theorem digest_ne_genesis (hfree : CollisionFree c genesis) (h : Linked c genesis rows) {i : Nat}
    (hr : rows[i]? = some r) : c.digest r ≠ genesis := by
  rw [← (linked_place h hr).2.2]
  exact hfree.avoids _

theorem content_eq_of_digest (hfree : CollisionFree c genesis) (h : Linked c genesis rows)
    (h' : Linked c genesis rows') {i j : Nat} (hr : rows[i]? = some r) (hr' : rows'[j]? = some r')
    (heq : c.digest r = c.digest r') : c.content r = c.content r' := by
  apply hfree.injective
  rw [(linked_place h hr).2.2, (linked_place h' hr').2.2, heq]

/-- Two places with one digest are one place: from equal digests one goes back to equal digests before
them, and the first of all is the digest of nothing. -/
theorem digests_place (hfree : CollisionFree c genesis) (h : Linked c genesis rows) {i j : Nat} {e : δ}
    (hi : (digests c genesis rows)[i]? = some e) (hj : (digests c genesis rows)[j]? = some e) : i = j := by
  have hfirst : (digests c genesis rows)[0]? = some genesis := by simp [digests]
  induction i generalizing j e with
  | zero =>
    rw [hfirst] at hi
    cases j with
    | zero => rfl
    | succ j =>
      obtain ⟨r, hr, hdigest⟩ := row_of_digest hj
      rw [← Option.some.inj hi] at hdigest
      exact absurd hdigest (digest_ne_genesis hfree h hr)
  | succ i ih =>
    obtain ⟨r, hr, hdigest⟩ := row_of_digest hi
    cases j with
    | zero =>
      rw [hfirst] at hj
      rw [← Option.some.inj hj] at hdigest
      exact absurd hdigest (digest_ne_genesis hfree h hr)
    | succ j =>
      obtain ⟨r', hr', hdigest'⟩ := row_of_digest hj
      have hsame := content_eq_of_digest hfree h h hr hr' (hdigest.trans hdigest'.symm)
      have hprev := (linked_place h hr).1
      rw [hsame] at hprev
      have hij : i = j := ih hprev (linked_place h hr').1
      rw [hij]

/-- The row of an old digest that follows an old digest is the old row at its place. -/
theorem old_row (hfree : CollisionFree c genesis) (h : Linked c genesis rows)
    (h' : Linked c genesis rows') {i : Nat} (hr' : rows'[i]? = some r')
    (hold : c.digest r' ∈ rows.map c.digest)
    (hbefore : (digests c genesis rows)[i]? = (digests c genesis rows')[i]?) :
    ∃ r, rows[i]? = some r ∧ c.content r = c.content r' := by
  obtain ⟨r, hmem, hdigest⟩ := List.mem_map.mp hold
  obtain ⟨k, hr⟩ := List.getElem?_of_mem hmem
  have hsame := content_eq_of_digest hfree h h' hr hr' hdigest
  have hprev := (linked_place h hr).1
  rw [hsame, ← (linked_place h' hr').1, ← hbefore] at hprev
  have hlt : i < (digests c genesis rows').length := by
    have hi := (List.getElem?_eq_some_iff.mp hr').1
    rw [length_digests]
    omega
  rw [hbefore, List.getElem?_eq_getElem hlt] at hprev
  have hi := hbefore.trans (List.getElem?_eq_getElem hlt)
  have hk : k = i := digests_place hfree h hprev hi
  exact ⟨r, by rw [← hk]; exact hr, hsame⟩

/-- A chain of old digests only has, place by place, the contents of the old chain. -/
theorem content_of_digests (hfree : CollisionFree c genesis) (h : Linked c genesis rows)
    (h' : Linked c genesis rows') (hold : ∀ r ∈ rows', c.digest r ∈ rows.map c.digest) {i : Nat}
    (hr' : rows'[i]? = some r') : ∃ r, rows[i]? = some r ∧ c.content r = c.content r' := by
  induction i generalizing r' with
  | zero =>
    apply old_row hfree h h' hr' (hold r' (List.mem_of_getElem? hr'))
    simp [digests]
  | succ i ih =>
    have hlt := (List.getElem?_eq_some_iff.mp hr').1
    have hlast : rows'[i]? = some rows'[i] := List.getElem?_eq_getElem (by omega)
    obtain ⟨s, hs, hsame⟩ := ih hlast
    obtain ⟨-, hdigest, hhash⟩ := linked_place h hs
    obtain ⟨-, hdigest', hhash'⟩ := linked_place h' hlast
    apply old_row hfree h h' hr' (hold r' (List.mem_of_getElem? hr'))
    rw [hdigest, hdigest', ← hhash, ← hhash', hsame]

/-! ## What breaks a chain -/

/-- A row has another content, under its old digest or before another row, which names the old digest. -/
theorem not_linked_edited (hfree : CollisionFree c genesis) (h : Linked c genesis (pre ++ r :: post))
    (hplace : post ≠ [] ∨ c.digest r' = c.digest r) (hcontent : c.content r' ≠ c.content r) :
    ¬Linked c genesis (pre ++ r' :: post) := by
  intro h'
  have hdigest : c.digest r' = c.digest r := by
    rcases hplace with hpost | hsame
    · cases post with
      | nil => exact absurd rfl hpost
      | cons p post =>
        have hnext := (linked_append.mp h).2
        have hnext' := (linked_append.mp h').2
        rw [linked_cons, linked_cons] at hnext hnext'
        rw [← hnext.2.2.1, ← hnext'.2.2.1]
    · exact hsame
  have hr : (pre ++ r :: post)[pre.length]? = some r := by simp
  have hr' : (pre ++ r' :: post)[pre.length]? = some r' := by simp
  exact hcontent (content_eq_of_digest hfree h' h hr' hr hdigest)

/-- A row is missing before another one. -/
theorem not_linked_removed (hfree : CollisionFree c genesis) (h : Linked c genesis (pre ++ r :: post))
    (hpost : post ≠ []) : ¬Linked c genesis (pre ++ post) := by
  intro h'
  cases post with
  | nil => exact hpost rfl
  | cons p post =>
    have hr : (pre ++ r :: p :: post)[pre.length]? = some r := by simp
    have hp : (pre ++ r :: p :: post)[pre.length + 1]? = some p := by
      rw [List.getElem?_append_right (by omega)]
      simp
    have hp' : (pre ++ p :: post)[pre.length]? = some p := by simp
    -- The next row would follow both the missing row and the one before it.
    have hafter := (linked_place h hp).1
    have hbefore := (linked_place h' hp').1
    have hshared : (digests c genesis (pre ++ p :: post))[pre.length]? =
        (digests c genesis (pre ++ r :: p :: post))[pre.length]? := by
      rw [digests_append, digests_append, List.getElem?_append_left (by rw [length_digests]; omega),
        List.getElem?_append_left (by rw [length_digests]; omega)]
    rw [hshared] at hbefore
    have hplaces := digests_place hfree h hbefore hafter
    omega

/-- A row comes in before another one. -/
theorem not_linked_inserted (hfree : CollisionFree c genesis) (h : Linked c genesis (pre ++ post))
    (hpost : post ≠ []) : ¬Linked c genesis (pre ++ r :: post) :=
  fun h' => not_linked_removed hfree h' hpost h

/-- A row comes in at the end: it must be the one that carries on the chain. -/
theorem linked_concat : Linked c d (rows ++ [r]) ↔
    Linked c d rows ∧ c.prev (c.content r) = lastDigest c d rows ∧ c.hash (c.content r) = c.digest r := by
  rw [linked_append, linked_cons]
  simp

/-- The rows are in another order. -/
theorem not_linked_reordered (hfree : CollisionFree c genesis) (h : Linked c genesis rows)
    (hperm : rows'.Perm rows) (hne : rows'.map c.content ≠ rows.map c.content) :
    ¬Linked c genesis rows' := by
  intro h'
  apply hne
  apply List.ext_getElem?
  intro i
  rw [List.getElem?_map, List.getElem?_map]
  cases hr' : rows'[i]? with
  | none =>
    have hlen := hperm.length_eq
    have hge := List.getElem?_eq_none_iff.mp hr'
    rw [List.getElem?_eq_none (by omega)]
  | some r' =>
    have hold : ∀ r ∈ rows', c.digest r ∈ rows.map c.digest := by
      intro r hr
      exact List.mem_map_of_mem (hperm.mem_iff.mp hr)
    obtain ⟨r, hr, hsame⟩ := content_of_digests hfree h h' hold hr'
    rw [hr, Option.map_some, Option.map_some, hsame]

end

end NexaHR.Foundations
