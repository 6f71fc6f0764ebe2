import Mathlib.Data.List.Nodup
import Mathlib.Data.List.TakeWhile

/-! # Calls and their answers

Some messages of an exchange take the floor and make calls, each under a key; other messages answer a key. A call
has to be answered once before somebody takes the floor again.

* `Answered opens answers l`: so it is with all calls of the exchange.
* `openKeys`: the calls of the last message that took the floor.
* `answered_open`: what a message and its answers need at the end of an exchange.
* `answered_append`: what may be said without taking the floor.
-/

namespace NexaHR.Foundations

set_option autoImplicit false

variable {μ κ : Type} (opens : μ → Option (List κ)) (answers : μ → Option κ)

/-- The keys that are answered before the next message that takes the floor. -/
def answersAhead (l : List μ) : List κ := (l.takeWhile fun m => (opens m).isNone).filterMap answers

def openKeys (l : List μ) : List κ := ((l.filterMap opens).getLast?).getD []

def Answered [DecidableEq κ] : List μ → Prop
  | [] => True
  | m :: rest => (∀ k ∈ (opens m).getD [], (answersAhead opens answers rest).count k = 1) ∧ Answered rest

instance decidableAnswered [DecidableEq κ] : (l : List μ) → Decidable (Answered opens answers l)
  | [] => isTrue trivial
  | _ :: rest => @instDecidableAnd _ _ _ (decidableAnswered rest)

section

variable {opens answers} {m : μ} {l tail : List μ} {keys : List κ}

theorem takeWhile_open (htail : ∀ m ∈ tail, opens m = none) :
    tail.takeWhile (fun m => (opens m).isNone) = tail := by
  rw [List.takeWhile_eq_self_iff]
  intro m hm
  rw [htail m hm]
  rfl

theorem answersAhead_tail (htail : ∀ m ∈ tail, opens m = none) :
    answersAhead opens answers tail = tail.filterMap answers := by
  unfold answersAhead
  rw [takeWhile_open htail]

/-- What stands behind a message that takes the floor does not answer what stands before it. -/
theorem answersAhead_open (hm : opens m = some keys) :
    answersAhead opens answers (l ++ m :: tail) = answersAhead opens answers l := by
  induction l with
  | nil =>
    unfold answersAhead
    rw [List.nil_append, List.takeWhile_cons_of_neg (by rw [hm]; simp)]
    rfl
  | cons a l ih =>
    unfold answersAhead at ih ⊢
    rw [List.cons_append]
    cases ha : opens a with
    | none =>
      rw [List.takeWhile_cons_of_pos (by rw [ha]; rfl), List.takeWhile_cons_of_pos (by rw [ha]; rfl)]
      cases hans : answers a with
      | none => rw [List.filterMap_cons_none hans, List.filterMap_cons_none hans, ih]
      | some k => rw [List.filterMap_cons_some hans, List.filterMap_cons_some hans, ih]
    | some ks =>
      rw [List.takeWhile_cons_of_neg (by rw [ha]; simp), List.takeWhile_cons_of_neg (by rw [ha]; simp)]

theorem filterMap_open (hnone : ∀ m ∈ l, opens m = none) : l.filterMap opens = [] := by
  rw [List.filterMap_eq_nil_iff]
  exact hnone

theorem openKeys_cons_open {a : μ} (h : ∃ m ∈ l, (opens m).isSome = true) : openKeys opens (a :: l) = openKeys opens l := by
  obtain ⟨m, hm, hsome⟩ := h
  obtain ⟨ks, hks⟩ := Option.isSome_iff_exists.mp hsome
  have hne : l.filterMap opens ≠ [] := by
    intro hnil
    have hmem : ks ∈ l.filterMap opens := List.mem_filterMap.mpr ⟨m, hm, hks⟩
    rw [hnil] at hmem
    cases hmem
  unfold openKeys
  cases ha : opens a with
  | none => rw [List.filterMap_cons_none ha]
  | some keys =>
    rw [List.filterMap_cons_some ha]
    obtain ⟨first, rest, hcons⟩ := List.exists_cons_of_ne_nil hne
    rw [hcons, List.getLast?_cons_cons]

theorem openKeys_cons_last {a : μ} (h : ∀ m ∈ l, opens m = none) : openKeys opens (a :: l) = (opens a).getD [] := by
  unfold openKeys
  cases ha : opens a with
  | none => rw [List.filterMap_cons_none ha, filterMap_open h]; rfl
  | some keys => rw [List.filterMap_cons_some ha, filterMap_open h]; rfl

variable [DecidableEq κ]

theorem answered_cons : Answered opens answers (m :: l) ↔
    (∀ k ∈ (opens m).getD [], (answersAhead opens answers l).count k = 1) ∧ Answered opens answers l := Iff.rfl

theorem answered_cons_none (hm : opens m = none) : Answered opens answers (m :: l) ↔ Answered opens answers l := by
  rw [answered_cons, hm]
  simp

theorem answered_tail (htail : ∀ m ∈ tail, opens m = none) : Answered opens answers tail := by
  induction tail with
  | nil => trivial
  | cons m tail ih =>
    rw [answered_cons_none (htail m List.mem_cons_self)]
    exact ih fun n hn => htail n (List.mem_cons_of_mem _ hn)

theorem answered_open (hm : opens m = some keys) (htail : ∀ m ∈ tail, opens m = none) :
    Answered opens answers (l ++ m :: tail) ↔
      Answered opens answers l ∧ ∀ k ∈ keys, (tail.filterMap answers).count k = 1 := by
  induction l with
  | nil =>
    rw [List.nil_append, answered_cons, hm, Option.getD_some, answersAhead_tail htail]
    constructor
    · intro h
      exact ⟨trivial, h.1⟩
    · intro h
      exact ⟨h.2, answered_tail htail⟩
  | cons a l ih =>
    rw [List.cons_append, answered_cons, answered_cons, answersAhead_open hm, ih, and_assoc]

/-- Whoever does not take the floor must not answer again. -/
theorem answered_append (hl : Answered opens answers l) (htail : ∀ m ∈ tail, opens m = none) :
    Answered opens answers (l ++ tail) ↔ ∀ k ∈ openKeys opens l, k ∉ tail.filterMap answers := by
  induction l with
  | nil =>
    rw [List.nil_append]
    exact iff_of_true (answered_tail htail) fun k hk => absurd hk List.not_mem_nil
  | cons a l ih =>
    obtain ⟨hkeys, hrest⟩ := hl
    rw [List.cons_append, answered_cons, ih hrest]
    by_cases hopen : ∃ m ∈ l, (opens m).isSome = true
    · rw [openKeys_cons_open hopen]
      obtain ⟨m, hm, hsome⟩ := hopen
      obtain ⟨ks, hks⟩ := Option.isSome_iff_exists.mp hsome
      obtain ⟨before, after, rfl⟩ := List.append_of_mem hm
      have hahead : answersAhead opens answers (before ++ m :: after ++ tail) =
          answersAhead opens answers (before ++ m :: after) := by
        rw [List.append_assoc, List.cons_append, answersAhead_open hks, answersAhead_open hks]
      rw [hahead]
      exact and_iff_right hkeys
    · have hnone : ∀ m ∈ l, opens m = none := by
        intro m hm
        cases hm' : opens m with
        | none => rfl
        | some ks => exact absurd ⟨m, hm, by rw [hm']; rfl⟩ hopen
      have hall : ∀ m ∈ l ++ tail, opens m = none := by
        intro m hm
        rcases List.mem_append.mp hm with h | h
        · exact hnone m h
        · exact htail m h
      rw [openKeys_cons_last hnone, answersAhead_tail hall, List.filterMap_append]
      rw [answersAhead_tail hnone] at hkeys
      have hempty : openKeys opens l = [] := by
        unfold openKeys
        rw [filterMap_open hnone]
        rfl
      rw [hempty]
      constructor
      · intro h k hk hmem
        have hcount := h.1 k hk
        rw [List.count_append, hkeys k hk] at hcount
        have hpos := List.count_pos_iff.mpr hmem
        omega
      · intro h
        refine ⟨?_, fun k hk => absurd hk List.not_mem_nil⟩
        intro k hk
        rw [List.count_append, hkeys k hk, List.count_eq_zero_of_not_mem (h k hk)]

end

end NexaHR.Foundations
