import Mathlib.Data.List.Basic
import Mathlib.Tactic.Common

/-! # Words between separators

The words of a sequence are its longest parts without a separator.

* `words p l`: the words, where `p` holds of the separators.
* `words_append`: a separator between two sequences keeps their words apart.
* `words_intercalate`: the words of a joined list are those of its items.
* `begins p a b`: where a word begins; `length_words` counts the words by these places.
* `length_words_add`: two ways to separate words count alike but for the places where only one of them begins a word.
-/

namespace NexaHR.Foundations

set_option autoImplicit false

variable {α : Type} {p : α → Bool}

/-- The sequence begins with a word. -/
def startsWord (p : α → Bool) : List α → Bool
  | [] => false
  | a :: _ => !p a

theorem startsWord_cons (a : α) (l : List α) : startsWord p (a :: l) = !p a := rfl

/-- A letter before the first word, which is a word of its own if none follows at once. -/
def pushLetter (a : α) (joins : Bool) : List (List α) → List (List α)
  | [] => [[a]]
  | w :: ws => if joins then (a :: w) :: ws else [a] :: w :: ws

def words (p : α → Bool) : List α → List (List α)
  | [] => []
  | a :: l => if p a then words p l else pushLetter a (startsWord p l) (words p l)

@[simp] theorem words_nil : words p [] = [] := rfl

theorem words_cons_separator {a : α} {l : List α} (h : p a = true) : words p (a :: l) = words p l := by
  rw [words, if_pos h]

theorem words_cons_letter {a : α} {l : List α} (h : p a = false) :
    words p (a :: l) = pushLetter a (startsWord p l) (words p l) := by
  rw [words, h, if_neg Bool.false_ne_true]

theorem words_ne_nil {l : List α} (h : startsWord p l = true) : words p l ≠ [] := by
  cases l with
  | nil => cases h
  | cons a l =>
    have ha : p a = false := by simpa [startsWord] using h
    rw [words_cons_letter ha]
    unfold pushLetter
    split
    · exact List.cons_ne_nil _ _
    · split
      · exact List.cons_ne_nil _ _
      · exact List.cons_ne_nil _ _

theorem length_pushLetter (a : α) (joins : Bool) (ws : List (List α)) (h : joins = true → ws ≠ []) :
    (pushLetter a joins ws).length + (if joins then 1 else 0) = ws.length + 1 := by
  cases ws with
  | nil =>
    cases joins with
    | true => exact absurd rfl (h rfl)
    | false => rfl
  | cons w ws => cases joins <;> rfl

theorem startsWord_append {l m : List α} {sep : α} (hsep : p sep = true) :
    startsWord p (l ++ sep :: m) = startsWord p l := by
  cases l with
  | nil => simp [startsWord, hsep]
  | cons a l => rfl

theorem pushLetter_append {a : α} {joins : Bool} {ws ws' : List (List α)} (h : joins = true → ws ≠ []) :
    pushLetter a joins (ws ++ ws') = pushLetter a joins ws ++ ws' := by
  cases ws with
  | cons w ws => cases joins <;> rfl
  | nil =>
    cases joins with
    | true => exact absurd rfl (h rfl)
    | false => cases ws' <;> rfl

theorem words_append (l m : List α) {sep : α} (hsep : p sep = true) :
    words p (l ++ sep :: m) = words p l ++ words p m := by
  induction l with
  | nil => rw [List.nil_append, words_cons_separator hsep, words_nil, List.nil_append]
  | cons a l ih =>
    cases ha : p a with
    | true => rw [List.cons_append, words_cons_separator ha, words_cons_separator ha, ih]
    | false =>
      rw [List.cons_append, words_cons_letter ha, words_cons_letter ha, startsWord_append hsep, ih]
      exact pushLetter_append words_ne_nil

theorem words_intercalate (ls : List (List α)) {sep : α} (hsep : p sep = true) :
    words p ([sep].intercalate ls) = ls.flatMap (words p) := by
  induction ls with
  | nil => rfl
  | cons l ls ih =>
    cases ls with
    | nil => simp [List.intercalate]
    | cons l' ls =>
      have hsplit : [sep].intercalate (l :: l' :: ls) = l ++ sep :: [sep].intercalate (l' :: ls) := by
        simp [List.intercalate]
      rw [hsplit, words_append _ _ hsep, ih]
      rfl

/-- The letter is a word of its own, or the first one of a word. -/
theorem mem_pushLetter {a : α} {joins : Bool} {ws : List (List α)} {w : List α} (h : w ∈ pushLetter a joins ws) :
    w = [a] ∨ w ∈ ws ∨ ∃ w' ∈ ws, w = a :: w' := by
  cases ws with
  | nil =>
    rw [pushLetter, List.mem_singleton] at h
    exact Or.inl h
  | cons w' ws =>
    cases joins with
    | true =>
      rw [pushLetter, if_pos rfl] at h
      rcases List.mem_cons.mp h with rfl | h
      · exact Or.inr (Or.inr ⟨w', List.mem_cons_self, rfl⟩)
      · exact Or.inr (Or.inl (List.mem_cons_of_mem w' h))
    | false =>
      rw [pushLetter, if_neg Bool.false_ne_true] at h
      rcases List.mem_cons.mp h with rfl | h
      · exact Or.inl rfl
      · exact Or.inr (Or.inl h)

theorem letters_of_mem_words {l w : List α} (h : w ∈ words p l) : w ≠ [] ∧ ∀ a ∈ w, p a = false := by
  induction l generalizing w with
  | nil => cases h
  | cons b l ih =>
    cases hb : p b with
    | true =>
      rw [words_cons_separator hb] at h
      exact ih h
    | false =>
      rw [words_cons_letter hb] at h
      rcases mem_pushLetter h with rfl | hin | ⟨w', hw', rfl⟩
      · exact ⟨List.cons_ne_nil _ _, by simpa using hb⟩
      · exact ih hin
      · exact ⟨List.cons_ne_nil _ _, List.forall_mem_cons.mpr ⟨hb, (ih hw').2⟩⟩

theorem mem_of_mem_words {l w : List α} {a : α} (h : w ∈ words p l) (ha : a ∈ w) : a ∈ l := by
  induction l generalizing w with
  | nil => cases h
  | cons b l ih =>
    cases hb : p b with
    | true =>
      rw [words_cons_separator hb] at h
      exact List.mem_cons_of_mem b (ih h ha)
    | false =>
      rw [words_cons_letter hb] at h
      rcases mem_pushLetter h with heq | hin | ⟨w', hw', rfl⟩
      · rw [heq, List.mem_singleton] at ha
        rw [ha]
        exact List.mem_cons_self
      · exact List.mem_cons_of_mem b (ih hin ha)
      · rcases List.mem_cons.mp ha with rfl | ha
        · exact List.mem_cons_self
        · exact List.mem_cons_of_mem b (ih hw' ha)

/-! ## Counting words -/

/-- How many neighbours are related, from an item before the list on. -/
def countPairs (r : α → α → Bool) : α → List α → Nat
  | _, [] => 0
  | a, b :: l => (if r a b then 1 else 0) + countPairs r b l

theorem countPairs_eq_zero {r : α → α → Bool} {P : α → Prop} (hr : ∀ a b, P a → P b → r a b = false) {a : α}
    {l : List α} (ha : P a) (hl : ∀ b ∈ l, P b) : countPairs r a l = 0 := by
  induction l generalizing a with
  | nil => rfl
  | cons b l ih =>
    obtain ⟨hb, hl⟩ := List.forall_mem_cons.mp hl
    rw [countPairs, hr a b ha hb, ih hb hl]
    rfl

/-- A word begins with `b` behind `a`. -/
def begins (p : α → Bool) (a b : α) : Bool := p a && !p b

/-- Behind a letter the first word of the list may go on one that has begun before. -/
theorem length_words_behind (a : α) (l : List α) :
    (words p l).length = countPairs (begins p) a l + if !p a && startsWord p l then 1 else 0 := by
  induction l generalizing a with
  | nil => simp [countPairs, startsWord]
  | cons b l ih =>
    have hrest := ih b
    cases hb : p b with
    | true =>
      rw [words_cons_separator hb, hrest]
      simp [countPairs, begins, startsWord, hb]
    | false =>
      have hlength := length_pushLetter b (startsWord p l) (words p l) words_ne_nil
      rw [words_cons_letter hb]
      simp only [hb, Bool.not_false, Bool.true_and] at hrest
      simp only [countPairs, begins, startsWord_cons, hb, Bool.not_false, Bool.and_true]
      cases ha : p a with
      | true =>
        simp only [Bool.not_true, Bool.false_eq_true, if_true, if_false]
        omega
      | false =>
        simp only [Bool.not_false, Bool.false_eq_true, if_true, if_false]
        omega

theorem length_words {a : α} (ha : p a = true) (l : List α) : (words p l).length = countPairs (begins p) a l := by
  rw [length_words_behind a l, ha]
  simp

theorem countPairs_add (r s : α → α → Bool) (a : α) (l : List α) :
    countPairs r a l + countPairs (fun a b => s a b && !r a b) a l =
      countPairs s a l + countPairs (fun a b => r a b && !s a b) a l := by
  induction l generalizing a with
  | nil => rfl
  | cons b l ih =>
    have hrest := ih b
    cases hr : r a b <;> cases hs : s a b <;> simp [countPairs, hr, hs] <;> omega

theorem length_words_add {q : α → Bool} {a : α} (hp : p a = true) (hq : q a = true) (l : List α) :
    (words p l).length + countPairs (fun a b => begins q a b && !begins p a b) a l =
      (words q l).length + countPairs (fun a b => begins p a b && !begins q a b) a l := by
  rw [length_words hp, length_words hq]
  exact countPairs_add (begins p) (begins q) a l

/-- A word by itself is one word. -/
theorem length_words_word {l w : List α} (h : w ∈ words p l) : (words p w).length = 1 := by
  obtain ⟨hne, hletters⟩ := letters_of_mem_words h
  cases w with
  | nil => exact absurd rfl hne
  | cons b w =>
    have hb := hletters b List.mem_cons_self
    have hnone : countPairs (begins p) b w = 0 := by
      apply countPairs_eq_zero (P := fun a => p a = false) _ hb fun a ha => hletters a (List.mem_cons_of_mem b ha)
      intro a c ha _
      rw [begins, ha]
      rfl
    rw [length_words_behind b, countPairs, hnone, begins, startsWord_cons, hb]
    rfl

end NexaHR.Foundations
