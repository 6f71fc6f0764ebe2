import Mathlib.Data.List.Basic

/-! # At most once

A sweep over a list that keeps the first item of every key, unless the key was seen before the sweep.

* `once key seen as`: the items that are kept.
* `mem_of_mem_once`, `exists_mem_once`: every kept item is new, and every new key is kept.
* `mem_once_iff`: where the key tells the items apart, exactly the new items are kept.
* `once_pairwise`: no key is kept twice.
-/

namespace NexaHR.Foundations

set_option autoImplicit false

variable {α κ : Type} [DecidableEq κ]

def once (key : α → κ) : List κ → List α → List α
  | _, [] => []
  | seen, a :: as => if key a ∈ seen then once key seen as else a :: once key (key a :: seen) as

variable {key : α → κ} {seen : List κ} {as : List α} {a : α}

theorem once_cons_seen (h : key a ∈ seen) : once key seen (a :: as) = once key seen as := by
  rw [once, if_pos h]

theorem once_cons_new (h : key a ∉ seen) :
    once key seen (a :: as) = a :: once key (key a :: seen) as := by
  rw [once, if_neg h]

theorem mem_of_mem_once (h : a ∈ once key seen as) : a ∈ as ∧ key a ∉ seen := by
  induction as generalizing seen with
  | nil => cases h
  | cons b bs ih =>
    by_cases hb : key b ∈ seen
    · rw [once_cons_seen hb] at h
      obtain ⟨hmem, hnew⟩ := ih h
      exact ⟨List.mem_cons_of_mem b hmem, hnew⟩
    · rw [once_cons_new hb] at h
      rcases List.mem_cons.mp h with rfl | h
      · exact ⟨List.mem_cons_self, hb⟩
      · obtain ⟨hmem, hnew⟩ := ih h
        exact ⟨List.mem_cons_of_mem b hmem, fun hs => hnew (List.mem_cons_of_mem _ hs)⟩

theorem exists_mem_once (h : a ∈ as) (hnew : key a ∉ seen) : ∃ b ∈ once key seen as, key b = key a := by
  induction as generalizing seen with
  | nil => cases h
  | cons b bs ih =>
    by_cases hb : key b ∈ seen
    · rw [once_cons_seen hb]
      rcases List.mem_cons.mp h with rfl | h
      · exact absurd hb hnew
      · exact ih h hnew
    · rw [once_cons_new hb]
      by_cases hab : key b = key a
      · exact ⟨b, List.mem_cons_self, hab⟩
      · rcases List.mem_cons.mp h with rfl | h
        · exact absurd rfl hab
        · have hseen : key a ∉ key b :: seen := by
            simp only [List.mem_cons, not_or]
            exact ⟨fun he => hab he.symm, hnew⟩
          obtain ⟨c, hc, hkey⟩ := ih h hseen
          exact ⟨c, List.mem_cons_of_mem b hc, hkey⟩

theorem mem_once_iff (hinj : ∀ b ∈ as, ∀ c ∈ as, key b = key c → b = c) :
    a ∈ once key seen as ↔ a ∈ as ∧ key a ∉ seen := by
  constructor
  · exact mem_of_mem_once
  · rintro ⟨hmem, hnew⟩
    obtain ⟨b, hb, hkey⟩ := exists_mem_once hmem hnew
    rw [← hinj b (mem_of_mem_once hb).1 a hmem hkey]
    exact hb

theorem once_pairwise (key : α → κ) (seen : List κ) (as : List α) :
    (once key seen as).Pairwise fun a b => key a ≠ key b := by
  induction as generalizing seen with
  | nil => exact List.Pairwise.nil
  | cons b bs ih =>
    by_cases hb : key b ∈ seen
    · rw [once_cons_seen hb]
      exact ih seen
    · rw [once_cons_new hb, List.pairwise_cons]
      refine ⟨?_, ih _⟩
      intro c hc heq
      exact (mem_of_mem_once hc).2 (heq ▸ List.mem_cons_self)

end NexaHR.Foundations
