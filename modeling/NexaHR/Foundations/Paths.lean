import Mathlib.Data.List.Basic
import Mathlib.Tactic.Common

/-! # Paths as they are written

A path is a text that separators cut into names. Two texts may spell the same path: what separates and which
characters are taken for the same is a matter of the file system.

* `Within root path`: the path is the root or lies inside it, name by name.
* `Stands root path`: the root's text stands at the beginning of the path and a name ends there.
* `within_iff_stands`: the two say the same.
-/

namespace NexaHR.Foundations

set_option autoImplicit false

/-- How a file system reads a path. -/
structure PathReading (α : Type) where
  separates : α → Bool
  /-- Two characters with one value are the same to it. -/
  fold : α → α
  /-- The name of the folder above. -/
  up : List α → Bool
  /-- A name that leads nowhere. -/
  idle : List α → Bool

namespace PathReading

variable {α : Type} (r : PathReading α)

def names (path : List α) : List (List α) := path.splitOnP r.separates

/-- Names that never lead above the folder `depth` levels up. -/
def stays : Nat → List (List α) → Bool
  | _, [] => true
  | depth, name :: rest =>
    if r.up name then depth ≠ 0 && stays (depth - 1) rest
    else if r.idle name then stays depth rest else stays (depth + 1) rest

/-- The path is the root or lies inside it, and does not climb out again. -/
def Within (root path : List α) : Prop :=
  ∃ first rest, r.names path = first ++ rest ∧ first.map (List.map r.fold) = (r.names root).map (List.map r.fold) ∧
    r.stays 0 rest = true

/-- A character as it is read inside a path. -/
def spelt (c : α) : Option α := if r.separates c then none else some (r.fold c)

/-- The root's text stands at the beginning of the path, and a name ends where it ends. -/
def Stands (root path : List α) : Prop :=
  ∃ head tail, path = head ++ tail ∧ head.map r.spelt = root.map r.spelt ∧
    (tail = [] ∨ ∃ c inner, tail = c :: inner ∧ r.separates c = true ∧ r.stays 0 (r.names inner) = true)

variable {r} {c : α} {l m : List α}

@[simp] theorem names_nil : r.names [] = [[]] := List.splitOnP_nil

theorem names_ne_nil : r.names l ≠ [] := List.splitOnP_ne_nil _ _

theorem names_cons_separator (hc : r.separates c = true) : r.names (c :: l) = [] :: r.names l := by
  unfold names
  rw [List.splitOnP_cons_eq_if_modifyHead, if_pos hc]

theorem names_cons_letter (hc : r.separates c = false) : r.names (c :: l) = (r.names l).modifyHead (c :: ·) := by
  unfold names
  rw [List.splitOnP_cons_eq_if_modifyHead, if_neg (by rw [hc]; decide)]

theorem names_append (hc : r.separates c = true) : r.names (l ++ c :: m) = r.names l ++ r.names m :=
  List.splitOnP_append_cons l m hc

/-- Where the names of a path part, a separator stands. -/
theorem names_eq_append {first rest : List (List α)} (h : r.names l = first ++ rest) (hfirst : first ≠ [])
    (hrest : rest ≠ []) :
    ∃ head c tail, l = head ++ c :: tail ∧ r.separates c = true ∧ r.names head = first ∧ r.names tail = rest := by
  induction l generalizing first with
  | nil =>
    rw [names_nil] at h
    have hlength := congrArg List.length h
    rw [List.length_append] at hlength
    have hone := List.length_pos_of_ne_nil hfirst
    have htwo := List.length_pos_of_ne_nil hrest
    simp only [List.length_cons, List.length_nil] at hlength
    omega
  | cons a l ih =>
    obtain ⟨name, others, rfl⟩ := List.exists_cons_of_ne_nil hfirst
    by_cases ha : r.separates a = true
    · rw [names_cons_separator ha, List.cons_append, List.cons.injEq] at h
      obtain ⟨rfl, h⟩ := h
      by_cases hothers : others = []
      · refine ⟨[], a, l, rfl, ha, ?_, ?_⟩
        · rw [hothers, names_nil]
        · rw [h, hothers, List.nil_append]
      · obtain ⟨head, c, tail, rfl, hc, hhead, htail⟩ := ih h hothers
        refine ⟨a :: head, c, tail, rfl, hc, ?_, htail⟩
        rw [names_cons_separator ha, hhead]
    · rw [Bool.not_eq_true] at ha
      rw [names_cons_letter ha] at h
      obtain ⟨n, ns, hns⟩ := List.exists_cons_of_ne_nil (names_ne_nil (r := r) (l := l))
      rw [hns, List.modifyHead_cons, List.cons_append, List.cons.injEq] at h
      obtain ⟨rfl, hothers⟩ := h
      have htogether : r.names l = (n :: others) ++ rest := by rw [hns, hothers, List.cons_append]
      obtain ⟨head, c, tail, rfl, hc, hhead, htail⟩ := ih htogether (List.cons_ne_nil _ _)
      refine ⟨a :: head, c, tail, rfl, hc, ?_, htail⟩
      rw [names_cons_letter ha, hhead, List.modifyHead_cons]

/-- Two texts have the same names when they are spelt alike. -/
theorem names_fold_iff :
    (r.names l).map (List.map r.fold) = (r.names m).map (List.map r.fold) ↔ l.map r.spelt = m.map r.spelt := by
  induction l generalizing m with
  | nil =>
    cases m with
    | nil => simp
    | cons b m =>
      by_cases hb : r.separates b = true
      · rw [names_cons_separator hb]
        simp [names_ne_nil]
      · rw [Bool.not_eq_true] at hb
        obtain ⟨n, ns, hns⟩ := List.exists_cons_of_ne_nil (names_ne_nil (r := r) (l := m))
        rw [names_cons_letter hb, hns]
        simp
  | cons a l ih =>
    cases m with
    | nil =>
      by_cases ha : r.separates a = true
      · rw [names_cons_separator ha]
        simp [names_ne_nil]
      · rw [Bool.not_eq_true] at ha
        obtain ⟨n, ns, hns⟩ := List.exists_cons_of_ne_nil (names_ne_nil (r := r) (l := l))
        rw [names_cons_letter ha, hns]
        simp
    | cons b m =>
      obtain ⟨n, ns, hns⟩ := List.exists_cons_of_ne_nil (names_ne_nil (r := r) (l := l))
      obtain ⟨k, ks, hks⟩ := List.exists_cons_of_ne_nil (names_ne_nil (r := r) (l := m))
      have hspelt := ih (m := m)
      rw [hns, hks] at hspelt
      by_cases ha : r.separates a = true <;> by_cases hb : r.separates b = true
      · rw [names_cons_separator ha, names_cons_separator hb, hns, hks]
        simpa [spelt, ha, hb] using hspelt
      · rw [Bool.not_eq_true] at hb
        rw [names_cons_separator ha, names_cons_letter hb, hns, hks]
        simp [spelt, ha, hb]
      · rw [Bool.not_eq_true] at ha
        rw [names_cons_letter ha, names_cons_separator hb, hns, hks]
        simp [spelt, ha, hb]
      · rw [Bool.not_eq_true] at ha hb
        rw [names_cons_letter ha, names_cons_letter hb, hns, hks]
        simp only [List.map_cons, List.cons.injEq] at hspelt
        simp [spelt, ha, hb, ← hspelt, and_assoc]

theorem within_iff_stands {root path : List α} : r.Within root path ↔ r.Stands root path := by
  constructor
  · intro h
    obtain ⟨first, rest, hnames, hfirst, hstays⟩ := h
    by_cases hrest : rest = []
    · rw [hrest, List.append_nil] at hnames
      rw [← hnames, names_fold_iff] at hfirst
      exact ⟨path, [], (List.append_nil path).symm, hfirst, Or.inl rfl⟩
    · have hne : first ≠ [] := by
        intro hnil
        rw [hnil, List.map_nil, eq_comm, List.map_eq_nil_iff] at hfirst
        exact names_ne_nil hfirst
      obtain ⟨head, c, tail, rfl, hc, rfl, rfl⟩ := names_eq_append hnames hne hrest
      exact ⟨head, c :: tail, rfl, names_fold_iff.mp hfirst, Or.inr ⟨c, tail, rfl, hc, hstays⟩⟩
  · intro h
    obtain ⟨head, tail, rfl, hhead, htail⟩ := h
    rw [← names_fold_iff] at hhead
    cases htail with
    | inl hnil =>
      refine ⟨r.names head, [], ?_, hhead, rfl⟩
      rw [hnil, List.append_nil, List.append_nil]
    | inr hinner =>
      obtain ⟨c, inner, rfl, hc, hstays⟩ := hinner
      exact ⟨r.names head, r.names inner, names_append hc, hhead, hstays⟩

end PathReading

end NexaHR.Foundations
