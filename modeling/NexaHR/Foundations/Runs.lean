import Mathlib.Data.List.Basic
import Mathlib.Tactic.Common

/-! # Runs of a labelled system, with their history

A run is kept as its history: the list of the steps taken, the newest first, each with the
state before, the label and the state after. Past-time properties are then recursions on the
history, and an invariant of all runs is one obligation per step.

* `Run init step tr s`: some state satisfies `init`, and the steps `tr` lead from it to `s`.
* `Run.invariant`, `Run.invariant_of_steps`: the induction rule, without and with a condition
  that every step of the run meets. `Run.meets_iff`, `Run.keeps_iff`: the same for a condition that is exact.
* `Run.relates`: what every step does to the state before it, a run does to its first state.
* `last f tr`: the value that `f` gives at the newest step of `tr` where it gives one.
* `Since p q tr`: a step where `p` held, and `q` from it on.
* `replay next s es`: the history of the labels `es` under a function.
* `Run.crosses`: a measure that no step raises by more than one takes every value between the
  first and the last.
-/

namespace NexaHR.Foundations

set_option autoImplicit false

variable {σ ε : Type}

/-- One step that was taken. -/
structure Taken (σ ε : Type) where
  before : σ
  label : ε
  after : σ

/-- `Run init step tr s`: the steps `tr`, the newest first, lead from a state in `init` to `s`. -/
inductive Run (init : σ → Prop) (step : σ → ε → σ → Prop) : List (Taken σ ε) → σ → Prop
  | nil {s : σ} : init s → Run init step [] s
  | cons {tr : List (Taken σ ε)} {s : σ} {e : ε} {s' : σ} :
      Run init step tr s → step s e s' → Run init step (⟨s, e, s'⟩ :: tr) s'

namespace Run

variable {init : σ → Prop} {step : σ → ε → σ → Prop} {tr : List (Taken σ ε)} {s : σ}

/-! ## The induction rule -/

theorem invariant {P : σ → Prop} (h0 : ∀ s, init s → P s)
    (hstep : ∀ s e s', P s → step s e s' → P s') (h : Run init step tr s) : P s := by
  induction h with
  | nil hs => exact h0 _ hs
  | cons _ hs ih => exact hstep _ _ _ ih hs

/-- The rule for runs whose steps all meet a condition `C`. -/
theorem invariant_of_steps {P : σ → Prop} {C : Taken σ ε → Prop} (h0 : ∀ s, init s → P s)
    (hstep : ∀ s e s', P s → step s e s' → C ⟨s, e, s'⟩ → P s') (h : Run init step tr s)
    (hC : ∀ x ∈ tr, C x) : P s := by
  induction h with
  | nil hs => exact h0 _ hs
  | cons _ hs ih =>
    exact hstep _ _ _ (ih fun x hx => hC x (List.mem_cons_of_mem _ hx)) hs (hC _ List.mem_cons_self)

theorem holds_at_end {P : σ → Prop} (h0 : ∀ s, init s → P s) (h : Run init step tr s)
    (hafter : ∀ x ∈ tr, P x.after) : P s := by
  cases h with
  | nil hs => exact h0 _ hs
  | cons _ _ => exact hafter _ List.mem_cons_self

/-- Where `C` is what a step needs to do `Q`, it is what the steps of a run need, if `Q` leaves the state that the
next step relies on. -/
theorem meets_iff {P : σ → Prop} {Q C : Taken σ ε → Prop} (h0 : ∀ s, init s → P s) (hQ : ∀ x, Q x → P x.after)
    (hstep : ∀ s e s', P s → step s e s' → (Q ⟨s, e, s'⟩ ↔ C ⟨s, e, s'⟩)) (h : Run init step tr s) :
    (∀ x ∈ tr, Q x) ↔ ∀ x ∈ tr, C x := by
  induction h with
  | nil _ => simp
  | @cons tr s e s' hrun hs ih =>
    rw [List.forall_mem_cons, List.forall_mem_cons, ← ih]
    constructor
    · intro hdone
      exact ⟨(hstep s e s' (hrun.holds_at_end h0 fun x hx => hQ x (hdone.2 x hx)) hs).mp hdone.1, hdone.2⟩
    · intro hmet
      exact ⟨(hstep s e s' (hrun.holds_at_end h0 fun x hx => hQ x (hmet.2 x hx)) hs).mpr hmet.1, hmet.2⟩

theorem keeps_iff {P : σ → Prop} {C : Taken σ ε → Prop} (h0 : ∀ s, init s → P s)
    (hstep : ∀ s e s', P s → step s e s' → (P s' ↔ C ⟨s, e, s'⟩)) (h : Run init step tr s) :
    (∀ x ∈ tr, P x.after) ↔ ∀ x ∈ tr, C x :=
  h.meets_iff (Q := fun x => P x.after) h0 (fun _ hkept => hkept) hstep

/-- The rule for a property of the state together with the history that led to it. -/
theorem invariant_of_history {P : List (Taken σ ε) → σ → Prop} {C : Taken σ ε → Prop}
    (h0 : ∀ s, init s → P [] s)
    (hstep : ∀ tr s e s', P tr s → step s e s' → C ⟨s, e, s'⟩ → P (⟨s, e, s'⟩ :: tr) s')
    (h : Run init step tr s) (hC : ∀ x ∈ tr, C x) : P tr s := by
  induction h with
  | nil hs => exact h0 _ hs
  | cons _ hs ih =>
    exact hstep _ _ _ _ (ih fun x hx => hC x (List.mem_cons_of_mem _ hx)) hs (hC _ List.mem_cons_self)

/-! ## Cutting a run -/

/-- A step of a run was taken after the older part of the run. -/
theorem cut {new old : List (Taken σ ε)} {x : Taken σ ε} (h : Run init step (new ++ x :: old) s) :
    Run init step old x.before ∧ step x.before x.label x.after := by
  induction new generalizing s with
  | nil =>
    cases h with
    | cons hr hs => exact ⟨hr, hs⟩
  | cons y new ih =>
    cases h with
    | cons hr _ => exact ih hr

/-- The newer part of a run starts where the step before it ended. -/
theorem cut_after {new old : List (Taken σ ε)} {x : Taken σ ε}
    (h : Run init step (new ++ x :: old) s) : Run (· = x.after) step new s := by
  induction new generalizing s with
  | nil =>
    cases h with
    | cons _ _ => exact Run.nil rfl
  | cons y new ih =>
    cases h with
    | cons hr hs => exact Run.cons (ih hr) hs

/-- A step of a run was taken from a state that a run reaches. -/
theorem step_of_mem {x : Taken σ ε} (h : Run init step tr s) (hx : x ∈ tr) :
    (∃ old, Run init step old x.before ∧ ∀ y ∈ old, y ∈ tr) ∧ step x.before x.label x.after := by
  obtain ⟨new, old, rfl⟩ := List.append_of_mem hx
  have hcut := h.cut
  exact ⟨⟨old, hcut.1, fun y hy => by simp [hy]⟩, hcut.2⟩

/-- Two runs in a row. -/
theorem trans {tr' : List (Taken σ ε)} {s' : σ} (h : Run init step tr s)
    (h' : Run (· = s) step tr' s') : Run init step (tr' ++ tr) s' := by
  induction h' with
  | nil hs =>
    subst hs
    exact h
  | cons _ hs ih => exact Run.cons ih hs

/-- The end of a run starts before any of its steps. -/
theorem from_before {new old : List (Taken σ ε)} {x : Taken σ ε}
    (h : Run init step (new ++ x :: old) s) : Run (· = x.before) step (new ++ [x]) s := by
  have hstep : Run (· = x.before) step [x] x.after := Run.cons (Run.nil rfl) h.cut.2
  exact hstep.trans h.cut_after

/-! ## What a run does to its first state -/

/-- A relation that every step respects holds between the ends of a run. -/
theorem relates {R : σ → σ → Prop} {s₀ : σ} (hrefl : ∀ s, R s s)
    (htrans : ∀ a b c, R a b → R b c → R a c) (hstep : ∀ s e s', step s e s' → R s s')
    (h : Run (· = s₀) step tr s) : R s₀ s := by
  induction h with
  | nil hs =>
    subst hs
    exact hrefl _
  | cons _ hs ih => exact htrans _ _ _ ih (hstep _ _ _ hs)

/-! ## A measure that climbs one level at a time -/

/-- Between a state of level at most `k` and one above `k`, some step leaves level `k` for
level `k + 1`. -/
theorem crosses (rank : σ → Nat) {s₀ : σ} {k : Nat}
    (hstep : ∀ x ∈ tr, rank x.after ≤ rank x.before + 1)
    (h : Run (· = s₀) step tr s) (h₀ : rank s₀ ≤ k) (hs : k < rank s) :
    ∃ x ∈ tr, rank x.before = k ∧ rank x.after = k + 1 := by
  induction h with
  | nil h =>
    subst h
    omega
  | @cons tr s e s' _ _ ih =>
    by_cases hk : k < rank s
    · obtain ⟨x, hx, hr⟩ := ih (fun x hx => hstep x (List.mem_cons_of_mem _ hx)) hk
      exact ⟨x, List.mem_cons_of_mem _ hx, hr⟩
    · have hle : rank s' ≤ rank s + 1 := hstep ⟨s, e, s'⟩ List.mem_cons_self
      exact ⟨⟨s, e, s'⟩, List.mem_cons_self, by show rank s = k; omega, by show rank s' = k + 1; omega⟩

end Run

/-! ## The newest value of a step -/

/-- The value of `f` at the newest step where it has one. -/
def last {β : Type} (f : Taken σ ε → Option β) : List (Taken σ ε) → Option β
  | [] => none
  | x :: tr => (f x).orElse fun _ => last f tr

@[simp] theorem last_nil {β : Type} (f : Taken σ ε → Option β) : last f [] = none := rfl

theorem last_cons_some {β : Type} {f : Taken σ ε → Option β} {x : Taken σ ε} {b : β}
    {tr : List (Taken σ ε)} (h : f x = some b) : last f (x :: tr) = some b := by
  simp [last, h]

theorem last_cons_none {β : Type} {f : Taken σ ε → Option β} {x : Taken σ ε}
    {tr : List (Taken σ ε)} (h : f x = none) : last f (x :: tr) = last f tr := by
  simp [last, h]

/-! ## Since -/

/-- At some step `p` held of the step and the history before it, and `q` of it and of all later ones. -/
def Since (p : Taken σ ε → List (Taken σ ε) → Prop) (q : Taken σ ε → Prop) :
    List (Taken σ ε) → Prop
  | [] => False
  | x :: tr => q x ∧ (p x tr ∨ Since p q tr)

section

variable {p : Taken σ ε → List (Taken σ ε) → Prop} {q : Taken σ ε → Prop} {x : Taken σ ε}
  {tr : List (Taken σ ε)}

theorem Since.here (hq : q x) (hp : p x tr) : Since p q (x :: tr) := ⟨hq, Or.inl hp⟩

theorem Since.still (hq : q x) (h : Since p q tr) : Since p q (x :: tr) := ⟨hq, Or.inr h⟩

/-- The step where it held cuts the history in two. -/
theorem Since.split (h : Since p q tr) :
    ∃ new x old, tr = new ++ x :: old ∧ p x old ∧ q x ∧ ∀ y ∈ new, q y := by
  induction tr with
  | nil => exact h.elim
  | cons x tr ih =>
    obtain ⟨hq, hp | hrest⟩ := h
    · exact ⟨[], x, tr, rfl, hp, hq, by simp⟩
    · obtain ⟨new, y, old, rfl, hp, hqy, hnew⟩ := ih hrest
      refine ⟨x :: new, y, old, rfl, hp, hqy, ?_⟩
      intro z hz
      rcases List.mem_cons.mp hz with rfl | hz
      · exact hq
      · exact hnew z hz

end

/-! ## Replaying -/

/-- The state after the labels, the newest first. -/
def endState (next : σ → ε → σ) (s : σ) (es : List ε) : σ := es.foldr (fun e t => next t e) s

/-- The history of the labels. -/
def replay (next : σ → ε → σ) (s : σ) : List ε → List (Taken σ ε)
  | [] => []
  | e :: es => ⟨endState next s es, e, next (endState next s es) e⟩ :: replay next s es

theorem after_replay {next : σ → ε → σ} {s : σ} {es : List ε} {x : Taken σ ε}
    (hx : x ∈ replay next s es) : x.after = next x.before x.label := by
  induction es with
  | nil => cases hx
  | cons e es ih =>
    rcases List.mem_cons.mp hx with rfl | hx
    · rfl
    · exact ih hx

/-- A replay whose every step is one of the system is a run of it. -/
theorem run_replay {init : σ → Prop} {step : σ → ε → σ → Prop} {next : σ → ε → σ} {s : σ}
    {es : List ε} (hinit : init s)
    (hsteps : ∀ x ∈ replay next s es, step x.before x.label x.after) :
    Run init step (replay next s es) (endState next s es) := by
  induction es with
  | nil => exact Run.nil hinit
  | cons e es ih =>
    refine Run.cons (ih fun x hx => hsteps x (List.mem_cons_of_mem _ hx)) ?_
    exact hsteps _ List.mem_cons_self

end NexaHR.Foundations
