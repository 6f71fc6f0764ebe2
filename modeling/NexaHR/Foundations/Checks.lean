import Mathlib.Tactic.Common

/-! # Programs that check and then answer

A request handler is a straight line of checks and reads in `Except ε`, each of which may stop
it. `ensure` is one check. The lemmas invert such a line once it has answered: every check on
the way held, and every read returned the value that the rest of the line used.

* `ensure`, `require`: one check, and one read.
* `Raises p x`: an error of `x` is one of `p`.
* `raises_ensure`, `raises_bind`, `raises_loop`: what each construction needs.
* `Gives p x`: an answer of `x` is one of `p`.
-/

namespace NexaHR.Foundations

set_option autoImplicit false

variable {ε α β : Type}

/-- Stop with `e` unless `p` holds. -/
def ensure (p : Prop) [Decidable p] (e : ε) : Except ε Unit :=
  if p then .ok () else .error e

/-- Stop with `e` when there is no value. -/
def require (o : Option α) (e : ε) : Except ε α :=
  match o with
  | some a => .ok a
  | none => .error e

@[simp] theorem ensure_eq_ok {p : Prop} [Decidable p] {e : ε} {u : Unit} :
    ensure p e = .ok u ↔ p := by
  unfold ensure
  split <;> simp_all

@[simp] theorem ensure_eq_error {p : Prop} [Decidable p] {e e' : ε} :
    ensure p e = .error e' ↔ ¬p ∧ e = e' := by
  unfold ensure
  split <;> simp_all

@[simp] theorem require_eq_ok {o : Option α} {e : ε} {a : α} :
    require o e = .ok a ↔ o = some a := by
  cases o <;> simp [require]

@[simp] theorem require_eq_error {o : Option α} {e e' : ε} :
    require o e = .error e' ↔ o = none ∧ e = e' := by
  cases o <;> simp [require]

@[simp] theorem bind_eq_ok {x : Except ε α} {f : α → Except ε β} {b : β} :
    (x >>= f) = .ok b ↔ ∃ a, x = .ok a ∧ f a = .ok b := by
  cases x <;> simp [bind, Except.bind]

theorem error_bind (e : ε) (f : α → Except ε β) : ((.error e : Except ε α) >>= f) = .error e := rfl

@[simp] theorem pure_eq_ok {a b : α} : (pure a : Except ε α) = .ok b ↔ a = b := by
  simp [pure, Except.pure]

/-- What is told apart before an injective function is told apart after it. -/
theorem map_inj {f : α → β} (hf : ∀ a b, f a = f b → a = b) {x y : Except ε α} (h : x.map f = y.map f) :
    x = y := by
  cases x with
  | error e =>
    cases y with
    | error e' => exact congrArg Except.error (Except.error.inj h)
    | ok b => cases h
  | ok a =>
    cases y with
    | error e' => cases h
    | ok b => exact congrArg Except.ok (hf a b (Except.ok.inj h))

/-! ## Programs that raise

A program in `Except ε` raises errors, and some of them are foreseen. `guarded` catches errors of the part that
it stands around. A straight line raises nothing but foreseen errors if that holds of each of its steps where
it is reached.
-/

section

variable {p : ε → Prop}

/-- An error of `x` is one of `p`. -/
def Raises (p : ε → Prop) (x : Except ε α) : Prop := ∀ e, x = .error e → p e

@[simp] theorem raises_ok (a : α) : Raises p (.ok a : Except ε α) := fun _ h => nomatch h

@[simp] theorem raises_pure (a : α) : Raises p (pure a : Except ε α) := raises_ok a

@[simp] theorem raises_error {e : ε} : Raises p (.error e : Except ε α) ↔ p e := by
  constructor
  · intro h
    exact h e rfl
  · intro h e' heq
    cases heq
    exact h

/-- Nothing is raised where a value comes out. -/
theorem raises_nothing {x : Except ε α} : Raises (fun _ => False) x ↔ ∃ a, x = .ok a := by
  cases x with
  | error e => exact iff_of_false (fun h => h e rfl) fun ⟨a, h⟩ => nomatch h
  | ok a => exact iff_of_true (raises_ok a) ⟨a, rfl⟩

theorem raises_bind {x : Except ε α} {f : α → Except ε β} :
    Raises p (x >>= f) ↔ Raises p x ∧ ∀ a, x = .ok a → Raises p (f a) := by
  cases x with
  | error e =>
    rw [error_bind, raises_error, raises_error]
    exact (and_iff_left fun a h => nomatch h).symm
  | ok a =>
    show Raises p (f a) ↔ _
    constructor
    · intro h
      refine ⟨raises_ok a, ?_⟩
      intro a' heq
      cases heq
      exact h
    · intro h
      exact h.2 a rfl

theorem raises_ensure {q : Prop} [Decidable q] {e : ε} : Raises p (ensure q e) ↔ (¬q → p e) := by
  unfold ensure
  split
  · next hq => exact iff_of_true (raises_ok ()) fun hnot => absurd hq hnot
  · next hq => exact raises_error.trans ⟨fun h _ => h, fun h => h hq⟩

end

/-! ## Programs that answer -/

section

variable {p : β → Prop}

/-- An answer of `x` is one of `p`. -/
def Gives (p : β → Prop) (x : Except ε β) : Prop := ∀ b, x = .ok b → p b

theorem gives_pure {b : β} (h : p b) : Gives p (pure b : Except ε β) := by
  intro b' heq
  rw [pure_eq_ok] at heq
  exact heq ▸ h

theorem gives_error (e : ε) : Gives p (.error e : Except ε β) := fun _ h => nomatch h

theorem Gives.bind {q : α → Prop} {x : Except ε α} {f : α → Except ε β} (hx : Gives q x)
    (hf : ∀ a, q a → Gives p (f a)) : Gives p (x >>= f) := by
  intro b h
  obtain ⟨a, ha, hb⟩ := bind_eq_ok.mp h
  exact hf a (hx a ha) b hb

/-- What is answered does not depend on what was read before. -/
theorem gives_bind {x : Except ε α} {f : α → Except ε β} (hf : ∀ a, Gives p (f a)) : Gives p (x >>= f) :=
  Gives.bind (q := fun _ => True) (fun _ _ => trivial) fun a _ => hf a

end

/-! ## Errors that are caught -/

section

variable {p : ε → Prop}

/-- `try` and `except`: the errors of `caught` are answered by `handler`. -/
def guarded (caught : ε → Bool) (handler : ε → Except ε α) (x : Except ε α) : Except ε α :=
  match x with
  | .ok a => .ok a
  | .error e => if caught e then handler e else .error e

theorem guarded_caught {caught : ε → Bool} {handler : ε → Except ε α} {e : ε} (h : caught e = true) :
    guarded caught handler (.error e) = handler e := if_pos h

/-- A loop that gives each element its place. -/
def loopFrom (f : Nat → α → Except ε β) : Nat → List α → Except ε (List β)
  | _, [] => .ok []
  | n, a :: l => do
    let b ← f n a
    let rest ← loopFrom f (n + 1) l
    pure (b :: rest)

/-- A loop whose steps give a value or raise what is not foreseen. -/
theorem raises_loop {f : Nat → α → Except ε β} {good : α → Prop} (hgood : ∀ n a, good a → ∃ b, f n a = .ok b)
    (hbad : ∀ n a, Raises p (f n a) → good a) (l : List α) (n : Nat) :
    Raises p (loopFrom f n l) ↔ ∀ a ∈ l, good a := by
  induction l generalizing n with
  | nil => exact iff_of_true (raises_ok []) fun a ha => absurd ha List.not_mem_nil
  | cons a l ih =>
    unfold loopFrom
    rw [raises_bind, List.forall_mem_cons]
    constructor
    · intro h
      have ha := hbad n a h.1
      obtain ⟨b, hb⟩ := hgood n a ha
      have hrest := h.2 b hb
      rw [raises_bind] at hrest
      exact ⟨ha, (ih (n + 1)).mp hrest.1⟩
    · intro h
      obtain ⟨b, hb⟩ := hgood n a h.1
      rw [hb]
      refine ⟨raises_ok b, ?_⟩
      intro b' _
      rw [raises_bind]
      exact ⟨(ih (n + 1)).mpr h.2, fun rest _ => raises_pure _⟩

end

end NexaHR.Foundations
