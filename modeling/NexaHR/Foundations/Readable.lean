import Mathlib.Data.List.Basic
import Mathlib.Tactic.Common

/-! # Texts that can be read back

A text is readable when a value and the rest of the input can be told from the text of the value followed
by the rest, for every rest that stops it. An encoder built from readable parts is readable, and so injective.

* `Readable`: the property, for a value and a set of rests.
* `Readable.seq`, `Readable.map`, `Readable.before`: parts in a row.
* `readable_span`: a run of characters of one class.
* `readable_optional`: a part that may be missing.
* `readable_closed`: items up to a closing character.
* `readable_joined`: items between commas up to a closing character.
-/

namespace NexaHR.Foundations

set_option autoImplicit false

variable {α β : Type}

/-- The rest does not go on with a character of the class. -/
def Stops (p : Char → Bool) (rest : List Char) : Prop := ∀ c, rest.head? = some c → p c = false

/-- From the text of the value and a rest that stops it, both can be told. -/
def Readable (text : α → List Char) (stop : List Char → Prop) (a : α) : Prop :=
  ∀ b rest rest', stop rest → stop rest' → text a ++ rest = text b ++ rest' → a = b ∧ rest = rest'

theorem Readable.eq_of_text {text : α → List Char} {stop : List Char → Prop} {a b : α}
    (h : Readable text stop a) (hnil : stop []) (heq : text a = text b) : a = b :=
  (h b [] [] hnil hnil (by rw [heq])).1

theorem Readable.mono {text : α → List Char} {stop stop' : List Char → Prop} {a : α}
    (h : Readable text stop a) (hstop : ∀ rest, stop' rest → stop rest) : Readable text stop' a :=
  fun b rest rest' hr hr' heq => h b rest rest' (hstop rest hr) (hstop rest' hr') heq

theorem stops_nil (p : Char → Bool) : Stops p [] := fun c hc => by cases hc

theorem stops_cons {p : Char → Bool} {c : Char} {rest : List Char} : Stops p (c :: rest) ↔ p c = false := by
  constructor
  · intro h
    exact h c rfl
  · intro h d hd
    rw [← Option.some.inj hd]
    exact h

/-! ## Parts in a row -/

/-- Two parts, the first of which is stopped by the second. -/
theorem Readable.seq {f : α → List Char} {g : β → List Char} {stop stop' : List Char → Prop} {a : α}
    {b : β} (hf : Readable f stop a) (hg : Readable g stop' b)
    (hstop : ∀ b rest, stop' rest → stop (g b ++ rest)) :
    Readable (fun p : α × β => f p.1 ++ g p.2) stop' (a, b) := by
  intro p rest rest' hr hr' heq
  rw [List.append_assoc, List.append_assoc] at heq
  obtain ⟨ha, hrest⟩ := hf p.1 _ _ (hstop b rest hr) (hstop p.2 rest' hr') heq
  obtain ⟨hb, hrest⟩ := hg p.2 _ _ hr hr' hrest
  exact ⟨Prod.ext ha hb, hrest⟩

/-- A value that is told by a part of it. -/
theorem Readable.map {text : α → List Char} {stop : List Char → Prop} {b : β} {f : β → α}
    (h : Readable text stop (f b)) (hf : ∀ b', f b = f b' → b = b') :
    Readable (fun b => text (f b)) stop b := by
  intro b' rest rest' hr hr' heq
  obtain ⟨hb, hrest⟩ := h (f b') rest rest' hr hr' heq
  exact ⟨hf b' hb, hrest⟩

/-- A character before the text. -/
theorem Readable.before {text : α → List Char} {stop : List Char → Prop} {a : α} (c : Char)
    (h : Readable text stop a) : Readable (fun a => c :: text a) stop a := by
  intro b rest rest' hr hr' heq
  exact h b rest rest' hr hr' (List.tail_eq_of_cons_eq heq)

/-! ## Runs of one class -/

theorem span_unique {p : Char → Bool} {w w' rest rest' : List Char} (hw : ∀ c ∈ w, p c = true)
    (hw' : ∀ c ∈ w', p c = true) (hr : Stops p rest) (hr' : Stops p rest')
    (heq : w ++ rest = w' ++ rest') : w = w' ∧ rest = rest' := by
  induction w generalizing w' with
  | nil =>
    cases w' with
    | nil => exact ⟨rfl, heq⟩
    | cons c w' =>
      rw [List.nil_append, List.cons_append] at heq
      rw [heq, stops_cons, hw' c List.mem_cons_self] at hr
      cases hr
  | cons c w ih =>
    cases w' with
    | nil =>
      rw [List.nil_append, List.cons_append] at heq
      rw [← heq, stops_cons, hw c List.mem_cons_self] at hr'
      cases hr'
    | cons c' w' =>
      rw [List.cons_append, List.cons_append, List.cons.injEq] at heq
      obtain ⟨rfl, heq⟩ := heq
      obtain ⟨hwords, hrests⟩ := ih (fun c hc => hw c (List.mem_cons_of_mem _ hc))
        (fun c hc => hw' c (List.mem_cons_of_mem _ hc)) heq
      exact ⟨by rw [hwords], hrests⟩

/-- A text of one class is stopped by any other character. -/
theorem readable_span {text : α → List Char} {p : Char → Bool} (hclass : ∀ a, ∀ c ∈ text a, p c = true)
    (hinj : ∀ a b, text a = text b → a = b) (a : α) : Readable text (Stops p) a := by
  intro b rest rest' hr hr' heq
  obtain ⟨hwords, hrests⟩ := span_unique (hclass a) (hclass b) hr hr' heq
  exact ⟨hinj a b hwords, hrests⟩

/-! ## Parts that may be missing -/

/-- The text of a part that a mark announces. -/
def optionalText (mark : Char) (text : α → List Char) : Option α → List Char
  | none => []
  | some a => mark :: text a

theorem readable_optional {mark : Char} {text : α → List Char} {stop : List Char → Prop} {o : Option α}
    (h : ∀ a, o = some a → Readable text stop a) :
    Readable (optionalText mark text) (fun rest => rest.head? ≠ some mark ∧ stop rest) o := by
  intro o' rest rest' hr hr' heq
  cases o with
  | none =>
    cases o' with
    | none => exact ⟨rfl, heq⟩
    | some b =>
      have hrest : rest = mark :: (text b ++ rest') := heq
      rw [hrest] at hr
      exact absurd rfl hr.1
  | some a =>
    cases o' with
    | none =>
      have hrest : mark :: (text a ++ rest) = rest' := heq
      rw [← hrest] at hr'
      exact absurd rfl hr'.1
    | some b =>
      obtain ⟨hab, hrest⟩ := h a rfl b rest rest' hr.2 hr'.2 (List.tail_eq_of_cons_eq heq)
      exact ⟨by rw [hab], hrest⟩

/-! ## Items up to a closing character -/

def closedText (close : Char) (item : α → List Char) (l : List α) : List Char :=
  l.flatMap item ++ [close]

theorem readable_closed {close : Char} {item : α → List Char}
    (hitem : ∀ a, Readable item (fun _ => True) a)
    (hopen : ∀ a rest, (item a ++ rest).head? ≠ some close) (l : List α) :
    Readable (closedText close item) (fun _ => True) l := by
  intro l' rest rest' _ _ heq
  induction l generalizing l' with
  | nil =>
    cases l' with
    | nil => exact ⟨rfl, List.tail_eq_of_cons_eq heq⟩
    | cons b l' =>
      have hhead := congrArg List.head? heq
      simp only [closedText, List.flatMap_nil, List.flatMap_cons, List.append_assoc, List.nil_append,
        List.cons_append, List.head?_cons] at hhead
      exact absurd hhead.symm (hopen b _)
  | cons a l ih =>
    cases l' with
    | nil =>
      have hhead := congrArg List.head? heq
      simp only [closedText, List.flatMap_nil, List.flatMap_cons, List.append_assoc, List.nil_append,
        List.cons_append, List.head?_cons] at hhead
      exact absurd hhead (hopen a _)
    | cons b l' =>
      simp only [closedText, List.flatMap_cons, List.append_assoc] at heq
      obtain ⟨rfl, htail⟩ := hitem a b _ _ trivial trivial heq
      obtain ⟨hl, hrest⟩ := ih l' (by simpa [closedText] using htail)
      exact ⟨by rw [hl], hrest⟩

/-! ## Items between commas -/

/-- The texts of further items, each after a comma, and the closing character. -/
def furtherText (close : Char) : List (List Char) → List Char
  | [] => [close]
  | w :: ws => ',' :: (w ++ furtherText close ws)

def joinedText (close : Char) : List (List Char) → List Char
  | [] => [close]
  | w :: ws => w ++ furtherText close ws

/-- An item is stopped by what may come after it. -/
def StopsItem (close : Char) (stop : List Char → Prop) : Prop :=
  ∀ rest : List Char, (rest.head? = some ',' ∨ rest.head? = some close) → stop rest

theorem furtherText_stops {close : Char} {stop : List Char → Prop} (hstop : StopsItem close stop)
    (ws : List (List Char)) (rest : List Char) : stop (furtherText close ws ++ rest) := by
  apply hstop
  cases ws with
  | nil => exact Or.inr rfl
  | cons w ws => exact Or.inl rfl

theorem readable_further {close : Char} {item : α → List Char} {stop : List Char → Prop} {l : List α}
    (hclose : close ≠ ',') (hstop : StopsItem close stop) (hitem : ∀ a ∈ l, Readable item stop a) :
    Readable (fun l => furtherText close (l.map item)) (fun _ => True) l := by
  intro l' rest rest' _ _ heq
  induction l generalizing l' with
  | nil =>
    cases l' with
    | nil => exact ⟨rfl, List.tail_eq_of_cons_eq heq⟩
    | cons b l' => exact absurd (List.head_eq_of_cons_eq heq) hclose
  | cons a l ih =>
    cases l' with
    | nil => exact absurd (List.head_eq_of_cons_eq heq).symm hclose
    | cons b l' =>
      simp only [List.map_cons, furtherText, List.cons_append, List.append_assoc, List.cons.injEq,
        true_and] at heq
      obtain ⟨rfl, htail⟩ := hitem a List.mem_cons_self b _ _ (furtherText_stops hstop _ rest)
        (furtherText_stops hstop _ rest') heq
      obtain ⟨hl, hrest⟩ := ih (fun c hc => hitem c (List.mem_cons_of_mem _ hc)) l' htail
      exact ⟨by rw [hl], hrest⟩

theorem readable_joined {close : Char} {item : α → List Char} {stop : List Char → Prop} {l : List α}
    (hclose : close ≠ ',') (hstop : StopsItem close stop)
    (hopen : ∀ a rest, (item a ++ rest).head? ≠ some close) (hitem : ∀ a ∈ l, Readable item stop a) :
    Readable (fun l => joinedText close (l.map item)) (fun _ => True) l := by
  intro l' rest rest' _ _ heq
  cases l with
  | nil =>
    cases l' with
    | nil => exact ⟨rfl, List.tail_eq_of_cons_eq heq⟩
    | cons b l' =>
      have hhead := congrArg List.head? heq
      simp only [List.map_nil, List.map_cons, joinedText, List.append_assoc, List.cons_append,
        List.head?_cons] at hhead
      exact absurd hhead.symm (hopen b _)
  | cons a l =>
    cases l' with
    | nil =>
      have hhead := congrArg List.head? heq
      simp only [List.map_nil, List.map_cons, joinedText, List.append_assoc, List.cons_append,
        List.head?_cons] at hhead
      exact absurd hhead (hopen a _)
    | cons b l' =>
      simp only [List.map_cons, joinedText, List.append_assoc] at heq
      obtain ⟨rfl, htail⟩ := hitem a List.mem_cons_self b _ _ (furtherText_stops hstop _ rest)
        (furtherText_stops hstop _ rest') heq
      have hfurther := readable_further hclose hstop fun c hc => hitem c (List.mem_cons_of_mem a hc)
      obtain ⟨hl, hrest⟩ := hfurther l' rest rest' trivial trivial htail
      exact ⟨by rw [hl], hrest⟩

end NexaHR.Foundations
