import NexaHR.Core.Json

/-! # The text of a value tells the value

`json.dumps` with sorted keys writes two values alike only when they are the same but for the order in
dictionaries.

* `readable_number`, `PyNumber.text_inj`: integers and floats.
* `readable_string`: texts with their escapes.
* `Json.readable_text`, `Json.text_inj`: lists and dictionaries, by induction on the value.
-/

namespace NexaHR

open Foundations

set_option autoImplicit false

/-! ## Numbers -/

theorem decimalText_isDigit (n : Nat) : ∀ c ∈ decimalText n, c.isDigit = true := by
  intro c hc
  exact Nat.isDigit_of_mem_toDigits (by omega) (by omega) hc

theorem decimalText_inj (m n : Nat) (h : decimalText m = decimalText n) : m = n := by
  have hvalue := congrArg (fun l => Nat.ofDigitChars 10 l 0) h
  simpa [decimalText] using hvalue

theorem readable_decimal (n : Nat) : Readable decimalText (Stops Char.isDigit) n :=
  readable_span decimalText_isDigit decimalText_inj n

theorem digitChar_isDigit (d : Fin 10) : d.val.digitChar.isDigit = true := by
  revert d
  decide

theorem digitChar_inj (d d' : Fin 10) (h : d.val.digitChar = d'.val.digitChar) : d = d' := by
  revert d d'
  decide

theorem readable_fraction (fraction : List (Fin 10)) :
    Readable fractionText (Stops Char.isDigit) fraction := by
  apply readable_span
  · intro fraction c hc
    obtain ⟨d, -, rfl⟩ := List.mem_map.mp hc
    exact digitChar_isDigit d
  · intro f f' h
    exact List.map_injective_iff.mpr (fun d d' => digitChar_inj d d') h

theorem ofDigitChars_padded (n : Nat) : Nat.ofDigitChars 10 (paddedText n) 0 = n := by
  unfold paddedText
  split
  · rw [Nat.ofDigitChars_cons]
    simp [decimalText]
  · simp [decimalText]

theorem readable_padded (n : Nat) : Readable paddedText (Stops Char.isDigit) n := by
  apply readable_span
  · intro n c hc
    unfold paddedText at hc
    split at hc
    · rcases List.mem_cons.mp hc with rfl | hc
      · rfl
      · exact decimalText_isDigit n c hc
    · exact decimalText_isDigit n c hc
  · intro m n h
    rw [← ofDigitChars_padded m, h, ofDigitChars_padded]

theorem readable_power (power : Int) : Readable powerText (Stops Char.isDigit) power := by
  intro power' rest rest' hr hr' heq
  simp only [powerText, List.cons_append, List.cons.injEq] at heq
  obtain ⟨hsign, heq⟩ := heq
  obtain ⟨habs, hrest⟩ := readable_padded power.natAbs power'.natAbs rest rest' hr hr' heq
  refine ⟨?_, hrest⟩
  split at hsign
  · split at hsign
    · omega
    · cases hsign
  · split at hsign
    · cases hsign
    · omega

theorem readable_sign (negative : Bool) :
    Readable signText (fun rest => rest.head? ≠ some '-') negative := by
  intro negative' rest rest' hr hr' heq
  cases negative with
  | false =>
    cases negative' with
    | false => exact ⟨rfl, heq⟩
    | true =>
      have hrest : rest = '-' :: rest' := heq
      rw [hrest] at hr
      exact absurd rfl hr
  | true =>
    cases negative' with
    | false =>
      have hrest : '-' :: rest = rest' := heq
      rw [← hrest] at hr'
      exact absurd rfl hr'
    | true => exact ⟨rfl, List.tail_eq_of_cons_eq heq⟩

/-- The characters that a number can go on with. -/
def isNumberChar (c : Char) : Bool := c.isDigit || c = '.' || c = 'e'

theorem stops_digit {rest : List Char} (h : Stops isNumberChar rest) : Stops Char.isDigit rest := by
  intro c hc
  have hnot := h c hc
  unfold isNumberChar at hnot
  simp only [Bool.or_eq_false_iff] at hnot
  exact hnot.1.1

theorem stops_mark {rest : List Char} (h : Stops isNumberChar rest) {mark : Char}
    (hmark : isNumberChar mark = true) : rest.head? ≠ some mark := by
  intro hhead
  rw [h mark hhead] at hmark
  cases hmark

theorem stops_optional {α : Type} {mark : Char} {text : α → List Char} {p : Char → Bool}
    (hmark : p mark = false) (o : Option α) {rest : List Char} (h : Stops p rest) :
    Stops p (optionalText mark text o ++ rest) := by
  cases o with
  | none => exact h
  | some a =>
    apply stops_cons.mpr
    exact hmark

theorem decimalText_head (n : Nat) (rest : List Char) : ∃ c, c.isDigit = true ∧
    (decimalText n ++ rest).head? = some c := by
  cases htext : decimalText n with
  | nil => exact absurd htext Nat.toDigits_ne_nil
  | cons c w => exact ⟨c, decimalText_isDigit n c (by rw [htext]; exact List.mem_cons_self), rfl⟩

theorem readable_number (n : NumberParts) : Readable numberText (Stops isNumberChar) n := by
  obtain ⟨negative, whole, fraction, power⟩ := n
  have hpower : Readable (optionalText 'e' powerText) (Stops isNumberChar) power := by
    apply (readable_optional fun p _ => readable_power p).mono
    intro rest hrest
    exact ⟨stops_mark hrest rfl, stops_digit hrest⟩
  have hfraction : Readable (fun p : Option (List (Fin 10)) × Option Int =>
      optionalText '.' fractionText p.1 ++ optionalText 'e' powerText p.2) (Stops isNumberChar)
      (fraction, power) := by
    refine Readable.seq (readable_optional fun f _ => readable_fraction f) hpower ?_
    intro power rest hrest
    refine ⟨?_, stops_optional rfl power (stops_digit hrest)⟩
    cases power with
    | none => exact stops_mark hrest rfl
    | some p => simp [optionalText]
  have hwhole := Readable.seq (readable_decimal whole) hfraction (by
    intro p rest hrest
    rw [List.append_assoc]
    apply stops_optional rfl
    exact stops_optional rfl p.2 (stops_digit hrest))
  refine Readable.seq (readable_sign negative) hwhole ?_
  intro p rest _ hhead
  obtain ⟨c, hdigit, hc⟩ := decimalText_head p.1
    (optionalText '.' fractionText p.2.1 ++ optionalText 'e' powerText p.2.2 ++ rest)
  rw [List.append_assoc, hc] at hhead
  rw [Option.some.inj hhead] at hdigit
  cases hdigit

theorem PyFloat.ne_int (x : PyFloat) : x.fraction ≠ [] ∨ x.power ≠ none := by
  have hwritten := x.written
  cases hpower : x.power with
  | some p => exact Or.inr (by simp)
  | none =>
    left
    intro hfraction
    rw [hpower, hfraction] at hwritten
    simp [isWritten] at hwritten

theorem PyFloat.parts_inj {x y : PyFloat} (h : x.parts = y.parts) : x = y := by
  obtain ⟨xn, xw, xf, xp, hx⟩ := x
  obtain ⟨yn, yw, yf, yp, hy⟩ := y
  simp only [PyFloat.parts, Prod.mk.injEq] at h
  obtain ⟨rfl, rfl, hfraction, rfl⟩ := h
  have hf : xf = yf := by
    by_cases hxf : xf = []
    · by_cases hyf : yf = []
      · rw [hxf, hyf]
      · rw [if_pos hxf, if_neg hyf] at hfraction
        cases hfraction
    · by_cases hyf : yf = []
      · rw [if_neg hxf, if_pos hyf] at hfraction
        cases hfraction
      · rw [if_neg hxf, if_neg hyf] at hfraction
        exact Option.some.inj hfraction
  subst hf
  rfl

theorem PyNumber.parts_inj {n m : PyNumber} (h : n.parts = m.parts) : n = m := by
  have hmixed : ∀ (k : Int) (x : PyFloat), (PyNumber.int k).parts ≠ (PyNumber.float x).parts := by
    intro k x hparts
    simp only [PyNumber.parts, PyFloat.parts, Prod.mk.injEq] at hparts
    obtain ⟨-, -, hfraction, hpower⟩ := hparts
    rcases x.ne_int with hne | hne
    · rw [if_neg hne] at hfraction
      cases hfraction
    · exact hne hpower.symm
  cases n with
  | int a =>
    cases m with
    | int b =>
      simp only [PyNumber.parts, Prod.mk.injEq, decide_eq_decide] at h
      rw [show a = b by omega]
    | float y => exact absurd h (hmixed a y)
  | float x =>
    cases m with
    | int b => exact absurd h.symm (hmixed b x)
    | float y => rw [PyFloat.parts_inj h]

theorem readable_pyNumber (n : PyNumber) : Readable PyNumber.text (Stops isNumberChar) n :=
  (readable_number n.parts).map fun _ h => PyNumber.parts_inj h

theorem PyNumber.text_inj {n m : PyNumber} (h : n.text = m.text) : n = m :=
  (readable_pyNumber n).eq_of_text (stops_nil _) h

/-! ## Texts -/

theorem hexDigit_inj {m n : Nat} (hm : m < 16) (hn : n < 16) (h : hexDigit m = hexDigit n) : m = n := by
  have hall : ∀ i j : Fin 16, Nat.digitChar i.val = Nat.digitChar j.val → i = j := by decide
  exact congrArg Fin.val (hall ⟨m, hm⟩ ⟨n, hn⟩ h)

/-- The character behind a short escape. -/
def unescaped (e : Char) : Char :=
  if e = 'n' then '\n'
  else if e = 'r' then '\r'
  else if e = 't' then '\t'
  else if e = 'b' then '\x08'
  else if e = 'f' then '\x0c'
  else e

theorem unescaped_shortEscape {c e : Char} (h : shortEscape c = some e) : unescaped e = c := by
  unfold shortEscape at h
  repeat' split at h
  all_goals cases h
  all_goals
    subst_vars
    rfl

theorem shortEscape_inj {c d e : Char} (hc : shortEscape c = some e) (hd : shortEscape d = some e) :
    c = d := by
  rw [← unescaped_shortEscape hc, ← unescaped_shortEscape hd]

theorem shortEscape_ne {c e : Char} (h : shortEscape c = some e) : e ≠ 'u' := by
  unfold shortEscape at h
  repeat' split at h
  all_goals
    cases h <;> decide

/-- A character without an escape is neither a quote nor a backslash. -/
theorem plain_of_shortEscape {c : Char} (h : shortEscape c = none) : c ≠ '"' ∧ c ≠ '\\' := by
  constructor
  · rintro rfl
    cases h
  · rintro rfl
    cases h

theorem readable_escape (c : Char) : Readable escapeText (fun _ => True) c := by
  intro d rest rest' _ _ heq
  unfold escapeText at heq
  cases hc : shortEscape c with
  | some e =>
    rw [hc] at heq
    cases hd : shortEscape d with
    | some f =>
      simp only [hd, List.cons_append, List.nil_append, List.cons.injEq, true_and] at heq
      obtain ⟨rfl, hrest⟩ := heq
      exact ⟨shortEscape_inj hc hd, hrest⟩
    | none =>
      simp only [hd] at heq
      split at heq
      · exact absurd (List.head_eq_of_cons_eq (List.tail_eq_of_cons_eq heq)) (shortEscape_ne hc)
      · exact absurd (List.head_eq_of_cons_eq heq).symm (plain_of_shortEscape hd).2
  | none =>
    rw [hc] at heq
    cases hd : shortEscape d with
    | some f =>
      simp only [hd] at heq
      split at heq
      · exact absurd (List.head_eq_of_cons_eq (List.tail_eq_of_cons_eq heq)).symm (shortEscape_ne hd)
      · exact absurd (List.head_eq_of_cons_eq heq) (plain_of_shortEscape hc).2
    | none =>
      simp only [hd] at heq
      split at heq
      next hcontrol =>
        split at heq
        next hcontrol' =>
          simp only [List.cons_append, List.nil_append, List.cons.injEq, true_and] at heq
          obtain ⟨hhigh, hlow, hrest⟩ := heq
          have hdiv := hexDigit_inj (by omega) (by omega) hhigh
          have hmod := hexDigit_inj (by omega) (by omega) hlow
          exact ⟨Char.toNat_inj.mp (by omega), hrest⟩
        next => exact absurd (List.head_eq_of_cons_eq heq).symm (plain_of_shortEscape hd).2
      next =>
        split at heq
        next => exact absurd (List.head_eq_of_cons_eq heq) (plain_of_shortEscape hc).2
        next => exact ⟨List.head_eq_of_cons_eq heq, List.tail_eq_of_cons_eq heq⟩

/-- No escaped character begins with the quote that ends a text. -/
theorem escapeText_head (c : Char) (rest : List Char) : (escapeText c ++ rest).head? ≠ some '"' := by
  unfold escapeText
  cases hc : shortEscape c with
  | some e => simp
  | none =>
    simp only
    split
    · simp
    · simpa using (plain_of_shortEscape hc).1

theorem readable_string (s : String) : Readable stringText (fun _ => True) s := by
  have hclosed := readable_closed readable_escape escapeText_head s.toList
  exact (hclosed.before '"').map fun t h => String.toList_inj.mp h

/-! ## Values -/

/-- What the first character of a text says of the value. -/
inductive JsonKind
  | null
  | bool (b : Bool)
  | number
  | str
  | list
  | dict

def kindOfChar (c : Char) : Option JsonKind :=
  if c = 'n' then some .null
  else if c = 't' then some (.bool true)
  else if c = 'f' then some (.bool false)
  else if c = '"' then some .str
  else if c = '[' then some .list
  else if c = '\x7b' then some .dict
  else if c = '-' ∨ c.isDigit = true then some .number
  else none

def Json.kind : Json → JsonKind
  | .null => .null
  | .bool b => .bool b
  | .number _ => .number
  | .str _ => .str
  | .list _ => .list
  | .dict _ => .dict

theorem numberText_head (n : NumberParts) (rest : List Char) :
    ∃ c, (c = '-' ∨ c.isDigit = true) ∧ (numberText n ++ rest).head? = some c := by
  obtain ⟨negative, whole, fraction, power⟩ := n
  cases negative with
  | true => exact ⟨'-', Or.inl rfl, rfl⟩
  | false =>
    obtain ⟨c, hdigit, hc⟩ := decimalText_head whole
      (optionalText '.' fractionText fraction ++ optionalText 'e' powerText power ++ rest)
    refine ⟨c, Or.inr hdigit, ?_⟩
    rw [← hc]
    simp [numberText, signText]

theorem kindOfChar_number {c : Char} (h : c = '-' ∨ c.isDigit = true) :
    kindOfChar c = some .number := by
  have hne : ∀ d : Char, d ≠ '-' → d.isDigit = false → c ≠ d := by
    rintro d hd hdigit rfl
    rcases h with hminus | hc
    · exact hd hminus
    · rw [hdigit] at hc
      cases hc
  unfold kindOfChar
  rw [if_neg (hne 'n' (by decide) rfl), if_neg (hne 't' (by decide) rfl), if_neg (hne 'f' (by decide) rfl),
    if_neg (hne '"' (by decide) rfl), if_neg (hne '[' (by decide) rfl),
    if_neg (hne '\x7b' (by decide) rfl), if_pos h]

theorem Json.text_head (t : Json) (rest : List Char) :
    ∃ c, (t.text ++ rest).head? = some c ∧ kindOfChar c = some t.kind := by
  cases t with
  | null => exact ⟨'n', by rw [Json.text]; rfl, rfl⟩
  | bool b =>
    cases b with
    | true => exact ⟨'t', by rw [Json.text]; rfl, rfl⟩
    | false => exact ⟨'f', by rw [Json.text]; rfl, rfl⟩
  | number n =>
    obtain ⟨c, hclass, hc⟩ := numberText_head n.parts rest
    exact ⟨c, by rw [Json.text]; exact hc, kindOfChar_number hclass⟩
  | str s => exact ⟨'"', by rw [Json.text]; rfl, rfl⟩
  | list items => exact ⟨'[', by rw [Json.text]; rfl, rfl⟩
  | dict fields => exact ⟨'\x7b', by rw [Json.text]; rfl, rfl⟩

theorem listTexts_eq (items : List Json) : listTexts items = items.map Json.text := by
  induction items with
  | nil => rw [listTexts]; rfl
  | cons t items ih => rw [listTexts, ih]; rfl

def fieldText (field : String × Json) : List Char := stringText field.1 ++ ':' :: field.2.text

theorem fieldTexts_eq (fields : List (String × Json)) : fieldTexts fields = fields.map fieldText := by
  induction fields with
  | nil => rw [fieldTexts]; rfl
  | cons field fields ih =>
    obtain ⟨key, t⟩ := field
    rw [fieldTexts, ih]
    rfl

/-- The induction over a value and the values in it. -/
theorem Json.induction {P : Json → Prop} (null : P .null) (bool : ∀ b, P (.bool b))
    (number : ∀ n, P (.number n)) (str : ∀ s, P (.str s))
    (list : ∀ items : List Json, (∀ t ∈ items, P t) → P (.list items))
    (dict : ∀ fields : List (String × Json), (∀ f ∈ fields, P f.2) → P (.dict fields)) (t : Json) :
    P t := by
  refine Json.rec (motive_1 := P) (motive_2 := fun items => ∀ t ∈ items, P t)
    (motive_3 := fun fields => ∀ f ∈ fields, P f.2) (motive_4 := fun f => P f.2)
    null bool number str list dict ?_ ?_ ?_ ?_ ?_ t
  · intro t ht
    cases ht
  · intro t items ht hitems u hu
    rcases List.mem_cons.mp hu with rfl | hu
    · exact ht
    · exact hitems u hu
  · intro f hf
    cases hf
  · intro f fields hf hfields g hg
    rcases List.mem_cons.mp hg with rfl | hg
    · exact hf
    · exact hfields g hg
  · intro key t ht
    exact ht

theorem stopsItem_bracket {close : Char} (hclose : isNumberChar close = false) :
    StopsItem close (Stops isNumberChar) := by
  intro rest hrest c hc
  rcases hrest with hcomma | hend
  · rw [hcomma] at hc
    rw [← Option.some.inj hc]
    rfl
  · rw [hend] at hc
    rw [← Option.some.inj hc]
    exact hclose

theorem Json.text_head_ne (t : Json) (rest : List Char) {close : Char}
    (hclose : kindOfChar close = none) : (t.text ++ rest).head? ≠ some close := by
  intro hhead
  obtain ⟨c, hc, hkind⟩ := t.text_head rest
  rw [hhead] at hc
  rw [← Option.some.inj hc, hclose] at hkind
  cases hkind

theorem fieldText_head (field : String × Json) (rest : List Char) :
    (fieldText field ++ rest).head? ≠ some '\x7d' := by
  unfold fieldText stringText
  simp

/-- A field is read back when its value is. -/
theorem readable_field {field : String × Json}
    (h : Readable Json.text (Stops isNumberChar) field.2) :
    Readable fieldText (Stops isNumberChar) field :=
  Readable.seq (readable_string field.1) (h.before ':') fun _ _ _ => trivial

theorem Json.kind_eq {t u : Json} {rest rest' : List Char} (heq : t.text ++ rest = u.text ++ rest') :
    t.kind = u.kind := by
  obtain ⟨c, hc, hkind⟩ := t.text_head rest
  obtain ⟨d, hd, hkind'⟩ := u.text_head rest'
  rw [heq, hd] at hc
  rw [Option.some.inj hc, hkind] at hkind'
  exact Option.some.inj hkind'

theorem Json.readable_text (t : Json) : Readable Json.text (Stops isNumberChar) t := by
  induction t using Json.induction with
  | null =>
    intro u rest rest' _ _ heq
    have hkind := Json.kind_eq heq
    cases u <;> cases hkind
    exact ⟨rfl, List.append_cancel_left heq⟩
  | bool b =>
    intro u rest rest' _ _ heq
    have hkind := Json.kind_eq heq
    cases u <;> cases hkind
    exact ⟨rfl, List.append_cancel_left heq⟩
  | number n =>
    intro u rest rest' hr hr' heq
    have hkind := Json.kind_eq heq
    cases u <;> cases hkind
    rename_i m
    rw [Json.text, Json.text] at heq
    obtain ⟨rfl, hrest⟩ := readable_pyNumber n m rest rest' hr hr' heq
    exact ⟨rfl, hrest⟩
  | str s =>
    intro u rest rest' _ _ heq
    have hkind := Json.kind_eq heq
    cases u <;> cases hkind
    rename_i s'
    rw [Json.text, Json.text] at heq
    obtain ⟨rfl, hrest⟩ := readable_string s s' rest rest' trivial trivial heq
    exact ⟨rfl, hrest⟩
  | list items ih =>
    intro u rest rest' _ _ heq
    have hkind := Json.kind_eq heq
    cases u <;> cases hkind
    rename_i items'
    rw [Json.text, Json.text, listTexts_eq, listTexts_eq] at heq
    have hclose : ']' ≠ ',' := by decide
    have hlist := (readable_joined hclose (stopsItem_bracket rfl)
      (fun t rest => t.text_head_ne rest rfl) ih).before '['
    obtain ⟨rfl, hrest⟩ := hlist items' rest rest' trivial trivial heq
    exact ⟨rfl, hrest⟩
  | dict fields ih =>
    intro u rest rest' _ _ heq
    have hkind := Json.kind_eq heq
    cases u <;> cases hkind
    rename_i fields'
    rw [Json.text, Json.text, fieldTexts_eq, fieldTexts_eq] at heq
    have hclose : '\x7d' ≠ ',' := by decide
    have hdict := (readable_joined hclose (stopsItem_bracket rfl) fieldText_head
      fun f hf => readable_field (ih f hf)).before '\x7b'
    obtain ⟨rfl, hrest⟩ := hdict fields' rest rest' trivial trivial heq
    exact ⟨rfl, hrest⟩

theorem Json.text_inj {t u : Json} (h : t.text = u.text) : t = u :=
  t.readable_text.eq_of_text (stops_nil _) h

end NexaHR
