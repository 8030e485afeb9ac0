-- SUMMARY: The compact text of a value without doubles stands for that value alone.
import FederatedJoin.Json.Printer
import FederatedJoin.Json.Token
import Mathlib.Tactic.SplitIfs

/-!
# Compact texts

A text can be cut in one way only. What follows a string starts behind its closing
quote, since every quote inside is escaped, and what follows an integer starts at the
first character that is no digit; everything else is told by its first character. So
the compact text of a value says where it ends, and from two values with the same text
the same value is read. Doubles are left out: that two of them never share their
shortest digits is another matter.
-/

namespace FederatedJoin.Json

/-! ## Values without doubles -/

mutual

/-- Every number inside is an integer. -/
def Integral : Json → Prop
  | .number (.double _ _) => False
  | .array items => AllIntegral items
  | .object fields => FieldsIntegral fields
  | _ => True

def AllIntegral : List Json → Prop
  | [] => True
  | item :: rest => item.Integral ∧ AllIntegral rest

def FieldsIntegral : List (String × Json) → Prop
  | [] => True
  | (_, value) :: rest => value.Integral ∧ FieldsIntegral rest

end

/-! ## Strings -/

namespace Token

theorem join?_char (c : Char) (ps : List Piece) :
    join? (.char c :: ps) = (join? ps).map (c :: ·) := by
  rw [join?]

/-- A unit below the surrogates stands for its character, whatever follows. -/
theorem join?_unit {n : Nat} (h : n < 0xD800) (ps : List Piece) :
    join? (.unit n :: ps) = (join? ps).map (Char.ofNat n :: ·) := by
  have hhigh : isHighSurrogate n = false := by
    simp only [isHighSurrogate, Bool.and_eq_false_iff, decide_eq_false_iff_not]
    omega
  have hlow : isLowSurrogate n = false := by
    simp only [isLowSurrogate, Bool.and_eq_false_iff, decide_eq_false_iff_not]
    omega
  match ps with
  | [] => simp [join?, hhigh, hlow]
  | .char c :: rest => simp [join?, hhigh, hlow]
  | .unit low :: rest =>
    rw [join?]
    simp [hhigh, hlow]

theorem hexUnit?_hexDigit :
    ∀ n < 32, hexUnit? '0' '0' (hexDigit (n / 16)) (hexDigit n) = some n := by decide

variable {rest more : List Char} {ps : List Piece}

theorem pieces?_plain {c : Char} (hquote : c ≠ '"') (hslash : c ≠ '\\') (hc : 32 ≤ c.toNat)
    (h : pieces? rest = some (ps, more)) : pieces? (c :: rest) = some (.char c :: ps, more) := by
  have hprintable : ¬ c.toNat < 32 := Nat.not_lt.2 hc
  simp [pieces?, hslash, hprintable, h]

theorem pieces?_simple {c d : Char} (hd : simpleEscape? d = some c)
    (h : pieces? rest = some (ps, more)) :
    pieces? ('\\' :: d :: rest) = some (.char c :: ps, more) := by
  have hu : d ≠ 'u' := by
    rintro rfl
    cases hd
  simp [pieces?, hu, hd, h]

theorem pieces?_unit {a b c d : Char} {n : Nat} (hn : hexUnit? a b c d = some n)
    (h : pieces? rest = some (ps, more)) :
    pieces? ('\\' :: 'u' :: a :: b :: c :: d :: rest) = some (.unit n :: ps, more) := by
  simp [pieces?, hn, h]

/-- A written character is read as one piece, which stands for it. -/
theorem pieces?_escape (c : Char) (h : pieces? rest = some (ps, more)) :
    ∃ piece, pieces? (escape c ++ rest) = some (piece :: ps, more) ∧
      join? (piece :: ps) = (join? ps).map (c :: ·) := by
  have hchar {n : Nat} (hn : c.toNat = n) : Char.ofNat n = c := by rw [← hn, Char.ofNat_toNat]
  by_cases hquote : c = '"'
  · subst hquote
    exact ⟨.char '"', pieces?_simple rfl h, join?_char ..⟩
  · by_cases hslash : c = '\\'
    · subst hslash
      exact ⟨.char '\\', pieces?_simple rfl h, join?_char ..⟩
    · simp only [escape, if_neg hquote, if_neg hslash]
      split_ifs with hplain hb ht hn hf hr
      · exact ⟨.char c, pieces?_plain hquote hslash hplain h, join?_char ..⟩
      · exact ⟨.char c, pieces?_simple (congrArg some (hchar hb)) h, join?_char ..⟩
      · exact ⟨.char c, pieces?_simple (congrArg some (hchar ht)) h, join?_char ..⟩
      · exact ⟨.char c, pieces?_simple (congrArg some (hchar hn)) h, join?_char ..⟩
      · exact ⟨.char c, pieces?_simple (congrArg some (hchar hf)) h, join?_char ..⟩
      · exact ⟨.char c, pieces?_simple (congrArg some (hchar hr)) h, join?_char ..⟩
      · have hcontrol : c.toNat < 32 := by omega
        refine ⟨.unit c.toNat, pieces?_unit (hexUnit?_hexDigit _ hcontrol) h, ?_⟩
        rw [join?_unit (by omega), Char.ofNat_toNat]

theorem pieces?_flatMap_escape (cs rest : List Char) :
    ∃ ps, pieces? (cs.flatMap escape ++ '"' :: rest) = some (ps, rest) ∧ join? ps = some cs := by
  induction cs with
  | nil => exact ⟨[], by simp [pieces?], rfl⟩
  | cons c cs ih =>
    obtain ⟨ps, hread, hjoin⟩ := ih
    obtain ⟨piece, hpiece, hjoined⟩ := pieces?_escape c hread
    rw [hjoin] at hjoined
    refine ⟨piece :: ps, ?_, hjoined⟩
    rw [List.flatMap_cons, List.append_assoc]
    exact hpiece

/-- A written string is read back, and what follows it is left. -/
theorem next?_stringChars (s : String) (rest : List Char) :
    next? (stringChars s ++ rest) = some (.string (some s), rest) := by
  obtain ⟨ps, hread, hjoin⟩ := pieces?_flatMap_escape s.toList rest
  have htext : stringChars s ++ rest = '"' :: (s.toList.flatMap escape ++ '"' :: rest) := by
    simp [stringChars]
  simp [htext, next?, hread, hjoin]

end Token

variable {rest more : List Char}

theorem stringChars_append_inj {s t : String}
    (h : stringChars s ++ rest = stringChars t ++ more) : s = t ∧ rest = more := by
  have hs := Token.next?_stringChars s rest
  rw [h, Token.next?_stringChars] at hs
  cases hs
  exact ⟨rfl, rfl⟩

/-! ## Integers -/

/-- A number in front of this text ends there. -/
def EndsNumber (rest : List Char) : Prop := ∀ c ∈ rest.head?, c.isDigit = false

theorem endsNumber_nil : EndsNumber [] := fun _ h => nomatch h

theorem takeWhile_isDigit_append {digits : List Char} (hdigits : ∀ c ∈ digits, c.isDigit = true)
    (hrest : EndsNumber rest) : (digits ++ rest).takeWhile Char.isDigit = digits := by
  rw [List.takeWhile_append_of_pos hdigits]
  cases rest with
  | nil => simp
  | cons c rest => simp [hrest c rfl]

theorem isDigit_of_mem_toDigits {n : Nat} : ∀ c ∈ Nat.toDigits 10 n, c.isDigit = true :=
  fun _ => Nat.isDigit_of_mem_toDigits (by decide) (by decide)

theorem toDigits_append_inj {m n : Nat} (hrest : EndsNumber rest) (hmore : EndsNumber more)
    (h : Nat.toDigits 10 m ++ rest = Nat.toDigits 10 n ++ more) : m = n ∧ rest = more := by
  have hdigits := congrArg (List.takeWhile Char.isDigit) h
  rw [takeWhile_isDigit_append isDigit_of_mem_toDigits hrest,
    takeWhile_isDigit_append isDigit_of_mem_toDigits hmore] at hdigits
  have hvalue := congrArg (Nat.ofDigitChars 10 · 0) hdigits
  simp only [Nat.ofDigitChars_ten_toDigits] at hvalue
  exact ⟨hvalue, List.append_cancel_left (hdigits ▸ h)⟩

theorem exists_toDigits_eq_cons (n : Nat) :
    ∃ c tail, Nat.toDigits 10 n = c :: tail ∧ c.isDigit = true := by
  obtain ⟨c, tail, hdigits⟩ := List.exists_cons_of_ne_nil (Nat.toDigits_ne_nil (n := n) (b := 10))
  exact ⟨c, tail, hdigits, isDigit_of_mem_toDigits c (hdigits ▸ List.mem_cons_self)⟩

/-- A sign is no digit. -/
theorem toDigits_append_ne_minus (n : Nat) : Nat.toDigits 10 n ++ rest ≠ '-' :: more := by
  obtain ⟨c, tail, hdigits, hc⟩ := exists_toDigits_eq_cons n
  rw [hdigits]
  intro h
  cases h
  cases hc

theorem integerChars_append_inj {m n : Int} (hrest : EndsNumber rest) (hmore : EndsNumber more)
    (h : integerChars m ++ rest = integerChars n ++ more) : m = n ∧ rest = more := by
  cases m with
  | ofNat m =>
    cases n with
    | ofNat n => exact (toDigits_append_inj hrest hmore h).imp_left (congrArg Int.ofNat)
    | negSucc n => exact absurd h (toDigits_append_ne_minus m)
  | negSucc m =>
    cases n with
    | ofNat n => exact absurd h.symm (toDigits_append_ne_minus n)
    | negSucc n =>
      have htail := toDigits_append_inj hrest hmore (List.cons.inj h).2
      exact htail.imp_left fun heq => congrArg Int.negSucc (Nat.succ.inj heq)

/-! ## First characters -/

inductive Kind where
  | null | bool | number | string | array | object
  deriving DecidableEq

def kindOf : Json → Kind
  | .null => .null
  | .bool _ => .bool
  | .number _ => .number
  | .string _ => .string
  | .array _ => .array
  | .object _ => .object

/-- The kind of value that a text with this first character stands for. -/
def Kind.starting (c : Char) : Option Kind :=
  if c = 'n' then some .null
  else if c = 't' ∨ c = 'f' then some .bool
  else if c = '"' then some .string
  else if c = '[' then some .array
  else if c = '{' then some .object
  else if c = '-' ∨ c.isDigit then some .number
  else none

theorem Kind.starting_of_isDigit {c : Char} (h : c.isDigit = true) :
    starting c = some .number := by
  have hne {d : Char} (hd : d.isDigit = false) : c ≠ d := by
    rintro rfl
    rw [h] at hd
    cases hd
  simp [starting, h, hne (d := 'n') rfl, hne (d := 't') rfl, hne (d := 'f') rfl,
    hne (d := '"') rfl, hne (d := '[') rfl, hne (d := '{') rfl]

theorem exists_integerChars_eq_cons (n : Int) :
    ∃ c tail, integerChars n = c :: tail ∧ Kind.starting c = some .number := by
  cases n with
  | ofNat n =>
    obtain ⟨c, tail, hdigits, hc⟩ := exists_toDigits_eq_cons n
    exact ⟨c, tail, hdigits, Kind.starting_of_isDigit hc⟩
  | negSucc n => exact ⟨'-', _, rfl, rfl⟩

theorem exists_compactChars_eq_cons : ∀ {j : Json}, j.Integral →
    ∃ c tail, j.compactChars = c :: tail ∧ Kind.starting c = some j.kindOf
  | .null, _ => ⟨'n', _, rfl, rfl⟩
  | .bool true, _ => ⟨'t', _, rfl, rfl⟩
  | .bool false, _ => ⟨'f', _, rfl, rfl⟩
  | .number (.integer n _), _ => exists_integerChars_eq_cons n
  | .string _, _ => ⟨'"', _, rfl, rfl⟩
  | .array [], _ => ⟨'[', _, rfl, rfl⟩
  | .array (_ :: _), _ => ⟨'[', _, rfl, rfl⟩
  | .object [], _ => ⟨'{', _, rfl, rfl⟩
  | .object (_ :: _), _ => ⟨'{', _, rfl, rfl⟩

theorem kindOf_eq_of_compactChars {j k : Json} (hj : j.Integral) (hk : k.Integral)
    (h : j.compactChars ++ rest = k.compactChars ++ more) : j.kindOf = k.kindOf := by
  obtain ⟨c, tail, hc, hkind⟩ := exists_compactChars_eq_cons hj
  obtain ⟨d, other, hd, hother⟩ := exists_compactChars_eq_cons hk
  rw [hc, hd] at h
  obtain rfl : c = d := (List.cons.inj h).1
  exact Option.some.inj (hkind.symm.trans hother)

/-- An array with items has another text than an empty one. -/
theorem compactChars_array_append_ne {item : Json} {items : List Json} (h : item.Integral) :
    (array (item :: items)).compactChars ++ rest ≠ (array []).compactChars ++ more := by
  obtain ⟨c, tail, hc, hkind⟩ := exists_compactChars_eq_cons h
  rw [compactChars, compactChars, hc]
  rintro ⟨⟩
  cases hkind

/-! ## Values -/

theorem compactItems_cons_append (item : Json) (items : List Json) (rest : List Char) :
    compactItems (item :: items) ++ rest =
      ',' :: (item.compactChars ++ (compactItems items ++ rest)) :=
  congrArg (List.cons ',') (List.append_assoc ..)

theorem compactFields_cons_append (name : String) (value : Json) (fields : List (String × Json))
    (rest : List Char) :
    compactFields ((name, value) :: fields) ++ rest = ',' :: (stringChars name ++
      ':' :: (value.compactChars ++ (compactFields fields ++ rest))) := by
  simp [compactFields]

theorem endsNumber_compactItems (items : List Json) (rest : List Char) :
    EndsNumber (compactItems items ++ rest) := by
  cases items <;> rintro _ ⟨⟩ <;> rfl

theorem endsNumber_compactFields (fields : List (String × Json)) (rest : List Char) :
    EndsNumber (compactFields fields ++ rest) := by
  rcases fields with _ | ⟨⟨_, _⟩, _⟩ <;> rintro _ ⟨⟩ <;> rfl

mutual

/-- Whatever follows them, one text does not stand for two values. -/
theorem compactChars_append_inj : ∀ (j k : Json) {rest more : List Char}, j.Integral →
    k.Integral → EndsNumber rest → EndsNumber more →
    j.compactChars ++ rest = k.compactChars ++ more → j = k ∧ rest = more
  | .null, k, _, _, hj, hk, _, _, h => by
    have hkind := kindOf_eq_of_compactChars hj hk h
    cases k with
    | null => exact ⟨rfl, List.append_cancel_left h⟩
    | _ => cases hkind
  | .bool a, k, _, _, hj, hk, _, _, h => by
    have hkind := kindOf_eq_of_compactChars hj hk h
    cases k with
    | bool b => cases a <;> cases b <;> cases h <;> exact ⟨rfl, rfl⟩
    | _ => cases hkind
  | .number (.integer m _), k, _, _, hj, hk, hrest, hmore, h => by
    have hkind := kindOf_eq_of_compactChars hj hk h
    cases k with
    | number other =>
      cases other with
      | integer n _ =>
        obtain ⟨rfl, hends⟩ := integerChars_append_inj hrest hmore h
        exact ⟨rfl, hends⟩
      | double _ _ => cases hk
    | _ => cases hkind
  | .string s, k, _, _, hj, hk, _, _, h => by
    have hkind := kindOf_eq_of_compactChars hj hk h
    cases k with
    | string t => exact (stringChars_append_inj h).imp_left (congrArg string)
    | _ => cases hkind
  | .array items, k, _, _, hj, hk, _, _, h => by
    have hkind := kindOf_eq_of_compactChars hj hk h
    cases k with
    | array others =>
      match items, others, h with
      | [], [], h => exact ⟨rfl, List.append_cancel_left h⟩
      | [], _ :: _, h => exact absurd h.symm (compactChars_array_append_ne hk.1)
      | _ :: _, [], h => exact absurd h (compactChars_array_append_ne hj.1)
      | item :: items, other :: others, h =>
        -- behind the first item the text goes on as it does behind any other
        have hitems := compactItems_append_inj (item :: items) (other :: others) hj hk
          (congrArg (List.cons ',') (List.cons.inj h).2)
        exact hitems.imp_left (congrArg array)
    | _ => cases hkind
  | .object fields, k, _, _, hj, hk, _, _, h => by
    have hkind := kindOf_eq_of_compactChars hj hk h
    cases k with
    | object others =>
      match fields, others, h with
      | [], [], h => exact ⟨rfl, List.append_cancel_left h⟩
      | field :: fields, other :: others, h =>
        have hfields := compactFields_append_inj (field :: fields) (other :: others) hj hk
          (congrArg (List.cons ',') (List.cons.inj h).2)
        exact hfields.imp_left (congrArg object)
    | _ => cases hkind

theorem compactItems_append_inj : ∀ (items others : List Json) {rest more : List Char},
    AllIntegral items → AllIntegral others →
    compactItems items ++ rest = compactItems others ++ more → items = others ∧ rest = more
  | [], [], _, _, _, _, h => ⟨rfl, List.append_cancel_left h⟩
  | item :: items, other :: others, _, _, hitems, hothers, h => by
    rw [compactItems_cons_append, compactItems_cons_append] at h
    obtain ⟨rfl, hrest⟩ := compactChars_append_inj item other hitems.1 hothers.1
      (endsNumber_compactItems _ _) (endsNumber_compactItems _ _) (List.cons.inj h).2
    exact (compactItems_append_inj items others hitems.2 hothers.2 hrest).imp_left
      (congrArg (List.cons item))

theorem compactFields_append_inj : ∀ (fields others : List (String × Json))
    {rest more : List Char}, FieldsIntegral fields → FieldsIntegral others →
    compactFields fields ++ rest = compactFields others ++ more → fields = others ∧ rest = more
  | [], [], _, _, _, _, h => ⟨rfl, List.append_cancel_left h⟩
  | (name, value) :: fields, (other, shown) :: others, _, _, hfields, hothers, h => by
    rw [compactFields_cons_append, compactFields_cons_append] at h
    obtain ⟨rfl, hvalue⟩ := stringChars_append_inj (List.cons.inj h).2
    obtain ⟨rfl, hrest⟩ := compactChars_append_inj value shown hfields.1 hothers.1
      (endsNumber_compactFields _ _) (endsNumber_compactFields _ _) (List.cons.inj hvalue).2
    exact (compactFields_append_inj fields others hfields.2 hothers.2 hrest).imp_left
      (congrArg (List.cons (name, value)))

end

/-- The compact text of a value without doubles is the text of no other. -/
theorem compact_inj {j k : Json} (hj : j.Integral) (hk : k.Integral) :
    j.compact = k.compact ↔ j = k := by
  refine ⟨fun h => ?_, congrArg compact⟩
  have hchars : j.compactChars ++ [] = k.compactChars ++ [] :=
    congrArg (· ++ []) (String.ofList_injective h)
  exact (compactChars_append_inj j k hj hk endsNumber_nil endsNumber_nil hchars).1

end FederatedJoin.Json
