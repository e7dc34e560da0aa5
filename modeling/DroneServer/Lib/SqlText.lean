import DroneServer.Lib.Endian
import Mathlib.Data.List.TakeWhile

/-! # Literals in the text of a statement

Where a quoted literal ends and what it denotes, what a word outside quotes may be,
and the statement that puts one row of literals into a table. A text denotes itself
between quotes exactly when it is `Plain`, and nothing that comes after the closing
quote can make up for one that is not.
-/

namespace SqlText

/-- The two characters that can delimit a literal. -/
inductive Quote where
  | single
  | double

namespace Quote

def char : Quote → UInt8
  | single => 0x27
  | double => 0x22

end Quote

def backslash : UInt8 := 0x5c

/-- The two wildcards of a pattern: escaping one keeps the backslash. -/
def Wildcard (c : UInt8) : Prop := c = 0x25 ∨ c = 0x5f

instance (c : UInt8) : Decidable (Wildcard c) := inferInstanceAs (Decidable (_ ∨ _))

/-- What a backslash and the character behind it stand for. -/
def escaped (c : UInt8) : Bytes :=
  if Wildcard c then [backslash, c]
  else if c = 0x30 then [0]
  else if c = 0x62 then [8]
  else if c = 0x6e then [10]
  else if c = 0x72 then [13]
  else if c = 0x74 then [9]
  else if c = 0x5a then [26]
  else [c]

/-- Put characters in front of what was read of a literal. -/
def prepend (front : Bytes) (read : Option (Bytes × Bytes)) : Option (Bytes × Bytes) :=
  read.map fun (value, rest) => (front ++ value, rest)

/-- The value of a literal and the text after it, read from behind its opening quote. It ends at the
    first quote that is neither doubled nor escaped. -/
def quoted (q : Quote) : Bytes → Option (Bytes × Bytes)
  | [] => none
  | [c] => if c = q.char then some ([], []) else none
  | c :: d :: rest =>
      if c = q.char then
        if d = q.char then prepend [c] (quoted q rest) else some ([], d :: rest)
      else if c = backslash then prepend (escaped d) (quoted q rest)
      else prepend [c] (quoted q (d :: rest))

/-- The characters that may not stand for themselves. -/
def Special (q : Quote) (c : UInt8) : Prop := c = q.char ∨ c = backslash

instance (q : Quote) (c : UInt8) : Decidable (Special q c) := inferInstanceAs (Decidable (_ ∨ _))

/-- Every character of the text stands for itself: there is no quote, and no backslash but in front of
    a wildcard. -/
def Plain (q : Quote) : Bytes → Prop
  | [] => True
  | c :: rest => c ≠ q.char ∧ (c = backslash → ∃ d ∈ rest.head?, Wildcard d) ∧ Plain q rest

instance decidablePlain (q : Quote) : (text : Bytes) → Decidable (Plain q text)
  | [] => .isTrue trivial
  | c :: rest =>
      have : Decidable (∃ d ∈ rest.head?, Wildcard d) :=
        match rest with
        | [] => .isFalse (by simp)
        | d :: _ => decidable_of_iff (Wildcard d) (by simp)
      have := decidablePlain q rest
      inferInstanceAs (Decidable (_ ∧ _ ∧ _))

variable {q : Quote} {c d : UInt8} {text tail value rest front pending : Bytes}

theorem char_ne_backslash (q : Quote) : q.char ≠ backslash := by cases q <;> decide

theorem not_special_wildcard (wild : Wildcard c) : ¬ Special q c := by
  obtain rfl | rfl := wild <;> cases q <;> decide

theorem prepend_eq_some {read : Option (Bytes × Bytes)} :
    prepend front read = some (value, rest) ↔
      ∃ later, read = some (later, rest) ∧ front ++ later = value := by
  simp [prepend]

theorem escaped_cases (q : Quote) (d : UInt8) :
    (Wildcard d ∧ escaped d = [backslash, d]) ∨
      (¬ Wildcard d ∧ ∃ x, escaped d = [x] ∧ (Special q x → d = x)) := by
  by_cases wild : Wildcard d
  · exact .inl ⟨wild, if_pos wild⟩
  refine .inr ⟨wild, ?_⟩
  have control : ∀ x : UInt8, x < 0x20 → ¬ Special q x := by
    rintro x low (rfl | rfl)
    · cases q <;> exact absurd low (by decide)
    · exact absurd low (by decide)
  unfold escaped
  rw [if_neg wild]
  split
  · exact ⟨0, rfl, fun special => absurd special (control 0 (by decide))⟩
  split
  · exact ⟨8, rfl, fun special => absurd special (control 8 (by decide))⟩
  split
  · exact ⟨10, rfl, fun special => absurd special (control 10 (by decide))⟩
  split
  · exact ⟨13, rfl, fun special => absurd special (control 13 (by decide))⟩
  split
  · exact ⟨9, rfl, fun special => absurd special (control 9 (by decide))⟩
  split
  · exact ⟨26, rfl, fun special => absurd special (control 26 (by decide))⟩
  · exact ⟨d, rfl, fun _ => rfl⟩

theorem quoted_ordinary (ordinary : ¬ Special q c) (text : Bytes) :
    quoted q (c :: text) = prepend [c] (quoted q text) := by
  obtain ⟨noQuote, noEscape⟩ := not_or.mp ordinary
  cases text with
  | nil => simp only [quoted, if_neg noQuote, prepend, Option.map_none]
  | cons d text => simp only [quoted, if_neg noQuote, if_neg noEscape]

@[simp] theorem prepend_nil (read : Option (Bytes × Bytes)) : prepend [] read = read :=
  Option.map_id'

@[simp] theorem prepend_prepend (front front' : Bytes) (read : Option (Bytes × Bytes)) :
    prepend front (prepend front' read) = prepend (front ++ front') read := by
  cases read with
  | none => rfl
  | some read => simp [prepend]

theorem quoted_ordinaries (ordinary : ∀ c ∈ front, ¬ Special q c) (text : Bytes) :
    quoted q (front ++ text) = prepend front (quoted q text) := by
  induction front with
  | nil => exact (prepend_nil _).symm
  | cons c front ih =>
      rw [List.cons_append, quoted_ordinary (ordinary c (.head _)),
        ih fun d inside => ordinary d (.tail _ inside), prepend_prepend]
      rfl

theorem quoted_doubled (text : Bytes) :
    quoted q (q.char :: q.char :: text) = prepend [q.char] (quoted q text) := by
  simp only [quoted, if_true]

theorem quoted_closed (other : text.head? ≠ some q.char) :
    quoted q (q.char :: text) = some ([], text) := by
  cases text with
  | nil => simp only [quoted, if_true]
  | cons d text =>
      have single : d ≠ q.char := fun same => other (by rw [same]; rfl)
      simp only [quoted, if_true, if_neg single]

theorem quoted_escaped (d : UInt8) (text : Bytes) :
    quoted q (backslash :: d :: text) = prepend (escaped d) (quoted q text) := by
  simp only [quoted, if_neg (char_ne_backslash q).symm, if_true]

theorem quoted_starts (ordinary : ¬ Special q c) (read : quoted q (c :: text) = some (value, rest)) :
    ∃ later, quoted q text = some (later, rest) ∧ c :: later = value := by
  rw [quoted_ordinary ordinary] at read
  exact prepend_eq_some.mp read

theorem quoted_plain (plain : Plain q text) (other : tail.head? ≠ some q.char) :
    quoted q (text ++ q.char :: tail) = some (text, tail) := by
  induction text with
  | nil => exact quoted_closed other
  | cons c text ih =>
      obtain ⟨noQuote, escapes, plain⟩ := plain
      have read := ih plain
      by_cases escape : c = backslash
      · obtain ⟨d, first, wild⟩ := escapes escape
        obtain ⟨later, rfl⟩ : ∃ later, text = d :: later := by
          cases text with
          | nil => cases first
          | cons _ later =>
              cases first
              exact ⟨later, rfl⟩
        rw [List.cons_append] at read
        obtain ⟨_, read, same⟩ := quoted_starts (not_special_wildcard wild) read
        rw [escape, List.cons_append, List.cons_append, quoted_escaped, read]
        obtain ⟨_, kept⟩ | ⟨tame, _⟩ := escaped_cases q d
        · rw [kept, ← same]
          rfl
        · exact absurd wild tame
      · rw [List.cons_append, quoted_ordinary (not_or.mpr ⟨noQuote, escape⟩), read]
        rfl

/-- Reading a literal never catches up with special characters it is behind by: for the next of them
    it uses up two more. -/
theorem quoted_pending (ordinary : ¬ Special q c) :
    ∀ (text pending : Bytes), pending ≠ [] → (∀ x ∈ pending, Special q x) →
      quoted q (text ++ q.char :: c :: tail) ≠ some (pending ++ text, rest)
  | _, [], nonempty, _, _ => nonempty rfl
  | [], x :: pending, _, _, read => by
      have other : (c :: tail).head? ≠ some q.char := fun same =>
        ordinary (.inl (Option.some.inj same))
      rw [List.nil_append, quoted_closed other] at read
      cases read
  | [d], x :: pending, _, special, read => by
      -- one more special character is expected than the text before `c` can give
      have behind : ∀ y later, Special q y → quoted q (c :: tail) = some (later, rest) →
          pending ++ [y] ≠ later := by
        rintro y _ first read rfl
        obtain ⟨_, _, same⟩ := quoted_starts ordinary read
        cases pending with
        | nil =>
            cases same
            exact ordinary first
        | cons z pending =>
            cases same
            exact ordinary (special _ (.tail _ (.head _)))
      by_cases first : Special q d
      · obtain rfl | rfl := first
        · rw [List.singleton_append, quoted_doubled] at read
          obtain ⟨later, read, same⟩ := prepend_eq_some.mp read
          exact behind q.char later (.inl rfl) read (List.cons.inj same).2.symm
        · rw [List.singleton_append, quoted_escaped] at read
          obtain ⟨later, read, same⟩ := prepend_eq_some.mp read
          obtain ⟨wild, _⟩ | ⟨_, y, one, _⟩ := escaped_cases q q.char
          · exact not_special_wildcard wild (.inl rfl)
          · rw [one] at same
            exact behind backslash later (.inr rfl) read (List.cons.inj same).2.symm
      · obtain ⟨_, _, same⟩ := quoted_starts first read
        cases same
        exact first (special _ (.head _))
  | d :: e :: text, x :: pending, _, special, read => by
      have first : Special q d := by
        by_contra first
        obtain ⟨_, _, same⟩ := quoted_starts first read
        cases same
        exact first (special _ (.head _))
      -- both characters are used up for `x`, and both are special
      have behind : ∀ later, Special q e →
          quoted q (text ++ q.char :: c :: tail) = some (later, rest) →
            pending ++ d :: e :: text ≠ later := by
        rintro _ second read rfl
        refine quoted_pending ordinary text (pending ++ [d, e]) (by simp) ?_
          (by rw [read, List.append_assoc]; rfl)
        simp only [List.mem_append, List.mem_cons, List.not_mem_nil, or_false]
        rintro y (inside | rfl | rfl)
        · exact special y (.tail _ inside)
        · exact first
        · exact second
      obtain rfl | rfl := first
      · by_cases doubled : e = q.char
        · subst doubled
          rw [List.cons_append, List.cons_append, quoted_doubled] at read
          obtain ⟨later, read, same⟩ := prepend_eq_some.mp read
          exact behind later (.inl rfl) read (List.cons.inj same).2.symm
        · rw [List.cons_append, quoted_closed (by simpa using doubled)] at read
          cases read
      · rw [List.cons_append, List.cons_append, quoted_escaped] at read
        obtain ⟨later, read, same⟩ := prepend_eq_some.mp read
        obtain ⟨wild, kept⟩ | ⟨_, y, one, itself⟩ := escaped_cases q e
        · rw [kept] at same
          -- the wildcard would have to be what is expected next
          have next : Special q e := by
            cases pending with
            | nil =>
                cases same
                exact .inr rfl
            | cons z pending =>
                cases same
                exact special _ (.tail _ (.head _))
          exact not_special_wildcard wild next
        · rw [one] at same
          cases same
          have second : Special q e := itself (special _ (.head _)) ▸ special _ (.head _)
          exact behind _ second read rfl

theorem plain_of_quoted (ordinary : ¬ Special q c) :
    ∀ text : Bytes, quoted q (text ++ q.char :: c :: tail) = some (text, rest) → Plain q text
  | [], _ => trivial
  | [d], read => by
      have first : ¬ Special q d := by
        rintro (rfl | rfl)
        · rw [List.singleton_append, quoted_doubled] at read
          obtain ⟨later, read, same⟩ := prepend_eq_some.mp read
          obtain ⟨_, _, started⟩ := quoted_starts ordinary read
          cases started
          cases same
        · rw [List.singleton_append, quoted_escaped] at read
          obtain ⟨later, read, same⟩ := prepend_eq_some.mp read
          obtain ⟨wild, _⟩ | ⟨_, y, one, itself⟩ := escaped_cases q q.char
          · exact not_special_wildcard wild (.inl rfl)
          · rw [one] at same
            cases same
            exact char_ne_backslash q (itself (.inr rfl))
      obtain ⟨noQuote, noEscape⟩ := not_or.mp first
      exact ⟨noQuote, fun escape => absurd escape noEscape, trivial⟩
  | d :: e :: text, read => by
      by_cases first : Special q d
      · obtain rfl | rfl := first
        · by_cases doubled : e = q.char
          · subst doubled
            rw [List.cons_append, List.cons_append, quoted_doubled] at read
            obtain ⟨later, read, same⟩ := prepend_eq_some.mp read
            obtain rfl := (List.cons.inj same).2
            refine absurd read (quoted_pending ordinary text [q.char] (by simp) ?_)
            simp only [List.mem_singleton, forall_eq]
            exact .inl rfl
          · rw [List.cons_append, quoted_closed (by simpa using doubled)] at read
            cases read
        · rw [List.cons_append, List.cons_append, quoted_escaped] at read
          obtain ⟨later, read, same⟩ := prepend_eq_some.mp read
          obtain ⟨wild, kept⟩ | ⟨_, y, one, itself⟩ := escaped_cases q e
          · rw [kept] at same
            have left : later = text := (List.cons.inj (List.cons.inj same).2).2
            rw [left] at read
            obtain ⟨noQuote, noEscape⟩ := not_or.mp (not_special_wildcard (q := q) wild)
            exact ⟨(char_ne_backslash q).symm, fun _ => ⟨e, rfl, wild⟩, noQuote,
              fun escape => absurd escape noEscape, plain_of_quoted ordinary text read⟩
          · rw [one] at same
            obtain ⟨rfl, rfl⟩ := List.cons.inj same
            obtain rfl := itself (.inr rfl)
            refine absurd read (quoted_pending ordinary text [backslash] (by simp) ?_)
            simp only [List.mem_singleton, forall_eq]
            exact .inr rfl
      · obtain ⟨later, read, same⟩ := quoted_starts first read
        cases same
        obtain ⟨noQuote, noEscape⟩ := not_or.mp first
        exact ⟨noQuote, fun escape => absurd escape noEscape,
          plain_of_quoted ordinary (e :: text) read⟩

/-! ### Words outside quotes -/

def isDigit (c : UInt8) : Bool := 0x30 ≤ c && c ≤ 0x39

/-- Digits, letters, signs, the point and the underscore. -/
def isWord (c : UInt8) : Bool :=
  isDigit c || (0x41 ≤ c && c ≤ 0x5a) || (0x61 ≤ c && c ≤ 0x7a) ||
    c == 0x2b || c == 0x2d || c == 0x2e || c == 0x5f

/-- The text behind a sign, if there is one. -/
def unsign : Bytes → Bytes
  | [] => []
  | c :: rest => if c = 0x2b ∨ c = 0x2d then rest else c :: rest

/-- Nothing, or an exponent. -/
def isExponent : Bytes → Bool
  | [] => true
  | c :: rest =>
      (c == 0x65 || c == 0x45) && !(unsign rest).isEmpty && (unsign rest).all isDigit

/-- What may follow the whole part of a number. -/
def isFraction : Bytes → Bool
  | [] => true
  | c :: rest =>
      if c = 0x2e then !(rest.takeWhile isDigit).isEmpty && isExponent (rest.dropWhile isDigit)
      else isExponent (c :: rest)

/-- A number: a sign or none, digits, and a fraction and an exponent or none. -/
def isNumeral (text : Bytes) : Bool :=
  !((unsign text).takeWhile isDigit).isEmpty && isFraction ((unsign text).dropWhile isDigit)

/-- The characters of a text. -/
def spell (text : String) : Bytes := text.toList.map fun c => UInt8.ofNat c.toNat

def lower (c : UInt8) : UInt8 := if 0x41 ≤ c ∧ c ≤ 0x5a then c + 0x20 else c

/-- The literals that are words. -/
def isKeyword (word : Bytes) : Bool :=
  word.map lower == spell "null" || word.map lower == spell "true" ||
    word.map lower == spell "false"

/-- A text that is one word from its first character to its last. -/
def Solid (text : Bytes) : Prop := ∀ c ∈ text, isWord c = true

instance (text : Bytes) : Decidable (Solid text) :=
  inferInstanceAs (Decidable (∀ c ∈ text, isWord c = true))

theorem isWord_of_isDigit (digit : isDigit c = true) : isWord c = true := by
  simp [isWord, digit]

theorem solid_digits (all : text.all isDigit = true) : Solid text :=
  fun c inside => isWord_of_isDigit (List.all_eq_true.mp all c inside)

theorem Solid.cons (word : isWord c = true) (solid : Solid text) : Solid (c :: text) := by
  rintro d (_ | ⟨_, inside⟩)
  · exact word
  · exact solid d inside

theorem solid_unsign (solid : Solid (unsign text)) : Solid text := by
  cases text with
  | nil => exact solid
  | cons c rest =>
      simp only [unsign] at solid
      split at solid
      · next sign =>
          obtain rfl | rfl := sign
          · exact .cons (by decide) solid
          · exact .cons (by decide) solid
      · exact solid

theorem solid_span (solid : Solid (text.dropWhile isDigit)) : Solid text := by
  rw [← List.takeWhile_append_dropWhile (p := isDigit) (l := text)]
  intro c inside
  obtain digit | rest := List.mem_append.mp inside
  · exact solid_digits List.all_takeWhile c digit
  · exact solid c rest

theorem solid_exponent (exponent : isExponent text = true) : Solid text := by
  cases text with
  | nil => nofun
  | cons c rest =>
      simp only [isExponent, Bool.and_eq_true, Bool.or_eq_true, beq_iff_eq] at exponent
      obtain ⟨⟨mark, _⟩, digits⟩ := exponent
      refine .cons ?_ (solid_unsign (solid_digits digits))
      obtain rfl | rfl := mark <;> decide

theorem solid_fraction (fraction : isFraction text = true) : Solid text := by
  cases text with
  | nil => nofun
  | cons c rest =>
      simp only [isFraction] at fraction
      split at fraction
      · next point =>
          rw [Bool.and_eq_true] at fraction
          exact .cons (by rw [point]; decide) (solid_span (solid_exponent fraction.2))
      · exact solid_exponent fraction

theorem solid_numeral (numeral : isNumeral text = true) : Solid text := by
  rw [isNumeral, Bool.and_eq_true] at numeral
  exact solid_unsign (solid_span (solid_fraction numeral.2))

theorem isNumeral_unsign (some : unsign text ≠ []) (all : (unsign text).all isDigit = true) :
    isNumeral text = true := by
  have whole : (unsign text).takeWhile isDigit = unsign text :=
    List.takeWhile_eq_self_iff.mpr (List.all_eq_true.mp all)
  have none : (unsign text).dropWhile isDigit = [] :=
    List.dropWhile_eq_nil_iff.mpr (List.all_eq_true.mp all)
  rw [isNumeral, whole, none]
  simpa [isFraction] using some

theorem unsign_digits (all : text.all isDigit = true) : unsign text = text := by
  cases text with
  | nil => rfl
  | cons c rest =>
      have digit := List.all_eq_true.mp all c (.head _)
      refine if_neg ?_
      rintro (rfl | rfl) <;> cases digit

theorem spell_repr (n : ℕ) : (spell n.repr).all isDigit = true ∧ spell n.repr ≠ [] := by
  rw [spell, Nat.toList_repr]
  refine ⟨?_, fun none => Nat.toDigits_ne_nil (List.map_eq_nil_iff.mp none)⟩
  rw [List.all_map, List.all_eq_true]
  intro c inside
  have digit := Nat.isDigit_of_mem_toDigits (by decide) (by decide) inside
  obtain ⟨low, high⟩ : 48 ≤ c.val ∧ c.val ≤ 57 := by simpa [Char.isDigit] using digit
  have least : 48 ≤ c.toNat := UInt32.le_iff_toNat_le.mp low
  have most : c.toNat ≤ 57 := UInt32.le_iff_toNat_le.mp high
  have same : (UInt8.ofNat c.toNat).toNat = c.toNat :=
    UInt8.toNat_ofNat_of_lt (Nat.lt_of_le_of_lt most (by decide))
  simp only [Function.comp_apply, isDigit, Bool.and_eq_true, decide_eq_true_eq,
    UInt8.le_iff_toNat_le, same]
  exact ⟨least, most⟩

theorem isNumeral_nat (n : ℕ) : isNumeral (spell n.repr) = true := by
  obtain ⟨digits, some⟩ := spell_repr n
  have unsigned := unsign_digits digits
  exact isNumeral_unsign (by rwa [unsigned]) (by rwa [unsigned])

theorem isNumeral_int (i : ℤ) : isNumeral (spell i.repr) = true := by
  cases i with
  | ofNat n => exact isNumeral_nat n
  | negSucc n =>
      obtain ⟨digits, some⟩ := spell_repr (n + 1)
      have minus : spell (Int.negSucc n).repr = 0x2d :: spell (n + 1).repr := by
        rw [Int.repr, spell, String.toList_append]
        rfl
      rw [minus]
      exact isNumeral_unsign some digits

/-! ### Rows of literals -/

inductive Literal where
  | quoted (value : Bytes)
  /-- A number, or a literal that is a keyword. -/
  | bare (word : Bytes)
  deriving DecidableEq

/-- Read one literal. Whether double quotes delimit one too is a mode of the server. -/
def literal (double : Bool) : Bytes → Option (Literal × Bytes)
  | [] => none
  | c :: rest =>
      if c = Quote.single.char then
        (quoted .single rest).map fun (value, rest) => (.quoted value, rest)
      else if c = Quote.double.char then
        if double then (quoted .double rest).map fun (value, rest) => (.quoted value, rest)
        else none
      else
        let word := (c :: rest).takeWhile isWord
        if isNumeral word || isKeyword word then some (.bare word, (c :: rest).dropWhile isWord)
        else none

/-- Leave out spaces. -/
def skip (text : Bytes) : Bytes := text.dropWhile (· == 0x20)

/-- Read so many literals, each behind a comma. -/
def others (double : Bool) : ℕ → Bytes → Option (List Literal × Bytes)
  | 0, text => some ([], text)
  | n + 1, text =>
      match skip text with
      | [] => none
      | c :: text =>
          if c = 0x2c then
            (literal double (skip text)).bind fun (first, text) =>
              (others double n text).map fun (later, text) => (first :: later, text)
          else none

/-- Read one literal, and so many others. -/
def row (double : Bool) (n : ℕ) (text : Bytes) : Option (List Literal × Bytes) :=
  (literal double (skip text)).bind fun (first, text) =>
    (others double n text).map fun (later, text) => (first :: later, text)

/-- What stands in front of the row. -/
def opening (table : Bytes) : Bytes := spell "INSERT INTO " ++ table ++ spell " VALUES ("

/-- Read one statement that inserts a row of literals, the first and so many others, into the table.
    Nothing may follow it. -/
def insertion (double : Bool) (table : Bytes) (n : ℕ) (text : Bytes) : Option (List Literal) :=
  if text.take (opening table).length = opening table then
    (row double n (text.drop (opening table).length)).bind fun (read, text) =>
      if skip text = spell ");" then some read else none
  else none

/-- A text put between quotes as it is, and what follows. -/
def enclose (text rest : Bytes) : Bytes :=
  Quote.single.char :: (text ++ Quote.single.char :: rest)

/-- A row as it is put together: a text between quotes, cells as they are, and another text. -/
def rowText (table first : Bytes) (cells : List Bytes) (last : Bytes) : Bytes :=
  opening table ++
    enclose first (cells.flatMap (0x2c :: ·) ++ 0x2c :: enclose last (spell ");"))

/-- What can stand behind a value: a comma, or the closing parenthesis. -/
def Separated (text : Bytes) : Prop := text.head? = some 0x2c ∨ text.head? = some 0x29

/-- The cell begins with no space, and what is read there, whatever follows it, is this. -/
def Cell (double : Bool) (cell : Bytes) (read : Option Literal) : Prop :=
  cell.head? ≠ none ∧ cell.head? ≠ some 0x20 ∧
    ∀ text, Separated text → literal double (cell ++ text) = read.map fun l => (l, text)

variable {double : Bool} {cell last : Bytes} {cells : List Bytes} {l : Literal}

theorem Separated.ordinary (separated : Separated text) :
    ∃ c later, text = c :: later ∧ isWord c = false ∧ c ≠ 0x20 ∧ ∀ q, ¬ Special q c := by
  obtain comma | parenthesis := separated
  · obtain ⟨later, rfl⟩ := List.head?_eq_some_iff.mp comma
    exact ⟨_, _, rfl, by decide, by decide, by intro q; cases q <;> decide⟩
  · obtain ⟨later, rfl⟩ := List.head?_eq_some_iff.mp parenthesis
    exact ⟨_, _, rfl, by decide, by decide, by intro q; cases q <;> decide⟩

theorem skip_cons (other : c ≠ 0x20) (text : Bytes) : skip (c :: text) = c :: text := by
  simp [skip, other]

theorem Cell.skip {read : Option Literal} (reads : Cell double cell read) (text : Bytes) :
    skip (cell ++ text) = cell ++ text := by
  obtain ⟨some, other, _⟩ := reads
  cases cell with
  | nil => exact absurd rfl some
  | cons c cell => exact skip_cons (fun same => other (by rw [same]; rfl)) _

theorem cell_bare (solid : Solid cell) (bare : isNumeral cell = true ∨ isKeyword cell = true) :
    Cell double cell (some (.bare cell)) := by
  cases cell with
  | nil => obtain none | none := bare <;> cases none
  | cons c cell =>
      have apart : ∀ d, isWord d = false → c ≠ d := by
        rintro d other rfl
        cases other.symm.trans (solid c (.head _))
      refine ⟨nofun, fun space => apart 0x20 (by decide) (Option.some.inj space), ?_⟩
      intro text separated
      obtain ⟨d, later, rfl, other, _⟩ := separated.ordinary
      have word : ((c :: cell) ++ d :: later).takeWhile isWord = c :: cell := by
        rw [List.takeWhile_append_of_pos solid, List.takeWhile_cons_of_neg (by simp [other]),
          List.append_nil]
      have left : ((c :: cell) ++ d :: later).dropWhile isWord = d :: later := by
        rw [List.dropWhile_append_of_pos solid, List.dropWhile_cons_of_neg (by simp [other])]
      rw [List.cons_append] at word left ⊢
      rw [literal, if_neg (apart _ (by decide)), if_neg (apart _ (by decide))]
      simp only [word, left, Bool.or_eq_true, if_pos bare, Option.map_some]

theorem cell_other (word : isWord c = false) (space : c ≠ 0x20) (single : c ≠ Quote.single.char)
    (quote : c ≠ Quote.double.char) (text : Bytes) : Cell double (c :: text) none := by
  refine ⟨nofun, fun same => space (Option.some.inj same), fun tail _ => ?_⟩
  have empty : (c :: (text ++ tail)).takeWhile isWord = [] :=
    List.takeWhile_cons_of_neg (by simp [word])
  rw [List.cons_append, literal, if_neg single, if_neg quote]
  simp only [empty]
  rfl

theorem cell_identifier (text : Bytes) : Cell false (Quote.double.char :: text) none :=
  ⟨nofun, by simp [Quote.char], fun _ _ => by simp [literal, Quote.char]⟩

theorem cell_string
    (read : ∀ tail : Bytes, tail.head? ≠ some Quote.double.char →
      quoted .double (text ++ Quote.double.char :: tail) = some (value, tail)) :
    Cell true (Quote.double.char :: (text ++ [Quote.double.char])) (some (.quoted value)) := by
  refine ⟨nofun, by simp [Quote.char], fun tail separated => ?_⟩
  obtain ⟨c, later, rfl, _, _, ordinary⟩ := separated.ordinary
  have other : (c :: later).head? ≠ some Quote.double.char := fun same =>
    ordinary .double (.inl (Option.some.inj same))
  rw [List.cons_append, List.append_assoc, List.singleton_append, literal, if_neg (by decide),
    if_pos rfl, read _ other]
  rfl

theorem Cell.unique {read read' : Option Literal} (reads : Cell double cell read)
    (reads' : Cell double cell read') : read = read' := by
  have comma : Separated [0x2c] := .inl rfl
  have same := (reads.2.2 _ comma).symm.trans (reads'.2.2 _ comma)
  cases read <;> cases read' <;> cases same <;> rfl

/-- A text between single quotes is read as itself exactly when it is plain, and then to its end. -/
theorem literal_text (separated : Separated tail) :
    literal double (enclose text tail) = some (.quoted text, rest) ↔
      Plain .single text ∧ tail = rest := by
  obtain ⟨c, later, rfl, _, _, ordinary⟩ := separated.ordinary
  have read : literal double (enclose text (c :: later)) = some (.quoted text, rest) ↔
      quoted .single (text ++ Quote.single.char :: c :: later) = some (text, rest) := by
    simp [literal, enclose]
  have other : (c :: later).head? ≠ some Quote.single.char := fun same =>
    ordinary .single (.inl (Option.some.inj same))
  rw [read]
  constructor
  · intro read
    have plain := plain_of_quoted (ordinary .single) text read
    rw [quoted_plain plain other] at read
    cases read
    exact ⟨plain, rfl⟩
  · rintro ⟨plain, rfl⟩
    exact quoted_plain plain other

theorem skip_enclose (text rest : Bytes) : skip (enclose text rest) = enclose text rest :=
  skip_cons (by decide) _

theorem others_comma (n : ℕ) (text : Bytes) :
    others double (n + 1) (0x2c :: text) = row double n text := by
  have comma : (0x2c : UInt8) ≠ 0x20 := by decide
  simp only [others, skip_cons comma, if_true, row]

theorem separated_cells (cells : List Bytes) (separated : Separated tail) :
    Separated (cells.flatMap (0x2c :: ·) ++ tail) := by
  cases cells with
  | nil => exact separated
  | cons => exact .inl rfl

theorem others_cell {read : Option Literal} (n : ℕ) (reads : Cell double cell read)
    (separated : Separated tail) :
    others double (n + 1) (0x2c :: (cell ++ tail)) =
      read.bind fun l => (others double n tail).map fun (later, text) => (l :: later, text) := by
  rw [others_comma, row, reads.skip, reads.2.2 tail separated]
  cases read <;> rfl

theorem others_cells (n : ℕ) (literals : ∀ cell ∈ cells, ∃ l, Cell double cell (some l))
    (separated : Separated tail) :
    ∃ ls, ls.length = cells.length ∧
      others double (cells.length + n) (cells.flatMap (0x2c :: ·) ++ tail) =
        (others double n tail).map fun (later, text) => (ls ++ later, text) := by
  induction cells with
  | nil =>
      refine ⟨[], rfl, ?_⟩
      rw [List.length_nil, Nat.zero_add, List.flatMap_nil, List.nil_append]
      exact Option.map_id'.symm
  | cons cell cells ih =>
      obtain ⟨l, reads⟩ := literals cell (.head _)
      obtain ⟨ls, length, read⟩ := ih fun c inside => literals c (.tail _ inside)
      refine ⟨l :: ls, congrArg (· + 1) length, ?_⟩
      have step := others_cell (cells.length + n) reads (separated_cells cells separated)
      rw [read, Option.bind_some, Option.map_map] at step
      rw [List.flatMap_cons, List.cons_append, List.cons_append, List.append_assoc,
        List.length_cons, Nat.add_right_comm, step]
      rfl

theorem others_broken (n : ℕ) (each : ∀ cell ∈ cells, ∃ read, Cell double cell read)
    (separated : Separated tail)
    (broken : ∃ cell ∈ cells, ∀ l, ¬ Cell double cell (some l)) :
    others double (cells.length + n) (cells.flatMap (0x2c :: ·) ++ tail) = none := by
  induction cells with
  | nil =>
      obtain ⟨_, inside, _⟩ := broken
      cases inside
  | cons cell cells ih =>
      obtain ⟨read, reads⟩ := each cell (.head _)
      have step := others_cell (cells.length + n) reads (separated_cells cells separated)
      rw [List.flatMap_cons, List.cons_append, List.cons_append, List.append_assoc,
        List.length_cons, Nat.add_right_comm, step]
      cases read with
      | none => rfl
      | some l =>
          obtain ⟨other, inside, unread⟩ := broken
          obtain _ | ⟨_, inside⟩ := inside
          · exact absurd reads (unread l)
          · rw [ih (fun c inside => each c (.tail _ inside)) ⟨other, inside, unread⟩]
            rfl

theorem insertion_opening (n : ℕ) (table text : Bytes) :
    insertion double table n (opening table ++ text) =
      (row double n text).bind fun (read, text) =>
        if skip text = spell ");" then some read else none := by
  rw [insertion, List.take_left, List.drop_left, if_pos rfl]

theorem others_last :
    others double 1 (0x2c :: enclose last (spell ");")) = some ([.quoted last], rest) ↔
      Plain .single last ∧ spell ");" = rest := by
  have close : Separated (spell ");") := .inr (by decide)
  have read : literal double (enclose last (spell ");")) = some (.quoted last, rest) ↔ _ :=
    literal_text close
  rw [others_comma, row, skip_enclose, ← read]
  cases literal double (enclose last (spell ");")) with
  | none => simp
  | some read => simp [others, Prod.ext_iff]

/-- The row is read as the texts and literals it was made of exactly when the two texts are plain and
    every cell is a literal. -/
theorem insertion_iff (table first last : Bytes)
    (each : ∀ cell ∈ cells, ∃ read, Cell double cell read) :
    (∃ ls, ls.length = cells.length ∧
        insertion double table (cells.length + 1) (rowText table first cells last) =
          some (.quoted first :: (ls ++ [.quoted last]))) ↔
      Plain .single first ∧ Plain .single last ∧
        ∀ cell ∈ cells, ∃ l, Cell double cell (some l) := by
  have comma : Separated (0x2c :: enclose last (spell ");")) := .inl rfl
  have separated := separated_cells cells comma
  rw [rowText, insertion_opening, row, skip_enclose]
  constructor
  · rintro ⟨ls, length, read⟩
    obtain ⟨⟨values, rest⟩, values_read, ended⟩ := Option.bind_eq_some_iff.mp read
    obtain ⟨⟨l, text⟩, begun, mapped⟩ := Option.bind_eq_some_iff.mp values_read
    obtain ⟨⟨later, text'⟩, later_read, same⟩ := Option.map_eq_some_iff.mp mapped
    obtain ⟨rfl, rfl⟩ := Prod.mk.inj same
    simp only [Option.ite_none_right_eq_some, Option.some.injEq, List.cons.injEq] at ended
    obtain ⟨_, rfl, rfl⟩ := ended
    obtain ⟨plain, rfl⟩ := (literal_text separated).mp begun
    have literals : ∀ cell ∈ cells, ∃ l, Cell double cell (some l) := by
      by_contra some
      simp only [not_forall, not_exists] at some
      obtain ⟨cell, inside, unread⟩ := some
      rw [others_broken 1 each comma ⟨cell, inside, unread⟩] at later_read
      cases later_read
    refine ⟨plain, ?_, literals⟩
    obtain ⟨ls', length', read'⟩ := others_cells 1 literals comma
    obtain ⟨⟨final, text''⟩, final_read, same⟩ :=
      Option.map_eq_some_iff.mp (read'.symm.trans later_read)
    obtain ⟨joined, rfl⟩ := Prod.mk.inj same
    obtain ⟨_, rfl⟩ := List.append_inj joined (length'.trans length.symm)
    exact (others_last.mp final_read).1
  · rintro ⟨plain, plain', literals⟩
    obtain ⟨ls, length, read⟩ := others_cells 1 literals comma
    refine ⟨ls, length, ?_⟩
    rw [(literal_text separated).mpr ⟨plain, rfl⟩, Option.bind_some]
    simp only [read, others_last.mpr ⟨plain', rfl⟩, Option.map_some, Option.bind_some]
    rfl

end SqlText
