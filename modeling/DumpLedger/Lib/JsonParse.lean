import DumpLedger.Lib.JsonSyntax

/-!
# Parsing JSON

A parser that returns the syntax tree of a text, blanks and spellings included. It reads each
piece as far as it goes, and needs no more turns than the text has code units.

* `parseDocument` — the tree of a text
* `parseDocument_text` — every tree is what its text is parsed to; so a text has one tree
-/

namespace DumpLedger.Lib

/-! ## Pieces -/

def blank? (c : CodeUnit) : Option Blank :=
  if c = unitOf ' ' then some .space
  else if c = unitOf '\t' then some .tab
  else if c = unitOf '\n' then some .lineFeed
  else if c = unitOf '\r' then some .carriageReturn
  else none

def readBlanks : Units → List Blank × Units
  | [] => ([], [])
  | c :: rest =>
    match blank? c with
    | some b => ((readBlanks rest).map (b :: ·) id)
    | none => ([], c :: rest)

def escape? (c : CodeUnit) : Option Escape :=
  if c = unitOf '"' then some .quote
  else if c = unitOf '\\' then some .backslash
  else if c = unitOf '/' then some .slash
  else if c = unitOf 'b' then some .backspace
  else if c = unitOf 'f' then some .formFeed
  else if c = unitOf 'n' then some .lineFeed
  else if c = unitOf 'r' then some .carriageReturn
  else if c = unitOf 't' then some .tab
  else none

def hexDigit? (c : CodeUnit) : Option HexDigit :=
  if h : (hexValue c).isSome = true then some ⟨c, h⟩ else none

/-- The characters up to the closing quote. -/
def readItems : Units → Option (JsonString × Units)
  | [] => none
  | c :: rest =>
    if c = unitOf '\\' then
      match rest with
      | [] => none
      | e :: rest =>
        if e = unitOf 'u' then
          match rest with
          | u₁ :: u₂ :: u₃ :: u₄ :: rest => do
            let h₁ ← hexDigit? u₁
            let h₂ ← hexDigit? u₂
            let h₃ ← hexDigit? u₃
            let h₄ ← hexDigit? u₄
            let (items, rest) ← readItems rest
            return (.unicode h₁ h₂ h₃ h₄ :: items, rest)
          | _ => none
        else do
          let escape ← escape? e
          let (items, rest) ← readItems rest
          return (.escape escape :: items, rest)
    else if c = unitOf '"' then some ([], rest)
    else if h : isPlain c = true then do
      let (items, rest) ← readItems rest
      return (.plain c h :: items, rest)
    else none

/-- The rest of the text behind one code unit. -/
def readUnit (c : CodeUnit) : Units → Option Units
  | d :: rest => if d = c then some rest else none
  | [] => none

def readQuoted (text : Units) : Option (JsonString × Units) := do
  readItems (← readUnit (unitOf '"') text)

/-- The rest of the text behind a word. -/
def readWord : Units → Units → Option Units
  | [], text => some text
  | c :: word, text => do readWord word (← readUnit c text)

def digit? (c : CodeUnit) : Option (Fin 10) :=
  if h : unitOf '0' ≤ c ∧ c ≤ unitOf '9' then
    some ⟨c.toNat - 48, by
      have hle : c.toNat ≤ 57 := h.2
      omega⟩
  else none

def readDigits : Units → List (Fin 10) × Units
  | [] => ([], [])
  | c :: rest =>
    match digit? c with
    | some d => (readDigits rest).map (d :: ·) id
    | none => ([], c :: rest)

def readWhole (text : Units) : Option (WholePart × Units) :=
  match readDigits text with
  | (⟨0, _⟩ :: _, _) =>
    -- a zero stands alone
    (readUnit (unitOf '0') text).map fun after => (.zero, after)
  | (⟨first + 1, h⟩ :: rest, after) =>
    some (.positive ⟨first, Nat.lt_of_succ_lt_succ h⟩ rest, after)
  | ([], _) => none

def readFraction (text : Units) : Option (Option (Fin 10 × List (Fin 10)) × Units) :=
  match readUnit (unitOf '.') text with
  | some after =>
    match readDigits after with
    | (first :: rest, after) => some (some (first, rest), after)
    | ([], _) => none
  | none => some (none, text)

def readSign (text : Units) : Option Bool × Units :=
  match readUnit (unitOf '+') text with
  | some after => (some true, after)
  | none =>
    match readUnit (unitOf '-') text with
    | some after => (some false, after)
    | none => (none, text)

def readExponentFrom (capital : Bool) (text : Units) : Option (Option Exponent × Units) :=
  match readDigits (readSign text).2 with
  | (first :: rest, after) => some (some ⟨capital, (readSign text).1, first, rest⟩, after)
  | ([], _) => none

def readExponent (text : Units) : Option (Option Exponent × Units) :=
  match readUnit (unitOf 'E') text with
  | some after => readExponentFrom true after
  | none =>
    match readUnit (unitOf 'e') text with
    | some after => readExponentFrom false after
    | none => some (none, text)

def readNumberFrom (negative : Bool) (text : Units) : Option (JsonNumber × Units) := do
  let (whole, text) ← readWhole text
  let (fraction, text) ← readFraction text
  let (exponent, text) ← readExponent text
  return ({ negative, whole, fraction, exponent }, text)

def readNumber (text : Units) : Option (JsonNumber × Units) :=
  match readUnit (unitOf '-') text with
  | some after => readNumberFrom true after
  | none => readNumberFrom false text

def readLiteral (text : Units) : Option (JsonLiteral × Units) :=
  match readWord (unitsOf "null") text, readWord (unitsOf "true") text,
    readWord (unitsOf "false") text with
  | some rest, _, _ => some (.null, rest)
  | none, some rest, _ => some (.bool true, rest)
  | none, none, some rest => some (.bool false, rest)
  | none, none, none => (readNumber text).map fun (n, rest) => (.number n, rest)

/-! ## Values -/

section Loops

variable (readValue : Units → Option (JsonValue × Units))

def readElements : Nat → Units → Option (JsonElements × Units)
  | 0, _ => none
  | turns + 1, text => do
    let (before, text) := readBlanks text
    let (v, text) ← readValue text
    let (after, text) := readBlanks text
    match text with
    | c :: text =>
      if c = unitOf ',' then do
        let (rest, text) ← readElements turns text
        return (.cons before v after rest, text)
      else if c = unitOf ']' then some (.last before v after, text)
      else none
    | [] => none

def readMembers : Nat → Units → Option (JsonMembers × Units)
  | 0, _ => none
  | turns + 1, text => do
    let (before, text) := readBlanks text
    let (name, text) ← readQuoted text
    let (afterName, text) := readBlanks text
    let text ← readUnit (unitOf ':') text
    let (beforeValue, text) := readBlanks text
    let (v, text) ← readValue text
    let (after, text) := readBlanks text
    match text with
    | c :: text =>
      if c = unitOf ',' then do
        let (rest, text) ← readMembers turns text
        return (.cons before name afterName beforeValue v after rest, text)
      else if c = unitOf '\x7d' then some (.last before name afterName beforeValue v after, text)
      else none
    | [] => none

def readArray (text : Units) : Option (JsonValue × Units) :=
  match readUnit (unitOf ']') (readBlanks text).2 with
  | some rest => some (.emptyArray (readBlanks text).1, rest)
  | none => (readElements readValue text.length text).map fun (es, rest) => (.array es, rest)

def readObject (text : Units) : Option (JsonValue × Units) :=
  match readUnit (unitOf '\x7d') (readBlanks text).2 with
  | some rest => some (.emptyObject (readBlanks text).1, rest)
  | none => (readMembers readValue text.length text).map fun (ms, rest) => (.object ms, rest)

end Loops

def readValue : Nat → Units → Option (JsonValue × Units)
  | 0, _ | _, [] => none
  | depth + 1, c :: rest =>
    if c = unitOf '"' then (readItems rest).map fun (s, rest) => (.string s, rest)
    else if c = unitOf '\x7b' then readObject (readValue depth) rest
    else if c = unitOf '[' then readArray (readValue depth) rest
    else (readLiteral (c :: rest)).map fun (l, rest) => (.literal l, rest)

/-- The tree of a JSON text. -/
def parseDocument (text : Units) : Option JsonDocument :=
  match readValue text.length (readBlanks text).2 with
  | some (value, rest) =>
    match readBlanks rest with
    | (after, []) => some ⟨(readBlanks text).1, value, after⟩
    | (_, _ :: _) => none
  | none => none

/-! ## Every tree is read from its text -/

section Pieces

variable {rest : Units}

theorem blank?_unit (b : Blank) : blank? b.unit = some b := by
  cases b <;> decide

theorem blank?_eq_none {c : CodeUnit} (h : isBlank c = false) : blank? c = none := by
  unfold isBlank at h
  simp only [List.contains_cons, Bool.or_eq_false_iff, beq_eq_false_iff_ne, ne_eq] at h
  obtain ⟨hspace, htab, hline, hreturn, -⟩ := h
  unfold blank?
  rw [if_neg hspace, if_neg htab, if_neg hline, if_neg hreturn]

theorem readBlanks_of_not_blank (h : ∀ c ∈ rest.head?, isBlank c = false) :
    readBlanks rest = ([], rest) := by
  cases rest with
  | nil => rfl
  | cons c rest => rw [readBlanks, blank?_eq_none (h c rfl)]

theorem readBlanks_blanks (bs : List Blank) (h : ∀ c ∈ rest.head?, isBlank c = false) :
    readBlanks (blanks bs ++ rest) = (bs, rest) := by
  induction bs with
  | nil => exact readBlanks_of_not_blank h
  | cons b bs ih =>
    show readBlanks (b.unit :: (blanks bs ++ rest)) = _
    rw [readBlanks, blank?_unit, ih]
    rfl

theorem escape?_letter (e : Escape) : escape? e.letter = some e := by
  cases e <;> decide

theorem hexDigit?_unit (h : HexDigit) : hexDigit? h.unit = some h := dif_pos h.valid

theorem readItems_text (s : JsonString) (rest : Units) :
    readItems (s.flatMap StringItem.text ++ unitOf '"' :: rest) = some (s, rest) := by
  induction s with
  | nil =>
    show readItems (unitOf '"' :: rest) = some ([], rest)
    rw [readItems.eq_def]
    dsimp only
    rw [if_neg (by decide), if_pos rfl]
  | cons item s ih =>
    rw [List.flatMap_cons, List.append_assoc]
    cases item with
    | plain c h =>
      obtain ⟨-, hquote, hslash⟩ := isPlain_iff.mp h
      show readItems (c :: (s.flatMap StringItem.text ++ unitOf '"' :: rest)) = _
      rw [readItems.eq_def]
      dsimp only
      rw [if_neg hslash, if_neg hquote, dif_pos h, ih]
      rfl
    | escape e =>
      show readItems (unitOf '\\' :: e.letter ::
        (s.flatMap StringItem.text ++ unitOf '"' :: rest)) = _
      have hletter : e.letter ≠ unitOf 'u' := by cases e <;> decide
      rw [readItems.eq_def]
      dsimp only
      rw [if_pos rfl, if_neg hletter, escape?_letter, ih]
      rfl
    | unicode h₁ h₂ h₃ h₄ =>
      show readItems (unitOf '\\' :: unitOf 'u' :: h₁.unit :: h₂.unit :: h₃.unit :: h₄.unit ::
        (s.flatMap StringItem.text ++ unitOf '"' :: rest)) = _
      rw [readItems.eq_def]
      dsimp only
      rw [if_pos rfl, if_pos rfl, hexDigit?_unit, hexDigit?_unit, hexDigit?_unit, hexDigit?_unit,
        ih]
      rfl

theorem readUnit_cons (c : CodeUnit) (rest : Units) : readUnit c (c :: rest) = some rest :=
  if_pos rfl

theorem readUnit_of_ne {c : CodeUnit} (h : ∀ d ∈ rest.head?, d ≠ c) : readUnit c rest = none := by
  cases rest with
  | nil => rfl
  | cons d rest => exact if_neg (h d rfl)

theorem readQuoted_text (s : JsonString) (rest : Units) :
    readQuoted (s.text ++ rest) = some (s, rest) := by
  unfold JsonString.text readQuoted
  rw [List.cons_append, readUnit_cons, List.append_assoc]
  exact readItems_text s rest

theorem digit?_digit : ∀ d : Fin 10, digit? (digit d) = some d := by
  decide

theorem readDigits_digits (ds : List (Fin 10)) (h : ∀ c ∈ rest.head?, digit? c = none) :
    readDigits (ds.map digit ++ rest) = (ds, rest) := by
  induction ds with
  | nil =>
    cases rest with
    | nil => rfl
    | cons c rest =>
      show readDigits (c :: rest) = _
      rw [readDigits, h c rfl]
  | cons d ds ih =>
    show readDigits (digit d :: (ds.map digit ++ rest)) = _
    rw [readDigits, digit?_digit, ih]
    rfl

theorem readWhole_text (w : WholePart) (h : ∀ c ∈ rest.head?, digit? c = none) :
    readWhole (w.text ++ rest) = some (w, rest) := by
  cases w with
  | zero =>
    have hread : readDigits (unitOf '0' :: rest) = ([0], rest) :=
      readDigits_digits [0] h
    show readWhole (unitOf '0' :: rest) = _
    unfold readWhole
    rw [hread]
    show (readUnit (unitOf '0') (unitOf '0' :: rest)).map _ = _
    rw [readUnit_cons]
    rfl
  | positive first more =>
    have hread : readDigits (digit first.succ :: more.map digit ++ rest) =
        (first.succ :: more, rest) :=
      readDigits_digits (first.succ :: more) h
    show readWhole (digit first.succ :: more.map digit ++ rest) = _
    unfold readWhole
    rw [hread]
    rfl

/-- What can stand behind a value. -/
def Delimits (rest : Units) : Prop :=
  ∀ c ∈ rest.head?, isBlank c = true ∨ c = unitOf ',' ∨ c = unitOf ']' ∨ c = unitOf '\x7d'

theorem Delimits.ne (h : Delimits rest) {d : CodeUnit}
    (hd : isBlank d = false ∧ d ≠ unitOf ',' ∧ d ≠ unitOf ']' ∧ d ≠ unitOf '\x7d') :
    ∀ c ∈ rest.head?, c ≠ d := by
  rintro c hc rfl
  rcases h c hc with hblank | rfl | rfl | rfl
  · exact absurd (hd.1.symm.trans hblank) (by decide)
  · exact hd.2.1 rfl
  · exact hd.2.2.1 rfl
  · exact hd.2.2.2 rfl

theorem digit?_delimiter {c : CodeUnit}
    (h : isBlank c = true ∨ c = unitOf ',' ∨ c = unitOf ']' ∨ c = unitOf '\x7d') :
    digit? c = none := by
  rcases h with h | rfl | rfl | rfl
  · unfold isBlank at h
    simp only [List.contains_cons, Bool.or_eq_true, beq_iff_eq, List.contains_nil,
      Bool.false_eq_true, or_false] at h
    rcases h with rfl | rfl | rfl | rfl <;> decide
  · decide
  · decide
  · decide

/-- An exponent is read to its last digit. -/
theorem readExponent_text (e : Option Exponent) (h : Delimits rest) :
    readExponent (e.elim [] Exponent.text ++ rest) = some (e, rest) := by
  have hdigit : ∀ c ∈ rest.head?, digit? c = none := fun c hc => digit?_delimiter (h c hc)
  cases e with
  | none =>
    show readExponent rest = _
    unfold readExponent
    rw [readUnit_of_ne (h.ne (by decide)), readUnit_of_ne (h.ne (by decide))]
  | some e =>
    obtain ⟨capital, sign, first, more⟩ := e
    have hfrom (c : Bool) : readExponentFrom c
        ((sign.elim [] fun plus => [if plus then unitOf '+' else unitOf '-']) ++
          (digit first :: more.map digit) ++ rest) = some (some ⟨c, sign, first, more⟩, rest) := by
      have hread : readDigits (digit first :: more.map digit ++ rest) = (first :: more, rest) :=
        readDigits_digits (first :: more) hdigit
      have hsign : readSign ((sign.elim [] fun plus => [if plus then unitOf '+' else unitOf '-']) ++
          (digit first :: more.map digit) ++ rest) =
            (sign, digit first :: more.map digit ++ rest) := by
        rcases sign with _ | _ | _
        · have hplus : ∀ d : Fin 10, digit d ≠ unitOf '+' := by decide
          have hminus : ∀ d : Fin 10, digit d ≠ unitOf '-' := by decide
          show readSign (digit first :: (more.map digit ++ rest)) = _
          unfold readSign
          rw [readUnit_of_ne (fun c hc => by cases hc; exact hplus first),
            readUnit_of_ne (fun c hc => by cases hc; exact hminus first)]
          rfl
        · show readSign (unitOf '-' :: (digit first :: more.map digit ++ rest)) = _
          unfold readSign
          rw [readUnit_of_ne (fun c hc => by cases hc; decide), readUnit_cons]
        · show readSign (unitOf '+' :: (digit first :: more.map digit ++ rest)) = _
          unfold readSign
          rw [readUnit_cons]
      unfold readExponentFrom
      rw [hsign, hread]
    cases capital with
    | true =>
      show readExponent (unitOf 'E' :: ((sign.elim [] fun plus =>
        [if plus then unitOf '+' else unitOf '-']) ++ (digit first :: more.map digit) ++ rest)) = _
      unfold readExponent
      rw [readUnit_cons]
      exact hfrom true
    | false =>
      have hcapital : ∀ d ∈ (unitOf 'e' :: ((sign.elim [] fun plus =>
          [if plus then unitOf '+' else unitOf '-']) ++ (digit first :: more.map digit) ++
            rest)).head?, d ≠ unitOf 'E' := by
        intro d hd
        cases hd
        decide
      show readExponent (unitOf 'e' :: ((sign.elim [] fun plus =>
        [if plus then unitOf '+' else unitOf '-']) ++ (digit first :: more.map digit) ++ rest)) = _
      unfold readExponent
      rw [readUnit_of_ne hcapital, readUnit_cons]
      exact hfrom false

/-- What follows the fraction of a number is not read as a part of it. -/
theorem head_exponent (e : Option Exponent) (h : Delimits rest) :
    ∀ c ∈ (e.elim [] Exponent.text ++ rest).head?, digit? c = none ∧ c ≠ unitOf '.' := by
  cases e with
  | none =>
    intro c hc
    exact ⟨digit?_delimiter (h c hc), h.ne (by decide) c hc⟩
  | some e =>
    rintro c hc
    obtain ⟨capital, sign, first, more⟩ := e
    cases hc
    cases capital
    · exact (by decide : digit? (unitOf 'e') = none ∧ unitOf 'e' ≠ unitOf '.')
    · exact (by decide : digit? (unitOf 'E') = none ∧ unitOf 'E' ≠ unitOf '.')

theorem readFraction_text (f : Option (Fin 10 × List (Fin 10)))
    (h : ∀ c ∈ rest.head?, digit? c = none ∧ c ≠ unitOf '.') :
    readFraction ((f.elim [] fun (first, more) => unitOf '.' :: digit first :: more.map digit) ++
      rest) = some (f, rest) := by
  cases f with
  | none =>
    show readFraction rest = _
    unfold readFraction
    rw [readUnit_of_ne fun c hc => (h c hc).2]
  | some f =>
    obtain ⟨first, more⟩ := f
    have hread : readDigits (digit first :: more.map digit ++ rest) = (first :: more, rest) :=
      readDigits_digits (first :: more) fun c hc => (h c hc).1
    show readFraction (unitOf '.' :: (digit first :: more.map digit ++ rest)) = _
    unfold readFraction
    rw [readUnit_cons]
    dsimp only
    rw [hread]

theorem head_fraction (f : Option (Fin 10 × List (Fin 10)))
    (h : ∀ c ∈ rest.head?, digit? c = none) :
    ∀ c ∈ ((f.elim [] fun (first, more) => unitOf '.' :: digit first :: more.map digit) ++
      rest).head?, digit? c = none := by
  cases f with
  | none => exact h
  | some f =>
    rintro c hc
    cases hc
    decide

theorem whole_head (w : WholePart) : ∃ (d : Fin 10) (t : Units), w.text = digit d :: t := by
  cases w with
  | zero => exact ⟨0, [], rfl⟩
  | positive first more => exact ⟨first.succ, _, rfl⟩

theorem readNumber_text (n : JsonNumber) (h : Delimits rest) :
    readNumber (n.text ++ rest) = some (n, rest) := by
  obtain ⟨negative, whole, fraction, exponent⟩ := n
  have hfrom (b : Bool) : readNumberFrom b (whole.text ++
      ((fraction.elim [] fun (first, more) => unitOf '.' :: digit first :: more.map digit) ++
        (exponent.elim [] Exponent.text ++ rest))) = some (⟨b, whole, fraction, exponent⟩, rest) := by
    have hexponent := head_exponent exponent h
    unfold readNumberFrom
    rw [readWhole_text whole (head_fraction fraction fun c hc => (hexponent c hc).1)]
    show (do
      let (fraction, text) ← readFraction _
      let (exponent, text) ← readExponent text
      return (JsonNumber.mk b whole fraction exponent, text)) = _
    rw [readFraction_text fraction hexponent]
    show (do
      let (exponent, text) ← readExponent _
      return (JsonNumber.mk b whole fraction exponent, text)) = _
    rw [readExponent_text exponent h]
    rfl
  unfold JsonNumber.text
  simp only [List.append_assoc]
  cases negative with
  | true =>
    show readNumber (unitOf '-' :: (whole.text ++
      ((fraction.elim [] fun (first, more) => unitOf '.' :: digit first :: more.map digit) ++
        (exponent.elim [] Exponent.text ++ rest)))) = _
    unfold readNumber
    rw [readUnit_cons]
    exact hfrom true
  | false =>
    have hminus : ∀ d : Fin 10, digit d ≠ unitOf '-' := by decide
    obtain ⟨d, t, ht⟩ := whole_head whole
    have hhead : readUnit (unitOf '-') (whole.text ++
        ((fraction.elim [] fun (first, more) => unitOf '.' :: digit first :: more.map digit) ++
          (exponent.elim [] Exponent.text ++ rest))) = none := by
      rw [ht]
      exact readUnit_of_ne fun c hc => by cases hc; exact hminus d
    show readNumber (whole.text ++
      ((fraction.elim [] fun (first, more) => unitOf '.' :: digit first :: more.map digit) ++
        (exponent.elim [] Exponent.text ++ rest))) = _
    unfold readNumber
    rw [hhead]
    exact hfrom false

theorem readWord_append (word rest : Units) : readWord word (word ++ rest) = some rest := by
  induction word with
  | nil => rfl
  | cons c word ih =>
    show (do readWord word (← readUnit c (c :: (word ++ rest)))) = _
    rw [readUnit_cons]
    exact ih

theorem readWord_of_ne {c : CodeUnit} {word : Units} (h : ∀ d ∈ rest.head?, d ≠ c) :
    readWord (c :: word) rest = none := by
  rw [readWord, readUnit_of_ne h]
  rfl

/-- A number starts with its sign or a digit. -/
theorem number_head (n : JsonNumber) :
    ∃ (c : CodeUnit) (t : Units), n.text = c :: t ∧ (c = unitOf '-' ∨ ∃ d, c = digit d) := by
  obtain ⟨negative, whole, fraction, exponent⟩ := n
  cases negative with
  | true => exact ⟨unitOf '-', _, rfl, Or.inl rfl⟩
  | false =>
    obtain ⟨d, t, ht⟩ := whole_head whole
    unfold JsonNumber.text
    rw [ht]
    exact ⟨digit d, _, rfl, Or.inr ⟨d, rfl⟩⟩

theorem readLiteral_text (l : JsonLiteral) (h : Delimits rest) :
    readLiteral (l.text ++ rest) = some (l, rest) := by
  cases l with
  | null =>
    show readLiteral (unitsOf "null" ++ rest) = _
    unfold readLiteral
    rw [readWord_append]
  | bool b =>
    cases b with
    | true =>
      have hnull : readWord (unitsOf "null") (unitsOf "true" ++ rest) = none :=
        readWord_of_ne fun d hd => by cases hd; decide
      show readLiteral (unitsOf "true" ++ rest) = _
      unfold readLiteral
      rw [readWord_append, hnull]
    | false =>
      have hnull : readWord (unitsOf "null") (unitsOf "false" ++ rest) = none :=
        readWord_of_ne fun d hd => by cases hd; decide
      have htrue : readWord (unitsOf "true") (unitsOf "false" ++ rest) = none :=
        readWord_of_ne fun d hd => by cases hd; decide
      show readLiteral (unitsOf "false" ++ rest) = _
      unfold readLiteral
      rw [readWord_append, hnull, htrue]
  | number n =>
    obtain ⟨c, t, ht, hc⟩ := number_head n
    have hne {d : CodeUnit} (hd : d ≠ unitOf '-' ∧ ∀ e, digit e ≠ d) :
        ∀ x ∈ (n.text ++ rest).head?, x ≠ d := by
      rw [ht]
      rintro x hx rfl
      cases hx
      rcases hc with rfl | ⟨e, rfl⟩
      · exact hd.1 rfl
      · exact hd.2 e rfl
    have hnull : readWord (unitsOf "null") (n.text ++ rest) = none :=
      readWord_of_ne (hne (by decide))
    have htrue : readWord (unitsOf "true") (n.text ++ rest) = none :=
      readWord_of_ne (hne (by decide))
    have hfalse : readWord (unitsOf "false") (n.text ++ rest) = none :=
      readWord_of_ne (hne (by decide))
    show readLiteral (n.text ++ rest) = _
    unfold readLiteral
    rw [hnull, htrue, hfalse, readNumber_text n h]
    rfl

/-- The first code unit of a literal is that of no other value. -/
theorem literal_head (l : JsonLiteral) : ∃ (c : CodeUnit) (t : Units), l.text = c :: t ∧
    isBlank c = false ∧ c ≠ unitOf '"' ∧ c ≠ unitOf '\x7b' ∧ c ≠ unitOf '[' ∧ c ≠ unitOf ']' := by
  cases l with
  | null => exact ⟨unitOf 'n', _, rfl, by decide⟩
  | bool b =>
    cases b with
    | true => exact ⟨unitOf 't', _, rfl, by decide⟩
    | false => exact ⟨unitOf 'f', _, rfl, by decide⟩
  | number n =>
    obtain ⟨c, t, ht, hc⟩ := number_head n
    refine ⟨c, t, ht, ?_⟩
    rcases hc with rfl | ⟨d, rfl⟩
    · decide
    · have hdigit : ∀ d : Fin 10, isBlank (digit d) = false ∧ digit d ≠ unitOf '"' ∧
          digit d ≠ unitOf '\x7b' ∧ digit d ≠ unitOf '[' ∧ digit d ≠ unitOf ']' := by decide
      exact hdigit d

theorem value_head (v : JsonValue) : ∃ (c : CodeUnit) (t : Units), v.text = c :: t ∧
    isBlank c = false ∧ c ≠ unitOf ']' := by
  cases v with
  | literal l =>
    obtain ⟨c, t, ht, hblank, -, -, -, hclose⟩ := literal_head l
    exact ⟨c, t, ht, hblank, hclose⟩
  | string s => exact ⟨unitOf '"', _, rfl, by decide⟩
  | emptyArray inside => exact ⟨unitOf '[', _, rfl, by decide⟩
  | array elements => exact ⟨unitOf '[', _, rfl, by decide⟩
  | emptyObject inside => exact ⟨unitOf '\x7b', _, rfl, by decide⟩
  | object members => exact ⟨unitOf '\x7b', _, rfl, by decide⟩

theorem value_starts (v : JsonValue) (rest : Units) :
    ∀ c ∈ (v.text ++ rest).head?, isBlank c = false ∧ c ≠ unitOf ']' := by
  obtain ⟨c, t, ht, hc⟩ := value_head v
  rw [ht]
  rintro d hd
  cases hd
  exact hc

theorem delimits_blanks (bs : List Blank) (h : Delimits rest) : Delimits (blanks bs ++ rest) := by
  cases bs with
  | nil => exact h
  | cons b bs =>
    rintro c hc
    cases hc
    exact Or.inl b.isBlank_unit

theorem delimits_cons {c : CodeUnit} (h : c = unitOf ',' ∨ c = unitOf ']' ∨ c = unitOf '\x7d')
    (rest : Units) : Delimits (c :: rest) := by
  rintro d hd
  cases hd
  exact Or.inr h

end Pieces

/-! ## Every document is read from its text -/

section Values

variable {rest : Units}

/-- The blanks before a value end where the value starts. -/
theorem readBlanks_value (bs : List Blank) (v : JsonValue) (rest : Units) :
    readBlanks (blanks bs ++ (v.text ++ rest)) = (bs, v.text ++ rest) :=
  readBlanks_blanks bs fun c hc => (value_starts v rest c hc).1

theorem readBlanks_cons (bs : List Blank) {c : CodeUnit} (h : isBlank c = false) (rest : Units) :
    readBlanks (blanks bs ++ c :: rest) = (bs, c :: rest) :=
  readBlanks_blanks bs fun d hd => by cases hd; exact h

theorem elements_starts (es : JsonElements) (rest : Units) :
    readUnit (unitOf ']') (readBlanks (es.text ++ rest)).2 = none := by
  cases es with
  | last before v after =>
    rw [JsonElements.text, List.append_assoc, List.append_assoc, readBlanks_value]
    exact readUnit_of_ne fun c hc => (value_starts v _ c hc).2
  | cons before v after more =>
    rw [JsonElements.text, List.append_assoc, List.append_assoc, readBlanks_value]
    exact readUnit_of_ne fun c hc => (value_starts v _ c hc).2

theorem readBlanks_name (bs : List Blank) (name : JsonString) (rest : Units) :
    readBlanks (blanks bs ++ (name.text ++ rest)) = (bs, name.text ++ rest) :=
  readBlanks_blanks bs fun c hc => by cases hc; decide

theorem members_starts (ms : JsonMembers) (rest : Units) :
    readUnit (unitOf '\x7d') (readBlanks (ms.text ++ rest)).2 = none := by
  cases ms with
  | last before name afterName beforeValue v after =>
    rw [JsonMembers.text, List.append_assoc, List.append_assoc, readBlanks_name]
    exact readUnit_of_ne fun c hc => by cases hc; decide
  | cons before name afterName beforeValue v after more =>
    rw [JsonMembers.text, List.append_assoc, List.append_assoc, readBlanks_name]
    exact readUnit_of_ne fun c hc => by cases hc; decide

section Turn

variable {read : Units → Option (JsonValue × Units)} {v : JsonValue}

/-- The last turn of an array reads one element and the closing bracket. -/
theorem readElements_last (before after : List Blank) (turns : Nat)
    (hread : ∀ tail, Delimits tail → read (v.text ++ tail) = some (v, tail)) :
    readElements read (turns + 1) ((JsonElements.last before v after).text ++ rest) =
      some (.last before v after, rest) := by
  have hv := hread (blanks after ++ unitOf ']' :: rest)
    (delimits_blanks after (delimits_cons (by decide) rest))
  simp only [JsonElements.text, List.append_assoc, List.cons_append, List.nil_append]
  unfold readElements
  rw [readBlanks_value]
  dsimp only
  rw [hv, Option.bind_eq_bind, Option.bind_some]
  dsimp only
  rw [readBlanks_cons after (by decide)]
  dsimp only
  rw [if_neg (by decide), if_pos rfl]

theorem readElements_more {more : JsonElements} (before after : List Blank) (turns : Nat)
    (hread : ∀ tail, Delimits tail → read (v.text ++ tail) = some (v, tail))
    (hmore : readElements read turns (more.text ++ rest) = some (more, rest)) :
    readElements read (turns + 1) ((JsonElements.cons before v after more).text ++ rest) =
      some (.cons before v after more, rest) := by
  have hv := hread (blanks after ++ unitOf ',' :: (more.text ++ rest))
    (delimits_blanks after (delimits_cons (by decide) _))
  simp only [JsonElements.text, List.append_assoc, List.cons_append]
  rw [readElements.eq_def]
  dsimp only
  rw [readBlanks_value]
  dsimp only
  rw [hv, Option.bind_eq_bind, Option.bind_some]
  dsimp only
  rw [readBlanks_cons after (by decide)]
  dsimp only
  rw [if_pos rfl, hmore]
  rfl

variable {name : JsonString}

theorem readMembers_last (before afterName beforeValue after : List Blank) (turns : Nat)
    (hread : ∀ tail, Delimits tail → read (v.text ++ tail) = some (v, tail)) :
    readMembers read (turns + 1)
        ((JsonMembers.last before name afterName beforeValue v after).text ++ rest) =
      some (.last before name afterName beforeValue v after, rest) := by
  have hv := hread (blanks after ++ unitOf '\x7d' :: rest)
    (delimits_blanks after (delimits_cons (by decide) rest))
  simp only [JsonMembers.text, List.append_assoc, List.cons_append, List.nil_append]
  unfold readMembers
  rw [readBlanks_name]
  dsimp only
  rw [readQuoted_text, Option.bind_eq_bind, Option.bind_some]
  dsimp only
  rw [readBlanks_cons afterName (by decide)]
  dsimp only
  rw [readUnit_cons, Option.bind_eq_bind, Option.bind_some]
  rw [readBlanks_value]
  dsimp only
  rw [hv, Option.bind_eq_bind, Option.bind_some]
  dsimp only
  rw [readBlanks_cons after (by decide)]
  dsimp only
  rw [if_neg (by decide), if_pos rfl]

theorem readMembers_more {more : JsonMembers} (before afterName beforeValue after : List Blank)
    (turns : Nat) (hread : ∀ tail, Delimits tail → read (v.text ++ tail) = some (v, tail))
    (hmore : readMembers read turns (more.text ++ rest) = some (more, rest)) :
    readMembers read (turns + 1)
        ((JsonMembers.cons before name afterName beforeValue v after more).text ++ rest) =
      some (.cons before name afterName beforeValue v after more, rest) := by
  have hv := hread (blanks after ++ unitOf ',' :: (more.text ++ rest))
    (delimits_blanks after (delimits_cons (by decide) _))
  simp only [JsonMembers.text, List.append_assoc, List.cons_append]
  rw [readMembers.eq_def]
  dsimp only
  rw [readBlanks_name]
  dsimp only
  rw [readQuoted_text, Option.bind_eq_bind, Option.bind_some]
  dsimp only
  rw [readBlanks_cons afterName (by decide)]
  dsimp only
  rw [readUnit_cons, Option.bind_eq_bind, Option.bind_some]
  rw [readBlanks_value]
  dsimp only
  rw [hv, Option.bind_eq_bind, Option.bind_some]
  dsimp only
  rw [readBlanks_cons after (by decide)]
  dsimp only
  rw [if_pos rfl, hmore]
  rfl

end Turn

mutual

/-- Depth enough for the text is depth enough for each of its parts. -/
theorem readValue_text (v : JsonValue) (n : Nat) (hn : v.text.length ≤ n) (rest : Units)
    (h : Delimits rest) : readValue n (v.text ++ rest) = some (v, rest) := by
  match v, n with
  | v, 0 =>
    obtain ⟨c, t, ht, -⟩ := value_head v
    rw [ht] at hn
    exact absurd hn (by simp)
  | .literal l, n + 1 =>
    obtain ⟨c, t, ht, -, hquote, hbrace, hbracket, -⟩ := literal_head l
    have hl := readLiteral_text l h
    rw [ht] at hl
    rw [JsonValue.text, ht]
    show readValue (n + 1) (c :: (t ++ rest)) = _
    unfold readValue
    rw [if_neg hquote, if_neg hbrace, if_neg hbracket]
    rw [← List.cons_append, hl]
    rfl
  | .string s, n + 1 =>
    have hs := readItems_text s rest
    rw [JsonValue.text, JsonString.text, List.cons_append, List.append_assoc]
    unfold readValue
    rw [if_pos rfl, List.singleton_append, hs]
    rfl
  | .emptyArray inside, n + 1 =>
    have hb := readBlanks_cons inside (by decide : isBlank (unitOf ']') = false) rest
    rw [JsonValue.text, List.cons_append, List.append_assoc]
    unfold readValue
    rw [if_neg (by decide), if_neg (by decide), if_pos rfl]
    unfold readArray
    rw [List.singleton_append, hb, readUnit_cons]
  | .array es, n + 1 =>
    have hlen : es.text.length ≤ n := by
      rw [JsonValue.text, List.length_cons] at hn
      omega
    have hes := readElements_text es n (es.text ++ rest).length hlen
      (by rw [List.length_append]; omega) rest
    rw [JsonValue.text, List.cons_append]
    unfold readValue
    rw [if_neg (by decide), if_neg (by decide), if_pos rfl]
    unfold readArray
    rw [elements_starts, hes]
    rfl
  | .emptyObject inside, n + 1 =>
    have hb := readBlanks_cons inside (by decide : isBlank (unitOf '\x7d') = false) rest
    rw [JsonValue.text, List.cons_append, List.append_assoc]
    unfold readValue
    rw [if_neg (by decide), if_pos rfl]
    unfold readObject
    rw [List.singleton_append, hb, readUnit_cons]
  | .object ms, n + 1 =>
    have hlen : ms.text.length ≤ n := by
      rw [JsonValue.text, List.length_cons] at hn
      omega
    have hms := readMembers_text ms n (ms.text ++ rest).length hlen
      (by rw [List.length_append]; omega) rest
    rw [JsonValue.text, List.cons_append]
    unfold readValue
    rw [if_neg (by decide), if_pos rfl]
    unfold readObject
    rw [members_starts, hms]
    rfl

theorem readElements_text (es : JsonElements) (depth turns : Nat)
    (hdepth : es.text.length ≤ depth) (hturns : es.text.length ≤ turns) (rest : Units) :
    readElements (readValue depth) turns (es.text ++ rest) = some (es, rest) := by
  match es, turns with
  | .last before v after, 0 =>
    exact absurd hturns (by simp [JsonElements.text])
  | .last before v after, turns + 1 =>
    have hlen : v.text.length ≤ depth := by
      simp only [JsonElements.text, List.length_append] at hdepth
      omega
    exact readElements_last before after turns (readValue_text v depth hlen)
  | .cons before v after more, 0 =>
    exact absurd hturns (by simp [JsonElements.text])
  | .cons before v after more, turns + 1 =>
    simp only [JsonElements.text, List.length_append, List.length_cons] at hdepth hturns
    exact readElements_more before after turns (readValue_text v depth (by omega))
      (readElements_text more depth turns (by omega) (by omega) rest)

theorem readMembers_text (ms : JsonMembers) (depth turns : Nat)
    (hdepth : ms.text.length ≤ depth) (hturns : ms.text.length ≤ turns) (rest : Units) :
    readMembers (readValue depth) turns (ms.text ++ rest) = some (ms, rest) := by
  match ms, turns with
  | .last before name afterName beforeValue v after, 0 =>
    exact absurd hturns (by simp [JsonMembers.text])
  | .last before name afterName beforeValue v after, turns + 1 =>
    have hlen : v.text.length ≤ depth := by
      simp only [JsonMembers.text, List.length_append, List.length_cons] at hdepth
      omega
    exact readMembers_last before afterName beforeValue after turns (readValue_text v depth hlen)
  | .cons before name afterName beforeValue v after more, 0 =>
    exact absurd hturns (by simp [JsonMembers.text])
  | .cons before name afterName beforeValue v after more, turns + 1 =>
    simp only [JsonMembers.text, List.length_append, List.length_cons] at hdepth hturns
    exact readMembers_more before afterName beforeValue after turns
      (readValue_text v depth (by omega))
      (readMembers_text more depth turns (by omega) (by omega) rest)

end

/-- A tree is read back from its text, blanks and spellings included. -/
theorem parseDocument_text (d : JsonDocument) : parseDocument d.text = some d := by
  obtain ⟨before, value, after⟩ := d
  have hafter : Delimits (blanks after) := by
    have h : Delimits (blanks after ++ []) := delimits_blanks after fun c hc => by cases hc
    rwa [List.append_nil] at h
  have hstart : readBlanks (JsonDocument.mk before value after).text =
      (before, value.text ++ blanks after) := readBlanks_value before value (blanks after)
  have hlen : value.text.length ≤ (JsonDocument.mk before value after).text.length := by
    unfold JsonDocument.text
    simp only [List.length_append]
    omega
  have hend : readBlanks (blanks after) = (after, []) := by
    have h : readBlanks (blanks after ++ []) = (after, []) :=
      readBlanks_blanks after fun c hc => by cases hc
    rwa [List.append_nil] at h
  unfold parseDocument
  rw [hstart, readValue_text value _ hlen (blanks after) hafter]
  dsimp only
  rw [hend]

/-- A JSON text has one tree. -/
theorem JsonDocument.text_injective {d e : JsonDocument} (h : d.text = e.text) : d = e := by
  have hd := parseDocument_text d
  rw [h, parseDocument_text] at hd
  exact (Option.some.inj hd).symm

end Values

end DumpLedger.Lib
