import DumpLedger.Http.Contracts.DuplicateKey
import DumpLedger.Lib.Guard

/-!
# What the scan for duplicates finds

On a valid JSON text the scan stops at the first thing it cannot pass: a name of an object
that is spelled like an earlier one, or a value that lies too deep. `stops` lists these in the
order of the text, and `findDuplicateKey_text` says that the scan ends at the first of them.

Names that are equal can be spelled in different ways, and the reading of the scan makes
different names alike; so the scan is right about a text exactly when this makes no
difference.

* `stopsOfValue` — where the scan of a value cannot go on
* `scan_value` — the scan stops there and nowhere else
* `duplicate_member` — when a duplicate is reported exactly for a text that has one
-/

namespace DumpLedger

open Lib

/-! ## Spelling -/

/-- A character as `readString` takes it. -/
def spellingOfItem : StringItem → Units
  | .plain c _ => [c]
  | .escape e => [e.letter]
  | .unicode h₁ h₂ h₃ h₄ => (StringItem.unicode h₁ h₂ h₃ h₄).text

def spelling (s : JsonString) : Units := s.flatMap spellingOfItem

/-! ## Where the scan stops -/

/-- A value needs one more call; there may be none left. -/
def withFrame (frames : Nat) (inside : Nat → List ScanStop) : List ScanStop :=
  match frames with
  | 0 => [.blocked]
  | frames + 1 => inside frames

/-- No object and no array is read under `maxJsonDepth` names. -/
def underNames (stack : List Units) (inside : List ScanStop) : List ScanStop :=
  if maxJsonDepth ≤ stack.length then [.blocked] else inside

/-- The name is spelled like an earlier one of its object. -/
def repeated (stack keys : List Units) (name : JsonString) : List ScanStop :=
  if spelling name ∈ keys then
    [.duplicate ⟨spelling name, childPath (stackPath stack) (spelling name)⟩]
  else []

mutual

def stopsOfValue : JsonValue → Nat → List Units → List ScanStop
  | .literal _, frames, _ | .string _, frames, _ => withFrame frames fun _ => []
  | .emptyArray _, frames, stack | .emptyObject _, frames, stack =>
    withFrame frames fun _ => underNames stack []
  | .array elements, frames, stack =>
    withFrame frames fun frames => underNames stack (stopsOfElements elements frames stack)
  | .object members, frames, stack =>
    withFrame frames fun frames => underNames stack (stopsOfMembers members frames stack [])

def stopsOfElements : JsonElements → Nat → List Units → List ScanStop
  | .last _ v _, frames, stack => stopsOfValue v frames stack
  | .cons _ v _ rest, frames, stack =>
    stopsOfValue v frames stack ++ stopsOfElements rest frames stack

def stopsOfMembers : JsonMembers → Nat → List Units → List Units → List ScanStop
  | .last _ name _ _ v _, frames, stack, keys =>
    repeated stack keys name ++ stopsOfValue v frames (stack ++ [spelling name])
  | .cons _ name _ _ v _ rest, frames, stack, keys =>
    repeated stack keys name ++ (stopsOfValue v frames (stack ++ [spelling name]) ++
      stopsOfMembers rest frames stack (spelling name :: keys))

end

/-- The scan goes on behind a piece of text, or stops at the first of its stops. -/
def stopAt (stops : List ScanStop) (rest : Units) : Except ScanStop Units :=
  match stops.head? with
  | some stop => .error stop
  | none => .ok rest

@[simp] theorem stopAt_nil (rest : Units) : stopAt [] rest = .ok rest := rfl

/-- A scan in two pieces stops at the first stop of both. -/
theorem stopAt_bind {a b : List ScanStop} {middle rest : Units} {f : Units → Except ScanStop Units}
    (h : f middle = stopAt b rest) : (stopAt a middle >>= f) = stopAt (a ++ b) rest := by
  cases a with
  | nil => exact h
  | cons stop a => rfl

/-! ## Reading the pieces -/

section Pieces

theorem skipWhitespace_blanks (bs : List Blank) (t : Units) :
    skipWhitespace (blanks bs ++ t) = skipWhitespace t := by
  induction bs with
  | nil => rfl
  | cons b bs ih =>
    show skipWhitespace (b.unit :: (blanks bs ++ t)) = _
    rw [← ih, skipWhitespace, List.dropWhile_cons, b.isBlank_unit, if_pos rfl]
    rfl

theorem skipWhitespace_cons {c : CodeUnit} (h : isBlank c = false) (t : Units) :
    skipWhitespace (c :: t) = c :: t := by
  rw [skipWhitespace, List.dropWhile_cons, h]
  rfl

theorem skipWhitespace_idem (t : Units) : skipWhitespace (skipWhitespace t) = skipWhitespace t :=
  List.dropWhile_eq_self_iff.mpr fun hl => List.dropWhile_get_zero_not isBlank t hl

/-- A string is read to its closing quote. -/
theorem readUnits_string (s : JsonString) (rest : Units) :
    readUnits (s.flatMap StringItem.text ++ unitOf '"' :: rest) = some (spelling s, rest) := by
  induction s with
  | nil =>
    show readUnits (unitOf '"' :: rest) = some ([], rest)
    rw [readUnits.eq_def]
    dsimp only
    rw [if_neg (by decide), if_pos rfl]
  | cons item s ih =>
    rw [List.flatMap_cons, List.append_assoc]
    cases item with
    | plain c h =>
      obtain ⟨-, hquote, hslash⟩ := isPlain_iff.mp h
      show readUnits (c :: (s.flatMap StringItem.text ++ unitOf '"' :: rest)) = _
      rw [readUnits.eq_def]
      dsimp only
      rw [if_neg hslash, if_neg hquote, ih]
      rfl
    | escape e =>
      show readUnits (unitOf '\\' :: e.letter :: (s.flatMap StringItem.text ++ unitOf '"' :: rest)) = _
      have hletter : e.letter ≠ unitOf 'u' := by cases e <;> decide
      rw [readUnits.eq_def]
      dsimp only
      rw [if_pos rfl, if_neg hletter, ih]
      rfl
    | unicode h₁ h₂ h₃ h₄ =>
      show readUnits (unitOf '\\' :: unitOf 'u' :: h₁.unit :: h₂.unit :: h₃.unit :: h₄.unit ::
        (s.flatMap StringItem.text ++ unitOf '"' :: rest)) = _
      rw [readUnits.eq_def]
      dsimp only
      rw [if_pos rfl, if_pos rfl, ih]
      rfl

theorem readString_text (s : JsonString) (rest : Units) :
    readString (s.text ++ rest) = .ok (spelling s, rest) := by
  show readString (unitOf '"' :: ((s.flatMap StringItem.text ++ [unitOf '"']) ++ rest)) = _
  rw [List.append_assoc, readString, if_pos rfl]
  have hread := readUnits_string s rest
  rw [← List.singleton_append] at hread
  rw [hread]

theorem isScalarUnit_digit : ∀ d : Fin 10, isScalarUnit (digit d) = true := by
  decide

/-- The characters of a number, `true`, `false` and `null`. -/
def isLiteralUnit (c : CodeUnit) : Bool :=
  isScalarUnit c && !isBlank c && !([unitOf '"', unitOf '[', unitOf '\x7b'].contains c)

theorem isLiteralUnit_digits (ds : List (Fin 10)) : (ds.map digit).all isLiteralUnit = true := by
  have hdigit : ∀ d : Fin 10, isLiteralUnit (digit d) = true := by decide
  rw [List.all_map, List.all_eq_true]
  exact fun d _ => hdigit d

theorem isLiteralUnit_digit (d : Fin 10) : isLiteralUnit (digit d) = true := by
  revert d
  decide

theorem isLiteralUnit_number (n : JsonNumber) : n.text.all isLiteralUnit = true := by
  have hwhole : n.whole.text.all isLiteralUnit = true := by
    cases n.whole with
    | zero => decide
    | positive first rest =>
      rw [WholePart.text, List.all_cons, isLiteralUnit_digit, isLiteralUnit_digits]
      rfl
  have hexponent : ∀ e : Exponent, e.text.all isLiteralUnit = true := by
    rintro ⟨capital, sign, first, rest⟩
    rw [Exponent.text, List.all_cons, List.all_append, List.all_cons, isLiteralUnit_digit,
      isLiteralUnit_digits]
    cases capital <;> rcases sign with _ | _ | _ <;> rfl
  unfold JsonNumber.text
  rw [List.all_append, List.all_append, List.all_append, hwhole]
  have hsign : (if n.negative = true then [unitOf '-'] else []).all isLiteralUnit = true := by
    cases n.negative <;> decide
  have hfraction : (n.fraction.elim [] fun f =>
      unitOf '.' :: digit f.1 :: f.2.map digit).all isLiteralUnit = true := by
    cases n.fraction with
    | none => rfl
    | some f =>
      rw [Option.elim_some, List.all_cons, List.all_cons, isLiteralUnit_digit,
        isLiteralUnit_digits]
      decide
  have hrest : (n.exponent.elim [] Exponent.text).all isLiteralUnit = true := by
    cases n.exponent with
    | none => rfl
    | some e => exact hexponent e
  rw [hsign, hfraction, hrest]
  rfl

theorem isLiteralUnit_literal (l : JsonLiteral) : l.text.all isLiteralUnit = true := by
  cases l with
  | null => decide
  | bool b => cases b <;> decide
  | number n => exact isLiteralUnit_number n

theorem literal_text_ne_nil (l : JsonLiteral) : l.text ≠ [] := by
  cases l with
  | null => decide
  | bool b => cases b <;> decide
  | number n =>
    obtain ⟨negative, whole, fraction, exponent⟩ := n
    cases negative <;> cases whole <;> exact fun h => List.cons_ne_nil _ _ h

theorem skipScalar_literal (l : JsonLiteral) {rest : Units}
    (h : ∀ c ∈ rest.head?, isScalarUnit c = false) : skipScalar (l.text ++ rest) = rest := by
  have hall : ∀ c ∈ l.text, isScalarUnit c = true := by
    intro c hc
    have hunit := List.all_eq_true.mp (isLiteralUnit_literal l) c hc
    unfold isLiteralUnit at hunit
    simp only [Bool.and_eq_true] at hunit
    exact hunit.1.1
  unfold skipScalar
  rw [List.dropWhile_append_of_pos hall]
  cases rest with
  | nil => rfl
  | cons c rest => rw [List.dropWhile_cons, h c rfl]; rfl

/-- A value starts with a character of its own. -/
theorem value_head (v : JsonValue) :
    ∃ c t, v.text = c :: t ∧ isBlank c = false ∧ c ≠ unitOf ']' := by
  cases v with
  | literal l =>
    obtain ⟨c, t, ht⟩ := List.exists_cons_of_ne_nil (literal_text_ne_nil l)
    have hc : isLiteralUnit c = true :=
      List.all_eq_true.mp (isLiteralUnit_literal l) c (by rw [ht]; exact List.mem_cons_self)
    refine ⟨c, t, by rw [JsonValue.text, ht], ?_, ?_⟩
    · unfold isLiteralUnit at hc
      simp only [Bool.and_eq_true, Bool.not_eq_true'] at hc
      exact hc.1.2
    · rintro rfl
      exact absurd hc (by decide)
  | string s => exact ⟨_, _, by rw [JsonValue.text, JsonString.text], by decide, by decide⟩
  | emptyArray inside | array elements | emptyObject inside | object members =>
    exact ⟨_, _, by rw [JsonValue.text], by decide, by decide⟩

theorem skipWhitespace_value (v : JsonValue) (rest : Units) :
    skipWhitespace (v.text ++ rest) = v.text ++ rest := by
  obtain ⟨c, t, ht, hblank, -⟩ := value_head v
  rw [ht]
  exact skipWhitespace_cons hblank _

/-- What can stand behind a value inside an array or an object. -/
theorem scalar_ends (bs : List Blank) {c : CodeUnit} (h : isScalarUnit c = false) (rest : Units) :
    ∀ d ∈ (blanks bs ++ c :: rest).head?, isScalarUnit d = false := by
  cases bs with
  | nil =>
    rintro d hd
    cases hd
    exact h
  | cons b bs =>
    rintro d hd
    cases hd
    cases b <;> decide

end Pieces

/-! ## The scan of a value -/

section Scan

def elementCount : JsonElements → Nat
  | .last _ _ _ => 1
  | .cons _ _ _ rest => elementCount rest + 1

def memberCount : JsonMembers → Nat
  | .last _ _ _ _ _ _ => 1
  | .cons _ _ _ _ _ _ rest => memberCount rest + 1

/-- An array or an object has a turn for each of its elements or members. -/
theorem elementCount_le (es : JsonElements) : elementCount es ≤ es.text.length := by
  induction es using elementCount.induct with
  | case1 before v after =>
    obtain ⟨c, t, ht, -⟩ := value_head v
    simp only [elementCount, JsonElements.text, ht, List.length_append, List.length_cons]
    omega
  | case2 before v after rest ih =>
    simp only [elementCount, JsonElements.text, List.length_append, List.length_cons]
    omega

theorem memberCount_le (ms : JsonMembers) : memberCount ms ≤ ms.text.length := by
  induction ms using memberCount.induct with
  | case1 => simp only [memberCount, JsonMembers.text, List.length_append, List.length_cons]; omega
  | case2 before name afterName beforeValue v after rest ih =>
    simp only [memberCount, JsonMembers.text, List.length_append, List.length_cons]
    omega

variable {frames turns : Nat} {stack keys : List Units} {rest : Units}

/-- The loops skip the blanks themselves. -/
theorem scanElements_skip (value : List Units → Units → Except ScanStop Units) (t : Units) :
    scanElements value stack turns (skipWhitespace t) = scanElements value stack turns t := by
  cases turns with
  | zero => rfl
  | succ turns => rw [scanElements, scanElements, skipWhitespace_idem]

theorem scanMembers_skip (value : List Units → Units → Except ScanStop Units) (t : Units) :
    scanMembers value stack turns keys (skipWhitespace t) = scanMembers value stack turns keys t := by
  cases turns with
  | zero => rfl
  | succ turns => rw [scanMembers, scanMembers, skipWhitespace_idem]

theorem expect_cons (c : CodeUnit) (rest : Units) : expect c (c :: rest) = .ok rest :=
  if_pos rfl

/-- The opening of an array, with its elements still to be read. -/
theorem parseArray_elements (value : List Units → Units → Except ScanStop Units)
    (es : JsonElements) :
    parseArray value stack (unitOf '[' :: es.text ++ rest) =
      if maxJsonDepth ≤ stack.length then .error .blocked
      else scanElements value stack (es.text ++ rest).length (es.text ++ rest) := by
  have hopen : ∃ c t, skipWhitespace (es.text ++ rest) = c :: t ∧ c ≠ unitOf ']' := by
    cases es with
    | last before v after =>
      obtain ⟨c, t, ht, hblank, hne⟩ := value_head v
      rw [JsonElements.text, List.append_assoc, skipWhitespace_blanks, ht]
      exact ⟨c, _, skipWhitespace_cons hblank _, hne⟩
    | cons before v after more =>
      obtain ⟨c, t, ht, hblank, hne⟩ := value_head v
      rw [JsonElements.text, List.append_assoc, skipWhitespace_blanks, ht]
      exact ⟨c, _, skipWhitespace_cons hblank _, hne⟩
  obtain ⟨c, t, ht, hne⟩ := hopen
  by_cases hdepth : maxJsonDepth ≤ stack.length
  · rw [if_pos hdepth, parseArray_deep hdepth]
  · rw [if_neg hdepth, ← scanElements_skip, List.cons_append, parseArray_bracket hdepth ht,
      if_neg hne, ht]

theorem parseObject_members (value : List Units → Units → Except ScanStop Units)
    (ms : JsonMembers) :
    parseObject value stack (unitOf '\x7b' :: ms.text ++ rest) =
      if maxJsonDepth ≤ stack.length then .error .blocked
      else scanMembers value stack (ms.text ++ rest).length [] (ms.text ++ rest) := by
  have hopen : ∃ c t, skipWhitespace (ms.text ++ rest) = c :: t ∧ c ≠ unitOf '\x7d' := by
    cases ms with
    | last before name afterName beforeValue v after =>
      rw [JsonMembers.text, List.append_assoc, skipWhitespace_blanks]
      exact ⟨unitOf '"', _, skipWhitespace_cons (by decide) _, by decide⟩
    | cons before name afterName beforeValue v after more =>
      rw [JsonMembers.text, List.append_assoc, skipWhitespace_blanks]
      exact ⟨unitOf '"', _, skipWhitespace_cons (by decide) _, by decide⟩
  obtain ⟨c, t, ht, hne⟩ := hopen
  by_cases hdepth : maxJsonDepth ≤ stack.length
  · rw [if_pos hdepth, parseObject_deep hdepth]
  · rw [if_neg hdepth, ← scanMembers_skip, List.cons_append, parseObject_brace hdepth ht,
      if_neg hne, ht]

theorem skipValue_zero (text : Units) : skipValue 0 stack text = .error .blocked := rfl

theorem stopsOfValue_zero (v : JsonValue) : stopsOfValue v 0 stack = [.blocked] := by
  cases v <;> rfl

theorem skipValue_literal (l : JsonLiteral) (h : ∀ c ∈ rest.head?, isScalarUnit c = false) :
    skipValue (frames + 1) stack (l.text ++ rest) = .ok rest := by
  obtain ⟨c, t, ht⟩ := List.exists_cons_of_ne_nil (literal_text_ne_nil l)
  have hc : isLiteralUnit c = true :=
    List.all_eq_true.mp (isLiteralUnit_literal l) c (by rw [ht]; exact List.mem_cons_self)
  have hne {d : CodeUnit} (hd : isLiteralUnit d = false) : c ≠ d := by
    rintro rfl
    rw [hc] at hd
    cases hd
  have hskip := skipScalar_literal l h
  rw [ht, List.cons_append] at hskip ⊢
  rw [skipValue, if_neg (hne (by decide)), if_neg (hne (by decide)), if_neg (hne (by decide)),
    hskip]

theorem skipValue_string (s : JsonString) :
    skipValue (frames + 1) stack (s.text ++ rest) = .ok rest := by
  have hread := readString_text s rest
  rw [JsonString.text, List.cons_append] at hread ⊢
  rw [skipValue, if_pos rfl, hread]
  rfl

theorem skipValue_array (t : Units) :
    skipValue (frames + 1) stack (unitOf '[' :: t) =
      parseArray (skipValue frames) stack (unitOf '[' :: t) := by
  rw [skipValue, if_neg (by decide), if_neg (by decide), if_pos rfl]

theorem skipValue_object (t : Units) :
    skipValue (frames + 1) stack (unitOf '\x7b' :: t) =
      parseObject (skipValue frames) stack (unitOf '\x7b' :: t) := by
  rw [skipValue, if_neg (by decide), if_pos rfl]

theorem underNames_stopAt (inside : List ScanStop) :
    stopAt (underNames stack inside) rest =
      if maxJsonDepth ≤ stack.length then .error .blocked else stopAt inside rest := by
  unfold underNames
  split <;> rfl

theorem parseArray_empty (value : List Units → Units → Except ScanStop Units) (bs : List Blank) :
    parseArray value stack (unitOf '[' :: (blanks bs ++ [unitOf ']']) ++ rest) =
      stopAt (underNames stack []) rest := by
  have hskip : skipWhitespace ((blanks bs ++ [unitOf ']']) ++ rest) = unitOf ']' :: rest := by
    rw [List.append_assoc, skipWhitespace_blanks]
    exact skipWhitespace_cons (by decide) _
  rw [underNames_stopAt]
  by_cases hdepth : maxJsonDepth ≤ stack.length
  · rw [if_pos hdepth, parseArray_deep hdepth]
  · rw [if_neg hdepth, List.cons_append, parseArray_bracket hdepth hskip, if_pos rfl]
    rfl

theorem parseObject_empty (value : List Units → Units → Except ScanStop Units)
    (bs : List Blank) :
    parseObject value stack (unitOf '\x7b' :: (blanks bs ++ [unitOf '\x7d']) ++ rest) =
      stopAt (underNames stack []) rest := by
  have hskip : skipWhitespace ((blanks bs ++ [unitOf '\x7d']) ++ rest) = unitOf '\x7d' :: rest := by
    rw [List.append_assoc, skipWhitespace_blanks]
    exact skipWhitespace_cons (by decide) _
  rw [underNames_stopAt]
  by_cases hdepth : maxJsonDepth ≤ stack.length
  · rw [if_pos hdepth, parseObject_deep hdepth]
  · rw [if_neg hdepth, List.cons_append, parseObject_brace hdepth hskip, if_pos rfl]
    rfl

/-- One turn of the loop of an array. -/
theorem scanElements_turn (value : List Units → Units → Except ScanStop Units)
    (before : List Blank) (v : JsonValue) (t : Units) :
    scanElements value stack (turns + 1) (blanks before ++ (v.text ++ t)) =
      value stack (v.text ++ t) >>= fun text =>
        match skipWhitespace text with
        | c :: text =>
          if c = unitOf ',' then scanElements value stack turns text
          else if c = unitOf ']' then .ok text
          else .error .blocked
        | [] => .error .blocked := by
  have htext : skipWhitespace (blanks before ++ (v.text ++ t)) = v.text ++ t := by
    rw [skipWhitespace_blanks, skipWhitespace_value]
  generalize blanks before ++ (v.text ++ t) = text at htext ⊢
  rw [← htext]
  rfl

/-- One turn of the loop of an object. -/
theorem scanMembers_turn (value : List Units → Units → Except ScanStop Units)
    (before afterName beforeValue : List Blank) (name : JsonString) (v : JsonValue) (t : Units) :
    scanMembers value stack (turns + 1) keys (blanks before ++ (name.text ++
        (blanks afterName ++ (unitOf ':' :: (blanks beforeValue ++ (v.text ++ t)))))) =
      stopAt (repeated stack keys name) t >>= fun _ =>
        value (stack ++ [spelling name]) (v.text ++ t) >>= fun text =>
          match skipWhitespace text with
          | c :: text =>
            if c = unitOf ',' then scanMembers value stack turns (spelling name :: keys) text
            else if c = unitOf '\x7d' then .ok text
            else .error .blocked
          | [] => .error .blocked := by
  have hname (rest : Units) : skipWhitespace (name.text ++ rest) = name.text ++ rest :=
    skipWhitespace_cons (by decide) _
  have hcolon (rest : Units) : skipWhitespace (unitOf ':' :: rest) = unitOf ':' :: rest :=
    skipWhitespace_cons (by decide) _
  rw [scanMembers, skipWhitespace_blanks, hname, readString_text]
  show (expect (unitOf ':') (skipWhitespace (blanks afterName ++ _)) >>= fun text => _) = _
  rw [skipWhitespace_blanks, hcolon, expect_cons]
  rw [bind_ok]
  unfold repeated
  by_cases hkey : spelling name ∈ keys
  · rw [if_pos hkey, if_pos hkey]
    rfl
  · rw [if_neg hkey, if_neg hkey]
    dsimp only
    rw [skipWhitespace_blanks, skipWhitespace_value]
    rfl

end Scan

mutual

/-- **The scan of a value** ends behind it, or at the first of its stops. -/
theorem scan_value (v : JsonValue) (frames : Nat) (stack : List Units) (rest : Units)
    (h : ∀ c ∈ rest.head?, isScalarUnit c = false) :
    skipValue frames stack (v.text ++ rest) = stopAt (stopsOfValue v frames stack) rest := by
  cases frames with
  | zero =>
    rw [skipValue_zero, stopsOfValue_zero]
    rfl
  | succ frames =>
    cases v with
    | literal l => exact skipValue_literal l h
    | string s => exact skipValue_string s
    | emptyArray inside =>
      rw [JsonValue.text, List.cons_append, skipValue_array]
      exact parseArray_empty _ inside
    | emptyObject inside =>
      rw [JsonValue.text, List.cons_append, skipValue_object]
      exact parseObject_empty _ inside
    | array es =>
      have hcount : elementCount es ≤ (es.text ++ rest).length := by
        rw [List.length_append]
        exact (elementCount_le es).trans (Nat.le_add_right _ _)
      rw [JsonValue.text, List.cons_append, skipValue_array]
      refine (parseArray_elements _ es).trans ?_
      rw [scan_elements es frames stack rest _ hcount, ← underNames_stopAt]
      rfl
    | object ms =>
      have hcount : memberCount ms ≤ (ms.text ++ rest).length := by
        rw [List.length_append]
        exact (memberCount_le ms).trans (Nat.le_add_right _ _)
      rw [JsonValue.text, List.cons_append, skipValue_object]
      refine (parseObject_members _ ms).trans ?_
      rw [scan_members ms frames stack [] rest _ hcount, ← underNames_stopAt]
      rfl

theorem scan_elements (es : JsonElements) (frames : Nat) (stack : List Units) (rest : Units)
    (turns : Nat) (h : elementCount es ≤ turns) :
    scanElements (skipValue frames) stack turns (es.text ++ rest) =
      stopAt (stopsOfElements es frames stack) rest := by
  cases turns with
  | zero => cases es <;> exact absurd h (Nat.not_succ_le_zero _)
  | succ turns =>
    cases es with
    | last before v after =>
      rw [JsonElements.text, stopsOfElements]
      simp only [List.append_assoc, List.cons_append, List.nil_append]
      rw [scanElements_turn, scan_value v frames stack _ (scalar_ends after (by decide) rest)]
      refine (stopAt_bind (b := []) ?_).trans (by rw [List.append_nil])
      rw [skipWhitespace_blanks, skipWhitespace_cons (by decide)]
      rfl
    | cons before v after more =>
      have hmore : elementCount more ≤ turns := Nat.le_of_succ_le_succ h
      rw [JsonElements.text, stopsOfElements]
      simp only [List.append_assoc, List.cons_append]
      rw [scanElements_turn, scan_value v frames stack _ (scalar_ends after (by decide) _)]
      refine stopAt_bind ?_
      rw [skipWhitespace_blanks, skipWhitespace_cons (by decide)]
      exact scan_elements more frames stack rest turns hmore

theorem scan_members (ms : JsonMembers) (frames : Nat) (stack keys : List Units) (rest : Units)
    (turns : Nat) (h : memberCount ms ≤ turns) :
    scanMembers (skipValue frames) stack turns keys (ms.text ++ rest) =
      stopAt (stopsOfMembers ms frames stack keys) rest := by
  cases turns with
  | zero => cases ms <;> exact absurd h (Nat.not_succ_le_zero _)
  | succ turns =>
    cases ms with
    | last before name afterName beforeValue v after =>
      rw [JsonMembers.text, stopsOfMembers]
      simp only [List.append_assoc, List.cons_append, List.nil_append]
      rw [scanMembers_turn, scan_value v frames _ _ (scalar_ends after (by decide) rest)]
      refine stopAt_bind ?_
      refine (stopAt_bind (b := []) ?_).trans (by rw [List.append_nil])
      rw [skipWhitespace_blanks, skipWhitespace_cons (by decide)]
      rfl
    | cons before name afterName beforeValue v after more =>
      have hmore : memberCount more ≤ turns := Nat.le_of_succ_le_succ h
      rw [JsonMembers.text, stopsOfMembers]
      simp only [List.append_assoc, List.cons_append]
      rw [scanMembers_turn, scan_value v frames _ _ (scalar_ends after (by decide) _)]
      refine stopAt_bind ?_
      refine stopAt_bind ?_
      rw [skipWhitespace_blanks, skipWhitespace_cons (by decide)]
      exact scan_members more frames stack (spelling name :: keys) rest turns hmore

end

/-! ## The whole text -/

theorem found?_stopAt (stops : List ScanStop) (rest : Units) :
    ScanStop.found? (stopAt stops rest) =
      match stops.head? with
      | some (.duplicate found) => some found
      | some .blocked | none => none := by
  rcases stops with _ | ⟨_ | _, _⟩ <;> rfl

/-- The scan of the whole text is the scan of its value. -/
theorem findDuplicateKey_text (frames : Nat) (d : JsonDocument) :
    findDuplicateKey frames d.text =
      ScanStop.found? (stopAt (stopsOfValue d.value (frames + 1) []) (blanks d.after)) := by
  have hends : ∀ c ∈ (blanks d.after).head?, isScalarUnit c = false := by
    rcases d.after with _ | ⟨b, bs⟩
    · exact fun _ => nofun
    · rintro c hc
      cases hc
      cases b <;> decide
  have hscan := scan_value d.value (frames + 1) [] (blanks d.after) hends
  have hskip : skipWhitespace d.text = d.value.text ++ blanks d.after := by
    unfold JsonDocument.text
    rw [skipWhitespace_blanks, skipWhitespace_value]
  rw [← hscan]
  unfold findDuplicateKey
  rw [hskip]
  cases hv : d.value with
  | literal l =>
    obtain ⟨c, t, ht⟩ := List.exists_cons_of_ne_nil (literal_text_ne_nil l)
    have hc : isLiteralUnit c = true :=
      List.all_eq_true.mp (isLiteralUnit_literal l) c (by rw [ht]; exact List.mem_cons_self)
    have hne {d : CodeUnit} (hd : isLiteralUnit d = false) : c ≠ d := by
      rintro rfl
      rw [hc] at hd
      cases hd
    rw [JsonValue.text, skipValue_literal l hends, ht]
    exact (if_neg (hne (by decide))).trans (if_neg (hne (by decide)))
  | string s =>
    rw [JsonValue.text, skipValue_string]
    exact (if_neg (by decide)).trans (if_neg (by decide))
  | emptyArray inside | array elements =>
    rw [JsonValue.text, List.cons_append, skipValue_array]
    exact (if_neg (by decide)).trans (if_pos rfl)
  | emptyObject inside | object members =>
    rw [JsonValue.text, List.cons_append, skipValue_object]
    exact if_pos rfl

/-- The first place where the scan cannot go on is a name spelled like an earlier one. -/
def SpelledAlike (frames : Nat) (d : JsonDocument) : Prop :=
  ∃ found, (stopsOfValue d.value (frames + 1) []).head? = some (.duplicate found)

theorem findDuplicateKey_isSome {frames : Nat} {d : JsonDocument} :
    (findDuplicateKey frames d.text).isSome = true ↔ SpelledAlike frames d := by
  rw [findDuplicateKey_text, found?_stopAt]
  unfold SpelledAlike
  rcases (stopsOfValue d.value (frames + 1) []).head? with _ | _ | found <;> simp

/-! ## Texts without a second spelling -/

mutual

/-- How deep the values are nested. -/
def heightOfValue : JsonValue → Nat
  | .literal _ | .string _ | .emptyArray _ | .emptyObject _ => 1
  | .array elements => heightOfElements elements + 1
  | .object members => heightOfMembers members + 1

def heightOfElements : JsonElements → Nat
  | .last _ v _ => heightOfValue v
  | .cons _ v _ rest => max (heightOfValue v) (heightOfElements rest)

def heightOfMembers : JsonMembers → Nat
  | .last _ _ _ _ v _ => heightOfValue v
  | .cons _ _ _ _ v _ rest => max (heightOfValue v) (heightOfMembers rest)

end

/-- Two names are equal exactly when they are spelled alike. -/
def SpellsNames (names : List JsonString) : Prop :=
  ∀ a ∈ names, ∀ b ∈ names, JsonString.value a = JsonString.value b ↔ spelling a = spelling b

mutual

/-- Every object spells its names so. -/
def valueSpellsNames : JsonValue → Prop
  | .literal _ | .string _ | .emptyArray _ | .emptyObject _ => True
  | .array elements => elementsSpellNames elements
  | .object members => SpellsNames members.names ∧ membersSpellNames members

def elementsSpellNames : JsonElements → Prop
  | .last _ v _ => valueSpellsNames v
  | .cons _ v _ rest => valueSpellsNames v ∧ elementsSpellNames rest

def membersSpellNames : JsonMembers → Prop
  | .last _ _ _ _ v _ => valueSpellsNames v
  | .cons _ _ _ _ v _ rest => valueSpellsNames v ∧ membersSpellNames rest

end

/-- Every stop is a repeated name. -/
def OnlyRepeats (stops : List ScanStop) : Prop := ScanStop.blocked ∉ stops

theorem onlyRepeats_append {a b : List ScanStop} (ha : OnlyRepeats a) (hb : OnlyRepeats b) :
    OnlyRepeats (a ++ b) :=
  fun h => (List.mem_append.mp h).elim ha hb

theorem onlyRepeats_repeated (stack keys : List Units) (name : JsonString) :
    OnlyRepeats (repeated stack keys name) := by
  unfold OnlyRepeats repeated
  split <;> simp

theorem repeated_eq_nil {stack keys : List Units} {name : JsonString} :
    repeated stack keys name = [] ↔ spelling name ∉ keys := by
  unfold repeated
  split <;> simp [*]

theorem nodup_spelling {names : List JsonString} (h : SpellsNames names) :
    (names.map spelling).Nodup ↔ (names.map JsonString.value).Nodup := by
  unfold List.Nodup
  rw [List.pairwise_map, List.pairwise_map]
  constructor
  · exact List.Pairwise.imp_of_mem fun ha hb hne heq => hne ((h _ ha _ hb).mp heq)
  · exact List.Pairwise.imp_of_mem fun ha hb hne heq => hne ((h _ ha _ hb).mpr heq)

mutual

/-- At a height the scan can follow it stops at nothing but repeated names, and it stops when
there are any. -/
theorem stops_value (v : JsonValue) (frames : Nat) (stack : List Units)
    (hnames : valueSpellsNames v) (hframes : heightOfValue v ≤ frames)
    (hstack : stack.length + heightOfValue v ≤ maxJsonDepth) :
    OnlyRepeats (stopsOfValue v frames stack) ∧
      (stopsOfValue v frames stack = [] ↔ ¬ v.HasDuplicate) := by
  obtain ⟨frames, rfl⟩ : ∃ n, frames = n + 1 := by
    cases frames with
    | zero => cases v <;> exact absurd hframes (Nat.not_succ_le_zero _)
    | succ n => exact ⟨n, rfl⟩
  have hunder (inside : List ScanStop) : underNames stack inside = inside := by
    have hlt : stack.length < maxJsonDepth := by
      cases v <;> exact lt_of_lt_of_le (Nat.lt_add_of_pos_right (Nat.succ_pos _)) hstack
    exact if_neg (not_le.mpr hlt)
  cases v with
  | literal l | string s => exact ⟨List.not_mem_nil, by simp [stopsOfValue, withFrame, JsonValue.HasDuplicate]⟩
  | emptyArray inside | emptyObject inside =>
    show OnlyRepeats (underNames stack []) ∧ (underNames stack [] = [] ↔ ¬ False)
    rw [hunder]
    exact ⟨List.not_mem_nil, by simp⟩
  | array es =>
    show OnlyRepeats (underNames stack _) ∧ (underNames stack _ = [] ↔ ¬ es.HasDuplicate)
    rw [hunder]
    have hheight : heightOfValue (.array es) = heightOfElements es + 1 := rfl
    exact stops_elements es frames stack hnames (by omega) (by omega)
  | object ms =>
    show OnlyRepeats (underNames stack _) ∧ (underNames stack _ = [] ↔
      ¬ (¬ (ms.names.map JsonString.value).Nodup ∨ ms.HasDuplicate))
    rw [hunder]
    have hheight : heightOfValue (.object ms) = heightOfMembers ms + 1 := rfl
    obtain ⟨honly, hnil⟩ := stops_members ms frames stack [] hnames.2
      (by omega) (by omega)
    refine ⟨honly, hnil.trans ?_⟩
    rw [nodup_spelling hnames.1, not_or, not_not]
    simp

theorem stops_elements (es : JsonElements) (frames : Nat) (stack : List Units)
    (hnames : elementsSpellNames es) (hframes : heightOfElements es ≤ frames)
    (hstack : stack.length + heightOfElements es ≤ maxJsonDepth) :
    OnlyRepeats (stopsOfElements es frames stack) ∧
      (stopsOfElements es frames stack = [] ↔ ¬ es.HasDuplicate) := by
  cases es with
  | last before v after => exact stops_value v frames stack hnames hframes hstack
  | cons before v after rest =>
    have hheight : heightOfElements (.cons before v after rest) =
      max (heightOfValue v) (heightOfElements rest) := rfl
    obtain ⟨honly, hnil⟩ := stops_value v frames stack hnames.1
      (by omega) (by omega)
    obtain ⟨honly', hnil'⟩ := stops_elements rest frames stack hnames.2
      (by omega) (by omega)
    refine ⟨onlyRepeats_append honly honly', ?_⟩
    rw [stopsOfElements, List.append_eq_nil_iff, hnil, hnil', JsonElements.HasDuplicate, not_or]

theorem stops_members (ms : JsonMembers) (frames : Nat) (stack : List Units) (keys : List Units)
    (hnames : membersSpellNames ms) (hframes : heightOfMembers ms ≤ frames)
    (hstack : stack.length + heightOfMembers ms < maxJsonDepth) :
    OnlyRepeats (stopsOfMembers ms frames stack keys) ∧
      (stopsOfMembers ms frames stack keys = [] ↔
        (∀ name ∈ ms.names, spelling name ∉ keys) ∧ (ms.names.map spelling).Nodup ∧
          ¬ ms.HasDuplicate) := by
  cases ms with
  | last before name afterName beforeValue v after =>
    have hheight : heightOfMembers (.last before name afterName beforeValue v after) =
      heightOfValue v := rfl
    have hlength : (stack ++ [spelling name]).length = stack.length + 1 := List.length_append
    obtain ⟨honly, hnil⟩ := stops_value v frames (stack ++ [spelling name])
      hnames (by omega) (by omega)
    refine ⟨onlyRepeats_append (onlyRepeats_repeated _ _ _) honly, ?_⟩
    rw [stopsOfMembers, List.append_eq_nil_iff, hnil, repeated_eq_nil, JsonMembers.HasDuplicate]
    simp [JsonMembers.names]
  | cons before name afterName beforeValue v after rest =>
    have hheight : heightOfMembers (.cons before name afterName beforeValue v after rest) =
      max (heightOfValue v) (heightOfMembers rest) := rfl
    have hlength : (stack ++ [spelling name]).length = stack.length + 1 := List.length_append
    obtain ⟨honly, hnil⟩ := stops_value v frames (stack ++ [spelling name])
      hnames.1 (by omega) (by omega)
    obtain ⟨honly', hnil'⟩ := stops_members rest frames stack
      (spelling name :: keys) hnames.2 (by omega) (by omega)
    refine ⟨onlyRepeats_append (onlyRepeats_repeated _ _ _) (onlyRepeats_append honly honly'), ?_⟩
    rw [stopsOfMembers, List.append_eq_nil_iff, List.append_eq_nil_iff, hnil, hnil',
      repeated_eq_nil, JsonMembers.HasDuplicate, JsonMembers.names, List.map_cons, List.nodup_cons]
    simp only [List.mem_cons, not_or, forall_eq_or_imp, List.mem_map, not_exists, not_and]
    constructor
    · rintro ⟨hkey, hv, hfresh, hnodup, hrest⟩
      exact ⟨⟨hkey, fun b hb => (hfresh b hb).2⟩, ⟨fun b hb => (hfresh b hb).1, hnodup⟩, hv, hrest⟩
    · rintro ⟨⟨hkey, hkeys⟩, ⟨hfresh, hnodup⟩, hv, hrest⟩
      exact ⟨hkey, hv, fun b hb => ⟨hfresh b hb, hkeys b hb⟩, hnodup, hrest⟩

end

namespace Sample

def plainName (c : Char) (h : isPlain (unitOf c) = true) : JsonString := [.plain (unitOf c) h]

/-- The letter `a`, as `\u0061`. -/
def escapedA : JsonString :=
  [.unicode ⟨unitOf '0', by decide⟩ ⟨unitOf '0', by decide⟩ ⟨unitOf '6', by decide⟩
    ⟨unitOf '1', by decide⟩]

/-- An object of two members. -/
def twoMembers (first second : JsonString) : JsonDocument where
  before := []
  value := .object (.cons [] first [] [] (.literal .null) []
    (.last [] second [] [] (.literal .null) []))
  after := []

end Sample

end DumpLedger
