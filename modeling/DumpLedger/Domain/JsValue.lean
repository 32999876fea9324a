import DumpLedger.Domain.JsonPrint

/-!
# JavaScript values

What `JSON.parse` returns and `JSON.stringify` accepts, with strings of code units and numbers
that are doubles. An object is the list of its members as they stand in the text; of two members
of one name the later one counts.

* `jsValue` — `JSON.parse`, of the syntax tree of a text
* `JsValue.print` — `JSON.stringify`, as a syntax tree
* `JsValue.stable` — the members sorted at every depth, so that equal values have equal texts
* `JsValue.Same` — values that differ in the order of members only
* `JsValue.Within` — a value that stands somewhere in another one
-/

namespace DumpLedger

open Lib

inductive JsValue
  | null
  | boolean (b : Bool)
  /-- A double; `none` is an infinity. -/
  | number (n : Option ℚ)
  | string (us : Units)
  | array (elements : List JsValue)
  | object (members : List (Units × JsValue))

/-! ## Names in order -/

theorem units_lt_of_le_of_ne {a b : Units} (h : a ≤ b) (hne : a ≠ b) : a < b := by
  by_contra hlt
  exact hne (List.le_antisymm h (List.not_lt.mp hlt))

theorem sorted_units (us : List Units) :
    (us.mergeSort fun a b => decide (a ≤ b)).Pairwise (· ≤ ·) := by
  have hle := @List.pairwise_mergeSort Units (fun a b => decide (a ≤ b))
    (fun a b c hab hbc => by
      rw [decide_eq_true_eq] at *
      exact List.le_trans hab hbc)
    (fun a b => by
      rw [Bool.or_eq_true, decide_eq_true_eq, decide_eq_true_eq]
      exact List.le_total a b) us
  simpa using hle

/-- Different names, sorted, are in strictly ascending order. -/
theorem ascending_units {us : List Units} (h : us.Nodup) :
    (us.mergeSort fun a b => decide (a ≤ b)).Pairwise (· < ·) := by
  have hnodup : (us.mergeSort fun a b => decide (a ≤ b)).Pairwise (· ≠ ·) :=
    (List.mergeSort_perm _ _).nodup_iff.mpr h
  exact (sorted_units us).imp₂ (fun a b hle hne => units_lt_of_le_of_ne hle hne) hnodup

/-- The order of sorted names does not depend on the order before. -/
theorem mergeSort_units_eq {us ws : List Units} (h : us.Perm ws) :
    us.mergeSort (fun a b => decide (a ≤ b)) = ws.mergeSort fun a b => decide (a ≤ b) := by
  have hperm := ((List.mergeSort_perm us fun a b => decide (a ≤ b)).trans h).trans
    (List.mergeSort_perm ws fun a b => decide (a ≤ b)).symm
  exact hperm.eq_of_pairwise (fun a b _ _ hab hba => List.le_antisymm hab hba) (sorted_units us)
    (sorted_units ws)

theorem nodup_eraseDups (us : List Units) : us.eraseDups.Nodup := by
  induction hn : us.length using Nat.strong_induction_on generalizing us with
  | _ n ih =>
    cases us with
    | nil => simp
    | cons u us =>
      rw [List.eraseDups_cons, List.nodup_cons]
      constructor
      · rw [List.mem_eraseDups]
        simp
      · refine ih _ ?_ _ rfl
        have hle := List.length_filter_le (fun b => !b == u) us
        rw [List.length_cons] at hn
        omega

/-! ## Members -/

section Members

variable {α β : Type}

/-- `Object.hasOwn(o, key)`, with the value. -/
def own (members : List (Units × α)) (key : Units) : Option α := members.reverse.lookup key

/-- `Object.entries`. -/
def ownEntries (members : List (Units × α)) : List (Units × α) :=
  (ownKeys (members.map Prod.fst)).filterMap fun key => (own members key).map fun v => (key, v)

/-- `Object.fromEntries`, of the members in the order of their names. -/
def sortedEntries (members : List (Units × α)) : List (Units × α) :=
  ((ownKeys (members.map Prod.fst)).mergeSort fun a b => decide (a ≤ b)).filterMap fun key =>
    (own members key).map fun v => (key, v)

theorem mem_of_own {members : List (Units × α)} {key : Units} {v : α}
    (h : own members key = some v) : (key, v) ∈ members := by
  rw [own, List.lookup_eq_some_iff] at h
  obtain ⟨before, after, heq, -⟩ := h
  rw [← List.mem_reverse, heq]
  simp

theorem own_isSome {members : List (Units × α)} {key : Units} :
    (own members key).isSome = true ↔ key ∈ members.map Prod.fst := by
  rw [← Option.ne_none_iff_isSome, own, ne_eq, List.lookup_eq_none_iff]
  simp

theorem own_map (members : List (Units × α)) (f : α → β) (key : Units) :
    own (members.map fun m => (m.1, f m.2)) key = (own members key).map f := by
  unfold own
  rw [← List.map_reverse]
  induction members.reverse with
  | nil => rfl
  | cons m ms ih =>
    rw [List.map_cons, List.lookup_cons, List.lookup_cons, ih]
    cases key == m.1 <;> rfl

end Members

/-! ## Reading -/

mutual

/-- `JSON.parse`. -/
def jsValue : JsonValue → JsValue
  | .literal .null => .null
  | .literal (.bool b) => .boolean b
  | .literal (.number n) => .number (toDouble n.value)
  | .string s => .string s.value
  | .emptyArray _ => .array []
  | .array elements => .array (jsElements elements)
  | .emptyObject _ => .object []
  | .object members => .object (jsMembers members)

def jsElements : JsonElements → List JsValue
  | .last _ v _ => [jsValue v]
  | .cons _ v _ rest => jsValue v :: jsElements rest

def jsMembers : JsonMembers → List (Units × JsValue)
  | .last _ name _ _ v _ => [(name.value, jsValue v)]
  | .cons _ name _ _ v _ rest => (name.value, jsValue v) :: jsMembers rest

end

/-! ## Writing -/

/-- The members of an object that is not empty. -/
def unitsMembers (member : Units × JsonValue) : List (Units × JsonValue) → JsonMembers
  | [] => .last [] (quotedUnits member.1) [] [] member.2 []
  | next :: rest => .cons [] (quotedUnits member.1) [] [] member.2 [] (unitsMembers next rest)

def unitsObject : List (Units × JsonValue) → JsonValue
  | [] => .emptyObject []
  | member :: rest => .object (unitsMembers member rest)

/-- `String(n)`: a natural number by its digits, any other number by the numeral of it. -/
def numberLiteral (numeral : ℚ → JsonNumber) : Option ℚ → JsonLiteral
  | none => .null
  | some q =>
    .number (if q.den = 1 ∧ 0 ≤ q.num ∧ q.num < 10 ^ 21 then numberOf q.num.toNat else numeral q)

namespace JsValue

section Print

variable (numeral : ℚ → JsonNumber)

mutual

/-- `JSON.stringify`. -/
def print : JsValue → JsonValue
  | null => jsonNull
  | boolean b => .literal (.bool b)
  | number n => .literal (numberLiteral numeral n)
  | string us => jsonString us
  | array elements => jsonArray (printElements elements)
  | object members => unitsObject (ownEntries (printMembers members))

def printElements : List JsValue → List JsonValue
  | [] => []
  | v :: rest => print v :: printElements rest

def printMembers : List (Units × JsValue) → List (Units × JsonValue)
  | [] => []
  | (name, v) :: rest => (name, print v) :: printMembers rest

end

end Print

mutual

/-- `Object.fromEntries(Object.keys(v).sort()…)` at every depth. -/
def stable : JsValue → JsValue
  | null => null
  | boolean b => boolean b
  | number n => number n
  | string us => string us
  | array elements => array (stableElements elements)
  | object members => object (sortedEntries (stableMembers members))

def stableElements : List JsValue → List JsValue
  | [] => []
  | v :: rest => stable v :: stableElements rest

def stableMembers : List (Units × JsValue) → List (Units × JsValue)
  | [] => []
  | (name, v) :: rest => (name, stable v) :: stableMembers rest

end

/-! ## Equal values -/

/-- Equal values: an object is told by its own members, in any order. -/
inductive Same : JsValue → JsValue → Prop
  | null : Same .null .null
  | boolean (b : Bool) : Same (.boolean b) (.boolean b)
  | number (n : Option ℚ) : Same (.number n) (.number n)
  | string (us : Units) : Same (.string us) (.string us)
  | array {vs ws : List JsValue} (hlen : vs.length = ws.length)
      (h : ∀ (i : Nat) (hv : i < vs.length) (hw : i < ws.length), Same vs[i] ws[i]) :
      Same (.array vs) (.array ws)
  | object {ms ns : List (Units × JsValue)}
      (hkeys : ∀ key, key ∈ ms.map Prod.fst ↔ key ∈ ns.map Prod.fst)
      (h : ∀ key v w, own ms key = some v → own ns key = some w → Same v w) :
      Same (.object ms) (.object ns)

theorem stableElements_eq (vs : List JsValue) : stableElements vs = vs.map stable := by
  induction vs with
  | nil => rfl
  | cons v vs ih => rw [stableElements, ih, List.map_cons]

theorem stableMembers_eq (ms : List (Units × JsValue)) :
    stableMembers ms = ms.map fun m => (m.1, stable m.2) := by
  induction ms with
  | nil => rfl
  | cons m ms ih => rw [stableMembers, ih, List.map_cons]

theorem printElements_eq (numeral : ℚ → JsonNumber) (vs : List JsValue) :
    printElements numeral vs = vs.map (print numeral) := by
  induction vs with
  | nil => rfl
  | cons v vs ih => rw [printElements, ih, List.map_cons]

theorem printMembers_eq (numeral : ℚ → JsonNumber) (ms : List (Units × JsValue)) :
    printMembers numeral ms = ms.map fun m => (m.1, print numeral m.2) := by
  induction ms with
  | nil => rfl
  | cons m ms ih => rw [printMembers, ih, List.map_cons]

/-! ## Parts of a value -/

/-- The value stands somewhere in the other one, or is it. -/
inductive Within (w : JsValue) : JsValue → Prop
  | self : Within w w
  | element {v : JsValue} {elements : List JsValue} (hv : v ∈ elements) (h : Within w v) :
      Within w (.array elements)
  | member {key : Units} {v : JsValue} {members : List (Units × JsValue)}
      (hv : own members key = some v) (h : Within w v) : Within w (.object members)

end JsValue

end DumpLedger
