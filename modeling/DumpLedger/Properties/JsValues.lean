import DumpLedger.Domain.JsValue
import DumpLedger.Properties.ContractFields

/-!
# Canonical texts

The text of a value with sorted members depends on the value only, not on how it was written; and
no object of it has two members of one name. A value that is sorted already, with natural numbers,
is read back from its text.

* `stable_of_same` — equal values have one sorted form
* `print_noDuplicate` — what is written has no member twice
* `jsValue_print` — `JSON.parse` of `JSON.stringify`
-/

namespace DumpLedger

open Lib Decode

/-! ## Own names -/

theorem nodup_ownKeys (names : List Units) : (ownKeys names).Nodup := by
  have hnodup := nodup_eraseDups names
  rw [ownKeys, List.nodup_append]
  refine ⟨?_, hnodup.filter _, fun a ha b hb he => ?_⟩
  · exact (List.mergeSort_perm _ _).nodup_iff.mpr (hnodup.filter _)
  · rw [List.mem_mergeSort, List.mem_filter] at ha
    rw [List.mem_filter, ← he] at hb
    cases hindex : arrayIndex? a with
    | none => simp [hindex] at ha
    | some n => simp [hindex] at hb

section Entries

variable {α : Type} {ms ns : List (Units × α)}

theorem exists_own {key : Units} (h : key ∈ ms.map Prod.fst) : ∃ v, own ms key = some v :=
  Option.isSome_iff_exists.mp (own_isSome.mpr h)

/-- The names of the entries, for any list of names that are there. -/
theorem entries_names {keys : List Units} (h : ∀ key ∈ keys, key ∈ ms.map Prod.fst) :
    (keys.filterMap fun key => (own ms key).map fun v => (key, v)).map Prod.fst = keys := by
  induction keys with
  | nil => rfl
  | cons key keys ih =>
    obtain ⟨hkey, hrest⟩ := List.forall_mem_cons.mp h
    obtain ⟨v, hv⟩ := exists_own hkey
    rw [List.filterMap_cons, hv, Option.map_some]
    show key :: _ = key :: keys
    rw [ih hrest]

theorem ownEntries_names (ms : List (Units × α)) :
    (ownEntries ms).map Prod.fst = ownKeys (ms.map Prod.fst) :=
  entries_names fun _ hkey => mem_ownKeys.mp hkey

theorem mem_of_ownEntries {entry : Units × α} (h : entry ∈ ownEntries ms) : entry ∈ ms := by
  obtain ⟨key, -, hv⟩ := List.mem_filterMap.mp h
  obtain ⟨v, hown, rfl⟩ := Option.map_eq_some_iff.mp hv
  exact mem_of_own hown

/-- The sorted entries depend on the own members only. -/
theorem sortedEntries_congr (hkeys : ∀ key, key ∈ ms.map Prod.fst ↔ key ∈ ns.map Prod.fst)
    (hown : ∀ key, own ms key = own ns key) : sortedEntries ms = sortedEntries ns := by
  have hperm : (ownKeys (ms.map Prod.fst)).Perm (ownKeys (ns.map Prod.fst)) :=
    (List.perm_ext_iff_of_nodup (nodup_ownKeys _) (nodup_ownKeys _)).mpr fun key => by
      rw [mem_ownKeys, mem_ownKeys, hkeys]
  unfold sortedEntries
  rw [mergeSort_units_eq hperm]
  simp only [hown]

/-- Members with different names are all own. -/
theorem own_of_nodup (hnodup : (ms.map Prod.fst).Nodup) {m : Units × α} (h : m ∈ ms) :
    own ms m.1 = some m.2 := by
  obtain ⟨v, hv⟩ := exists_own (List.mem_map_of_mem h)
  have hsame : (m.1, v) = m := List.inj_on_of_nodup_map hnodup (mem_of_own hv) h rfl
  rw [hv, ← hsame]

theorem entries_of_nodup (hnodup : (ms.map Prod.fst).Nodup) :
    ((ms.map Prod.fst).filterMap fun key => (own ms key).map fun v => (key, v)) = ms := by
  rw [List.filterMap_map]
  have hsome : ∀ m ∈ ms,
      ((fun key => (own ms key).map fun v => (key, v)) ∘ Prod.fst) m = some m := by
    intro m hm
    show (own ms m.1).map _ = _
    rw [own_of_nodup hnodup hm]
    rfl
  rw [List.filterMap_congr hsome, List.filterMap_some]

end Entries

namespace JsValue

/-! ## One sorted form -/

/-- **Equal values have one sorted form.** -/
theorem stable_of_same {v w : JsValue} (h : Same v w) : stable v = stable w := by
  induction h with
  | null | boolean | number | string => rfl
  | array hlen h ih =>
    rw [stable, stable, stableElements_eq, stableElements_eq]
    refine congrArg array (List.ext_getElem (by simpa using hlen) fun i hv hw => ?_)
    rw [List.getElem_map, List.getElem_map]
    exact ih i (by simpa using hv) (by simpa using hw)
  | @object ms ns hkeys h ih =>
    rw [stable, stable, stableMembers_eq, stableMembers_eq]
    refine congrArg object (sortedEntries_congr (fun key => ?_) fun key => ?_)
    · rw [List.map_map, List.map_map]
      exact hkeys key
    · rw [own_map, own_map]
      by_cases hkey : key ∈ ms.map Prod.fst
      · obtain ⟨v, hv⟩ := exists_own hkey
        obtain ⟨w, hw⟩ := exists_own ((hkeys key).mp hkey)
        rw [hv, hw, Option.map_some, Option.map_some, ih key v w hv hw]
      · have hnone {ps : List (Units × JsValue)} (hp : key ∉ ps.map Prod.fst) :
            own ps key = none :=
          Option.not_isSome_iff_eq_none.mp (mt own_isSome.mp hp)
        rw [hnone hkey, hnone (mt (hkeys key).mpr hkey)]

/-! ## What is written -/

section Print

variable (numeral : ℚ → JsonNumber)

theorem names_unitsMembers (m : Units × JsonValue) (ms : List (Units × JsonValue)) :
    (unitsMembers m ms).names.map JsonString.value = (m :: ms).map Prod.fst := by
  induction ms generalizing m with
  | nil => rw [unitsMembers, JsonMembers.names, List.map_singleton, quotedUnits_value]; rfl
  | cons n ms ih =>
    rw [unitsMembers, JsonMembers.names, List.map_cons, ih, quotedUnits_value]
    rfl

theorem unitsMembers_noDuplicate {m : Units × JsonValue} {ms : List (Units × JsonValue)}
    (h : ∀ n ∈ m :: ms, ¬ n.2.HasDuplicate) : ¬ (unitsMembers m ms).HasDuplicate := by
  induction ms generalizing m with
  | nil => exact h m List.mem_cons_self
  | cons n ms ih =>
    rw [unitsMembers, JsonMembers.HasDuplicate, not_or]
    exact ⟨h m List.mem_cons_self, ih fun k hk => h k (List.mem_cons_of_mem m hk)⟩

theorem unitsObject_noDuplicate {ms : List (Units × JsonValue)} (hnodup : (ms.map Prod.fst).Nodup)
    (h : ∀ m ∈ ms, ¬ m.2.HasDuplicate) : ¬ (unitsObject ms).HasDuplicate := by
  cases ms with
  | nil => exact not_false
  | cons m ms =>
    rw [unitsObject, JsonValue.HasDuplicate, not_or, not_not, names_unitsMembers]
    exact ⟨hnodup, unitsMembers_noDuplicate h⟩

theorem jsonArray_noDuplicate {vs : List JsonValue} (h : ∀ v ∈ vs, ¬ v.HasDuplicate) :
    ¬ (jsonArray vs).HasDuplicate := by
  cases vs with
  | nil => exact not_false
  | cons v vs =>
    show ¬ (jsonElements v vs).HasDuplicate
    induction vs generalizing v with
    | nil => exact h v List.mem_cons_self
    | cons w ws ih =>
      rw [jsonElements, JsonElements.HasDuplicate, not_or]
      exact ⟨h v List.mem_cons_self, ih w fun x hx => h x (List.mem_cons_of_mem v hx)⟩

mutual

/-- **What is written has no member twice**, at any depth. -/
theorem print_noDuplicate : ∀ v : JsValue, ¬ (print numeral v).HasDuplicate
  | null | boolean _ | number _ | string _ => not_false
  | array elements => by
    rw [print]
    exact jsonArray_noDuplicate (printElements_noDuplicate elements)
  | object members => by
    rw [print]
    refine unitsObject_noDuplicate ?_ fun m hm => ?_
    · rw [ownEntries_names]
      exact nodup_ownKeys _
    · exact printMembers_noDuplicate members m (mem_of_ownEntries hm)

theorem printElements_noDuplicate :
    ∀ (vs : List JsValue), ∀ x ∈ printElements numeral vs, ¬ x.HasDuplicate
  | [], x, hx => absurd hx List.not_mem_nil
  | v :: rest, x, hx => by
    rw [printElements, List.mem_cons] at hx
    rcases hx with rfl | hx
    · exact print_noDuplicate v
    · exact printElements_noDuplicate rest x hx

theorem printMembers_noDuplicate :
    ∀ (ms : List (Units × JsValue)), ∀ m ∈ printMembers numeral ms, ¬ m.2.HasDuplicate
  | [], m, hm => absurd hm List.not_mem_nil
  | (name, v) :: rest, m, hm => by
    rw [printMembers, List.mem_cons] at hm
    rcases hm with rfl | hm
    · exact print_noDuplicate v
    · exact printMembers_noDuplicate rest m hm

end

/-! ## Its text -/

theorem isText_wholePart (w : WholePart) : IsText w.text := by
  cases w with
  | zero => exact isText_unitOf (by decide)
  | positive first rest => exact (isText_digit first.succ).cons (isText_digits rest)

theorem isText_exponent (e : Exponent) : IsText e.text := by
  have hletter : IsText [if e.capital then unitOf 'E' else unitOf 'e'] := by
    split <;> exact isText_unitOf (by decide)
  refine hletter.cons (.append ?_ ((isText_digit e.first).cons (isText_digits e.rest)))
  cases e.sign with
  | none => exact isText_nil
  | some plus => cases plus <;> exact isText_unitOf (by decide)

theorem isText_number (n : JsonNumber) : IsText n.text := by
  unfold JsonNumber.text
  refine .append ?_ (.append (isText_wholePart n.whole) (.append ?_ ?_))
  · split
    · exact isText_unitOf (by decide)
    · exact isText_nil
  · cases n.fraction with
    | none => exact isText_nil
    | some f =>
      have hpoint : IsText [unitOf '.'] := isText_unitOf (by decide)
      exact hpoint.cons ((isText_digit f.1).cons (isText_digits f.2))
  · cases n.exponent with
    | none => exact isText_nil
    | some e => exact isText_exponent e

theorem isText_unitsObject {ms : List (Units × JsonValue)} (h : ∀ m ∈ ms, IsText m.2.text) :
    IsText (unitsObject ms).text := by
  have hopen : IsText [unitOf '\x7b'] := isText_unitOf (by decide)
  have hclose : IsText [unitOf '\x7d'] := isText_unitOf (by decide)
  have hcomma : IsText [unitOf ','] := isText_unitOf (by decide)
  have hcolon : IsText [unitOf ':'] := isText_unitOf (by decide)
  cases ms with
  | nil => exact hopen.cons hclose
  | cons m rest =>
    refine hopen.cons ?_
    induction rest generalizing m with
    | nil =>
      exact (isText_quotedUnits m.1).append (hcolon.cons ((h m List.mem_cons_self).append hclose))
    | cons next rest ih =>
      refine (isText_quotedUnits m.1).append (hcolon.cons ((h m List.mem_cons_self).append
        (hcomma.cons (ih next fun x hx => ?_))))
      exact h x (List.mem_cons_of_mem m hx)

mutual

/-- **What is written has no lone surrogate**: each one is escaped. -/
theorem isText_print : ∀ v : JsValue, IsText (print numeral v).text
  | null => isText_jsonNull
  | boolean b => by
    cases b
    · exact (⟨"false".toList, by decide⟩ : IsText (unitsOf "false"))
    · exact (⟨"true".toList, by decide⟩ : IsText (unitsOf "true"))
  | number n => by
    cases n with
    | none => exact isText_jsonNull
    | some q => exact isText_number _
  | string us => isText_jsonString us
  | array elements => by
    rw [print]
    exact isText_jsonArray (isText_printElements elements)
  | object members => by
    rw [print]
    exact isText_unitsObject fun m hm => isText_printMembers members m (mem_of_ownEntries hm)

theorem isText_printElements :
    ∀ (vs : List JsValue), ∀ x ∈ printElements numeral vs, IsText x.text
  | [], x, hx => absurd hx List.not_mem_nil
  | v :: rest, x, hx => by
    rw [printElements, List.mem_cons] at hx
    rcases hx with rfl | hx
    · exact isText_print v
    · exact isText_printElements rest x hx

theorem isText_printMembers :
    ∀ (ms : List (Units × JsValue)), ∀ m ∈ printMembers numeral ms, IsText m.2.text
  | [], m, hm => absurd hm List.not_mem_nil
  | (name, v) :: rest, m, hm => by
    rw [printMembers, List.mem_cons] at hm
    rcases hm with rfl | hm
    · exact isText_print v
    · exact isText_printMembers rest m hm

end

/-! ## Reading it again -/

theorem jsElements_jsonElements (v : JsonValue) (vs : List JsonValue) :
    jsElements (jsonElements v vs) = (v :: vs).map jsValue := by
  induction vs generalizing v with
  | nil => rfl
  | cons w ws ih =>
    rw [jsonElements, jsElements, ih]
    rfl

theorem jsValue_jsonArray (vs : List JsonValue) :
    jsValue (jsonArray vs) = array (vs.map jsValue) := by
  cases vs with
  | nil => rfl
  | cons v vs => rw [jsonArray, jsValue, jsElements_jsonElements]

theorem jsMembers_unitsMembers (m : Units × JsonValue) (ms : List (Units × JsonValue)) :
    jsMembers (unitsMembers m ms) = (m :: ms).map fun n => (n.1, jsValue n.2) := by
  induction ms generalizing m with
  | nil => rw [unitsMembers, jsMembers, quotedUnits_value]; rfl
  | cons n ms ih =>
    rw [unitsMembers, jsMembers, ih, quotedUnits_value]
    rfl

theorem jsValue_unitsObject (ms : List (Units × JsonValue)) :
    jsValue (unitsObject ms) = object (ms.map fun m => (m.1, jsValue m.2)) := by
  cases ms with
  | nil => rfl
  | cons m ms => rw [unitsObject, jsValue, jsMembers_unitsMembers]

mutual

/-- A value that is in its sorted form, with natural numbers that are doubles. -/
def isCanonical : JsValue → Bool
  | null | boolean _ | string _ => true
  | number none => false
  | number (some q) => decide (q.den = 1 ∧ 0 ≤ q.num ∧ q.num < 2 ^ 53)
  | array elements => canonicalElements elements
  | object members =>
    decide ((members.map Prod.fst).Pairwise (· < ·)) &&
      (members.map Prod.fst).all (fun name => (arrayIndex? name).isNone) && canonicalMembers members

def canonicalElements : List JsValue → Bool
  | [] => true
  | v :: rest => isCanonical v && canonicalElements rest

def canonicalMembers : List (Units × JsValue) → Bool
  | [] => true
  | (_, v) :: rest => isCanonical v && canonicalMembers rest

end

/-- Names in order are their own entries, in any of the two orders. -/
theorem entries_of_ascending {α : Type} {ms : List (Units × α)}
    (h : (ms.map Prod.fst).Pairwise (· < ·))
    (hplain : ∀ name ∈ ms.map Prod.fst, arrayIndex? name = none) :
    ownEntries ms = ms ∧ sortedEntries ms = ms := by
  have hnodup : (ms.map Prod.fst).Nodup := h.imp fun hlt he => by
    rw [he] at hlt
    exact List.lt_irrefl _ hlt
  have hnames : ownKeys (ms.map Prod.fst) = ms.map Prod.fst := ownKeys_of_names hnodup hplain
  have hsorted : (ms.map Prod.fst).mergeSort (fun a b => decide (a ≤ b)) = ms.map Prod.fst :=
    List.mergeSort_of_pairwise (h.imp fun hlt => decide_eq_true (List.le_of_lt hlt))
  unfold ownEntries sortedEntries
  rw [hnames, hsorted]
  exact ⟨entries_of_nodup hnodup, entries_of_nodup hnodup⟩

mutual

/-- **`JSON.parse` of `JSON.stringify`.** -/
theorem jsValue_print : ∀ v : JsValue, isCanonical v = true →
    jsValue (print numeral v) = v ∧ stable v = v
  | null, _ | boolean _, _ => ⟨rfl, rfl⟩
  | string us, _ => ⟨congrArg string (quotedUnits_value us), rfl⟩
  | number none, h => by cases h
  | number (some q), h => by
    rw [isCanonical, decide_eq_true_eq] at h
    obtain ⟨hden, hnonneg, hsmall⟩ := h
    have hlarge : q.num < 10 ^ 21 := by omega
    have hvalue : ((q.num.toNat : Nat) : ℚ) = q := by
      have hint : ((q.num : Int) : ℚ) = q := Rat.coe_int_num_of_den_eq_one hden
      have hnat : ((q.num.toNat : Nat) : Int) = q.num := Int.toNat_of_nonneg hnonneg
      rw [← hnat] at hint
      exact_mod_cast hint
    refine ⟨?_, rfl⟩
    rw [print, numberLiteral, if_pos ⟨hden, hnonneg, hlarge⟩, jsValue, value_numberOf]
    have hdouble := toDouble_intCast (n := q.num.toNat) (by omega)
    rw [Int.cast_natCast] at hdouble
    rw [hdouble, hvalue]
  | array elements, h => by
    rw [isCanonical] at h
    obtain ⟨hread, hsorted⟩ := jsElements_print elements h
    rw [print, jsValue_jsonArray, hread, stable, hsorted]
    exact ⟨rfl, rfl⟩
  | object members, h => by
    rw [isCanonical, Bool.and_eq_true, Bool.and_eq_true, decide_eq_true_eq, List.all_eq_true] at h
    obtain ⟨⟨hascending, hindex⟩, hplain⟩ := h
    obtain ⟨hread, hsorted⟩ := jsMembers_print members hplain
    have hnone : ∀ name ∈ members.map Prod.fst, arrayIndex? name = none := fun name hname =>
      Option.isNone_iff_eq_none.mp (hindex name hname)
    have hnames : (printMembers numeral members).map Prod.fst = members.map Prod.fst := by
      rw [printMembers_eq, List.map_map]
      rfl
    rw [print, stable, hsorted, (entries_of_ascending hascending hnone).2,
      (entries_of_ascending (hnames ▸ hascending) (hnames ▸ hnone)).1, jsValue_unitsObject, hread]
    exact ⟨rfl, rfl⟩

theorem jsElements_print : ∀ vs : List JsValue, canonicalElements vs = true →
    (printElements numeral vs).map jsValue = vs ∧ stableElements vs = vs
  | [], _ => ⟨rfl, rfl⟩
  | v :: rest, h => by
    rw [canonicalElements, Bool.and_eq_true] at h
    obtain ⟨hread, hsorted⟩ := jsValue_print v h.1
    obtain ⟨hreads, hsorteds⟩ := jsElements_print rest h.2
    rw [printElements, List.map_cons, hread, hreads, stableElements, hsorted, hsorteds]
    exact ⟨rfl, rfl⟩

theorem jsMembers_print : ∀ ms : List (Units × JsValue), canonicalMembers ms = true →
    ((printMembers numeral ms).map fun m => (m.1, jsValue m.2)) = ms ∧ stableMembers ms = ms
  | [], _ => ⟨rfl, rfl⟩
  | (name, v) :: rest, h => by
    rw [canonicalMembers, Bool.and_eq_true] at h
    obtain ⟨hread, hsorted⟩ := jsValue_print v h.1
    obtain ⟨hreads, hsorteds⟩ := jsMembers_print rest h.2
    rw [printMembers, List.map_cons, hread, hreads, stableMembers, hsorted, hsorteds]
    exact ⟨rfl, rfl⟩

end

end Print

end JsValue

end DumpLedger
