import DumpLedger.Domain.JsonSize
import DumpLedger.Inspection.FactsText
import DumpLedger.Properties.ManifestFields

/-!
# The facts and their text

The ledger keeps the facts of an inspection as a value of its own, with U+FFFD for a surrogate
without its pair. For names that are texts, `JSON.stringify` writes the same text of both.

* `Printed` — a value of the ledger and a tree have one text
* `stringify_serializeFacts` — so have the facts as they are kept and as they are written
-/

namespace DumpLedger

open Lib Minidump

/-! ## One text of two values -/

/-- A value and the tree of its text. -/
def Printed (j : Json) (v : JsonValue) : Prop := utf16 j.stringify = v.text

/-- The members of an object and the fields of its text. -/
def PrintedMembers : JsonObject → List (String × JsonValue) → Prop :=
  List.Forall₂ fun m f => m.1 = f.1 ∧ Printed m.2 f.2

section Printed

theorem printed_str (s : String) : Printed (.str s) (textValue s) := by
  show utf16 (Json.quote s) = (quotedUnits (utf16 s)).text
  rw [utf16_quote, quotedUnits_utf16]

theorem printed_bool (b : Bool) : Printed (.bool b) (booleanValue b) := by
  cases b with
  | true => exact (by decide : utf16 "true" = unitsOf "true")
  | false => exact (by decide : utf16 "false" = unitsOf "false")

theorem printed_number (n : Nat) : Printed (numberJson n) (jsonNumber n) := by
  have htext : (toString (n : Int)).toList = Nat.toDigits 10 n := Nat.toList_repr
  have hascii : ∀ c ∈ (toString (n : Int)).toList, c.toNat < 128 := by
    intro c hc
    rw [htext] at hc
    have hdigit := Nat.isDigit_of_mem_toDigits (by decide) (by decide) hc
    exact (digit_bounds hdigit).2.trans_lt (by decide)
  show utf16 (toString (n : Int)) = (jsonNumber n).text
  rw [text_jsonNumber, utf16_ascii hascii, htext]

theorem printed_arr {js : List Json} {vs : List JsonValue} (h : List.Forall₂ Printed js vs) :
    Printed (.arr js) (jsonArray vs) := by
  have hclose : utf16 "]" = [unitOf ']'] := by decide
  have hcomma : utf16 "," = [unitOf ','] := by decide
  have helements : ∀ {js : List Json} {vs : List JsonValue} {j : Json} {v : JsonValue},
      Printed j v → List.Forall₂ Printed js vs →
        utf16 (",".intercalate (Json.stringifyElements (j :: js)) ++ "]") =
          (jsonElements v vs).text := by
    intro js vs j v hj hrest
    induction hrest generalizing j v with
    | nil =>
      rw [Json.stringifyElements, Json.stringifyElements, String.intercalate_singleton, utf16_append,
        hj, hclose]
      rfl
    | cons hnext _ ih =>
      have hih := ih hnext
      rw [Json.stringifyElements] at hih
      rw [Json.stringifyElements, Json.stringifyElements, String.intercalate_cons_cons,
        String.append_assoc, String.append_assoc, utf16_append, utf16_append, hj, hcomma, hih]
      rfl
  cases h with
  | nil => exact (by decide : utf16 ("[" ++ "" ++ "]") = [unitOf '[', unitOf ']'])
  | cons hj hrest =>
    have hopen : utf16 "[" = [unitOf '['] := by decide
    show utf16 ("[" ++ ",".intercalate (Json.stringifyElements _) ++ "]") = _
    rw [String.append_assoc, utf16_append, helements hj hrest, hopen]
    rfl

theorem printed_obj {members : JsonObject} {fields : List (String × JsonValue)}
    (h : PrintedMembers members fields) : Printed (.obj members) (jsonObject fields) := by
  have hclose : utf16 "\x7d" = [unitOf '\x7d'] := by decide
  have hcomma : utf16 "," = [unitOf ','] := by decide
  have hcolon : utf16 ":" = [unitOf ':'] := by decide
  have hmembers : ∀ {members : JsonObject} {fields : List (String × JsonValue)}
      {m : String × Json} {f : String × JsonValue}, m.1 = f.1 ∧ Printed m.2 f.2 →
        PrintedMembers members fields →
          utf16 (",".intercalate (Json.stringifyMembers (m :: members)) ++ "\x7d") =
            (jsonMembers f fields).text := by
    intro members fields m f hm hrest
    induction hrest generalizing m f with
    | nil =>
      rw [Json.stringifyMembers, Json.stringifyMembers, String.intercalate_singleton,
        String.append_assoc, String.append_assoc, utf16_append, utf16_append, utf16_append, hm.2,
        hclose, hcolon, utf16_quote, hm.1]
      rfl
    | cons hnext _ ih =>
      have hih := ih hnext
      rw [Json.stringifyMembers] at hih
      rw [Json.stringifyMembers, Json.stringifyMembers, String.intercalate_cons_cons]
      have hvalue : utf16 m.2.stringify = f.2.text := hm.2
      rw [utf16_append] at hih
      simp only [String.append_assoc] at hih
      simp only [String.append_assoc, utf16_append, hcomma, hcolon, utf16_quote, hm.1, hvalue]
      rw [hih]
      rfl
  cases h with
  | nil => exact (by decide : utf16 ("\x7b" ++ "" ++ "\x7d") = [unitOf '\x7b', unitOf '\x7d'])
  | cons hm hrest =>
    have hopen : utf16 "\x7b" = [unitOf '\x7b'] := by decide
    show utf16 ("\x7b" ++ ",".intercalate (Json.stringifyMembers _) ++ "\x7d") = _
    rw [String.append_assoc, utf16_append, hmembers hm hrest, hopen]
    rfl

theorem printedMembers_append {a b : JsonObject} {fa fb : List (String × JsonValue)}
    (ha : PrintedMembers a fa) (hb : PrintedMembers b fb) :
    PrintedMembers (a ++ b) (fa ++ fb) :=
  List.rel_append ha hb

theorem printedMembers_optional {α : Type} {name : String} {write : α → Json}
    {value : α → JsonValue} {o : Option α} (h : ∀ a ∈ o, Printed (write a) (value a)) :
    PrintedMembers (optionalMember name write o) (optionalField name value o) := by
  cases o with
  | none => exact List.Forall₂.nil
  | some a => exact List.Forall₂.cons ⟨rfl, h a rfl⟩ List.Forall₂.nil

end Printed

/-! ## Names -/

theorem wellFormedUnit_eq (u : CodeUnit) :
    wellFormedText.wellFormedUnit u = (singlePoint u).toChar := by
  unfold wellFormedText.wellFormedUnit singlePoint
  split
  · rfl
  · rfl

/-- The text that is kept of a name. -/
theorem wellFormedText_eq (us : Units) : String.ofList (wellFormedText us) = toText us := by
  have hchars : ∀ us : Units, wellFormedText us = (codePoints us).map CodePoint.toChar := by
    intro us
    induction us using codePoints.induct with
    | case1 => rfl
    | case2 u => exact congrArg (fun c => [c]) (wellFormedUnit_eq u)
    | case3 u v rest hpair ih =>
      rw [codePoints, if_pos hpair, wellFormedText, if_pos hpair, ih]
      rfl
    | case4 u v rest hpair ih =>
      rw [codePoints, if_neg hpair, wellFormedText, if_neg hpair, ih, wellFormedUnit_eq]
      rfl
  rw [hchars, toText]

theorem printed_name {us : Units} (h : IsText us) :
    Printed (.str (String.ofList (wellFormedText us))) (jsonString us) := by
  have htext := printed_str (toText us)
  rw [wellFormedText_eq]
  rwa [textValue, utf16_toText h] at htext

/-! ## The facts -/

theorem printed_module {module : ModuleFact} (h : ∀ name ∈ module.name, IsText name) :
    Printed (.obj (serializeModule module)) (jsonObject (moduleFields module)) := by
  refine printed_obj (printedMembers_append (printedMembers_append (printedMembers_append
    (printedMembers_optional fun name hname => printed_name (h name hname)) ?_)
    (printedMembers_optional fun name _ => printed_str name))
    (printedMembers_optional fun id _ => printed_str id))
  exact .cons ⟨rfl, printed_str _⟩ (.cons ⟨rfl, printed_number _⟩
    (.cons ⟨rfl, printed_number _⟩ .nil))

theorem printed_modules {modules : List ModuleFact}
    (h : ∀ module ∈ modules, ∀ name ∈ module.name, IsText name) :
    Printed (.arr (modules.map fun m => .obj (serializeModule m))) (modulesValue modules) := by
  refine printed_arr ?_
  induction modules with
  | nil => exact .nil
  | cons module rest ih =>
    exact .cons (printed_module (h module List.mem_cons_self))
      (ih fun m hm => h m (List.mem_cons_of_mem module hm))

/-- **The ledger keeps the text of the facts**, when the names of the modules are texts. -/
theorem stringify_serializeFacts {facts : MinidumpFacts}
    (h : ∀ modules ∈ facts.modules, ∀ module ∈ modules, ∀ name ∈ module.name, IsText name) :
    utf16 (Json.obj (serializeFacts facts)).stringify = stringifyFacts facts := by
  refine printed_obj (printedMembers_append (printedMembers_append (printedMembers_append
    (printedMembers_append ?_ (printedMembers_optional fun name _ => printed_str name))
    (printedMembers_optional fun code _ => printed_str (toString code)))
    (printedMembers_optional fun address _ => printed_str (toString address)))
    (printedMembers_optional fun modules hmodules => printed_modules (h modules hmodules)))
  exact .cons ⟨rfl, printed_str _⟩ (.cons ⟨rfl, printed_str _⟩ (.cons ⟨rfl, printed_number _⟩
    (.cons ⟨rfl, printed_bool _⟩ (.cons ⟨rfl, printed_bool _⟩ .nil))))

end DumpLedger
