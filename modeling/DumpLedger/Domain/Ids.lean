import DumpLedger.Domain.Text

/-!
# Branded identifiers

An identifier is `<kind>_<body>` with a 26 character Crockford base32 body; customers
also have the canonical UUID form, with and without the prefix. `Identifier` and
`CustomerId` keep the check as a field, so what `parseIdentifier` returned is an
identifier wherever it goes.

Identifiers are ordered by their text: `ORDER BY dump_id` and `Array.prototype.sort`
agree on it, as the text is ASCII.
-/

namespace DumpLedger

open Lib

/-! ## `<kind>_<body>` -/

/-- `[0-9A-HJKMNP-TV-Z]`: the digits and the capitals without I, L, O and U. -/
def isIdentifierChar (c : Char) : Bool :=
  (decide ('0' ≤ c) && decide (c ≤ '9')) ||
    (decide ('A' ≤ c) && decide (c ≤ 'Z') && !(['I', 'L', 'O', 'U'].contains c))

/-- `IdentifierBody`. -/
def isIdentifierBody (body : List Char) : Bool :=
  decide (body.length = 26) && body.all isIdentifierChar

def isIdentifier (kind value : String) : Bool :=
  (kind ++ "_").toList.isPrefixOf value.toList &&
    isIdentifierBody (value.toList.drop (kind.toList.length + 1))

structure Identifier (kind : String) where
  text : String
  valid : isIdentifier kind text = true
  deriving DecidableEq

namespace Identifier

theorem ext {kind : String} {a b : Identifier kind} (h : a.text = b.text) : a = b := by
  cases a; cases b; cases h; rfl

theorem text_injective {kind : String} : Function.Injective (@text kind) :=
  fun _ _ => ext

instance (kind : String) : LinearOrder (Identifier kind) := LinearOrder.lift' text text_injective

instance instLawfulBEq (kind : String) : LawfulBEq (Identifier kind) := inferInstance

end Identifier

abbrev CaseId := Identifier "case"
abbrev GrantId := Identifier "grant"
abbrev DumpId := Identifier "dump"
abbrev AuditEventId := Identifier "audit"
abbrev SymbolArtifactId := Identifier "symbol"
abbrev AnalysisId := Identifier "analysis"

def parseIdentifier (value kind label : String) : Except Thrown (Identifier kind) :=
  if h : isIdentifier kind value = true then .ok ⟨value, h⟩
  else .error (.typeError s!"invalid {label} identifier")

theorem parseIdentifier_eq_ok {value kind label : String} {a : Identifier kind} :
    parseIdentifier value kind label = .ok a ↔ a.text = value := by
  unfold parseIdentifier
  split
  · next h =>
    simp only [Except.ok.injEq]
    exact ⟨fun he => he ▸ rfl, fun he => Identifier.ext he.symm⟩
  · next h =>
    refine ⟨(nomatch ·), fun he => absurd a.valid ?_⟩
    rwa [he]

@[simp] theorem parseIdentifier_text {kind label : String} (a : Identifier kind) :
    parseIdentifier a.text kind label = .ok a :=
  parseIdentifier_eq_ok.mpr rfl

def parseCaseId (value : String) : Except Thrown CaseId := parseIdentifier value "case" "case"

def parseGrantId (value : String) : Except Thrown GrantId := parseIdentifier value "grant" "grant"

def parseDumpId (value : String) : Except Thrown DumpId := parseIdentifier value "dump" "dump"

def parseAuditEventId (value : String) : Except Thrown AuditEventId :=
  parseIdentifier value "audit" "audit event"

def parseSymbolArtifactId (value : String) : Except Thrown SymbolArtifactId :=
  parseIdentifier value "symbol" "symbol artifact"

/-! ## Customers -/

/-- `CustomerUuidBody`: `8-4-4-4-12` lowercase hexadecimal digits. -/
def isCustomerUuidBody (body : List Char) : Bool :=
  decide (body.length = 36) &&
    body.zipIdx.all fun (c, i) =>
      if [8, 13, 18, 23].contains i then decide (c = '-') else isLowerHex c

def isCustomerId (value : String) : Bool :=
  isCustomerUuidBody value.toList ||
    ("customer_".toList.isPrefixOf value.toList &&
      (isIdentifierBody (value.toList.drop 9) || isCustomerUuidBody (value.toList.drop 9)))

structure CustomerId where
  text : String
  valid : isCustomerId text = true
  deriving DecidableEq

namespace CustomerId

theorem ext {a b : CustomerId} (h : a.text = b.text) : a = b := by
  cases a; cases b; cases h; rfl

theorem text_injective : Function.Injective CustomerId.text := fun _ _ => ext

instance : LinearOrder CustomerId := LinearOrder.lift' text text_injective

end CustomerId

def parseCustomerId (value : String) : Except Thrown CustomerId :=
  if h : isCustomerId value = true then .ok ⟨value, h⟩
  else .error (.typeError "invalid customer identifier")

theorem parseCustomerId_eq_ok {value : String} {a : CustomerId} :
    parseCustomerId value = .ok a ↔ a.text = value := by
  unfold parseCustomerId
  split
  · next h =>
    simp only [Except.ok.injEq]
    exact ⟨fun he => he ▸ rfl, fun he => CustomerId.ext he.symm⟩
  · next h =>
    refine ⟨(nomatch ·), fun he => absurd a.valid ?_⟩
    rwa [he]

@[simp] theorem parseCustomerId_text (a : CustomerId) : parseCustomerId a.text = .ok a :=
  parseCustomerId_eq_ok.mpr rfl

end DumpLedger
