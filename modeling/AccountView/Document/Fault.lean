import AccountView.Decimal.Shortest
import AccountView.Text.Quoted

namespace AccountView

/-! Why a document is refused. A fault is a cause; its wording and its category are functions of it.
-/

namespace Document

inductive Place where
  | value
  | list
  | object
  | string
  deriving DecidableEq

inductive Found where
  | null
  | boolean (b : Bool)
  | integer (n : Int)
  | floating (x : Binary64)
  | string (text : List Char)
  | sequence
  | map
  deriving DecidableEq

inductive Fault where
  | ended (place : Place)
  | expectedValue
  | expectedIdent
  | invalidNumber
  | numberOutOfRange
  | trailingCharacters
  | trailingComma
  | keyNotString
  | expectedColon
  | expectedObjectCommaOrEnd
  | expectedListCommaOrEnd
  | invalidEscape
  | loneSurrogate
  | unfinishedSurrogates
  | controlCharacter
  | invalidType (found : Found) (expected : String)
  | invalidInteger (n : Int) (expected : String)
  | invalidLength (length : Nat) (expected : String)
  | missingField (name : String)
  | duplicateField (name : String)
  deriving DecidableEq

/-- Floating point numbers are named by their shortest decimal, without an exponent from 0.00001 up
to 16 digits before the point. -/
def floatLayout : DecimalLayout := ⟨-5, 15⟩

def Place.text : Place → String
  | value => "a value"
  | list => "a list"
  | object => "an object"
  | string => "a string"

def Found.text : Found → String
  | null => "null"
  | boolean b => "boolean `" ++ toString b ++ "`"
  | integer n => "integer `" ++ toString n ++ "`"
  | floating x => "floating point `" ++ floatLayout.text x ++ "`"
  | string text => "string " ++ Text.quoted text
  | sequence => "sequence"
  | map => "map"

def Fault.message : Fault → String
  | ended place => "EOF while parsing " ++ place.text
  | expectedValue => "expected value"
  | expectedIdent => "expected ident"
  | invalidNumber => "invalid number"
  | numberOutOfRange => "number out of range"
  | trailingCharacters => "trailing characters"
  | trailingComma => "trailing comma"
  | keyNotString => "key must be a string"
  | expectedColon => "expected `:`"
  | expectedObjectCommaOrEnd => "expected `,` or `\x7d`"
  | expectedListCommaOrEnd => "expected `,` or `]`"
  | invalidEscape => "invalid escape"
  | loneSurrogate => "lone leading surrogate in hex escape"
  | unfinishedSurrogates => "unexpected end of hex escape"
  | controlCharacter => "control character (\\u0000-\\u001F) found while parsing a string"
  | invalidType found expected => "invalid type: " ++ found.text ++ ", expected " ++ expected
  | invalidInteger n expected =>
    "invalid value: integer `" ++ toString n ++ "`, expected " ++ expected
  | invalidLength length expected =>
    "invalid length " ++ toString length ++ ", expected " ++ expected
  | missingField name => "missing field `" ++ name ++ "`"
  | duplicateField name => "duplicate field `" ++ name ++ "`"

inductive Category where
  | ended
  | malformed
  | mismatched
  deriving DecidableEq

def Category.name : Category → String
  | ended => "Eof"
  | malformed => "Syntax"
  | mismatched => "Data"

def Fault.category : Fault → Category
  | ended _ => .ended
  | invalidType .. | invalidInteger .. | invalidLength .. | missingField _ | duplicateField _ =>
    .mismatched
  | _ => .malformed

end Document

end AccountView
