import FleetTelemetry.Number.Shortest
import FleetTelemetry.Text.Escaped

/-!
# Faults of JSON texts

Why a text is no JSON value, or why its value is not of the expected kind. Each cause is a
constructor; the wording is in one function.
-/

namespace FleetTelemetry.Json

open Text Number

inductive Kind where
  | null
  | boolean (value : Bool)
  | integer (value : Int)
  | real (value : Float)
  | string (value : String)
  | sequence
  | map

/-- Numbers in messages: whole ones keep their point, and large or tiny ones get an exponent. -/
def messageNumber : ShortestFormat :=
  { pointZero := true, positionalOrders := some (-5, 16) }

def codeText (s : String) : String :=
  "`" ++ s ++ "`"

def integerText (n : Int) : String :=
  if n < 0 then "-" ++ decimalString n.natAbs else decimalString n.natAbs

def Kind.text : Kind → String
  | .null => "null"
  | .boolean true => "boolean " ++ codeText "true"
  | .boolean false => "boolean " ++ codeText "false"
  | .integer value => "integer " ++ codeText (integerText value)
  | .real value => "floating point " ++ codeText (messageNumber.render value)
  | .string value => "string " ++ quoted value
  | .sequence => "sequence"
  | .map => "map"

inductive Fault where
  | endInValue
  | endInList
  | endInObject
  | endInString
  | expectedValue
  | expectedWord
  | expectedColon
  | expectedCommaOrBrace
  | expectedCommaOrBracket
  | keyNotString
  | trailingComma
  | trailingCharacters
  | invalidNumber
  | numberOutOfRange
  | invalidEscape
  | invalidCodePoint
  | loneSurrogate
  | unfinishedSurrogate
  | controlCharacter
  | nestedTooDeep
  | invalidType (found : Kind) (expected : String)
  | invalidValue (found : Kind) (expected : String)
  | duplicateField (name : String)
  | missingField (name : String)
  | unknownVariant (name : String) (expected : String)
  | invalidLength (length : Nat) (expected : String)

def Fault.message : Fault → String
  | .endInValue => "EOF while parsing a value"
  | .endInList => "EOF while parsing a list"
  | .endInObject => "EOF while parsing an object"
  | .endInString => "EOF while parsing a string"
  | .expectedValue => "expected value"
  | .expectedWord => "expected ident"
  | .expectedColon => "expected " ++ codeText ":"
  | .expectedCommaOrBrace => "expected " ++ codeText "," ++ " or " ++ codeText "\x7d"
  | .expectedCommaOrBracket => "expected " ++ codeText "," ++ " or " ++ codeText "]"
  | .keyNotString => "key must be a string"
  | .trailingComma => "trailing comma"
  | .trailingCharacters => "trailing characters"
  | .invalidNumber => "invalid number"
  | .numberOutOfRange => "number out of range"
  | .invalidEscape => "invalid escape"
  | .invalidCodePoint => "invalid unicode code point"
  | .loneSurrogate => "lone leading surrogate in hex escape"
  | .unfinishedSurrogate => "unexpected end of hex escape"
  | .controlCharacter =>
    "control character (\\u0000-\\u001F) found while parsing a string"
  | .nestedTooDeep => "recursion limit exceeded"
  | .invalidType found expected => "invalid type: " ++ found.text ++ ", expected " ++ expected
  | .invalidValue found expected => "invalid value: " ++ found.text ++ ", expected " ++ expected
  | .duplicateField name => "duplicate field " ++ codeText name
  | .missingField name => "missing field " ++ codeText name
  | .unknownVariant name expected =>
    "unknown variant " ++ codeText name ++ ", expected " ++ expected
  | .invalidLength length expected =>
    "invalid length " ++ decimalString length ++ ", expected " ++ expected

end FleetTelemetry.Json
