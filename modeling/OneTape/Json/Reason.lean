import OneTape.Decimal
import OneTape.Text.Quoted

namespace OneTape.Json

inductive Found where
  | integer (value : Int)
  | double (value : Float)
  | boolean (value : Bool)
  | string (value : String)
  | null
  | sequence
  | map
  | unitVariant

inductive Reason where
  | endInValue
  | endInList
  | endInObject
  | endInString
  | noValue
  | brokenWord
  | trailingCharacters
  | trailingComma
  | keyNotString
  | noColon
  | noCommaOrBrace
  | noCommaOrBracket
  | controlCharacter
  | badEscape
  | unpairedSurrogate
  | misplacedSurrogate
  | badNumber
  | numberTooLarge
  | wrongKind (found : Found) (wanted : String)
  | wrongValue (found : Found) (wanted : String)
  | duplicateField (name : String)
  | missingField (name : String)
  | unknownVariant (name : String) (known : List String)
  | tooShort (elements : Nat) (record : String) (fields : Nat)

def Found.text : Found → String
  | integer value => "integer `" ++ toString value ++ "`"
  | double value => "floating point `" ++ Decimal.doubleText value ++ "`"
  | boolean value => "boolean `" ++ toString value ++ "`"
  | string value => "string " ++ Text.quote value
  | null => "null"
  | sequence => "sequence"
  | map => "map"
  | unitVariant => "unit variant"

def alternatives (names : List String) : String :=
  match names.map fun name ↦ "`" ++ name ++ "`" with
  | [first, second] => first ++ " or " ++ second
  | names => "one of " ++ String.intercalate ", " names

def Reason.text : Reason → String
  | endInValue => "EOF while parsing a value"
  | endInList => "EOF while parsing a list"
  | endInObject => "EOF while parsing an object"
  | endInString => "EOF while parsing a string"
  | noValue => "expected value"
  | brokenWord => "expected ident"
  | trailingCharacters => "trailing characters"
  | trailingComma => "trailing comma"
  | keyNotString => "key must be a string"
  | noColon => "expected `:`"
  | noCommaOrBrace => "expected `,` or `\x7d`"
  | noCommaOrBracket => "expected `,` or `]`"
  | controlCharacter => "control character (\\u0000-\\u001F) found while parsing a string"
  | badEscape => "invalid escape"
  | unpairedSurrogate => "unexpected end of hex escape"
  | misplacedSurrogate => "lone leading surrogate in hex escape"
  | badNumber => "invalid number"
  | numberTooLarge => "number out of range"
  | wrongKind found wanted => "invalid type: " ++ found.text ++ ", expected " ++ wanted
  | wrongValue found wanted => "invalid value: " ++ found.text ++ ", expected " ++ wanted
  | duplicateField name => "duplicate field `" ++ name ++ "`"
  | missingField name => "missing field `" ++ name ++ "`"
  | unknownVariant name known =>
    "unknown variant `" ++ name ++ "`, expected " ++ alternatives known
  | tooShort elements record fields =>
    "invalid length " ++ toString elements ++ ", expected struct " ++ record ++ " with "
      ++ toString fields ++ if fields = 1 then " element" else " elements"

end OneTape.Json
