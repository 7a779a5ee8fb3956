import SqlWeave.Number.Digits

/-!
# Complaints about option values

When a group of options is checked, every field whose value is refused yields one
complaint: the place of the value, a code for the kind of complaint, and a text.
-/

namespace SqlWeave

open Number

/-- Why an option value is refused. -/
inductive Refusal
  | boolType
  | boolParsing
  | intType
  | intParsing
  | intParsingSize
  | intFromFloat
  | finiteNumber
  | floatType
  | floatParsing
  | stringType
  | stringUnicode
  | atLeast (bound : Int)
  | missing
  | unknownField
  | keyType
  | modelType (model : String)
  | recordType
  deriving DecidableEq, Repr

namespace Refusal

/-- The code of a refusal. -/
def code : Refusal → String
  | boolType => "bool_type"
  | boolParsing => "bool_parsing"
  | intType => "int_type"
  | intParsing => "int_parsing"
  | intParsingSize => "int_parsing_size"
  | intFromFloat => "int_from_float"
  | finiteNumber => "finite_number"
  | floatType => "float_type"
  | floatParsing => "float_parsing"
  | stringType => "string_type"
  | stringUnicode => "string_unicode"
  | atLeast _ => "greater_than_equal"
  | missing => "missing"
  | unknownField => "extra_forbidden"
  | keyType => "invalid_key"
  | modelType _ => "model_type"
  | recordType => "dict_type"

/-- The text of a refusal. -/
def message : Refusal → String
  | boolType => "Input should be a valid boolean"
  | boolParsing => "Input should be a valid boolean, unable to interpret input"
  | intType => "Input should be a valid integer"
  | intParsing => "Input should be a valid integer, unable to parse string as an integer"
  | intParsingSize =>
    "Unable to parse input string as an integer, exceeded maximum size"
  | intFromFloat => "Input should be a valid integer, got a number with a fractional part"
  | finiteNumber => "Input should be a finite number"
  | floatType => "Input should be a valid number"
  | floatParsing => "Input should be a valid number, unable to parse string as a number"
  | stringType => "Input should be a valid string"
  | stringUnicode => "Input should be a valid string, unable to parse raw data as a unicode string"
  | atLeast bound =>
    "Input should be greater than or equal to " ++ String.ofList (intText bound)
  | missing => "Field required"
  | unknownField => "Extra inputs are not permitted"
  | keyType => "Keys should be strings"
  | modelType model => "Input should be a valid dictionary or instance of " ++ model
  | recordType => "Input should be a valid dictionary"

end Refusal

/-- A refusal and the place of the refused value, outermost field first. -/
structure Complaint where
  place : List String
  refusal : Refusal
  deriving DecidableEq, Repr

end SqlWeave
