import Rulebook.Error
import Rulebook.Text.Quoted
set_option autoImplicit false

/-!
The messages of failures.
-/

namespace Rulebook

def LexError.message : LexError → Text
  | .unexpectedCharacter c offset =>
    "unexpected character '".toList ++ c :: "' at offset ".toList ++ Text.ofNat offset
  | .unterminatedString offset =>
    "unterminated string literal starting at offset ".toList ++ Text.ofNat offset

def Expected.text : Expected → Text
  | .expression => "expression".toList
  | .connectiveOrEnd => "AND, OR or end of input".toList
  | .endOfComparison => "end of comparison".toList
  | .rightParen => "')'".toList
  | .operand => "attribute name, NOT or '('".toList
  | .attributeName => "attribute name".toList
  | .comparator => "comparison operator".toList
  | .literal => "literal value".toList
  | .finiteNumber => "finite number literal".toList
  | .number => "number literal".toList
  | .lessNesting => "at most ".toList ++ Text.ofNat Rule.maxNesting ++ " levels of nesting".toList
  | .lessDepth => "a rule tree at most ".toList ++ Text.ofNat Rule.maxDepth ++ " levels deep".toList

def ParseError.message (e : ParseError) : Text :=
  "expected ".toList ++ e.expected.text ++ " at offset ".toList ++ Text.ofNat e.offset ++
    match e.found with
    | some t => ", found '".toList ++ t ++ ['\'']
    | none => ", found end of input".toList

def SyntaxError.message : SyntaxError → Text
  | .lex e => e.message
  | .parse e => e.message

def CombineError.message : CombineError → Text
  | .emptyInput => "cannot combine an empty set of rules".toList
  | .unsupportedOperator word =>
    "unsupported combine operator '".toList ++ word ++ "', expected AND or OR".toList
  | .tooDeep depth =>
    "combined tree would be ".toList ++ Text.ofNat depth ++ " levels deep, the limit is ".toList ++
      Text.ofNat Rule.maxDepth

def EvalError.message : EvalError → Text
  | .missingAttribute name =>
    "attribute '".toList ++ name ++ "' is missing from the data record".toList
  | .typeMismatch name c actual literal =>
    "cannot compare ".toList ++ actual.name ++ " value of '".toList ++ name ++ "' with ".toList ++
      literal.name ++ " literal using '".toList ++ c.symbol ++ ['\'']
  | .unknownOperator operator => "unknown operator '".toList ++ operator ++ ['\'']

def TreeFault.message : TreeFault → Text
  | .tooDeep => "tree deeper than ".toList ++ Text.ofNat Rule.maxDepth ++ " levels".toList
  | .operandWithChildren value => "operand '".toList ++ value ++ "' cannot have children".toList
  | .joinWithoutBoth op => op.word ++ " requires both left and right children".toList
  | .denialWithoutOne => "NOT requires exactly one child under left".toList
  | .nestedTooDeeply => "tree is nested too deeply".toList
  | .notMapping => "tree nodes must be dicts".toList
  | .missingType => "node is missing 'type'".toList
  | .unknownType word => "unknown node type '".toList ++ word ++ ['\'']
  | .missingValue => "node is missing 'value'".toList

def NameFault.message : NameFault → Text
  | .shape name =>
    "rule name must be 1-".toList ++ Text.ofNat Name.maxLength ++
      " characters of letters, digits, '_', '-', '.' or space: ".toList ++ name.inQuotes
  | .allDigits name => "rule name must not be all digits: ".toList ++ name.inQuotes

def RequestFault.message : RequestFault → Text
  | .incompleteRule => "ruleName and ruleString are required".toList
  | .missingOperator => "op is required".toList
  | .name f => f.message

def invalidRequestLead : Text := "Invalid request: ".toList

def SettingsFault.message : SettingsFault → Text
  | .noLetters => "combined_name_length must be at least 1".toList
  | .tooLong length =>
    "combined rule names would be ".toList ++ Text.ofNat length ++ " characters, limit is ".toList ++
      Text.ofNat Name.maxLength
  | .affix f => "invalid combined_name_prefix: ".toList ++ invalidRequestLead ++ f.message

def Error.message : Error → Text
  | .reading e => "Error parsing rule string: ".toList ++ e.message
  | .combining e => "Error combining rules: ".toList ++ e.message
  | .evaluating e => "Error evaluating rule: ".toList ++ e.message
  | .malformedTree f => "Malformed tree: ".toList ++ f.message
  | .ruleNotFound reference => "Rule not found: ".toList ++ reference
  | .duplicateName name => "A rule with the name \"".toList ++ name ++ "\" already exists".toList
  | .invalidRequest f => invalidRequestLead ++ f.message
  | .invalidSettings f => "Invalid configuration: ".toList ++ f.message

def FlattenPolicy.Unknown.message (u : FlattenPolicy.Unknown) : Text :=
  "unknown flatten policy '".toList ++ u.word ++ ['\'']

end Rulebook
