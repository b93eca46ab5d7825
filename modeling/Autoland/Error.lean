/-! What can go wrong, and how it is told. -/

namespace Autoland

inductive FormulaFault where
  | surplusClose
  | unmatchedParentheses
  | emptyTerm
  | strayOperatorName (name : String)
  | unclosed
  | trailing (accepted : String)
  | separator (term : String)
  | unknownConstant (term : String)
  | neitherFieldNorConstant (term : String)
  | argumentCount (operator : String) (expected found : Nat)
  deriving DecidableEq, Repr

def FormulaFault.message : FormulaFault → String
  | .surplusClose => "unbalanced ')'"
  | .unmatchedParentheses => "mismatched number of open and closed parentheses"
  | .emptyTerm => "empty term"
  | .strayOperatorName name => "operator '" ++ name ++ "' must start with an uppercase letter"
  | .unclosed => "unclosed '('"
  | .trailing accepted => "unexpected input after '" ++ accepted ++ "'"
  | .separator term => "unexpected separator in '" ++ term ++ "'"
  | .unknownConstant term => "unknown constant '" ++ term ++ "'"
  | .neitherFieldNorConstant term =>
    "'" ++ term ++ "' is neither a lowercase field nor an uppercase constant"
  | .argumentCount operator expected found =>
    "operator '" ++ operator ++ "' takes " ++ toString expected ++ " argument(s), got " ++
      toString found

inductive LayoutFault where
  | emptyRange (field : String) (min max : Int)
  | overflow (field : String)
  deriving DecidableEq, Repr

def LayoutFault.message : LayoutFault → String
  | .emptyRange field min max =>
    "field '" ++ field ++ "' has an empty bucket range [" ++ toString min ++ ", " ++
      toString max ++ "]"
  | .overflow field => "table size overflows u64 at field '" ++ field ++ "'"

/-- Why a document does not describe a problem. Numbers are given as they are written. -/
inductive DocumentFault where
  | outsideUnit (parameter value : String)
  | stepSize (value : String)
  | duplicateField (field : String)
  | noOptions (selector : String)
  | noPrecision (field : String)
  | badPrecision (field value : String)
  | badBounds (field min max : String)
  | reversedSuccess (field : String)
  | layout (fault : LayoutFault)
  deriving DecidableEq, Repr

def DocumentFault.message : DocumentFault → String
  | .outsideUnit parameter value => parameter ++ " must be within [0, 1], got " ++ value
  | .stepSize value => "alpha must be within (0, 1], got " ++ value
  | .duplicateField field => "duplicate field '" ++ field ++ "'"
  | .noOptions selector => "selector '" ++ selector ++ "' has no options"
  | .noPrecision field => "field '" ++ field ++ "' has no precision"
  | .badPrecision field value => "field '" ++ field ++ "' has non-positive precision " ++ value
  | .badBounds field min max =>
    "field '" ++ field ++ "' has invalid bounds [" ++ min ++ ", " ++ max ++ "]"
  | .reversedSuccess field => "success bounds of '" ++ field ++ "' have min > max"
  | .layout fault => fault.message

inductive DefinitionFault where
  | noName
  | document (name : String) (fault : DocumentFault)
  | layout (fault : LayoutFault)
  | noDefinitions
  | declaredTwice (name : String)
  | cycle (through : String) (path : List String)
  | unknownMethod (text : String)
  | noCandidates (name : String)
  | unreadableToml
  deriving DecidableEq, Repr

def DefinitionFault.message : DefinitionFault → String
  | .noName => "definition without a name"
  | .document name fault => "'" ++ name ++ "': " ++ fault.message
  | .layout fault => fault.message
  | .noDefinitions => "no definitions supplied"
  | .declaredTwice name => "definition '" ++ name ++ "' declared twice"
  | .cycle through path =>
    "child definitions form a cycle through '" ++ through ++ "' (" ++
      String.intercalate " -> " path ++ ")"
  | .unknownMethod text => "unknown learning method '" ++ text ++ "'"
  | .noCandidates name => "'" ++ name ++ "' produced no candidate actions"
  | .unreadableToml => "invalid TOML definitions"

inductive ShapeFault where
  | version (expected found : Nat)
  | owner (expected found : String)
  | size (expected found : Nat)
  | valueCount (expected found : Nat)
  | index (bound found : Nat)
  deriving DecidableEq, Repr

def ShapeFault.expected : ShapeFault → String
  | .version expected _ => "format version " ++ toString expected
  | .owner expected _ => "definition '" ++ expected ++ "'"
  | .size expected _ => toString expected ++ " entries"
  | .valueCount expected _ => toString expected ++ " dense values"
  | .index expected _ => "indices below " ++ toString expected

def ShapeFault.found : ShapeFault → String
  | .version _ found => "format version " ++ toString found
  | .owner _ found => "definition '" ++ found ++ "'"
  | .size _ found => toString found ++ " entries"
  | .valueCount _ found => toString found ++ " dense values"
  | .index _ found => "index " ++ toString found

inductive Error where
  | malformedFormula (formula : String) (fault : FormulaFault)
  | definition (fault : DefinitionFault)
  | definitionMismatch (expected found : String)
  | unknownDefinition (name : String)
  | tableShape (name : String) (fault : ShapeFault)
  | indexOutOfRange (index size : Nat)
  | frozen (identity : String)
  | serialization
  | file
  deriving DecidableEq, Repr

def Error.message : Error → String
  | .malformedFormula formula fault => "Malformed formula '" ++ formula ++ "': " ++ fault.message
  | .definition fault => "Definition error: " ++ fault.message
  | .definitionMismatch expected found =>
    "Definition mismatch: expected '" ++ expected ++ "', found '" ++ found ++ "'"
  | .unknownDefinition name => "Unknown definition: " ++ name
  | .tableShape name fault =>
    "Table shape mismatch for '" ++ name ++ "': expected " ++ fault.expected ++ ", found " ++
      fault.found
  | .indexOutOfRange index size =>
    "Index " ++ toString index ++ " out of range for table of size " ++ toString size
  | .frozen identity => "Frozen: " ++ identity
  | .serialization => "Serialization error"
  | .file => "IO error"

end Autoland
