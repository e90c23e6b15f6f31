import Concordance.Value.Display

/-!
# Faults

A fault ends the step in which it arises; a request that cannot be compiled is no fault but is
refused.

* `Receiver` — what takes values under names.
* `Fault` — the causes.
* `Fault.message` — their texts.
* `Fault.category` — the seven kinds of cause that callers tell apart.
-/

namespace Concordance

/-- What takes values under names, one of which it has taken for itself. -/
inductive Receiver where
  /-- A new logger, with what is bound to it. -/
  | logger
  /-- A logger to which more is bound. -/
  | binding
  /-- A metric, with the values of its labels. -/
  | labels
  deriving DecidableEq, Repr

namespace Receiver

def taken : Receiver → String
  | logger => "name"
  | binding | labels => "self"

/-- The receiver as error texts call it. -/
def title : Receiver → String
  | logger => "get_logger"
  | binding => "StructuredLoggerAdapter.bind"
  | labels => "_MetricWrapper.labels"

end Receiver

/-- The cause that ends a step. -/
inductive Fault where
  /-- A caller's own failure, with its text. -/
  | failure (text : String)
  /-- A rejected value, with the text of the rejection. -/
  | rejected (text : String)
  | unknownStrategy (given : Value)
  /-- A text or a row of bytes that is no whole number. -/
  | notInteger (given : Value)
  /-- A whole number with more digits than are read. -/
  | tooManyDigits (digits : Nat)
  /-- A value of a kind that holds no whole number. -/
  | noIntegerIn (kind : String)
  | wholeOfNan
  | wholeOfInfinity
  /-- A text or a row of bytes that is no number. -/
  | notNumber (given : Value)
  /-- A value of a kind that holds no number. -/
  | noNumberIn (kind : String)
  /-- A whole number beyond the doubles. -/
  | tooLarge
  /-- A value that holds no entries for a record. -/
  | notIterable (kind : String)
  /-- An entry for a record that is no pair of anything. -/
  | entryWithoutItems (index : Nat)
  /-- An entry for a record with another number of items than two. -/
  | entryOfLength (index length : Nat)
  | noKey (kind : String)
  /-- A key that is no text stands where names are needed. -/
  | noName
  /-- A value is given under the name that its receiver has taken for itself. -/
  | nameTaken (receiver : Receiver)
  | missingKey (key : Value)
  /-- A text that is no logging level was set as one. -/
  | unknownLevel (text : String)
  /-- What is neither a number nor a text was set as a logging level. -/
  | noLevel (shown : String)
  /-- A metric without label names was asked for labels. -/
  | noLabelNames (metric : String)
  /-- Labels were given to a metric that has them already. -/
  | labelledAlready (metric labels : String)
  | wrongLabels
  /-- No labels were given where some are needed. -/
  | wrongLabelCount
  /-- A labelled metric was changed without labels. -/
  | missingLabels (kind : String)
  | negativeIncrement
  /-- A metric cannot do what was asked of it. -/
  | noAbility (owner ability : String)
  | incomparable (left right : String)
  | notAddable (left right : String)
  /-- A query with contexts has no central term. -/
  | noCentralTerm
  deriving Inhabited

/-- The kinds of cause that callers tell apart. -/
inductive Fault.Category where
  | runtime
  | value
  | type
  | overflow
  | key
  | index
  | ability
  deriving DecidableEq, Repr

namespace Fault

def category : Fault → Category
  | failure _ => .runtime
  | rejected _ | unknownStrategy _ | notInteger _ | tooManyDigits _ | wholeOfNan | notNumber _
  | entryOfLength _ _ | unknownLevel _ | noLabelNames _ | labelledAlready _ _ | wrongLabels
  | wrongLabelCount | missingLabels _ | negativeIncrement => .value
  | noIntegerIn _ | noNumberIn _ | notIterable _ | entryWithoutItems _ | noKey _ | noName
  | nameTaken _ | noLevel _ | incomparable _ _ | notAddable _ _ => .type
  | wholeOfInfinity | tooLarge => .overflow
  | missingKey _ => .key
  | noCentralTerm => .index
  | noAbility _ _ => .ability

def count (n : Nat) : String :=
  Decimal.intText n

/-- The most bytes that are quoted, and the most characters of a quotation. -/
def quoteLimit : Nat := 200

/-- A value to quote: of a row of bytes only the first ones. -/
def quotable : Value → Value
  | .bytes bs => .bytes (bs.take quoteLimit)
  | v => v

def message : Fault → String
  | failure text => text
  | rejected text => text
  | unknownStrategy given => "Unknown variation strategy: " ++ given.literal
  | notInteger given =>
    "invalid literal for int() with base 10: " ++
      String.ofList ((quotable given).literalChars.take quoteLimit)
  | tooManyDigits digits =>
    "Exceeds the limit (4300 digits) for integer string conversion: value has " ++ count digits ++
      " digits; use sys.set_int_max_str_digits() to increase the limit"
  | noIntegerIn kind =>
    "int() argument must be a string, a bytes-like object or a real number, not '" ++ kind ++ "'"
  | wholeOfNan => "cannot convert float NaN to integer"
  | wholeOfInfinity => "cannot convert float infinity to integer"
  | notNumber given => "could not convert string to float: " ++ given.literal
  | noNumberIn kind => "float() argument must be a string or a real number, not '" ++ kind ++ "'"
  | tooLarge => "int too large to convert to float"
  | notIterable kind => "'" ++ kind ++ "' object is not iterable"
  | entryWithoutItems index =>
    "cannot convert dictionary update sequence element #" ++ count index ++ " to a sequence"
  | entryOfLength index length =>
    "dictionary update sequence element #" ++ count index ++ " has length " ++ count length ++
      "; 2 is required"
  | noKey kind => "unhashable type: '" ++ kind ++ "'"
  | noName => "keywords must be strings"
  | nameTaken receiver =>
    receiver.title ++ "() got multiple values for argument '" ++ receiver.taken ++ "'"
  | missingKey key => key.literal
  | unknownLevel text => "Unknown level: " ++ (Value.text text).literal
  | noLevel shown => "Level not an integer or a valid string: " ++ shown
  | noLabelNames metric => "No label names were set when constructing " ++ metric
  | labelledAlready metric labels =>
    metric ++ " already has labels set (" ++ labels ++ "); can not chain calls to .labels()"
  | wrongLabels => "Incorrect label names"
  | wrongLabelCount => "Incorrect label count"
  | missingLabels kind => kind ++ " metric is missing label values"
  | negativeIncrement => "Counters can only be incremented by non-negative amounts."
  | noAbility owner ability => "'" ++ owner ++ "' object has no attribute '" ++ ability ++ "'"
  | incomparable left right =>
    "'<' not supported between instances of '" ++ left ++ "' and '" ++ right ++ "'"
  | notAddable left right =>
    "unsupported operand type(s) for +=: '" ++ left ++ "' and '" ++ right ++ "'"
  | noCentralTerm => "tuple index out of range"

end Fault

end Concordance
