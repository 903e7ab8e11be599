import Medley.Diagnostic.Code
import Medley.Text.Quoted

/-!
What can go wrong outside the forgiving part of the engine: a helper refuses its arguments,
a number or an encoding cannot be read, a template cannot be found or loaded. `kind` is the
word for the class of a fault and `message` its text, as they stand in diagnostics.
-/
namespace Medley

inductive Fault where
  | notOrdered (left right : String)
  | momentAgainstDay
  | zonedAgainstUnzoned
  | notNumber (shown : String)
  | notNumeric (kind : String)
  | nanNotWhole
  | infinityNotWhole
  | nanNotRounded
  | roundedTooLong
  | placeTooHigh
  | integerTooLarge
  | missingPlaces
  | malformedInteger (shown : String)
  | longInteger (digits : Nat)
  | unwritableInteger
  | missingArguments (function : String) (names : List String)
  | surplusArguments (function : String) (least most given : Nat)
  | unhashable (kind : String)
  | unfitKey (kind : String)
  | notJoinable (kind : String)
  | notCallable (shown kind : String)
  | noSuchKey (shown : String)
  | noEntries (kind : String)
  | invalidJson (detail : String)
  | notJsonObject (path : String)
  | undecodable (text : String)
  | unencodable (text : String)
  | missingByteOrderMark
  | unknownEncoding (name : String)
  | emptyPathName (path : String)
  | badPathName (shown : String)
  | badPattern
  | operatingSystem (number : Nat) (text filename : String)
  | notContext (method : String) (given : Nat)
  | sourceText
  | invalidSink (kind : String)
  | environmentGone (template : String)
  | tooFewIterations
  | tooDeep
  | invalidName (shown type : String)
  -- raised by a function of the host program
  | host (kind message : String)
  | templateError (message : String)
  | notFound (message : String)
  | loadFailed (message : String) (name filename cause : Option String)
  | misuse (message : String) (template suggestion : Option String) (text : String)
  -- A render problem under its code
  | diagnostic (code : Code) (message : String)
  deriving DecidableEq, Repr

namespace Fault

def kind : Fault → String
  | notOrdered .. | momentAgainstDay | zonedAgainstUnzoned | notNumeric _ | missingArguments .. |
    surplusArguments .. | unhashable _ | unfitKey _ | notJoinable _ | notCallable .. |
    notContext .. | sourceText | invalidSink _ => "TypeError"
  | notNumber _ | nanNotWhole | nanNotRounded | missingPlaces | malformedInteger _ |
    longInteger _ | unwritableInteger | notJsonObject _ | emptyPathName _ | badPathName _ |
    badPattern | tooFewIterations | invalidName .. =>
      "ValueError"
  | infinityNotWhole | integerTooLarge => "OverflowError"
  | roundedTooLong => "InvalidOperation"
  | placeTooHigh => "Overflow"
  | noSuchKey _ => "KeyError"
  | noEntries _ => "AttributeError"
  | invalidJson _ => "JSONDecodeError"
  | undecodable _ => "UnicodeDecodeError"
  | unencodable _ => "UnicodeEncodeError"
  | missingByteOrderMark => "UnicodeError"
  | unknownEncoding _ => "LookupError"
  | operatingSystem .. => "OSError"
  | environmentGone _ => "RuntimeError"
  | tooDeep => "RecursionError"
  | host kind _ => kind
  | templateError _ => "TemplateError"
  | notFound _ => "TemplateNotFoundError"
  | loadFailed .. => "TemplateLoadError"
  | misuse .. => "TemplateRuntimeError"
  | diagnostic .. => "RenderDiagnostic"

def quoteName (s : String) : String := "'" ++ s ++ "'"

/- Names in a row: the last two are joined by "and", with a comma before it from three on. -/
def joinNames : List String → String
  | [] => ""
  | [a] => a
  | [a, b] => a ++ " and " ++ b
  | names => String.intercalate ", " names.dropLast ++ ", and " ++ names.getLast?.getD ""

def plural (n : Nat) : String := if n = 1 then "" else "s"

def was (n : Nat) : String := if n = 1 then "was" else "were"

def message : Fault → String
  | notOrdered left right =>
      s!"'<' not supported between instances of {quoteName left} and {quoteName right}"
  | momentAgainstDay => "can't compare datetime.datetime to datetime.date"
  | zonedAgainstUnzoned => "can't compare offset-naive and offset-aware datetimes"
  | notNumber shown => s!"could not convert string to float: {shown}"
  | notNumeric kind =>
      s!"float() argument must be a string or a real number, not {quoteName kind}"
  | nanNotWhole => "cannot convert float NaN to integer"
  | infinityNotWhole => "cannot convert float infinity to integer"
  | nanNotRounded => "cannot convert NaN to integer"
  | roundedTooLong => "[<class 'decimal.InvalidOperation'>]"
  | placeTooHigh => "[<class 'decimal.Overflow'>]"
  | integerTooLarge => "int too large to convert to float"
  | missingPlaces => "Format specifier missing precision"
  | malformedInteger shown => s!"invalid literal for int() with base 10: {shown}"
  | longInteger digits =>
      s!"Exceeds the limit (4300 digits) for integer string conversion: value has {digits} " ++
        "digits; use sys.set_int_max_str_digits() to increase the limit"
  | unwritableInteger =>
      "Exceeds the limit (4300 digits) for integer string conversion; " ++
        "use sys.set_int_max_str_digits() to increase the limit"
  | missingArguments function names =>
      s!"{function}() missing {names.length} required positional argument" ++
        s!"{plural names.length}: {joinNames (names.map quoteName)}"
  | surplusArguments function least most given =>
      let range := if least = most then s!"{most}" else s!"from {least} to {most}"
      let ending := if least = most then plural most else "s"
      s!"{function}() takes {range} positional argument{ending} but {given} " ++
        s!"{was given} given"
  | unhashable kind => s!"unhashable type: {quoteName kind}"
  | unfitKey kind => s!"keys must be str, int, float, bool or None, not {kind}"
  | notJoinable kind => s!"can only concatenate str (not \"{kind}\") to str"
  | notCallable shown kind => s!"{shown} must be callable, got {kind}"
  | noSuchKey shown => shown
  | noEntries kind => s!"{quoteName kind} object has no attribute 'items'"
  | invalidJson detail => detail
  | notJsonObject path => s!"Translation file {path} must contain a JSON object"
  | undecodable text => text
  | unencodable text => text
  | missingByteOrderMark => "UTF-16 stream does not start with BOM"
  | unknownEncoding name => s!"unknown encoding: {name}"
  | emptyPathName path => s!"PosixPath({path}) has an empty name"
  | badPathName shown => s!"Invalid name {shown}"
  | badPattern => "Invalid pattern: '**' can only be an entire path component"
  | operatingSystem number text filename =>
      s!"[Errno {number}] {text}: {String.ofList (Text.quoted filename.toList)}"
  | notContext method given =>
      s!"{method}() takes at most 1 positional argument (a dict), got {given}"
  | sourceText => "render() takes a ParseResult or nodes; use from_string() for source text"
  | invalidSink kind => s!"Sink must have a write() method or be callable, got {kind}"
  | environmentGone template =>
      s!"Environment has been garbage collected (template: {template})"
  | tooFewIterations => "iterations must be at least 1"
  | tooDeep => "maximum recursion depth exceeded"
  | invalidName shown type => s!"{shown} is not a valid {type}"
  | host _ message => message
  | templateError message => message
  | notFound message => message
  | loadFailed message .. => message
  | misuse _ _ _ text => text
  | diagnostic code message => code.text ++ ": " ++ message

def ofTemplate : Fault → Bool
  | templateError _ | notFound _ | loadFailed .. | misuse .. | diagnostic .. => true
  | _ => false

def code? : Fault → Option Code
  | notFound _ => some .templateNotFound
  | loadFailed .. => some .loadError
  | misuse .. => some .runtimeError
  | diagnostic code _ => some code
  | _ => none

end Fault
end Medley
