import VeLens.Text.Integer
import VeLens.Text.Quoted

/-!
# Faults

What can keep a question from being answered. Each fault is a cause, and its wording is given here.

## Main definitions

* `FileCause`: why a path could not be followed, listed or read.
* `Issue`: one thing that is wrong with a configuration.
* `Need`: what a value is needed for.
* `Fault`: any cause, and `Fault.message`, its wording.
-/

namespace VeLens

open Text

/-- Why a path could not be followed, listed or read. -/
inductive FileCause where
  | missing
  | notFolder
  | isFolder
  | nameTooLong
  | tooManyLinks
deriving DecidableEq

namespace FileCause

/-- The number by which operating systems know a cause. -/
def number : FileCause → Nat
  | missing => 2
  | notFolder => 20
  | isFolder => 21
  | nameTooLong => 36
  | tooManyLinks => 40

/-- The wording of a cause. -/
def message : FileCause → String
  | missing => "No such file or directory"
  | notFolder => "Not a directory"
  | isFolder => "Is a directory"
  | nameTooLong => "File name too long"
  | tooManyLinks => "Too many levels of symbolic links"

end FileCause

/-- A step into a configuration: a key or the place of an item in a list. -/
inductive Step where
  | key (name : String)
  | item (index : Nat)
deriving DecidableEq

/-- What is wrong with a value in a configuration. -/
inductive IssueKind where
  | notText
  | notList
  | notBoolean
  | unclearBoolean
  | badSuffix (value : String)
  | unknownKey
deriving DecidableEq

namespace IssueKind

/-- The short name of an issue. -/
def word : IssueKind → String
  | notText => "string_type"
  | notList => "list_type"
  | notBoolean => "bool_type"
  | unclearBoolean => "bool_parsing"
  | badSuffix _ => "value_error"
  | unknownKey => "extra_forbidden"

/-- The wording of an issue. -/
def message : IssueKind → String
  | notText => "Input should be a valid string"
  | notList => "Input should be a valid list"
  | notBoolean => "Input should be a valid boolean"
  | unclearBoolean => "Input should be a valid boolean, unable to interpret input"
  | badSuffix value =>
    "Value error, Invalid source_suffix '" ++ value ++ "': expected an extension like '.ve'"
  | unknownKey => "Extra inputs are not permitted"

end IssueKind

/-- One thing that is wrong with a configuration, and where. -/
structure Issue where
  place : List Step
  kind : IssueKind
deriving DecidableEq

/-- Why a configuration is refused. -/
inductive ConfigFault where
  /-- The file does not follow the format. -/
  | malformed
  /-- The suffix is not a text, which is found before anything else. -/
  | suffixNotText
  /-- Some values are not what they should be. -/
  | issues (list : List Issue)
deriving DecidableEq

/-- The wording of a refusal. -/
def ConfigFault.message : ConfigFault → String
  | malformed => "Invalid TOML"
  | suffixNotText | issues _ => "Invalid config"

/-- What a value is needed for. -/
inductive Need where
  | path
  | level
  /-- The line whose end is the cursor. -/
  | line
  /-- The line or the column of a cursor that has both. -/
  | cursor
deriving DecidableEq

/-- The wording when a value is needed and there is none. -/
def Need.message : Need → String
  | path => "expected str, bytes or os.PathLike object, not list"
  | level => "'list' object has no attribute 'upper'"
  | line => "'<=' not supported between instances of 'int' and 'list'"
  | cursor => "Input should be a valid integer"

/-- What can keep a question from being answered. -/
inductive Fault where
  /-- The file system refuses a path. -/
  | file (cause : FileCause) (path : String)
  /-- A path holds a null character. -/
  | nullInPath
  /-- The content of a file is no text. -/
  | notText (fault : Utf8.Fault)
  /-- A rule of an ignore file ends where a character is expected. -/
  | shortRule
  /-- A rule of an ignore file has a bracket expression without meaning. -/
  | brokenRule
  /-- The home folder of a user is not known. -/
  | unknownHome
  /-- Links lead round in a circle. -/
  | linkLoop (path : String)
  /-- Links, folders or values are nested too deep. -/
  | tooDeep
  /-- A whole number has too many digits. -/
  | longNumber (digits : Nat)
  /-- A setting was made without a value, and the value is needed. -/
  | noValue (need : Need)
  /-- The configuration is refused. -/
  | config (fault : ConfigFault)
deriving DecidableEq

namespace Fault

/-- The wording of a fault. -/
def message : Fault → String
  | file cause path =>
    "[Errno " ++ toString cause.number ++ "] " ++ cause.message ++ ": " ++ quoted path
  | nullInPath => "embedded null byte"
  | notText fault => fault.message
  | shortRule => "string index out of range"
  | brokenRule => "bad character range"
  | unknownHome => "Could not determine home directory."
  | linkLoop path => "Symlink loop from " ++ quoted path
  | tooDeep => "maximum recursion depth exceeded"
  | longNumber digits =>
    "Exceeds the limit (" ++ toString digitLimit ++ " digits) for integer string conversion: " ++
      "value has " ++ toString digits ++
      " digits; use sys.set_int_max_str_digits() to increase the limit"
  | noValue need => need.message
  | config fault => fault.message

/-- The fault for which a question has no answer. -/
def of? {α : Type} : Except Fault α → Option Fault
  | .error fault => some fault
  | .ok _ => none

/-- The fault lies in a value that is not of the form it should have. -/
def isValue : Fault → Bool
  | nullInPath | notText _ | longNumber _ | noValue .cursor => true
  | _ => false

/-- The fault lies in the file system or in the bytes of a file, and the caller may go on without
the file. -/
def isUnreadable : Fault → Bool
  | file .. | notText _ => true
  | _ => false

end Fault

end VeLens
