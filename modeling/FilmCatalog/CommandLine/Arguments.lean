/-
  FilmCatalog.CommandLine.Arguments
  ─────────────────────────────────
  **THE ARGUMENTS OF A COMMAND.**

      scan   [--config FILE] [--db DIR] [--videos DIR] [--store]
      merge  OLD NEW [--prefer-title] [--prefer-details] [--referrer URL]
             [--image-dir DIR] [--db DIR] [--output FILE | -o FILE]

  The value of an option follows it, as the next argument or after an equals
  sign; only in the latter form may it start with a dash.  No option may
  stand twice, and after two dashes there are no more options.  Files and
  directories have a name.

  Arguments are read from left to right up to the first that is wrong or asks
  for help, so help counts only if all before it is right.
-/
import FilmCatalog.Address.Parse
import FilmCatalog.Merge.Basic

namespace FilmCatalog.CommandLine

/-! ## §1. Options. -/

/-- Why there is no command. -/
inductive Refusal where
  /-- Help was asked for. -/
  | help
  /-- The arguments are wrong. -/
  | usage
  deriving DecidableEq, Repr

/-- What the value of an option is. -/
inductive ValueKind where
  /-- A file or directory, by its name. -/
  | path
  | address
  | text
  deriving DecidableEq, Repr

/-- Whether a value is one of its kind. -/
def ValueKind.accepts : ValueKind → String → Bool
  | .path, value => value ≠ ""
  | .address, value => (Address.parse? value).isSome
  | .text, _ => true

/-- An option of a command. -/
structure OptionSpec where
  name : String
  /-- A letter that stands for the name after a single dash. -/
  letter : Option Char
  /-- The kind of value that follows, if one does. -/
  value : Option ValueKind
  deriving DecidableEq, Repr

/-- An option without a value. -/
def flag (name : String) : OptionSpec := ⟨name, none, none⟩

/-- An option with a value. -/
def valued (name : String) (kind : ValueKind) : OptionSpec := ⟨name, none, some kind⟩

/-- What a command takes. -/
structure CommandSpec where
  options : List OptionSpec
  /-- The number of paths that may stand beside the options. -/
  operands : Nat
  deriving DecidableEq, Repr

/-- The options that were given, and the other arguments. -/
structure Given where
  options : List (String × String)
  operands : List String
  deriving DecidableEq, Repr

namespace Given

/-- Nothing given. -/
def empty : Given := ⟨[], []⟩

/-- Adds an option, which must not be there yet. -/
def addOption (given : Given) (name value : String) : Except Refusal Given :=
  if given.options.any fun option => option.1 = name then .error .usage
  else .ok { given with options := given.options ++ [(name, value)] }

/-- Adds operands, each a path, of which there may be `limit`. -/
def addOperands (limit : Nat) (given : Given) : List String → Except Refusal Given
  | [] => .ok given
  | operand :: rest =>
      if given.operands.length < limit ∧ ValueKind.path.accepts operand then
        addOperands limit { given with operands := given.operands ++ [operand] } rest
      else .error .usage

/-- The value of an option. -/
def value? (given : Given) (name : String) : Option String := Entries.get? name given.options

/-- Whether an option is there. -/
def has (given : Given) (name : String) : Bool := (given.value? name).isSome

end Given

/-! ## §2. Reading options. -/

/-- What kind of argument a text is. -/
inductive Argument where
  /-- The end of the options. -/
  | separator
  /-- An option by name, perhaps with a value attached. -/
  | long (name : String) (value : Option String)
  /-- An option by letter, perhaps with a value attached. -/
  | short (letter : Char) (value : Option String)
  | operand (text : String)
  deriving DecidableEq, Repr

/-- A value attached to a letter; an equals sign may stand before it. -/
def attached : List Char → Option String
  | [] => none
  | '=' :: value => some (String.ofList value)
  | value => some (String.ofList value)

/-- Sorts an argument. -/
def Argument.ofText (text : String) : Argument :=
  match text.toList with
  | ['-', '-'] => .separator
  | '-' :: '-' :: body =>
      match Text.splitFirst '=' body with
      | some (name, value) => .long (String.ofList name) (some (String.ofList value))
      | none => .long (String.ofList body) none
  | '-' :: letter :: rest => .short letter (attached rest)
  | _ => .operand text

/-- Whether an argument asks for help; nothing is attached to its name. -/
def Argument.asksHelp : Argument → Bool
  | .long name value => name = "help" && value.isNone
  | .short letter _ => letter = 'h'
  | _ => false

/-- The value that follows an option: the one attached to it or the next
argument, with the arguments left. -/
def takeValue (value : Option String) (rest : List String) :
    Except Refusal (String × List String) :=
  match value, rest with
  | some value, rest => .ok (value, rest)
  | none, next :: rest =>
      match Argument.ofText next with
      | .operand text => .ok (text, rest)
      | _ => .error .usage
  | none, [] => .error .usage

theorem length_takeValue {value : Option String} {rest left : List String} {text : String}
    (h : takeValue value rest = .ok (text, left)) : left.length ≤ rest.length := by
  unfold takeValue at h
  split at h
  · cases h; exact Nat.le_refl _
  · split at h
    · cases h; simp
    · cases h
  · cases h

/-- Adds an option; what is left of the arguments. -/
def takeOption (given : Given) (spec : OptionSpec) (value : Option String) (rest : List String) :
    Except Refusal (Given × { left : List String // left.length ≤ rest.length }) :=
  match spec.value with
  | some kind =>
      match h : takeValue value rest with
      | .error refusal => .error refusal
      | .ok (text, left) =>
          if kind.accepts text then
            (given.addOption spec.name text).map fun given => (given, ⟨left, length_takeValue h⟩)
          else .error .usage
  | none =>
      match value with
      | some _ => .error .usage
      | none => (given.addOption spec.name "").map fun given => (given, ⟨rest, Nat.le_refl _⟩)

/-- The option that fits a condition. -/
def findOption (options : List OptionSpec) (fits : OptionSpec → Bool) :
    Except Refusal OptionSpec :=
  match options.find? fits with
  | some option => .ok option
  | none => .error .usage

/-- Reads one argument, with the value that follows it. -/
def readArgument (spec : CommandSpec) (given : Given) (argument : Argument) (rest : List String) :
    Except Refusal (Given × { left : List String // left.length ≤ rest.length }) :=
  if argument.asksHelp then .error .help
  else
    match argument with
    | .separator =>
        (given.addOperands spec.operands rest).map fun given => (given, ⟨[], Nat.zero_le _⟩)
    | .operand text =>
        (given.addOperands spec.operands [text]).map fun given =>
          (given, ⟨rest, Nat.le_refl _⟩)
    | .long name value =>
        (findOption spec.options fun option => option.name = name).bind fun option =>
          takeOption given option value rest
    | .short letter value =>
        (findOption spec.options fun option => option.letter = some letter).bind fun option =>
          takeOption given option value rest

/-- Reads arguments one after the other. -/
def readArguments (spec : CommandSpec) (given : Given) : List String → Except Refusal Given
  | [] => .ok given
  | argument :: rest =>
      match readArgument spec given (Argument.ofText argument) rest with
      | .error refusal => .error refusal
      | .ok (given, ⟨left, _⟩) => readArguments spec given left
termination_by arguments => arguments.length

/-! ## §3. Commands. -/

/-- What a scan looks at. -/
structure ScanOptions where
  /-- A settings file, which counts before the directories. -/
  config : Option String
  db : Option String
  videos : Option String
  /-- Whether repaired records are written back. -/
  store : Bool
  deriving DecidableEq, Repr

/-- What is merged, and how. -/
structure MergeOptions where
  old : String
  new : String
  preferences : Preferences
  /-- The page that incoming addresses are relative to. -/
  referrer : Option Address
  /-- Where incoming images are to be kept. -/
  imageDirectory : Option String
  db : Option String
  /-- Where the merged record goes. -/
  output : Option String

/-- A command. -/
inductive Command where
  | scan (options : ScanOptions)
  | merge (options : MergeOptions)

/-- What a scan takes. -/
def scanSpec : CommandSpec where
  options := [valued "config" .path, valued "db" .path, valued "videos" .path, flag "store"]
  operands := 0

/-- What a merge takes. -/
def mergeSpec : CommandSpec where
  options :=
    [ flag "prefer-title", flag "prefer-details", valued "referrer" .address,
      valued "image-dir" .text, valued "db" .path, ⟨"output", some 'o', some .path⟩ ]
  operands := 2

/-- Reads the arguments of a scan. -/
def ScanOptions.read (arguments : List String) : Except Refusal ScanOptions := do
  let given ← readArguments scanSpec .empty arguments
  return {
    config := given.value? "config"
    db := given.value? "db"
    videos := given.value? "videos"
    store := given.has "store" }

/-- The preference that a flag stands for. -/
def preferenceOf (theirs : Bool) : Preference := if theirs then .theirs else .mine

/-- Reads the arguments of a merge. -/
def MergeOptions.read (arguments : List String) : Except Refusal MergeOptions := do
  let given ← readArguments mergeSpec .empty arguments
  match given.operands with
  | [old, new] =>
      return {
        old, new
        preferences :=
          ⟨preferenceOf (given.has "prefer-title"), preferenceOf (given.has "prefer-details")⟩
        referrer := (given.value? "referrer").bind Address.parse?
        imageDirectory := given.value? "image-dir"
        db := given.value? "db"
        output := given.value? "output" }
  | _ => throw .usage

/-- Reads a command and its arguments. -/
def Command.read : List String → Except Refusal Command
  | "scan" :: arguments => (ScanOptions.read arguments).map .scan
  | "merge" :: arguments => (MergeOptions.read arguments).map .merge
  | [ "help" ] => .error .help
  | [ "help", command ] =>
      .error (if ["scan", "merge", "help"].contains command then .help else .usage)
  | argument :: _ => .error (if (Argument.ofText argument).asksHelp then .help else .usage)
  | [] => .error .usage

end FilmCatalog.CommandLine
