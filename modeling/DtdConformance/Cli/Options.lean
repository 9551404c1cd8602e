import DtdConformance.Log
import DtdConformance.Settings.Executor
import DtdConformance.Text.Integer
import DtdConformance.Text.Quoted

/-! # Command lines

The words of a command line are options, values of options and operands. A long option may be
shortened as long as one option fits, and its value may follow an equals sign. After a separator
all words are operands. The operands are a file of declarations and at least one document. They
are taken as they come, so operands that stand together are taken at once.
-/
namespace DtdConformance.Cli
set_option autoImplicit false

inductive Switch where
  | help
  | json
  | logLevel
  | workers
  | executor
  | settings
  | stats
  | version
  deriving Repr, DecidableEq

namespace Switch

def spellings : List (String × Switch) :=
  [("-h", help), ("--help", help), ("--json", json), ("--log-level", logLevel),
    ("--workers", workers), ("--executor", executor), ("--settings", settings),
    ("--stats", stats), ("--version", version)]

def shown (switch : Switch) : String :=
  "/".intercalate ((spellings.filter fun entry => entry.2 = switch).map Prod.fst)

def takesValue : Switch → Bool
  | logLevel | workers | executor | settings => true
  | help | json | stats | version => false

end Switch

inductive UsageFault where
  | ambiguous (word : String) (candidates : List String)
  | ignoredValue (switch : Switch) (value : String)
  | noValue (switch : Switch)
  | invalidNumber (switch : Switch) (value : String)
  | invalidChoice (switch : Switch) (value : String) (choices : List String)
  | missing (operands : List String)
  | unrecognized (words : List String)
  deriving Repr, DecidableEq

def UsageFault.message : UsageFault → String
  | ambiguous word candidates =>
    let listed := ", ".intercalate candidates
    s!"ambiguous option: {word} could match {listed}"
  | ignoredValue switch value =>
    s!"argument {switch.shown}: ignored explicit argument {Text.quoted value}"
  | noValue switch => s!"argument {switch.shown}: expected one argument"
  | invalidNumber switch value =>
    s!"argument {switch.shown}: invalid int value: {Text.quoted value}"
  | invalidChoice switch value choices =>
    let listed := ", ".intercalate (choices.map Text.quoted)
    s!"argument {switch.shown}: invalid choice: {Text.quoted value} (choose from {listed})"
  | missing operands =>
    let listed := ", ".intercalate operands
    s!"the following arguments are required: {listed}"
  | unrecognized words =>
    let listed := " ".intercalate words
    s!"unrecognized arguments: {listed}"

inductive Word where
  | operand (text : String)
  | separator
  | switch (switch : Switch) (spelling : String) (value? : Option String)
  /-- A short option with more letters after it. -/
  | cluster (first : Switch) (spelling : String) (letters : List Char)
  | unknown (text : String)
  deriving Repr, DecidableEq

def separatorText : String := "--"

/-- A hyphen and digits, with a point among them or without one. -/
def isNegativeNumber (cs : List Char) : Bool :=
  match cs with
  | '-' :: rest =>
    match rest.dropWhile Text.isDigit with
    | [] => !rest.isEmpty
    | '.' :: places => !places.isEmpty && places.all Text.isDigit
    | _ => false
  | _ => false

/-- The parts of a word before and after its first equals sign. -/
def splitValue (word : String) : String × Option String :=
  let cs := word.toList
  let name := String.ofList (cs.takeWhile (fun c => c != '='))
  match cs.dropWhile (fun c => c != '=') with
  | [] => (name, none)
  | _ :: value => (name, some (String.ofList value))

def candidates (word : String) : List (String × Word) :=
  let cs := word.toList
  if cs.take 2 = separatorText.toList then
    let (name, value?) := splitValue word
    (Switch.spellings.filter fun entry => entry.1.startsWith name).map fun entry =>
      (entry.1, .switch entry.2 entry.1 value?)
  else
    Switch.spellings.filterMap fun entry =>
      if entry.1.toList = cs.take 2 then some (entry.1, .cluster entry.2 entry.1 (cs.drop 2))
      else if entry.1.startsWith word then some (entry.1, .switch entry.2 entry.1 none)
      else none

def classifyWord (word : String) : Except UsageFault Word :=
  let cs := word.toList
  if cs.head? ≠ some '-' then .ok (.operand word)
  else
    match Switch.spellings.lookup word with
    | some switch => .ok (.switch switch word none)
    | none =>
      if cs.length = 1 then .ok (.operand word)
      else
        let (name, value?) := splitValue word
        match value?, Switch.spellings.lookup name with
        | some value, some switch => .ok (.switch switch name (some value))
        | _, _ =>
          match candidates word with
          | [(_, meaning)] => .ok meaning
          | [] =>
            if isNegativeNumber cs || cs.contains ' ' then .ok (.operand word)
            else .ok (.unknown word)
          | several => .error (.ambiguous word (several.map fun candidate => candidate.1))

def classify : List String → Except UsageFault (List Word)
  | [] => .ok []
  | word :: words =>
    if word = separatorText then .ok (.separator :: words.map .operand)
    else do
      let word ← classifyWord word
      let words ← classify words
      return word :: words

structure Options where
  declarations : String
  documents : List String
  json : Bool
  stats : Bool
  logLevel : Option String
  workers : Option Int
  executor : Option String
  settings : Option String
  deriving Repr, DecidableEq

/-- What has been read of a command line. The words that are of no use stand in reverse. -/
structure Progress where
  declarations : Option String := none
  documents : Option (List String) := none
  json : Bool := false
  stats : Bool := false
  logLevel : Option String := none
  workers : Option Int := none
  executor : Option String := none
  settings : Option String := none
  unused : List String := []
  deriving Repr, DecidableEq

inductive Notice where
  | help
  | version
  | refused (fault : UsageFault)
  deriving Repr, DecidableEq

namespace Word

def isOperand : Word → Bool
  | operand _ => true
  | _ => false

def isPositional : Word → Bool
  | operand _ | separator => true
  | _ => false

def text : Word → String
  | operand text => text
  | separator => separatorText
  | switch _ spelling _ => spelling
  | cluster _ spelling letters => spelling ++ String.ofList letters
  | unknown text => text

/-- The texts of words that are taken together. One separator among them is no operand. -/
def operands (words : List Word) : List String := (words.map text).erase separatorText

end Word

namespace Progress

def leave (progress : Progress) (words : List Word) : Progress :=
  { progress with unused := (words.map Word.text).reverse ++ progress.unused }

/-- Takes words that stand together, which are operands apart from a separator. A single operand is
the file of declarations if there is none yet. -/
def takeRun (progress : Progress) (run : List Word) : Progress :=
  let before := run.takeWhile fun word => !word.isOperand
  match run.dropWhile fun word => !word.isOperand with
  | [] => progress.leave run
  | first :: after =>
    match progress.declarations, progress.documents with
    | none, _ =>
      let progress := { progress with declarations := some first.text }
      if after.any Word.isOperand then
        { progress with
          documents := some (Word.operands (after.dropWhile fun word => !word.isOperand)) }
      else progress
    | some _, none => { progress with documents := some (Word.operands (before ++ first :: after)) }
    | some _, some _ => progress.leave run

def choose (switch : Switch) (value : String) (choices : List String) : Except Notice String :=
  if choices.contains value then .ok value
  else .error (.refused (.invalidChoice switch value choices))

def takeValue (progress : Progress) (switch : Switch) (value : String) :
    Except Notice Progress := do
  match switch with
  | .logLevel =>
    let level ← choose switch value (Log.Level.all.map Log.Level.name)
    return { progress with logLevel := some level }
  | .executor =>
    let executor ← choose switch value (Executor.all.map Executor.name)
    return { progress with executor := some executor }
  | .settings => return { progress with settings := some value }
  | .workers =>
    match Text.integer? value.toList with
    | some n => return { progress with workers := some n }
    | none => throw (.refused (.invalidNumber switch value))
  | _ => return progress

def takeFlag (progress : Progress) (switch : Switch) : Except Notice Progress :=
  match switch with
  | .help => .error .help
  | .version => .error .version
  | .json => .ok { progress with json := true }
  | .stats => .ok { progress with stats := true }
  | _ => .ok progress

/-- What the letters after a short option ask for. The only short option asks for help, which a
letter that is no option does not prevent. -/
def takeCluster (switch : Switch) : List Char → Notice
  | [] => .help
  | letter :: letters =>
    if letter = '-' then .refused (.ignoredValue switch (String.ofList (letter :: letters)))
    else
      match Switch.spellings.lookup (String.ofList ['-', letter]) with
      | none => .help
      | some next =>
        match letters with
        | '=' :: value => .refused (.ignoredValue next (String.ofList value))
        | _ => takeCluster next letters

def finish (progress : Progress) : Except Notice Options :=
  match progress.declarations, progress.documents with
  | none, _ => .error (.refused (.missing ["dtd", "xml"]))
  | some _, none => .error (.refused (.missing ["xml"]))
  | some declarations, some documents =>
    if progress.unused.isEmpty then
      .ok ⟨declarations, documents, progress.json, progress.stats, progress.logLevel,
        progress.workers, progress.executor, progress.settings⟩
    else .error (.refused (.unrecognized progress.unused.reverse))

def read (progress : Progress) (words : List Word) : Except Notice Options :=
  let run := words.takeWhile Word.isPositional
  let progress := if run.isEmpty then progress else progress.takeRun run
  match _hRest : words.dropWhile Word.isPositional with
  | [] => progress.finish
  | .switch switch _ value? :: rest =>
    match switch.takesValue, value? with
    | true, some value => do
      let progress ← progress.takeValue switch value
      progress.read rest
    | true, none =>
      match rest with
      | .operand value :: rest => do
        let progress ← progress.takeValue switch value
        progress.read rest
      | _ => .error (.refused (.noValue switch))
    | false, some value => .error (.refused (.ignoredValue switch value))
    | false, none => do
      let progress ← progress.takeFlag switch
      progress.read rest
  | .cluster first _ letters :: _ => .error (takeCluster first letters)
  | word :: rest => (progress.leave [word]).read rest
termination_by words.length
decreasing_by
  all_goals
    have hLess := (List.dropWhile_sublist (p := Word.isPositional) (l := words)).length_le
    simp only [_hRest, List.length_cons] at hLess
    omega

end Progress

def Options.ofWords (words : List String) : Except Notice Options :=
  match classify words with
  | .error fault => .error (.refused fault)
  | .ok words => Progress.read {} words

end DtdConformance.Cli
