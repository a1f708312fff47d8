/-!
# Command-line options

Options have a long name and perhaps a short one, and take one value: the next
argument, or what follows an equals sign, or what follows the short name at once.
Besides them there are flags for help and for the version.  An option may be given
once, and there are no other arguments.  A value is examined when the next option
begins or the arguments end, so that of two mistakes the one found first counts.
-/

namespace RemoteCalc.Console

inductive UsageFault where
  | invalidValue
  | valueValidation
  | unknownArgument
  | argumentConflict
  | tooManyValues
  | displayHelp
  | displayVersion
  deriving DecidableEq, Repr

def UsageFault.exitCode : UsageFault → Nat
  | displayHelp => 0
  | displayVersion => 0
  | _ => 2

structure Setting where
  long : String
  short : Option Char
  check : String → Except UsageFault Unit

inductive Named where
  | setting (setting : Setting)
  | help
  | version

namespace Setting

def byLong? (settings : List Setting) (name : String) : Option Named :=
  if name = "help" then some .help
  else if name = "version" then some .version
  else (settings.find? fun setting => setting.long = name).map .setting

def byShort? (settings : List Setting) (letter : Char) : Option Named :=
  if letter = 'h' then some .help
  else if letter = 'V' then some .version
  else (settings.find? fun setting => setting.short = some letter).map .setting

end Setting

structure Scan where
  found : List (String × String)
  pending : Option (Setting × Option String)

namespace Scan

def record (scan : Scan) (setting : Setting) (value : String) :
    Except UsageFault Scan :=
  if scan.found.any fun item => item.1 = setting.long then .error .argumentConflict
  else
    (setting.check value).map fun _ =>
      { scan with found := scan.found ++ [(setting.long, value)] }

def resolve (scan : Scan) : Except UsageFault Scan :=
  match scan.pending with
  | none => .ok scan
  | some (_, none) => .error .invalidValue
  | some (setting, some value) => { scan with pending := none }.record setting value

def meet (scan : Scan) (attached : Option String) : Named → Except UsageFault Scan
  | .setting setting => do
      let scan ← scan.resolve
      match attached with
      | some value => scan.record setting value
      | none => return { scan with pending := some (setting, none) }
  | .help => do
      if attached.isSome then throw .tooManyValues
      let _ ← scan.resolve
      throw .displayHelp
  | .version => do
      if attached.isSome then throw .tooManyValues
      let _ ← scan.resolve
      throw .displayVersion

def splitLong (text : List Char) : String × Option String :=
  (String.ofList (text.takeWhile (· ≠ '=')),
    match text.dropWhile (· ≠ '=') with
    | [] => none
    | _ :: value => some (String.ofList value))

def attachedToShort : List Char → Option String
  | [] => none
  | '=' :: value => some (String.ofList value)
  | value => some (String.ofList value)

/-- An argument that is no option is the value of one that still lacks it. -/
def value (scan : Scan) (text : String) : Except UsageFault Scan :=
  match scan.pending with
  | some (setting, none) => .ok { scan with pending := some (setting, some text) }
  | _ => .error .unknownArgument

def argument (settings : List Setting) (scan : Scan) (text : String) :
    Except UsageFault Scan :=
  match text.toList with
  | '-' :: '-' :: name =>
      let (long, attached) := splitLong name
      match Setting.byLong? settings long with
      | some named => scan.meet attached named
      | none => .error .unknownArgument
  | '-' :: letter :: rest =>
      match Setting.byShort? settings letter with
      | some (.setting setting) => scan.meet (attachedToShort rest) (.setting setting)
      | some flag => scan.meet none flag
      | none => .error .unknownArgument
  | _ => scan.value text

/-- All arguments.  After a bare `--` nothing more may come. -/
def arguments (settings : List Setting) (scan : Scan) :
    List String → Except UsageFault Scan
  | [] => scan.resolve
  | "--" :: [] => scan.resolve
  | "--" :: _ :: _ => .error .unknownArgument
  | text :: rest => do
      let scan ← scan.argument settings text
      scan.arguments settings rest

end Scan

def readOptions (settings : List Setting) (args : List String) :
    Except UsageFault (List (String × String)) :=
  (Scan.arguments settings ⟨[], none⟩ args).map Scan.found

def valueOf (found : List (String × String)) (long : String) : Option String :=
  (found.find? fun item => item.1 = long).map Prod.snd

def checkBy {α : Type} (read? : String → Option α) (fault : UsageFault)
    (value : String) : Except UsageFault Unit :=
  match read? value with
  | some _ => .ok ()
  | none => .error fault

end RemoteCalc.Console
