import Gcode.Session

/-!
# The command line

`parseArguments` reads the arguments, and `runCommand` does what they ask for: it loads the
configuration, opens the settings, greets, and runs the program file or the standard input.  No
option may be given twice, and behind `--` there are none.
-/

namespace Gcode

structure Options where
  file : Option Path
  config : Option Path
  showTrace : Bool
  logAsJson : Bool
  deriving DecidableEq, Repr

inductive Invocation where
  | run (options : Options)
  | version
  | help
  | misuse
  deriving DecidableEq, Repr

namespace Options

def initial : Options := ⟨none, none, false, false⟩

def withFile? (options : Options) (path : Path) : Option Options :=
  if options.file.isSome || path = [] then none else some { options with file := some path }

def withConfig? (options : Options) (path : Path) : Option Options :=
  if options.config.isSome || path = [] then none else some { options with config := some path }

def withTrace? (options : Options) : Option Options :=
  if options.showTrace then none else some { options with showTrace := true }

def withJsonLog? (options : Options) : Option Options :=
  if options.logAsJson then none else some { options with logAsJson := true }

end Options

def parseFiles (options : Options) : List (List Char) → Invocation
  | [] => .run options
  | argument :: arguments =>
    match options.withFile? argument with
    | some options => parseFiles options arguments
    | none => .misuse

/-- Reads arguments from left to right.  The first that asks for help or the version, or that is
wrong, decides. -/
def parseFrom (options : Options) : List (List Char) → Invocation
  | [] => .run options
  | argument :: arguments =>
    let continueWith : Option Options → Invocation
      | some options => parseFrom options arguments
      | none => .misuse
    if argument = "--".toList then parseFiles options arguments
    else if argument = "--version".toList then .version
    else if argument = "--help".toList then .help
    else if argument = "--trace".toList then continueWith options.withTrace?
    else if argument = "--log-json".toList then continueWith options.withJsonLog?
    else if argument = "--config".toList then
      match arguments with
      | [] => .misuse
      | path :: arguments =>
        if path.head? = some '-' && path.length != 1 then .misuse
        else
          match options.withConfig? path with
          | some options => parseFrom options arguments
          | none => .misuse
    else if "--config=".toList.isPrefixOf argument then
      continueWith (options.withConfig? (argument.drop "--config=".length))
    else
      match argument with
      | '-' :: 'V' :: _ => .version
      | '-' :: 'h' :: _ => .help
      | '-' :: _ :: _ => .misuse
      | _ => continueWith (options.withFile? argument)

def parseArguments (arguments : List (List Char)) : Invocation := parseFrom .initial arguments

/-! ## Running -/

def version : String := "motionkit 0.1.0"

def banner : String := version ++ " ['$' for settings]"

def defaultConfigPath (configHome : Path) : Path :=
  configHome ++ "/motionkit/config.toml".toList

/-- The configuration file of a run: the one that was asked for, or the default one if it exists. -/
def configPath? (files : FileSystem) (configHome : Option Path) (options : Options) : Option Path :=
  options.config.or ((configHome.map defaultConfigPath).filter files.contains)

def configFor (files : FileSystem) (configHome : Option Path) (options : Options) :
    Except SettingsError Config :=
  match configPath? files configHome options with
  | some path => Config.load files path
  | none => .ok .standard

def settingsFor (files : FileSystem) (config : Config) : Except SettingsError LiveSettings :=
  match config.settingsFile with
  | some path => LiveSettings.openFile files path config.machine
  | none => .ok (.unsaved config.machine files)

def sessionFor (files : FileSystem) (configHome : Option Path) (options : Options) :
    Except SettingsError Session := do
  let config ← configFor files configHome options
  let settings ← settingsFor files config
  pure (.start config settings options.showTrace)

structure CommandResult where
  exitCode : UInt8
  outputs : List Output
  files : FileSystem

def CommandResult.ofRun (session : Session) : Option Run → CommandResult
  | none => ⟨1, [.message (banner ++ "\n")], session.settings.files⟩
  | some run =>
    ⟨if run.complete then 0 else 1, .message (banner ++ "\n") :: run.outputs,
      run.session.settings.files⟩

def runCommand (arguments : List (List Char)) (files : FileSystem)
    (configHome : Option Path) (input : List UInt8) : CommandResult :=
  match parseArguments arguments with
  | .version => ⟨0, [.message (version ++ "\n")], files⟩
  | .help => ⟨0, [], files⟩
  | .misuse => ⟨2, [], files⟩
  | .run options =>
    match sessionFor files configHome options with
    | .error _ => ⟨1, [], files⟩
    | .ok session =>
      .ofRun session <|
        match options.file with
        | none => some (session.run input)
        | some path => session.runFile? path

end Gcode
