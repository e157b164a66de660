import Gcode.CommandLine

/-!
# The program

The thin layer between `CommandLine` and the world: it reads the files that a run needs, feeds the
session with input as it arrives, prints its output, and keeps the settings file up to date.
-/

namespace Gcode

def configHome? : IO (Option Path) := do
  match (← IO.getEnv "XDG_CONFIG_HOME").map String.toList with
  | some ('/' :: path) => pure (some ('/' :: path))
  | _ => pure ((← IO.getEnv "HOME").map fun home => (home ++ "/.config").toList)

/-- Adds a real file to a file system.  One that is there but cannot be read is as good as a
directory. -/
def withRealFile (files : FileSystem) (path : Path) : IO FileSystem := do
  try
    let text ← IO.FS.readFile (String.ofList path)
    pure ((files.writeWithParents? path text).getD files)
  catch
    | .noFileOrDirectory _ _ _ => pure files
    | _ => pure ((files.makeDirectory? path).getD files)

def keepSettings (settings : LiveSettings) : IO Unit := do
  match settings.path with
  | none => pure ()
  | some path =>
    match settings.files.read? path with
    | none => pure ()
    | some text =>
      let above := (if path.isAbsolute then "/" else "") ++
        String.intercalate "/" (path.names.dropLast.map String.ofList)
      try
        if above != "" then IO.FS.createDirAll above
        IO.FS.writeFile (String.ofList path) text
      catch failure => IO.eprintln s!"cannot save settings: {failure}"

def runAndPrint (session : Session) (lines : List (List UInt8)) : IO (Session × Bool) := do
  let run := session.runLines .empty lines
  let out ← IO.getStdout
  for output in run.outputs do out.putStr output.text
  out.flush
  unless session.settings.files == run.session.settings.files do
    keepSettings run.session.settings
  pure (run.session, run.complete)

partial def feedStream (input : IO.FS.Stream) (session : Session) (pending : List UInt8) :
    IO UInt32 := do
  let piece := (← input.read (.ofNat LineReader.pieceSize)).toList
  if piece = [] && pending = [] then pure 0
  else
    let (lines, rest) := if piece = [] then ([pending], []) else cutLines (pending ++ piece)
    let (session, complete) ← runAndPrint session lines
    if complete then feedStream input session rest else pure 1

def usage : String :=
  "Usage: motionkit [OPTIONS] [FILE]\n\n" ++
  "  --config <PATH>  Configuration file\n" ++
  "  --trace          Show the requests of each line\n" ++
  "  --log-json       Write the log as JSON\n" ++
  "  -h, --help       Print help\n" ++
  "  -V, --version    Print version\n"

def failStart (error : SettingsError) : IO UInt32 := do
  IO.eprintln (error.message?.getD "cannot load a configuration or settings file")
  pure 1

def runProgram (options : Options) : IO UInt32 := do
  let configHome ← configHome?
  let candidates := options.config.or (configHome.map defaultConfigPath)
  let files ← candidates.toList.foldlM withRealFile FileSystem.empty
  match configFor files configHome options with
  | .error error => failStart error
  | .ok config =>
    let files ← config.settingsFile.toList.foldlM withRealFile files
    match settingsFor files config with
    | .error error => failStart error
    | .ok settings =>
      let session := Session.start config settings options.showTrace
      IO.println banner
      match options.file with
      | none => feedStream (← IO.getStdin) session []
      | some path =>
        try
          let handle ← IO.FS.Handle.mk (String.ofList path) .read
          feedStream (IO.FS.Stream.ofHandle handle) session []
        catch failure =>
          IO.eprintln s!"{failure}"
          pure 1

end Gcode

def main (arguments : List String) : IO UInt32 := do
  match Gcode.parseArguments (arguments.map String.toList) with
  | .version => do
    IO.println Gcode.version
    pure 0
  | .help => do
    IO.println Gcode.usage
    pure 0
  | .misuse => do
    IO.eprintln Gcode.usage
    pure 2
  | .run options => Gcode.runProgram options
