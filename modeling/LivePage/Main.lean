import LivePage.Config.Basic
import LivePage.Console.ServerCommand
import LivePage.Json.Reader

/-!
Contract: the program.

Owns:
- the arguments and the environment of the program;
- taking in the files below the web root;
- carrying out the commands on standard input, one on each line.

Does not own: any decision about a server, and how clients are reached.
-/

namespace LivePage

/-- One line about an option. -/
def ServerOption.help (option : ServerOption) : String :=
  "  --" ++ option.name ++ " <VALUE>  " ++ option.purpose ++ " [env: " ++ option.variableName ++ "]"

/-- What is shown to one who asks for help. -/
def helpText : String :=
  Text.joinWith "\n" ("Page server (pages over WebSocket)" :: "" :: "Options:" ::
    ServerOption.all.map ServerOption.help)

def versionText : String := "page server 0.1.0"

/-- Takes in the files below a directory, to a bounded depth. -/
def loadBelow : Nat → String → FileSystem → IO FileSystem
  | 0, _, files => pure files
  | depth + 1, directory, files => do
      let place ← IO.FS.realPath directory
      let mut loaded := files.put (FileSystem.plainPath place.toString) .directory
      for item in ← place.readDir do
        if ← item.path.isDir then
          loaded ← loadBelow depth item.path.toString loaded
        else
          let content ← IO.FS.readBinFile item.path
          loaded := loaded.write item.path.toString content.toList
      return loaded

/-- How deep directories below the web root may nest. -/
def directoryDepth : Nat := 64

/-- A text that no page has for its id yet. -/
def randomId : IO String := do
  let mut digits := ""
  for _ in [0:32] do
    digits := digits.push (Text.hexDigit (← IO.rand 0 15))
  return digits

/-- The values of the environment variables that are set. -/
def givenVariables : IO (List (String × String)) := do
  let mut found := []
  for option in ServerOption.all do
    if let some value ← IO.getEnv option.variableName then
      found := found ++ [(option.variableName, value)]
  return found

/-- The answer to a line and the next state. -/
def answerLine (console : Console.ServerConsole) (line : String) (freshId : String) :
    Console.ServerConsole × Json :=
  match Json.read (Text.encodeUtf8 line) with
  | .error error => (console, Console.failure "Json" error.message)
  | .ok step =>
      let (next, result, trace) := console.commandWithJournal step freshId
      (next, Json.ofFields [("result", result), ("trace", .arr trace)])

/-- Carries out commands until the input ends. -/
partial def serveLines (input output : IO.FS.Stream) (console : Console.ServerConsole) :
    IO Unit := do
  let line ← input.getLine
  unless line.isEmpty do
    let (next, answer) := answerLine console line (← randomId)
    output.putStrLn answer.render
    output.flush
    serveLines input output next

/-- Runs a server with a configuration. -/
def runServer (config : ServerConfig) : IO UInt32 := do
  let root ← IO.FS.realPath config.webRoot
  let files ← loadBelow directoryDepth root.toString .empty
  match Server.open? files root.toString config.limits config.pageTtl config.precompile with
  | none =>
      IO.eprintln ("web root " ++ config.webRoot ++ " is not usable")
      return 1
  | some server =>
      serveLines (← IO.getStdin) (← IO.getStdout) (.new server.ready.1)
      return 0

/-- Says why the arguments do not start a server. -/
def reportUsage : UsageError → IO UInt32
  | .displayHelp => do
      IO.println helpText
      return 0
  | .displayVersion => do
      IO.println versionText
      return 0
  | error => do
      IO.eprintln ("error: " ++ error.name)
      return 2

/-- Runs the program with its arguments. -/
def runProgram (arguments : List String) : IO UInt32 := do
  match GivenOptions.read arguments (← givenVariables) with
  | .error error => reportUsage error
  | .ok given =>
      match ServerConfig.ofOptions given with
      | .ok config => runServer config
      | .error error =>
          IO.eprintln error.message
          return 1

end LivePage

def main (arguments : List String) : IO UInt32 :=
  LivePage.runProgram arguments
