import MetricsQuery.Command.Run
import Std.Time.DateTime.Timestamp

/-!
# The program

Reads the command line, the files it names and the environment, runs the command and prints what it
leaves. No transport is linked in, so no request gets through to a backend.
-/

namespace MetricsQuery.Program

/-- Why a file cannot be read. -/
def reasonOf : IO.Error → String
  | .noFileOrDirectory .. => "No such file or directory (os error 2)"
  | .permissionDenied .. => "Permission denied (os error 13)"
  | .inappropriateType .. => "Is a directory (os error 21)"
  | e => toString e

def contentOf (path : String) : IO Settings.FileContent := do
  try
    return .ok (← IO.FS.readBinFile path).toList
  catch e => return .error (reasonOf e)

/-- The contents of files by their paths. -/
def contentsOf (paths : List String) : IO (List (String × Settings.FileContent)) :=
  paths.mapM fun path => return (path, ← contentOf path)

/-- The values of environment variables that are set. -/
def valuesOf (names : List String) : IO (List (String × String)) := do
  return (← names.mapM fun name => return (name, ← IO.getEnv name)).filterMap fun (name, value) =>
    value.map fun v => (name, v)

def now : IO Instant := do
  let nanos := (← Std.Time.Timestamp.now).toNanosecondsSinceUnixEpoch.val
  return (Instant.of? (nanos / nanosPerSecond) (nanos % nanosPerSecond).toNat).getD .epoch

/-- The files a command reads. -/
def pathsOf (connection : Connection) : Command → List String
  | .podLabels file _ => [file]
  | _ => connection.configFile.toList

/-- A log entry as a line. -/
def logLine (time : Instant) (e : LogEntry) : String :=
  time.toText ++ " " ++ "".pushn ' ' (5 - e.level.text.length) ++ e.level.text ++ " " ++ e.origin ++
    ": " ++ e.text ++ "\n"

def run (connection : Connection) (command : Command) : IO UInt32 := do
  let contents ← contentsOf (pathsOf connection command)
  let values ← valuesOf [Settings.addressVariable, Settings.offsetVariable]
  let time ← now
  let missing : Settings.FileContent := .error "No such file or directory (os error 2)"
  let e := command.run
    ⟨fun path => (contents.lookup path).getD missing, fun name => values.lookup name,
      ⟨.unreachable, time, .zero⟩⟩
    connection
  IO.print (String.join (e.log.map (logLine time)))
  IO.print e.stdout
  IO.eprint e.stderr
  return e.exitCode.toUInt32

end MetricsQuery.Program

open MetricsQuery in
def main (args : List String) : IO UInt32 := do
  match Command.ofWords args with
  | .ok (connection, command) => Program.run connection command
  | .error .version => do IO.println programVersion; return 0
  | .error .help => do IO.println programPurpose; return 0
  | .error (.fault f) => do IO.eprintln f.message; return 2
