import Std.Time
import StarQpu.Demo.RoundTrip

/-!
# StarQpu.Main

**The demonstration program.** It reads the files that its arguments name, runs and prints.
-/

namespace StarQpu.Demo

/-- How the program is called. -/
def usage : String :=
  "Insert and remove MOVE gates for a resonator architecture\n\n" ++
    "Usage: demo-move-transpile [OPTIONS]\n\n" ++
    "Options:\n" ++
    "  -c, --circuit <CIRCUIT>                Circuit JSON file\n" ++
    "  -a, --architecture <ARCHITECTURE>      Dynamic quantum architecture JSON file\n" ++
    "  -n, --qubits <QUBITS>                  Number of qubits of the samples [default: 4]\n" ++
    "      --existing-moves <EXISTING_MOVES>  keep, trust or remove\n" ++
    "      --json                             Print the transpiled circuit as JSON\n" ++
    "  -v, --verbose                          Verbose logging\n" ++
    "  -h, --help                             Print help\n"

/-- The contents of a file that is named. -/
def readNamed (path : Option String) : IO (List (String × String)) :=
  match path with
  | none => pure []
  | some path => do
    try
      let text ← IO.FS.readFile path
      pure [(path, text)]
    catch _ => pure []

/-- The current time of the day and date, in universal time. -/
def currentTime : IO String := do
  let now ← Std.Time.Timestamp.now
  let date := Std.Time.DateTime.ofTimestamp now Std.Time.TimeZone.ZoneRules.UTC
  pure (date.format "uuuu-MM-dd'T'HH:mm:ss.SSSSSS'Z'")

/-- Runs the program with its options. -/
def execute (o : CommandLine.Options) : IO UInt32 := do
  let files := (← readNamed o.architecture) ++ (← readNamed o.circuit)
  let style : LogStyle := ⟨some (defaultThreshold o.verbose), ← currentTime⟩
  let outcome := run (fun path => files.lookup path) style o
  IO.print outcome.printed
  match outcome.failure with
  | some message => IO.eprintln (failureText message)
  | none => pure ()
  pure (UInt32.ofNat outcome.code)

end StarQpu.Demo

open StarQpu in
/-- The program; the exit code 2 stands for arguments that are wrong. -/
def main (args : List String) : IO UInt32 :=
  match CommandLine.parse args with
  | .ok o => Demo.execute o
  | .error .help => do
    IO.print Demo.usage
    pure 0
  | .error .misuse => do
    IO.eprint Demo.usage
    pure 2
