import Chip8.CommandLine.Shell

/-! The program on the command line: reads the file that the arguments name, prints the report. -/

namespace Chip8

/-- The operating system's answer under the name that the report gives it. -/
def InputError.ofSystem : IO.Error → InputError
  | .noFileOrDirectory _ code _ => .system code.toNat "NotFound" "No such file or directory"
  | .permissionDenied _ code _ => .system code.toNat "PermissionDenied" "Permission denied"
  | .inappropriateType _ code text =>
    .system code.toNat (if code = 21 then "IsADirectory" else "NotADirectory") text
  | e => .other (toString e)

/-- Reads what a file holds; an error on the way comes at its end. -/
def readAll (handle : IO.FS.Handle) : IO Reader := do
  match ← handle.readBinToEnd.toBaseIO with
  | .ok data => return { bytes := data.data }
  | .error e => return { bytes := #[], failure := some (.ofSystem e) }

def readFile (path : String) : IO (Except InputError Reader) := do
  match ← (IO.FS.Handle.mk path .read).toBaseIO with
  | .ok handle => return .ok (← readAll handle)
  | .error e => return .error (.ofSystem e)

end Chip8

def main (arguments : List String) : IO UInt32 := do
  let file ← match Chip8.CommandLine.readArguments arguments with
    | .ok o => Chip8.readFile o.program
    | .error _ => pure (.error .notText)
  let seed ← IO.getRandomBytes 4096
  let word (n : Nat) : UInt32 := (seed[n % seed.size]?.getD 0).toUInt32
  let some report := Chip8.CommandLine.answer Chip8.CommandLine.Stopwatch.pacer Chip8.CommandLine.readArguments
    arguments (fun _ => file) { word } | return 1
  let stdout ← IO.getStdout
  for line in report.stdout Chip8.CommandLine.Record.line do
    stdout.putStrLn line
  let stderr ← IO.getStderr
  stderr.putStr report.stderr
  return report.code.toUInt32
