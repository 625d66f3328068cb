import HunkReview.CommandLine.Run
import HunkReview.Disk
import Std.Time.DateTime.Timestamp

/-!
# The program

Commands run with the files, the standard input and the clock of this machine. Other programs are
not started from here, so a review needs its diff as a patch; nor is there a terminal to keep a
desk open on.
-/

namespace HunkReview.Main

/-- Why a file operation failed, in the words of `DiskError` where it has them. -/
def reason (e : IO.Error) : String :=
  match e with
  | .noFileOrDirectory _ _ _ => DiskError.missing.message
  | .alreadyExists _ _ _ => DiskError.occupied.message
  | .inappropriateType _ 20 _ => DiskError.notDirectory.message
  | .inappropriateType _ 21 _ => DiskError.isDirectory.message
  | e => toString e

def attempt {α : Type} (act : IO α) : IO (Except String α) := do
  match ← act.toBaseIO with
  | .ok a => return .ok a
  | .error e => return .error (reason e)

/-- All bytes of a stream, after those already read. -/
partial def restOf (stream : IO.FS.Stream) (bytes : ByteArray) : IO ByteArray := do
  let more ← stream.read 65536
  if more.isEmpty then return bytes else restOf stream (bytes ++ more)

def textOf (bytes : IO ByteArray) : IO (Except String String) := do
  match ← attempt bytes with
  | .error reason => return .error reason
  | .ok bytes => return (Text.decodeStrict? bytes).elim (.error DiskError.notText.message) .ok

/-- A directory is there too, though it cannot be read. -/
def isThere (path : String) : IO Bool := do
  match ← attempt (IO.FS.readBinFile path) with
  | .ok _ => return true
  | .error reason => return reason == DiskError.isDirectory.message

def now : IO Instant := do
  let nanos := (← Std.Time.Timestamp.now).toNanosecondsSinceUnixEpoch.val
  return ⟨nanos.fdiv 1000000000, .ofNat (nanos.fmod 1000000000).toNat⟩

def host : IO (CommandLine.Host IO) := do
  let home ← IO.getEnv "HOME"
  let directory ← IO.currentDir
  let isTerminal ← (← IO.getStdout).isTty
  return {
    run := fun _ => return .notStarted DiskError.missing.message
    fileText := fun path => textOf (IO.FS.readBinFile path)
    inputText := do textOf (restOf (← IO.getStdin) .empty)
    home := home.getD "."
    directory := directory.toString
    isTerminal
    exists? := isThere
    makeDirectories := fun path =>
      if path.isEmpty then return .ok () else attempt (IO.FS.createDirAll path)
    writeFile := fun path text => attempt (IO.FS.writeFile path text)
    now }

def report (ending : CommandLine.Ending) : IO UInt32 := do
  match ending with
  | .done (.printed text) => IO.print text
  | .done (.opened _) =>
    IO.eprintln "Error: no terminal to review on"
    return 1
  | .failed e => IO.eprintln ("Error: " ++ e.message)
  | .misused e => IO.eprintln ("error: " ++ e.message)
  return ending.exitCode.toUInt32

end HunkReview.Main

def main (args : List String) : IO UInt32 := do
  HunkReview.Main.report (← HunkReview.CommandLine.program (← HunkReview.Main.host) args)
