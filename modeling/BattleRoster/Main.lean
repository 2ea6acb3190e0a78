import BattleRoster.Session.Console

/-!
# The program

Reads commands line by line from standard input and writes the responses to
each before the next is read.  JSON is read without a library here, so there are
no words for the texts that are refused.
-/

namespace BattleRoster.Console

def readPath (path : String) : IO (Except FileFailure ByteArray) := do
  try
    return .ok (← IO.FS.readBinFile path)
  catch e =>
    match e with
    | .noFileOrDirectory .. => return .error .missing
    | .inappropriateType _ code _ =>
        return .error (if code = 21 then .directory else .notDirectory)
    | .invalidArgument _ code _ =>
        return .error (if code = 22 then .zeroCharacter else .tooLong)
    | e => return .error (.refused (toString e))

/-- What the file system has at some paths; nothing else is looked for. -/
def readPaths (paths : List String) : IO Files := do
  let found ← paths.mapM fun path => return (path, ← readPath path)
  return { find := fun path => (found.lookup path).getD (.error .missing) }

def wantedPaths (line : ByteArray) : List String :=
  ((String.fromUTF8? line).bind Command.parse?).bind (·.path?) |>.toList

/-- The next line of a stream without its end, and whether the stream ended. -/
partial def readLine (input : IO.FS.Stream) (line : ByteArray := .empty) :
    IO (ByteArray × Bool) := do
  let bytes ← input.read 1
  match bytes.toList with
  | [] => return (line, true)
  | byte :: _ => if byte = 10 then return (line, false) else readLine input (line.push byte)

/-- Carry out the lines of a stream until the session is over. -/
partial def loop (input output : IO.FS.Stream) (g : Game) : IO Unit := do
  let (line, ended) ← readLine input
  let files ← readPaths (wantedPaths line)
  match turn files g line with
  | none => return
  | some (responses, g) =>
      output.putStr (Response.write responses)
      output.flush
      if ended then return else loop input output g

end BattleRoster.Console

open BattleRoster Console in
def main (arguments : List String) : IO UInt32 := do
  let files ← readPaths arguments
  match readArguments files {} arguments with
  | .error e =>
      (← IO.getStderr).putStr (e.message ++ "\n")
      return 1
  | .ok options =>
      loop (← IO.getStdin) (← IO.getStdout) { options }
      return 0
