import BattleRoster.Session.Step

/-!
# The command line

The program takes the path of an options file as its only argument, reads
commands from its input and writes responses.  It ends at a `quit` command, at
the end of the input, or at a line that is not UTF-8.
-/

namespace BattleRoster.Console

/-- Why the program does not start. -/
inductive ArgumentError where
  | noPath
  | unknown (argument : String)
  | options (e : OptionsError) (words : String)
deriving DecidableEq, Repr

def ArgumentError.message : ArgumentError → String
  | .noPath => "--config requires a path"
  | .unknown argument => s!"unknown argument: {argument}"
  | .options e words => e.message words

/-- The options of the arguments; of several files the last one counts. -/
def readArguments (files : Files) (options : Options) :
    List String → Except ArgumentError Options
  | [] => .ok options
  | ["--config"] => .error .noPath
  | "--config" :: path :: rest =>
      match Options.load files path with
      | .ok options => readArguments files options rest
      | .error e => .error (.options e (files.wordsAt .options path))
  | argument :: _ => .error (.unknown argument)

/-- Carry out a line of bytes; `none` means that the session is over. -/
def turn (files : Files) (g : Game) (line : ByteArray) : Option (List Response × Game) :=
  match String.fromUTF8? line with
  | none => none
  | some text =>
      match g.stepLine files text with
      | none => some ([], g)
      | some (.ended, _) => none
      | some (reply, g) => some (reply.written, g)

def runLines (files : Files) : Game → List ByteArray → List Response
  | _, [] => []
  | g, line :: lines =>
      match turn files g line with
      | none => []
      | some (responses, g) => responses ++ runLines files g lines

structure Outcome where
  exitCode : UInt8 := 0
  output : String := ""
  complaint : String := ""
deriving DecidableEq, Repr

def inputLines (input : ByteArray) : List ByteArray :=
  (Text.pieces (· == 10) input.data.toList).map fun bytes => ⟨bytes.toArray⟩

def run (files : Files) (arguments : List String) (input : ByteArray) : Outcome :=
  match readArguments files {} arguments with
  | .error e => { exitCode := 1, complaint := e.message ++ "\n" }
  | .ok options =>
      { output := Response.write (runLines files { options } (inputLines input)) }

end BattleRoster.Console
