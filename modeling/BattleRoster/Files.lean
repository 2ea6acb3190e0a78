import BattleRoster.Text.Split

/-!
# Files

What the session knows of the files around it: a path leads to bytes, or the
system says why it does not.  A folder is a list of named files; a path is a
walk from name to name that starts inside the folder, or at the root.  Texts are
read as JSON by a library, which has its own words for the texts that it refuses.
-/

namespace BattleRoster

inductive FileFailure where
  | missing
  | directory
  | notDirectory
  | tooLong
  | zeroCharacter
  | notText
  | refused (reason : String)
deriving DecidableEq, Repr

def FileFailure.message : FileFailure → String
  | .missing => "No such file or directory (os error 2)"
  | .directory => "Is a directory (os error 21)"
  | .notDirectory => "Not a directory (os error 20)"
  | .tooLong => "File name too long (os error 36)"
  | .zeroCharacter => "file name contained an unexpected NUL byte"
  | .notText => "stream did not contain valid UTF-8"
  | .refused reason => reason

/-- What a text is read as. -/
inductive Document where
  | options
  | blueprints
  | record
deriving DecidableEq, Repr

/--
What is found at each path, and what the library says about a text that it refuses.
Its words are no part of the program, which prints them as they are: they may be any.
-/
structure Files where
  find : String → Except FileFailure ByteArray
  words : Document → String → String := fun _ _ => ""

namespace Files

/-- The text at a path; its bytes have to be UTF-8. -/
def readText (files : Files) (path : String) : Except FileFailure String :=
  match files.find path with
  | .error e => .error e
  | .ok bytes =>
      match String.fromUTF8? bytes with
      | some text => .ok text
      | none => .error .notText

/-- What the library says about the text at a path, if it refuses it. -/
def wordsAt (files : Files) (document : Document) (path : String) : String :=
  match files.readText path with
  | .ok text => files.words document text
  | .error _ => ""

end Files

def unreadableMessage (path : String) (why : FileFailure) : String :=
  s!"failed to read {path}: {why.message}"

/-! ## Paths -/

/-- The most bytes in a name. -/
def longestName : Nat := 255

/-- The most bytes in a path. -/
def longestPath : Nat := 4095

structure Folder where
  entries : List (String × ByteArray) := []

/-- Where a walk has come to: the folder, a directory above it, or a file. -/
inductive Folder.Place where
  | inside
  | above
  | file (bytes : ByteArray)

namespace Folder

/-- Follow one name.  No name and one point stay, two points go up, and nothing
leads on from a file; of the directories above no names are known. -/
def enter (f : Folder) (place : Place) (name : String) : Except FileFailure Place :=
  match place with
  | .file _ => .error .notDirectory
  | .above =>
      if name = "" ∨ name = "." ∨ name = ".." then .ok .above
      else if longestName < name.utf8ByteSize then .error .tooLong
      else .error .missing
  | .inside =>
      if name = "" ∨ name = "." then .ok .inside
      else if name = ".." then .ok .above
      else if longestName < name.utf8ByteSize then .error .tooLong
      else
        match f.entries.lookup name with
        | some bytes => .ok (.file bytes)
        | none => .error .missing

/-- Follow the names of a path up to the first that leads nowhere. -/
def walk (f : Folder) : Place → List String → Except FileFailure Place
  | place, [] => .ok place
  | place, name :: names =>
      match f.enter place name with
      | .error e => .error e
      | .ok place => f.walk place names

theorem walk_inside_point (f : Folder) (names : List String) :
    f.walk .inside ("." :: names) = f.walk .inside names := by
  simp [walk, enter]

/-- Where a path leads; the empty path leads nowhere, and one that starts with a
stroke starts at the root. -/
def locate (f : Folder) (path : String) : Except FileFailure Place :=
  if path.toList.contains '\x00' then .error .zeroCharacter
  else if longestPath < path.utf8ByteSize then .error .tooLong
  else
    match Text.splitOn '/' path with
    | [""] => .error .missing
    | "" :: names => f.walk .above names
    | names => f.walk .inside names

def files (f : Folder) : Files where
  find path :=
    match f.locate path with
    | .error e => .error e
    | .ok (.file bytes) => .ok bytes
    | .ok _ => .error .directory

end Folder

end BattleRoster
