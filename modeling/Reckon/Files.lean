import Reckon.Text.Bytes
import Reckon.Text.Parts
import Reckon.Text.Quoted
import Reckon.Tree

/-!
# Files

A tree of files as a value: files with their contents and the directories made so far. A location
in the tree is the list of the names that lead to it; a directory exists when it was made or when
something lies in it. A path is walked name by name, so that every directory on the way has to
exist. Operations name the path in their faults as it was given to them, save that making
directories names the one that cannot be made.
-/

set_option autoImplicit false

namespace Reckon

/-- What a file holds: a text, or bytes that are none and their readable part. -/
inductive Content where
  | text (text : String)
  | undecodable (readable : String)
deriving DecidableEq

def Content.ofBytes (bytes : List Nat) : Content :=
  match Text.ofBytes? bytes with
  | some whole => .text whole
  | none => .undecodable (Text.readablePart bytes)

inductive FileFault where
  | missing (path : Text)
  | isDirectory (path : Text)
  | notDirectory (path : Text)
  | exists (path : Text)
  | tooLong (path : Text)
  | holdsNul
  /-- A path holds a half of a character that cannot stand in a path. -/
  | unencodable (path : Text)
  | undecodable
  | tooDeep
deriving DecidableEq

/-- Whether a glyph can stand in a path. Of the halves those can that stand for bytes which are no
text. -/
def Path.isEncodable : Glyph → Bool
  | .whole _ => true
  | .half part => 0xdc80 ≤ part.code && part.code ≤ 0xdcff

def Path.byteCount : Glyph → Nat
  | .whole character => character.utf8Size
  | .half _ => 1

def Path.byteSize (path : Text) : Nat :=
  path.toList.foldl (fun total glyph => total + Path.byteCount glyph) 0

/-- The wording for a path with halves: the first place where some stand that cannot stand there. -/
def unencodableMessage (path : List Glyph) : String :=
  let start := (path.takeWhile Path.isEncodable).length
  let halves := (path.drop start).takeWhile Glyph.isHalf
  let place :=
    match halves with
    | [half] =>
      "character " ++ Text.quoted ⟨[half]⟩ ++ " in position " ++ toString start
    | _ =>
      "characters in position " ++ toString start ++ "-" ++ toString (start + halves.length - 1)
  "'utf-8' codec can't encode " ++ place ++ ": surrogates not allowed"

def FileFault.message : FileFault → String
  | .missing path => "[Errno 2] No such file or directory: " ++ Text.quoted path
  | .isDirectory path => "[Errno 21] Is a directory: " ++ Text.quoted path
  | .notDirectory path => "[Errno 20] Not a directory: " ++ Text.quoted path
  | .exists path => "[Errno 17] File exists: " ++ Text.quoted path
  | .tooLong path => "[Errno 36] File name too long: " ++ Text.quoted path
  | .holdsNul => "embedded null byte"
  | .unencodable path => unencodableMessage path.toList
  | .undecodable => "not a text"
  | .tooDeep => "too deep"

/-- A location in a tree of files: the names that lead to it. The root, when a path starts there, is
the first of them. -/
abbrev Location := List Text

namespace Path

def root : Text := "/"

def isAbsolute (path : Text) : Bool :=
  path.toList.head? == some (Glyph.whole '/')

def start (path : Text) : Location :=
  if isAbsolute path then [root] else []

def upwards : Text := ".."

/-- The location above a location. Above the start stands nothing that is known, so there two dots
stay. -/
def up (location : Location) : Location :=
  match location.getLast? with
  | none => [upwards]
  | some name =>
    if name == upwards then location ++ [upwards]
    else if name == root then location
    else location.dropLast

def next (location : Location) (name : Text) : Location :=
  if name == "" || name == "." then location
  else if name == upwards then up location
  else location ++ [name]

def names (path : Text) : List Text :=
  (Text.partsAt (Glyph.whole '/') path.toList).map Text.mk

def nameLimit : Nat := 255

def pathLimit : Nat := 4096

def isLongName (name : Text) : Bool :=
  nameLimit < byteSize name

/-- The location that a path leads to when every directory on the way exists. -/
def location (path : Text) : Location :=
  (names path).foldl next (start path)

def shownNames (path : Text) : List Text :=
  (names path).filter fun name => name != "" && name != "."

def joined (path : Text) (names : List Text) : Text :=
  match names with
  | [] => if isAbsolute path then root else "."
  | names => (if isAbsolute path then root else "") ++ Text.intercalate "/" names

def normal (path : Text) : Text :=
  joined path (shownNames path)

/-- The directory so many names above a path, in normal form. -/
def above (count : Nat) (path : Text) : Text :=
  let names := shownNames path
  joined path (names.take (names.length - count))

def parent (path : Text) : Text :=
  above 1 path

/-- What follows the last point of a name, when something stands on both sides of it. -/
def extensionOf (name : List Glyph) : Option (List Glyph) :=
  let behind := (name.reverse.takeWhile (· != Glyph.whole '.')).reverse
  if behind.isEmpty || name.length ≤ behind.length + 1 then none else some behind

def extension? (path : Text) : Option Text :=
  ((shownNames path).getLast?.bind fun name => extensionOf name.toList).map Text.mk

end Path

structure Files where
  contents : List (Location × Content)
  directories : List Location

namespace Files

def empty : Files := ⟨[], []⟩

/-- Whether a location is a directory: the start and what is above it, what was made, and what
something lies in. -/
def isDirectory (files : Files) (location : Location) : Bool :=
  location == [Path.root] || location.all (· == Path.upwards)
    || files.directories.any (location.isPrefixOf ·)
    || files.contents.any fun file => location.isPrefixOf file.1 && file.1 != location

inductive Walk where
  | reached (location : Location)
  /-- Nothing is at a location, and names are left. -/
  | absent (location : Location) (names : List Text)
  /-- A file stands where the path needs a directory. -/
  | blocked
  | tooLong

def walk (files : Files) (location : Location) : List Text → Walk
  | [] => .reached location
  | name :: rest =>
    if files.isDirectory location then
      if Path.isLongName name then .tooLong else walk files (Path.next location name) rest
    else if (files.contents.lookup location).isSome then .blocked
    else .absent location (name :: rest)

inductive Entry where
  | file (content : Content)
  | directory
  | free (location : Location)
  /-- Nothing, and no directory for it either: nothing is at a location on the way, where names are
  left. -/
  | absent (location : Location) (names : List Text)

/-- What is at a path. A path that cannot be walked to its end, other than by what is missing, has
nothing at it. -/
def entry (files : Files) (path : Text) : Except FileFault Entry :=
  if !path.toList.all Path.isEncodable then .error (.unencodable path)
  else if path.toList.contains '\x00' then .error .holdsNul
  else if path.isEmpty then .ok (.absent [] [])
  else if Path.pathLimit ≤ Path.byteSize path then .error (.tooLong path)
  else
    match files.walk (Path.start path) (Path.names path) with
    | .tooLong => .error (.tooLong path)
    | .blocked => .error (.notDirectory path)
    | .absent location names => .ok (.absent location names)
    | .reached location =>
      match files.contents.lookup location with
      | some content => .ok (.file content)
      | none => .ok (if files.isDirectory location then .directory else .free location)

def content (files : Files) (path : Text) : Except FileFault Content := do
  match ← files.entry path with
  | .file content => return content
  | .directory => .error (.isDirectory path)
  | .free _ | .absent _ _ => .error (.missing path)

def read (files : Files) (path : Text) : Except FileFault String := do
  match ← files.content path with
  | .text text => return text
  | .undecodable _ => .error .undecodable

def withDirectory (files : Files) (location : Location) : Files :=
  { files with directories := location :: files.directories }

def prepare (files : Files) (location : Location) : List Text → Files
  | [] => files
  | name :: rest =>
    let after := Path.next location name
    prepare (if files.isDirectory after then files else files.withDirectory after) after rest

/-- Makes the directories at the end of a path, below a location that exists. -/
def makeBelow (files : Files) (path : Text) (location : Location) :
    List Text → Except FileFault Files
  | [] => .ok files
  | name :: rest =>
    let after := Path.next location name
    if Path.isLongName name then .error (.tooLong (Path.above rest.length path))
    else if files.isDirectory after then makeBelow files path after rest
    else if (files.contents.lookup after).isSome then
      .error (.exists (Path.above rest.length path))
    else makeBelow (files.withDirectory after) path after rest

/-- Makes a directory and those above it. The path is in normal form. -/
def makeDirectories (files : Files) (path : Text) : Except FileFault Files := do
  match ← files.entry path with
  | .directory => return files
  | .file _ => .error (.exists path)
  | .free location => return files.withDirectory location
  | .absent location names =>
    if depthLimit ≤ names.length then .error .tooDeep
    else (files.withDirectory location).makeBelow path location names

def setContent (location : Location) (content : Content) :
    List (Location × Content) → List (Location × Content)
  | [] => [(location, content)]
  | (other, old) :: rest =>
    if other == location then (location, content) :: rest
    else (other, old) :: setContent location content rest

def write (files : Files) (path : Text) (text : String) : Except FileFault Files := do
  match ← files.entry path with
  | .directory => .error (.isDirectory path)
  | .absent _ _ => .error (.missing path)
  | .free _ | .file _ =>
    return { files with contents := setContent (Path.location path) (.text text) files.contents }

/-- Writes a text to a file, and makes the directories above it first. -/
def save (files : Files) (path : Text) (text : String) : Except FileFault Files := do
  let prepared ← files.makeDirectories (Path.parent path)
  prepared.write (Path.normal path) text

end Files

end Reckon
