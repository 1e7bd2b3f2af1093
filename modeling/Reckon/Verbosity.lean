import Reckon.Text.Blank

/-!
# Verbosity

The names of the levels of a log and the numbers they stand for. Names are read in any case and
without the blanks around them.
-/

set_option autoImplicit false

namespace Reckon.Verbosity

def levels : List (String × Nat) :=
  [("CRITICAL", 50), ("FATAL", 50), ("ERROR", 40), ("WARN", 30), ("WARNING", 30), ("INFO", 20),
   ("DEBUG", 10), ("NOTSET", 0)]

/-- The capital of a letter. Beyond ASCII only the long s and the dotless i have a capital that a
level's name can have. -/
def capital (character : Char) : Char :=
  if 'a' ≤ character && character ≤ 'z' then Char.ofNat (character.toNat - 32)
  else if character.toNat == 0x17f then 'S'
  else if character.toNat == 0x131 then 'I'
  else character

/-- The level that a name calls; no name or an empty one calls the default. -/
def levelOfName? (name? : Option Text) (default : Int) : Option Int :=
  match name?.filter (fun name => !name.isEmpty) with
  | none => some default
  | some name =>
    let capitals := String.ofList ((Text.trimmed name.characters).map capital)
    (levels.lookup capitals).map Int.ofNat

def standard : Int := 20

def unknownMessage (name : Text) : Text :=
  "unknown log level: " ++ name

end Reckon.Verbosity
