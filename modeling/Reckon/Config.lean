import Reckon.Document.Fault
import Reckon.Files
import Reckon.Settings

/-!
# Configuration files

A configuration is a document that holds a mapping. A document that holds nothing, or something that
counts as false, is an empty configuration, and so is a path that is not given. What loads a
document from the content of its file is a parameter.
-/

set_option autoImplicit false

namespace Reckon.Config

/-- How the content of a file is loaded as a document. -/
abbrev Loader := Content → Except Document.Fault Datum

inductive Fault where
  | file (fault : FileFault)
  | document (fault : Document.Fault)
  | notAMapping (path : Text)
deriving DecidableEq

def Fault.message : Fault → Text
  | .file fault => fault.message
  | .document fault => fault.message
  | .notAMapping path => "config must be a mapping: " ++ path

def load (loader : Loader) (files : Files) (path? : Option Text) : Except Fault Config :=
  match path?.filter fun path => !path.isEmpty with
  | none => .ok []
  | some path => do
    let content ← (files.content path).mapError Fault.file
    let datum ← (loader content).mapError Fault.document
    match datum with
    | .mapping entries => return entries
    | other => if other.isTrue then .error (.notAMapping path) else return []

end Reckon.Config
