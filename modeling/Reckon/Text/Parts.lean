/-!
# Parts between marks

A row of items is cut at every mark, so there is one part more than there are marks, and parts may
be empty. With the mark between them the parts are the row again.
-/

set_option autoImplicit false

namespace Reckon.Text

def partsAt {α : Type} [DecidableEq α] (mark : α) : List α → List (List α)
  | [] => [[]]
  | item :: rest =>
    if item = mark then [] :: partsAt mark rest
    else
      match partsAt mark rest with
      | [] => [[item]]
      | part :: more => (item :: part) :: more

end Reckon.Text
