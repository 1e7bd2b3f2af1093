/-!
# Lines

Two ways of cutting a text into lines. A *physical* line ends at a line feed, a carriage return or
the pair of both; a *displayed* line ends also at the vertical tab, the form feed, three of the
information separators, the next-line control and the two Unicode separators. An end belongs to the
line before it and is dropped, and no line follows a final end.
-/

set_option autoImplicit false

namespace Reckon.Text

def unifyLineEnds : List Char → List Char
  | '\r' :: '\n' :: rest => '\n' :: unifyLineEnds rest
  | '\r' :: rest => '\n' :: unifyLineEnds rest
  | character :: rest => character :: unifyLineEnds rest
  | [] => []

/-- The lines of a text whose line ends are single characters of one class. -/
def linesBy (isEnd : Char → Bool) : List Char → List (List Char)
  | [] => []
  | character :: rest =>
    if isEnd character then [] :: linesBy isEnd rest
    else
      match linesBy isEnd rest with
      | [] => [[character]]
      | line :: more => (character :: line) :: more

def physicalLines (characters : List Char) : List (List Char) :=
  linesBy (· == '\n') (unifyLineEnds characters)

/-- The physical lines of a text that breaks off: its last line is not complete, and neither is a
line whose carriage return comes last. -/
def completeLines (characters : List Char) : List (List Char) :=
  let kept :=
    match characters.reverse with
    | '\r' :: rest => rest.reverse
    | _ => characters
  linesBy (· == '\n') ((unifyLineEnds kept).reverse.dropWhile (· != '\n')).reverse

/-- The ends of displayed lines, once the physical ends are unified. -/
def isDisplayedEnd (character : Char) : Bool :=
  let code := character.toNat
  (0x0a ≤ code && code ≤ 0x0d) || (0x1c ≤ code && code ≤ 0x1e) || code == 0x85 || code == 0x2028
    || code == 0x2029

def displayedLines (characters : List Char) : List (List Char) :=
  linesBy isDisplayedEnd (unifyLineEnds characters)

end Reckon.Text
