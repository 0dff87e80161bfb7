/-!
# Lines and pieces of a text

* `lines`: a line ends with a line feed or with a carriage return and a line feed.
  What follows the last line end is a line only if it is not empty.
* `pieces`: what stands between separators.
-/

namespace Mosaic.Text

/-- The lines of a text, without their ends. -/
def lines : List Char → List (List Char)
  | [] => []
  | '\n' :: rest => [] :: lines rest
  | '\r' :: '\n' :: rest => [] :: lines rest
  | c :: rest =>
    match lines rest with
    | [] => [[c]]
    | first :: others => (c :: first) :: others

/-- The pieces of a text between separators; there is always one. -/
def pieces (separator : Char) : List Char → List (List Char)
  | [] => [[]]
  | c :: rest =>
    if c = separator then [] :: pieces separator rest
    else
      match pieces separator rest with
      | [] => [[c]]
      | piece :: others => (c :: piece) :: others

end Mosaic.Text
