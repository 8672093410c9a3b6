namespace TaskGen
namespace Text

/-- The lines of a text.  A line ends at a line feed or at a carriage return and a
line feed.  What follows the last line feed is a line only if it is not empty. -/
def lines : List Char → List (List Char)
  | [] => []
  | '\r' :: '\n' :: rest => [] :: lines rest
  | '\n' :: rest => [] :: lines rest
  | c :: rest =>
    match lines rest with
    | [] => [[c]]
    | line :: more => (c :: line) :: more

end Text
end TaskGen
