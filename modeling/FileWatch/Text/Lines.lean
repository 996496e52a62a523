import FileWatch.Text
/-!
Lines of a file. A line ends at a line feed, a carriage return, or the two together, whichever
comes, and each of them becomes one line feed.
-/

namespace FileWatch.Text

def unifyBreaksAfter (afterReturn : Bool) : Text → Text
  | [] => []
  | c :: rest =>
    if c = '\r' then '\n' :: unifyBreaksAfter true rest
    else if c = '\n' && afterReturn then unifyBreaksAfter false rest
    else c :: unifyBreaksAfter false rest

def unifyBreaks (t : Text) : Text := unifyBreaksAfter false t

/-- The lines of a text, each with its line feed; only the last may lack one. -/
def lines : Text → List Text
  | [] => []
  | c :: rest =>
    if c = '\n' then [c] :: lines rest
    else
      match lines rest with
      | [] => [[c]]
      | line :: others => (c :: line) :: others

end FileWatch.Text
