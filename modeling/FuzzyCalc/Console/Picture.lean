import FuzzyCalc.Text.Blank

/-!
# Pictures of a place in a line

A picture is the line, without the blanks at its end, over a caret below the place. The blanks
before the caret keep the tabs of the line, so that the caret stands where it should. The line may
have a lead in front of it, such as the prompt after which it was typed.
-/

namespace FuzzyCalc.Console

/-- The characters before an offset; a negative offset counts from the end. -/
def upTo (offset : Int) (text : List Char) : List Char :=
  text.take (if 0 ≤ offset then offset else text.length + offset).toNat

/-- The picture of a place in a line, with a lead in front. -/
def picture (lead text : List Char) (offset : Int) : List Char :=
  let indent := (lead ++ upTo offset text).map fun c ↦ if c == '\t' then '\t' else ' '
  lead ++ Text.trimEnd text ++ '\n' :: indent ++ ['^', ' ']

end FuzzyCalc.Console
