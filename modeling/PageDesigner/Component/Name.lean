/-!
Names of generated components: the words of a page's name, capitalised and joined, and a suffix.
-/

namespace PageDesigner

/-- The ASCII letters and digits in order, upper case where a word starts. `wordStart` holds before
the first character and after any other character. -/
def joinWords (wordStart : Bool) : List Char → List Char
  | [] => []
  | c :: rest =>
    if c.isAlphanum then (if wordStart then c.toUpper else c) :: joinWords false rest
    else joinWords true rest

def endWith (ending name : List Char) : List Char :=
  if ending.isSuffixOf name then name else name ++ ending

/-- An identifier does not start with a digit. -/
def shieldDigit : List Char → List Char
  | [] => []
  | c :: rest => if c.isDigit then '_' :: c :: rest else c :: rest

def componentName (pageName ending : String) : String :=
  String.ofList (shieldDigit (endWith ending.toList (joinWords true pageName.toList)))

end PageDesigner
