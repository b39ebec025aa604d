import PageDesigner.Component.View

/-!
Generated modules read back. Blanks between tags are skipped, an attribute value ends at the next
double quote and a paragraph's text at the next `<`; character references are decoded. The tags are
then matched: a closing tag ends the box that was opened last.
-/

namespace PageDesigner.Markup

def blank (c : Char) : Bool := c = ' ' || c = '\n'

def skipBlanks (chars : List Char) : List Char := chars.dropWhile blank

/-- What follows an expected beginning. -/
def after? : List Char → List Char → Option (List Char)
  | [], rest => some rest
  | _ :: _, [] => none
  | c :: expected, d :: rest => if c = d then after? expected rest else none

/-- The characters before the first `stop`, and those after it. -/
def splitAt? (stop : Char) : List Char → Option (List Char × List Char)
  | [] => none
  | c :: rest =>
    if c = stop then some ([], rest)
    else (splitAt? stop rest).map fun (before, following) => (c :: before, following)

def decoded (chars : List Char) : String := String.ofList (Escape.decode chars)

def attribute? (key : String) (chars : List Char) : Option (String × List Char) := do
  let value ← after? (key.toList ++ ['=', '"']) chars
  let (before, following) ← splitAt? '"' value
  some (decoded before, following)

def paragraph? (chars : List Char) : Option (Tag × List Char) := do
  let (classes, rest) ← attribute? "className" (← after? "<p ".toList chars)
  let (body, rest) ← splitAt? '<' (← after? ">".toList rest)
  some (.paragraph classes (decoded body), ← after? "/p>".toList rest)

def image? (chars : List Char) : Option (Tag × List Char) := do
  let (source, rest) ← attribute? "src" (← after? "<img ".toList chars)
  let (description, rest) ← attribute? "alt" (← after? " ".toList rest)
  let (classes, rest) ← attribute? "className" (← after? " ".toList rest)
  some (.image source description classes, ← after? " />".toList rest)

def box? (chars : List Char) : Option (Tag × List Char) := do
  let (classes, rest) ← attribute? "className" (← after? "<div ".toList chars)
  match after? ">".toList rest with
  | some rest => some (.openBox classes, rest)
  | none => some (.emptyBox classes, ← after? " />".toList rest)

def closing? (chars : List Char) : Option (Tag × List Char) := do
  some (.closeBox, ← after? "</div>".toList chars)

def tag? (chars : List Char) : Option (Tag × List Char) :=
  paragraph? chars <|> image? chars <|> box? chars <|> closing? chars

/-- The tags up to the end of the markup, and what follows them. Every tag takes a character, so as
many rounds as there are characters are enough. -/
def tags : Nat → List Char → List Tag × List Char
  | 0, chars => ([], chars)
  | rounds + 1, chars =>
    match tag? (skipBlanks chars) with
    | none => ([], skipBlanks chars)
    | some (tag, rest) =>
      let (more, following) := tags rounds rest
      (tag :: more, following)

/-- The views so far, in reverse, inside each box that is still open. -/
abbrev OpenBoxes := List (String × List View)

/-- The views that the tags show, given those before them and the boxes still open. -/
def views? : List Tag → List View → OpenBoxes → Option (List View)
  | [], views, [] => some views.reverse
  | [], _, _ :: _ => none
  | .paragraph classes body :: tags, views, boxes =>
    views? tags (.paragraph classes body :: views) boxes
  | .image source description classes :: tags, views, boxes =>
    views? tags (.image source description classes :: views) boxes
  | .emptyBox classes :: tags, views, boxes => views? tags (.box classes [] :: views) boxes
  | .openBox classes :: tags, views, boxes => views? tags [] ((classes, views) :: boxes)
  | .closeBox :: tags, views, (classes, outer) :: boxes =>
    views? tags (.box classes views.reverse :: outer) boxes
  | .closeBox :: _, _, [] => none

def header? (chars : List Char) : Option (String × List Char) := do
  let (name, rest) ← splitAt? '(' (← after? "export default function ".toList chars)
  let rest ← after? ") \x7b".toList rest
  some (String.ofList name, ← after? "return (".toList (skipBlanks rest))

def footer? (chars : List Char) : Option Unit := do
  let rest ← after? ");".toList (skipBlanks chars)
  let rest ← after? "\x7d".toList (skipBlanks rest)
  if skipBlanks rest = [] then some () else none

/-- The component's name and its view, if the text is a component module. -/
def parse? (chars : List Char) : Option (String × View) := do
  let (name, body) ← header? chars
  let (shown, rest) := tags body.length body
  let () ← footer? rest
  match ← views? shown [] [] with
  | [view] => some (name, view)
  | _ => none

end PageDesigner.Markup
