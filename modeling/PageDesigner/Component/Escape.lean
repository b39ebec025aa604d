/-!
Escaping of text between tags and of attribute values, and the reading of the character references
that both leave.
-/

namespace PageDesigner.Escape

def textChar : Char → List Char
  | '&' => ['&', 'a', 'm', 'p', ';']
  | '<' => ['&', 'l', 't', ';']
  | '>' => ['&', 'g', 't', ';']
  | '{' => ['&', '#', '1', '2', '3', ';']
  | '}' => ['&', '#', '1', '2', '5', ';']
  | c => [c]

def textChars (chars : List Char) : List Char := chars.flatMap textChar

def text (value : String) : String := String.ofList (textChars value.toList)

/-- Every occurrence of a character gives way to the replacement. -/
def replaceChar (target : Char) (replacement : List Char) (chars : List Char) : List Char :=
  chars.flatMap fun c => if c = target then replacement else [c]

/-- The ampersands come first, so that those of the quotes' references stay. -/
def attributeChars (chars : List Char) : List Char :=
  replaceChar '"' ['&', 'q', 'u', 'o', 't', ';'] (replaceChar '&' ['&', 'a', 'm', 'p', ';'] chars)

def attributeValue (value : String) : String := String.ofList (attributeChars value.toList)

/-- Reads the references from left to right, each once. An ampersand that starts none stands for
itself. -/
def decode : List Char → List Char
  | '&' :: 'a' :: 'm' :: 'p' :: ';' :: rest => '&' :: decode rest
  | '&' :: 'l' :: 't' :: ';' :: rest => '<' :: decode rest
  | '&' :: 'g' :: 't' :: ';' :: rest => '>' :: decode rest
  | '&' :: '#' :: '1' :: '2' :: '3' :: ';' :: rest => '{' :: decode rest
  | '&' :: '#' :: '1' :: '2' :: '5' :: ';' :: rest => '}' :: decode rest
  | '&' :: 'q' :: 'u' :: 'o' :: 't' :: ';' :: rest => '"' :: decode rest
  | c :: rest => c :: decode rest
  | [] => []

end PageDesigner.Escape
