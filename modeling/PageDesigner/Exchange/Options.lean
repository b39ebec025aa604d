import PageDesigner.Component.Options
import PageDesigner.Json.Reader
import PageDesigner.Json.Record

/-!
Documents as JSON text, options as JSON, and the options that a directory holds. The whole text is
read before any of it is decoded, so a text that is not well formed is reported as such whatever it
holds. A value that no field asks for may stay unread. Every option has a default, so a file only
names those it changes.
-/

namespace PageDesigner

inductive ReadError where
  | malformed
  | unexpected (error : DecodeError)
  deriving DecidableEq, Repr

/-- Where decoding fails, an unread value is the text's fault and comes before any other. -/
def readText {α : Type} (decode : Json → Decoded α) (text : String) : Except ReadError α :=
  match Json.parse text with
  | none => .error .malformed
  | some value =>
    match decode value with
    | .ok result => .ok result
    | .error error => .error (if value.fullyRead then .unexpected error else .malformed)

namespace Options

def toJson (options : Options) : Json :=
  .object
    [("indentWidth", .number (.natural options.indentWidth)),
      ("componentSuffix", .text options.componentSuffix),
      ("placeholderSrc", .text options.placeholderSource),
      ("defaultText", .text options.defaultText)]

def fields : Fields Options :=
  let standard : Options := {}
  mk <$> .defaulted "indentWidth" standard.indentWidth Json.asNatural
    <*> .defaulted "componentSuffix" standard.componentSuffix Json.asText
    <*> .defaulted "placeholderSrc" standard.placeholderSource Json.asText
    <*> .defaulted "defaultText" standard.defaultText Json.asText

def ofJson : Json → Decoded Options := fields.decode

end Options

/-- What stands under a file's name in a directory. -/
inductive DirectoryEntry where
  | missing
  | directory
  | file (bytes : ByteArray)

inductive LoadError where
  | unreadable
  | unusable (error : ReadError)
  deriving DecidableEq, Repr

/-- The options in the entry of a directory under `Options.fileName`. A missing file leaves the
defaults. -/
def Options.load : DirectoryEntry → Except LoadError Options
  | .missing => .ok {}
  | .directory => .error .unreadable
  | .file bytes =>
    match String.fromUTF8? bytes with
    | none => .error .unreadable
    | some text => (readText Options.ofJson text).mapError LoadError.unusable

end PageDesigner
