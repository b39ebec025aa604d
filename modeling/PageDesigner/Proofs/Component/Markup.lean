import PageDesigner.Component.Markup
import PageDesigner.Proofs.Component.Escape
import PageDesigner.Proofs.Component.Lines
import PageDesigner.Proofs.Component.Name

/-!
Generated modules read back as what was written. Each tag is read off its text together with what
follows, then all the tags of the lines, and the tags of a view match up to the view.
-/

namespace PageDesigner.Markup

section Scan

theorem after?_append (expected rest : List Char) :
    after? expected (expected ++ rest) = some rest := by
  induction expected with
  | nil => rfl
  | cons c expected ih => simp [after?, ih]

theorem splitAt?_append {stop : Char} {before : List Char} (absent : stop ∉ before)
    (rest : List Char) : splitAt? stop (before ++ stop :: rest) = some (before, rest) := by
  induction before with
  | nil => simp [splitAt?]
  | cons c before ih =>
    have different : c ≠ stop := fun same => absent (same ▸ List.mem_cons_self)
    have tail := ih fun inside => absent (List.mem_cons_of_mem c inside)
    simp [splitAt?, different, tail]

theorem skipBlanks_append {blanks : List Char} (skipped : ∀ c ∈ blanks, blank c = true)
    (rest : List Char) : skipBlanks (blanks ++ rest) = skipBlanks rest :=
  List.dropWhile_append_of_pos skipped

end Scan

section Tags

theorem decoded_attributeValue (value : String) :
    decoded (Escape.attributeValue value).toList = value := by
  rw [decoded, Escape.attributeValue, String.toList_ofList, Escape.decode_attributeChars,
    String.ofList_toList]

theorem decoded_text (value : String) : decoded (Escape.text value).toList = value := by
  rw [decoded, Escape.text, String.toList_ofList, Escape.decode_textChars, String.ofList_toList]

theorem attribute?_attributeText (key value : String) (rest : List Char) :
    attribute? key ((Tag.attributeText key value).toList ++ rest) = some (value, rest) := by
  have noQuote := Escape.quote_not_mem_attributeValue value
  have shape : (Tag.attributeText key value).toList ++ rest =
      (key.toList ++ ['=', '"']) ++ ((Escape.attributeValue value).toList ++ '"' :: rest) := by
    simp [Tag.attributeText]
  rw [attribute?, shape, after?_append]
  simp only [Option.bind_eq_bind, Option.bind_some, splitAt?_append noQuote, decoded_attributeValue]

theorem paragraph?_text (classes body : String) (rest : List Char) :
    paragraph? ((Tag.paragraph classes body).text.toList ++ rest) =
      some (.paragraph classes body, rest) := by
  have noTag := Escape.lt_not_mem_text body
  have shape : (Tag.paragraph classes body).text.toList ++ rest =
      "<p ".toList ++ ((Tag.attributeText "className" classes).toList ++
        (">".toList ++ ((Escape.text body).toList ++ '<' :: ("/p>".toList ++ rest)))) := by
    simp [Tag.text]
  rw [paragraph?, shape]
  simp only [Option.bind_eq_bind, Option.bind_some, after?_append, attribute?_attributeText,
    splitAt?_append noTag, decoded_text]

theorem image?_text (source description classes : String) (rest : List Char) :
    image? ((Tag.image source description classes).text.toList ++ rest) =
      some (.image source description classes, rest) := by
  have shape : (Tag.image source description classes).text.toList ++ rest =
      "<img ".toList ++ ((Tag.attributeText "src" source).toList ++ (" ".toList ++
        ((Tag.attributeText "alt" description).toList ++ (" ".toList ++
          ((Tag.attributeText "className" classes).toList ++ (" />".toList ++ rest)))))) := by
    simp [Tag.text]
  rw [image?, shape]
  simp only [Option.bind_eq_bind, Option.bind_some, after?_append, attribute?_attributeText]

theorem box?_openBox (classes : String) (rest : List Char) :
    box? ((Tag.openBox classes).text.toList ++ rest) = some (.openBox classes, rest) := by
  have shape : (Tag.openBox classes).text.toList ++ rest =
      "<div ".toList ++ ((Tag.attributeText "className" classes).toList ++
        (">".toList ++ rest)) := by
    simp [Tag.text]
  rw [box?, shape]
  simp only [Option.bind_eq_bind, Option.bind_some, after?_append, attribute?_attributeText]

theorem box?_emptyBox (classes : String) (rest : List Char) :
    box? ((Tag.emptyBox classes).text.toList ++ rest) = some (.emptyBox classes, rest) := by
  have shape : (Tag.emptyBox classes).text.toList ++ rest =
      "<div ".toList ++ ((Tag.attributeText "className" classes).toList ++
        (" />".toList ++ rest)) := by
    simp [Tag.text]
  have notOpen : after? ">".toList (" />".toList ++ rest) = none := rfl
  rw [box?, shape]
  simp only [Option.bind_eq_bind, Option.bind_some, after?_append, attribute?_attributeText,
    notOpen]

theorem closing?_closeBox (rest : List Char) :
    closing? (Tag.closeBox.text.toList ++ rest) = some (.closeBox, rest) := by
  rw [closing?, Tag.text]
  simp only [Option.bind_eq_bind, Option.bind_some, after?_append]

theorem paragraph?_eq_none {chars : List Char} (other : after? "<p ".toList chars = none) :
    paragraph? chars = none := by
  rw [paragraph?, other]
  rfl

theorem image?_eq_none {chars : List Char} (other : after? "<img ".toList chars = none) :
    image? chars = none := by
  rw [image?, other]
  rfl

theorem box?_eq_none {chars : List Char} (other : after? "<div ".toList chars = none) :
    box? chars = none := by
  rw [box?, other]
  rfl

/-- The first characters of a tag tell its kind, and its own end tells it from what follows. -/
theorem tag?_text (tag : Tag) (rest : List Char) :
    tag? (tag.text.toList ++ rest) = some (tag, rest) := by
  unfold tag?
  cases tag with
  | paragraph classes body =>
    rw [paragraph?_text]
    rfl
  | image source description classes =>
    have noParagraph : paragraph? ((Tag.image source description classes).text.toList ++ rest) =
        none := paragraph?_eq_none (by simp [Tag.text, after?])
    rw [noParagraph, image?_text]
    rfl
  | emptyBox classes =>
    have noParagraph : paragraph? ((Tag.emptyBox classes).text.toList ++ rest) = none :=
      paragraph?_eq_none (by simp [Tag.text, after?])
    have noImage : image? ((Tag.emptyBox classes).text.toList ++ rest) = none :=
      image?_eq_none (by simp [Tag.text, after?])
    rw [noParagraph, noImage, box?_emptyBox]
    rfl
  | openBox classes =>
    have noParagraph : paragraph? ((Tag.openBox classes).text.toList ++ rest) = none :=
      paragraph?_eq_none (by simp [Tag.text, after?])
    have noImage : image? ((Tag.openBox classes).text.toList ++ rest) = none :=
      image?_eq_none (by simp [Tag.text, after?])
    rw [noParagraph, noImage, box?_openBox]
    rfl
  | closeBox =>
    have noParagraph : paragraph? (Tag.closeBox.text.toList ++ rest) = none :=
      paragraph?_eq_none rfl
    have noImage : image? (Tag.closeBox.text.toList ++ rest) = none := image?_eq_none rfl
    have noBox : box? (Tag.closeBox.text.toList ++ rest) = none := box?_eq_none rfl
    rw [noParagraph, noImage, noBox, closing?_closeBox]
    rfl

end Tags

section Lines

theorem tag_text_not_blank (tag : Tag) (rest : List Char) :
    skipBlanks (tag.text.toList ++ rest) = tag.text.toList ++ rest := by
  cases tag <;> simp [Tag.text, skipBlanks, blank]

/-- A blank in front of the tags makes no difference, as long as a round is left to skip it. -/
theorem tags_cons_of_blank {c : Char} (skipped : blank c = true) (rounds : Nat) (rest : List Char) :
    tags (rounds + 1) (c :: rest) = tags (rounds + 1) rest := by
  have same : skipBlanks (c :: rest) = skipBlanks rest := List.dropWhile_cons_of_pos skipped
  rw [tags, tags, same]

/-- The indentation of a line is skipped. -/
theorem skipBlanks_render (indentWidth : UInt64) (line : Line) (rest : List Char) :
    skipBlanks ((line.render indentWidth).toList ++ rest) =
      skipBlanks (line.text.toList ++ '\n' :: rest) := by
  have shape : (line.render indentWidth).toList ++ rest =
      (Writer.indentation indentWidth line.depth).toList ++ (line.text.toList ++ '\n' :: rest) := by
    simp [Line.render]
  have indented : ∀ c ∈ (Writer.indentation indentWidth line.depth).toList, blank c = true := by
    intro c member
    rw [Writer.indentation, String.toList_ofList] at member
    rw [List.eq_of_mem_replicate member]
    rfl
  rw [shape, skipBlanks_append indented]

/-- The tags of the lines, up to where no tag follows. -/
theorem tags_lines {indentWidth : UInt64} {lines : List Line} {shown : List Tag}
    (same : lines.map Line.text = shown.map Tag.text) {rest : List Char}
    (stop : tag? (skipBlanks rest) = none) {rounds : Nat} (enough : shown.length < rounds) :
    tags rounds ((Line.renderAll indentWidth lines).toList ++ rest) = (shown, skipBlanks rest) := by
  -- Each round reads the tag of one line, whose newline is left for the next round to skip.
  induction shown generalizing lines rounds with
  | nil =>
    rw [List.map_nil, List.map_eq_nil_iff] at same
    cases rounds with
    | zero => omega
    | succ rounds => simp [same, Line.renderAll_nil, tags, stop]
  | cons tag shown ih =>
    obtain ⟨line, later, rfl, text, sameLater⟩ := List.map_eq_cons_iff.mp same
    cases rounds with
    | zero => omega
    | succ rounds =>
      rw [List.length_cons] at enough
      have read : tag? (skipBlanks ((Line.renderAll indentWidth (line :: later)).toList ++ rest)) =
          some (tag, '\n' :: ((Line.renderAll indentWidth later).toList ++ rest)) := by
        rw [Line.renderAll_cons, String.toList_append, List.append_assoc, skipBlanks_render, text,
          tag_text_not_blank, tag?_text]
      have more : tags rounds ((Line.renderAll indentWidth later).toList ++ rest) =
          (shown, skipBlanks rest) := ih sameLater (by omega)
      obtain ⟨left, rfl⟩ : ∃ left, rounds = left + 1 := ⟨rounds - 1, by omega⟩
      rw [tags, read]
      simp only [tags_cons_of_blank (c := '\n') rfl left, more]

end Lines

section Matching

mutual

/-- The tags of a view add it to the views so far, whatever boxes are open. -/
theorem views?_tags (rest : List Tag) (before : List View) (boxes : OpenBoxes) : ∀ view : View,
    views? (view.tags ++ rest) before boxes = views? rest (view :: before) boxes
  | .paragraph _ _ => by rfl
  | .image _ _ _ => by rfl
  | .box _ [] => by rfl
  | .box classes (first :: more) => by
    have inside :=
      views?_tagsAll (.closeBox :: rest) [] ((classes, before) :: boxes) (first :: more)
    rw [View.tags, List.cons_append, List.cons_append, List.append_assoc, views?,
      List.singleton_append, inside, List.append_nil, views?, List.reverse_reverse]

theorem views?_tagsAll (rest : List Tag) (before : List View) (boxes : OpenBoxes) :
    ∀ views : List View,
      views? (View.tagsAll views ++ rest) before boxes = views? rest (views.reverse ++ before) boxes
  | [] => by rfl
  | view :: views => by
    have first := views?_tags (View.tagsAll views ++ rest) before boxes view
    have more := views?_tagsAll rest (view :: before) boxes views
    rw [View.tagsAll, List.append_assoc, first, more, List.reverse_cons, List.append_assoc,
      List.singleton_append]

end

end Matching

section Module

variable {component : String} (indentWidth : UInt64) (rest : List Char)

theorem render_atMargin (text : String) :
    (Line.render indentWidth ⟨0, text⟩).toList ++ rest = text.toList ++ '\n' :: rest := by
  simp [Line.render, Writer.indentation]

theorem headerLine_toList : (headerLine component).toList ++ rest =
    "export default function ".toList ++
      (component.toList ++ '(' :: (") \x7b".toList ++ rest)) := by
  -- The equation of `headerLine` would have its texts evaluated, so the definition is unfolded.
  unfold headerLine
  have mark : "() \x7b".toList = '(' :: ") \x7b".toList := rfl
  rw [String.toList_append, String.toList_append, List.append_assoc, List.append_assoc, mark,
    List.cons_append]

theorem skipBlanks_returnLine :
    skipBlanks ('\n' :: ((Line.render indentWidth ⟨1, "return ("⟩).toList ++ rest)) =
      "return (".toList ++ '\n' :: rest := by
  calc
    _ = skipBlanks ((Line.render indentWidth ⟨1, "return ("⟩).toList ++ rest) :=
      List.dropWhile_cons_of_pos rfl
    _ = skipBlanks ("return (".toList ++ '\n' :: rest) := skipBlanks_render indentWidth _ rest
    _ = "return (".toList ++ '\n' :: rest := rfl

theorem header?_lines (unmarked : '(' ∉ component.toList) :
    header? ((Line.render indentWidth ⟨0, headerLine component⟩).toList ++
        ((Line.render indentWidth ⟨1, "return ("⟩).toList ++ rest)) =
      some (component, '\n' :: rest) := by
  rw [header?, render_atMargin, headerLine_toList]
  simp only [Option.bind_eq_bind, Option.bind_some, after?_append, splitAt?_append unmarked,
    skipBlanks_returnLine, String.ofList_toList]

theorem skipBlanks_footer :
    skipBlanks (Line.renderAll indentWidth [⟨1, ");"⟩, ⟨0, "\x7d"⟩]).toList =
      [')', ';', '\n', '\x7d', '\n'] := by
  have last : (Line.renderAll indentWidth [⟨0, "\x7d"⟩]).toList = ['\x7d', '\n'] := by
    rw [Line.renderAll_cons, Line.renderAll_nil, String.toList_append, render_atMargin]
    rfl
  rw [Line.renderAll_cons, String.toList_append, skipBlanks_render, last]
  rfl

theorem length_le_renderAll (lines : List Line) :
    lines.length ≤ (Line.renderAll indentWidth lines).toList.length := by
  induction lines with
  | nil => simp
  | cons line lines ih =>
    have newline : "\n".toList.length = 1 := rfl
    simp only [Line.renderAll_cons, Line.render, String.toList_append, List.length_append,
      List.length_cons]
    omega

theorem parse?_moduleLines (unmarked : '(' ∉ component.toList) (view : View) :
    parse? (Line.renderAll indentWidth (Page.moduleLines component view)).toList =
      some (component, view) := by
  let footer := (Line.renderAll indentWidth [⟨1, ");"⟩, ⟨0, "\x7d"⟩]).toList
  let markup := (Line.renderAll indentWidth (view.lines 2)).toList ++ footer
  have stop : tag? (skipBlanks footer) = none := by
    rw [skipBlanks_footer]
    rfl
  have enough : view.tags.length < markup.length + 1 := by
    have sameLength := congrArg List.length (view.lines_text 2)
    have bound := length_le_renderAll indentWidth (view.lines 2)
    simp only [List.length_map] at sameLength
    simp only [markup, List.length_append]
    omega
  have read : tags (markup.length + 1) ('\n' :: markup) = (view.tags, skipBlanks footer) := by
    rw [tags_cons_of_blank rfl]
    exact tags_lines (view.lines_text 2) stop enough
  have matched : views? view.tags [] [] = some [view] := by
    have whole := views?_tags [] [] [] view
    rwa [List.append_nil] at whole
  have closed : footer? (skipBlanks footer) = some () := by
    rw [skipBlanks_footer]
    rfl
  have shape : (Line.renderAll indentWidth (Page.moduleLines component view)).toList =
      (Line.render indentWidth ⟨0, headerLine component⟩).toList ++
        ((Line.render indentWidth ⟨1, "return ("⟩).toList ++ markup) := by
    rw [Page.moduleLines, List.cons_append, List.cons_append, Line.renderAll_cons,
      Line.renderAll_cons, Line.renderAll_append]
    simp only [String.toList_append, markup, footer]
  rw [parse?, shape, header?_lines indentWidth markup unmarked]
  simp only [Option.bind_eq_bind, Option.bind_some, List.length_cons, read, closed, matched]

end Module

end PageDesigner.Markup
