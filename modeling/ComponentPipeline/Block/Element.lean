import ComponentPipeline.Text.Blank

/-!
# Elements in a document

A document is searched from left to right for elements with one tag name.  A
comment is taken as a whole, so an element inside it is not found.  An element
closes itself or runs to the next closing tag; an opening tag without a
closing tag is no element.  What comes after an element is searched on.
-/

namespace ComponentPipeline

/-- An element. -/
structure Element where
  /-- The text between the tag name and the end of the opening tag, if there
  is any; it starts with a blank. -/
  attributes : Option Text
  /-- The text between the tags, none if the element closes itself. -/
  content : Option Text
  deriving DecidableEq, Repr

namespace Element

/-- The closing tag of an element. -/
def closingTag (tag : Text) : Text :=
  '<' :: '/' :: (tag ++ ['>'])

/-- The opening tag of an element. -/
def openingTag (tag : Text) (element : Element) : Text :=
  '<' :: (tag ++ element.attributes.getD [] ++
    match element.content with
    | none => ['/', '>']
    | some _ => ['>'])

/-- The text of an element. -/
def text (tag : Text) (element : Element) : Text :=
  openingTag tag element ++
    match element.content with
    | none => []
    | some content => content ++ closingTag tag

/-- The content that starts a text, up to the next closing tag. -/
def cutContent? (tag : Text) (attributes : Option Text) (body : Text) :
    Option (Element × Text) :=
  (Text.cutAt? (closingTag tag) body).map fun (content, tail) =>
    (⟨attributes, some content⟩, tail)

/-- The rest of an element after the attributes of its opening tag, which end
at the first `>`. -/
def cutAfterAttributes? (tag inside body : Text) : Option (Element × Text) :=
  match inside.getLast? with
  | some '/' => some (⟨some inside.dropLast, none⟩, body)
  | _ => cutContent? tag (some inside) body

/-- The element at the start of a text. -/
def cut? (tag text : Text) : Option (Element × Text) :=
  match Text.after? ('<' :: tag) text with
  | none => none
  | some [] => none
  | some (first :: rest) =>
      if first = '>' then cutContent? tag none rest
      else if first = '/' then
        (Text.after? ['>'] rest).map fun tail => (⟨none, none⟩, tail)
      else if Text.isBlank first then
        match Text.cutAt? ['>'] (first :: rest) with
        | some (inside, body) => cutAfterAttributes? tag inside body
        | none => none
      else none

theorem eq_of_cutContent?_eq_some
    {tag body tail : Text}
    {attributes : Option Text}
    {element : Element}
    (found : cutContent? tag attributes body = some (element, tail)) :
    openingTag tag ⟨attributes, some []⟩ ++ body = element.text tag ++ tail := by
  simp only [cutContent?, Option.map_eq_some_iff] at found
  obtain ⟨⟨content, tail'⟩, cut, pair⟩ := found
  simp only [Prod.mk.injEq] at pair
  obtain ⟨rfl, rfl⟩ := pair
  rw [Text.eq_of_cutAt?_eq_some cut]
  simp [Element.text, openingTag]

/-- Cutting an element off a text loses nothing. -/
theorem eq_of_cut?_eq_some
    {tag text tail : Text}
    {element : Element}
    (found : cut? tag text = some (element, tail)) :
    text = element.text tag ++ tail := by
  simp only [cut?] at found
  split at found
  · cases found
  · cases found
  · rename_i first rest opened
    have opening := Text.after?_eq_some_iff.mp opened
    subst opening
    split at found
    · rename_i closes
      subst closes
      rw [← eq_of_cutContent?_eq_some found]
      simp [openingTag]
    · split at found
      · rename_i closes
        subst closes
        simp only [Option.map_eq_some_iff] at found
        obtain ⟨tail', ended, pair⟩ := found
        simp only [Prod.mk.injEq] at pair
        obtain ⟨rfl, rfl⟩ := pair
        have ending := Text.after?_eq_some_iff.mp ended
        subst ending
        simp [Element.text, openingTag]
      · split at found
        · split at found
          · rename_i inside body cut
            have parts := Text.eq_of_cutAt?_eq_some cut
            rw [parts]
            simp only [cutAfterAttributes?] at found
            split at found
            · rename_i last
              cases found
              obtain ⟨written, rfl⟩ := List.getLast?_eq_some_iff.mp last
              simp [Element.text, openingTag]
            · rw [← eq_of_cutContent?_eq_some found]
              simp [openingTag]
          · cases found
        · cases found

theorem length_lt_of_cut?
    {tag text tail : Text}
    {element : Element}
    (found : cut? tag text = some (element, tail)) :
    tail.length < text.length := by
  rw [eq_of_cut?_eq_some found]
  simp [Element.text, openingTag]
  omega

end Element

/-! ## Searching a document -/

/-- The comment at the start of a text, without its delimiters. -/
def cutComment? (text : Text) : Option (Text × Text) :=
  (Text.after? ['<', '!', '-', '-'] text).bind (Text.cutAt? ['-', '-', '>'])

/-- The text of a comment. -/
def commentText (inside : Text) : Text :=
  '<' :: '!' :: '-' :: '-' :: (inside ++ ['-', '-', '>'])

theorem eq_of_cutComment?_eq_some
    {text inside tail : Text}
    (found : cutComment? text = some (inside, tail)) :
    text = commentText inside ++ tail := by
  simp only [cutComment?, Option.bind_eq_some_iff] at found
  obtain ⟨body, opened, cut⟩ := found
  rw [Text.after?_eq_some_iff.mp opened, Text.eq_of_cutAt?_eq_some cut]
  simp [commentText]

theorem length_lt_of_cutComment?
    {text inside tail : Text}
    (found : cutComment? text = some (inside, tail)) :
    tail.length < text.length := by
  rw [eq_of_cutComment?_eq_some found]
  simp [commentText]
  omega

/-- The elements of a text that starts at an offset, each with its own
offset. -/
def elementsFrom (tag : Text) (offset : Nat) (text : Text) : List (Nat × Element) :=
  match text with
  | [] => []
  | char :: rest =>
      match _comment : cutComment? (char :: rest) with
      | some (inside, tail) =>
          elementsFrom tag (offset + Text.size (commentText inside)) tail
      | none =>
          match _element : Element.cut? tag (char :: rest) with
          | some (element, tail) =>
              (offset, element) ::
                elementsFrom tag (offset + Text.size (element.text tag)) tail
          | none => elementsFrom tag (offset + char.utf8Size) rest
termination_by text.length
decreasing_by
  · exact length_lt_of_cutComment? _comment
  · exact Element.length_lt_of_cut? _element
  · simp

/-- The elements of a document outside comments, each with its offset. -/
def elementsOf (tag document : Text) : List (Nat × Element) :=
  elementsFrom tag 0 document

end ComponentPipeline
