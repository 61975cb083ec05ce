import CommonMark.Markup.Label
import CommonMark.Markup.LineStart
import CommonMark.Markup.Link

/-!
# Link reference definitions

A definition is a label, a colon, a destination and perhaps a title; nothing else follows on its last line.
Between its parts one line may end. A title that is no title is no harm when it stands on a line of its own:
then the definition ends before that line.
-/

namespace CommonMark.Markup

/-- A definition, with the byte offset it starts at. -/
structure Definition where
  start : Nat
  label : Text
  target : Target
  deriving DecidableEq, Repr

namespace Definition

/-- A place, with the number of lines that were ended on the way to it. -/
structure Reached where
  place : Place
  passed : Nat := 0

namespace Reached

/-- Moves over white space and at most one line end; none when what follows is another line end. A line that
is not inside all of the containers is taken from its very start. -/
def skipGap? (containers : List Container) (r : Reached) : Option Reached :=
  match r.place.rest.dropWhile isGap with
  | c :: t => some { r with place := { r.place with rest := c :: t } }
  | [] =>
    match r.place.following with
    | [] => none
    | l :: ls =>
      let (n, c) := Container.enter (.ofLine l) containers
      if n < containers.length then some ⟨⟨l.body, l.ending, ls⟩, r.passed + 1⟩
      else
        match c.rest.dropWhile isGap with
        | [] => none
        | c :: t => some ⟨⟨c :: t, l.ending, ls⟩, r.passed + 1⟩

/-- The place so many characters further on, lines read as they are written. -/
def advance (rest : Text) (ending : LineEnd) (passed : Nat) : List Line → Nat → Reached
  | [], n => ⟨⟨rest.drop n, ending, []⟩, passed⟩
  | l :: ls, n =>
    if n ≤ rest.length then ⟨⟨rest.drop n, ending, l :: ls⟩, passed⟩
    else advance l.body l.ending (passed + 1) ls (n - rest.length - ending.text.length)

end Reached

/-- The rest of a label, read over lines that do not interrupt a paragraph. -/
def labelFrom? (containers : List Container) (s : Label.State) (rest : Text) (ending : LineEnd) (passed : Nat) :
    List Line → Option (Text × Reached)
  | [] =>
    match s.feed rest with
    | .ends label rest => some (label, ⟨⟨rest, ending, []⟩, passed⟩)
    | _ => none
  | l :: ls =>
    match s.feed rest with
    | .ends label rest => some (label, ⟨⟨rest, ending, l :: ls⟩, passed⟩)
    | .refused => none
    | .goesOn s =>
      match s.feed ending.text with
      | .goesOn s =>
        let (n, c) := Container.enter (.ofLine l) containers
        if interruptsParagraph (n = containers.length) ⟨c.rest, l.ending, ls⟩ then none
        else labelFrom? containers s c.rest l.ending (passed + 1) ls
      | _ => none

/-- The characters of a title with its marks; a line that is empty or holds only white space refuses it. -/
def titleLength? (closing : Char) : (afterFeed escaped : Bool) → Text → Option Nat
  | _, _, [] => none
  | _, true, _ :: t => (titleLength? closing false false t).map (· + 1)
  | afterFeed, false, c :: t =>
    if c = '\n' then if afterFeed then none else (titleLength? closing true false t).map (· + 1)
    else if c = '\\' then (titleLength? closing false true t).map (· + 1)
    else if c = closing then some 1
    else (titleLength? closing (afterFeed && isGap c) false t).map (· + 1)

/-- The title at a place, read up to its mark as the source is written. -/
def title? (r : Reached) : Option (Text × Reached) :=
  match r.place.rest with
  | [] => none
  | c :: _ => do
    let closing ← titleEnd? c
    let written := r.place.rest ++ r.place.ending.text ++ r.place.following.flatMap Line.text
    let n ← titleLength? closing false false (written.drop 1)
    some ((written.drop 1).take (n - 1),
      Reached.advance r.place.rest r.place.ending r.passed r.place.following (n + 1))

/-- The definition that starts at a place with this byte offset, and how many lines end in it before its
last. -/
def read? (containers : List Container) (start : Nat) (p : Place) : Option (Definition × Nat) := do
  let '[' :: rest := p.rest | none
  let (label, r) ← labelFrom? containers {} rest p.ending 0 p.following
  let ':' :: rest := r.place.rest | none
  let r ← ({ r with place := { r.place with rest } } : Reached).skipGap? containers
  let (destination, rest) ← Destination.read? r.place.rest
  if rest.length = r.place.rest.length then none
  let untitled : Definition := ⟨start, label, unescape destination, none⟩
  let here : Reached := { r with place := { r.place with rest } }
  match here.skipGap? containers with
  | none => some (untitled, here.passed)
  | some there =>
    if there.passed = here.passed && there.place.rest.length = rest.length then none
    match title? there with
    | some (title, after) =>
      if isBlankLine after.place.rest then
        return ({ untitled with target.title := some (unescape title) }, after.passed)
    | none => pure ()
    if here.passed < there.passed then some (untitled, here.passed) else none

end Definition

end CommonMark.Markup
