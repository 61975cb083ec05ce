import CommonMark.Document.Builder
import CommonMark.Markup.Inline
import CommonMark.Markup.OpenBlocks

/-!
# Parsing a source

The blocks of a source are read first, with all its definitions; then the running text of each block is read
with the definitions known, and both become the events from which the document is built. The paragraphs of a
tight list's items report their text without themselves. A document can be built from what another reader reports.
-/

namespace CommonMark

/-- What may be chosen about parsing. -/
structure ParseOptions where
  /-- Whether quotation marks, dashes and ellipses become typographic. -/
  smartPunctuation : Bool := false
  /-- Whether link reference definitions are blocks of the document. -/
  referenceDefinitions : Bool := true
  deriving DecidableEq, Repr

namespace Markup

/-- Events between the start and the stop of a construct. -/
def within (tag : Tag) (span : Span) (events : List Located) : List Located :=
  (.start tag, span) :: events ++ [(.stop tag, span)]

/-- The events of a leaf; a bare one reports no paragraph. -/
def Leaf.events (setting : Setting) (isBare : Bool) (span : Span) : Leaf → List Located
  | paragraph lines =>
    let text := (Prose.ofLines lines span.stop).events setting
    if isBare then text else within .paragraph span text
  | heading level lines => within (.heading level) span ((Prose.ofLines lines span.stop).events setting)
  | code info content => within (.codeBlock info) span content
  | html content => within .htmlBlock span content
  | thematicBreak => [(.rule, span)]

namespace Draft

mutual

/-- The events of a draft; the paragraphs of a tight list's items are bare. -/
def events (setting : Setting) (isTight : Bool) : Draft → List Located
  | leaf span l => l.events setting isTight span
  | quote span children => within .blockQuote span (eventsOfAll setting false children)
  | list span first tight items => within (.list first) span (eventsOfAll setting tight items)
  | item span children => within .item span (eventsOfAll setting isTight children)

/-- The events of drafts in order. -/
def eventsOfAll (setting : Setting) (isTight : Bool) : List Draft → List Located
  | [] => []
  | d :: ds => events setting isTight d ++ eventsOfAll setting isTight ds

end

end Draft

/-- What a source is made of: its events, and its definitions by the keys of their labels. -/
structure Source where
  events : List Located
  definitions : List (Text × Definition)

/-- What reads a source, with or without typographic punctuation (`Parser::new_ext`). -/
abbrev Reader : Type := (smart : Bool) → (source : Text) → Source

/-- The reader of the program. -/
def read : Reader := fun smart source =>
  let o := OpenBlocks.ofText source
  let target? (label : Text) : Option Target := (o.definitions.lookup (Label.key label)).map (·.target)
  ⟨Draft.eventsOfAll ⟨source, smart, target?⟩ false o.drafts, o.definitions⟩

/-- Offsets and labels of definitions in the order of the source. -/
def definitionPlaces (ds : List (Text × Definition)) : List (Nat × Text) :=
  (ds.map fun d => (d.2.start, d.2.label)).mergeSort fun a b => a.1 ≤ b.1

/-- The document of a source (`parse_document`). -/
def parse (options : ParseOptions) (source : Text) (read : Reader := Markup.read) : Block :=
  let s := read options.smartPunctuation source
  Block.ofEvents source s.events (if options.referenceDefinitions then definitionPlaces s.definitions else [])

end Markup

end CommonMark
