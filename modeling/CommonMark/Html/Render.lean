import CommonMark.Document
import CommonMark.Html.Escape
import CommonMark.Html.Writer
import CommonMark.Text.Blank

/-!
# Rendering

A document tree becomes steps of output. A block that needs a line of its own starts with a fresh line. The
body of a list item is rendered apart, loses the white space at its end, and keeps one line end when the
part cut off had one, so that the closing tag stands where the body's blocks leave it.
-/

namespace CommonMark.Html

/-- A step that writes markup. -/
def markup (s : String) : Step := .text s.toList

/-- A literal as it is, window by window (`write_literal`). -/
def verbatim (l : Literal) : List Step := l.chunks.map fun w => .text w.text

/-- A literal as text; its ampersands are always escaped (`escape_literal` for inlines and code blocks). -/
def textSteps (probe : Probe) (l : Literal) : List Step := (literalPieces false probe l).map .text

/-- The value of an attribute that may hold character references (`escape_str` for URLs, titles and languages). -/
def valueSteps (probe : Probe) (t : Text) : List Step :=
  (literalPieces true probe (.plain t)).map .text

/-- The title of a link or an image, when there is one to show (`HtmlRenderer::title_attribute`). -/
def titleSteps (probe : Probe) (target : Target) : List Step :=
  match target.title with
  | none | some [] => []
  | some (c :: t) => markup " title=\"" :: valueSteps probe (c :: t) ++ [markup "\""]

mutual

/-- The text of an image's label: markup is dropped, breaks are spaces (one round of `HtmlRenderer::plain_text`). -/
def altText (probe : Probe) : Inline → Text
  | .text l | .code l | .rawHtml l => escapeLiteral false probe l
  | .entity l => l.text
  | .lineBreak | .softBreak => [' ']
  | .link _ label | .image _ label => altTexts probe label
  | .strong cs | .emphasis cs => altTexts probe cs

/-- The joined text of inlines (`HtmlRenderer::plain_text`). -/
def altTexts (probe : Probe) : List Inline → Text
  | [] => []
  | i :: is => altText probe i ++ altTexts probe is

end

mutual

/-- The steps of an inline (`HtmlRenderer::inline`). -/
def inlineSteps (probe : Probe) : Inline → List Step
  | .text l => textSteps probe l
  | .lineBreak => [markup "<br />", .newline]
  | .softBreak => [.newline]
  | .code l => markup "<code>" :: textSteps probe l ++ [markup "</code>"]
  | .rawHtml l | .entity l => verbatim l
  | .link target label =>
    markup "<a href=\"" :: valueSteps probe target.url ++ [markup "\""] ++ titleSteps probe target ++
      [markup ">"] ++ inlinesSteps probe label ++ [markup "</a>"]
  | .image target label =>
    markup "<img src=\"" :: valueSteps probe target.url ++
      [markup "\" alt=\"", .text (altTexts probe label), markup "\""] ++ titleSteps probe target ++
      [markup " />"]
  | .strong cs => markup "<strong>" :: inlinesSteps probe cs ++ [markup "</strong>"]
  | .emphasis cs => markup "<em>" :: inlinesSteps probe cs ++ [markup "</em>"]

/-- The steps of inlines, one after another (`HtmlRenderer::inlines`). -/
def inlinesSteps (probe : Probe) : List Inline → List Step
  | [] => []
  | i :: is => inlineSteps probe i ++ inlinesSteps probe is

end

/-- The opening tag of a list; an ordered list that starts with one does not say so (the `match` of
`HtmlRenderer::list`). -/
def listOpening : ListStyle → Step
  | .bullet _ => markup "<ul>"
  | .ordered start _ =>
    if start = 1 then markup "<ol>"
    else .text ("<ol start=\"".toList ++ (toString start).toList ++ "\">".toList)

/-- The closing tag of a list (the `tag` of `HtmlRenderer::list`). -/
def listClosing : ListStyle → Step
  | .bullet _ => markup "</ul>"
  | .ordered .. => markup "</ol>"

/-- A header's tag, opening or closing (in `HtmlRenderer::block`). -/
def headerTag (opening : String) (level : Nat) : Step :=
  .text (opening.toList ++ (toString level).toList ++ ['>'])

/-- The text of a code block and the tags that close it (`HtmlRenderer::code_body`). -/
def codeBody (probe : Probe) (l : Option Literal) : List Step :=
  l.elim [] (textSteps probe) ++ [markup "</code></pre>", .newline]

/-- A list item around a body that was rendered apart (`HtmlRenderer::list_item`). -/
def itemSteps (body : Text) : List Step :=
  let kept := body.trimEnd
  let cut := body.drop kept.length
  [.freshLine, markup "<li>", .text kept] ++
    (if kept ≠ [] ∧ '\n' ∈ cut then [.newline] else []) ++ [markup "</li>", .newline]

mutual

/-- The steps of a block, with those of a list in their place (`HtmlRenderer::block`, `HtmlRenderer::list`). `tight`
says whether a paragraph shows bare. -/
def blockSteps (probe : Probe) (tight : Bool) : Block → List Step
  | ⟨kind, literal, children, inlines⟩ =>
    match kind with
    | .document => blocksSteps probe false children
    | .paragraph =>
      if tight then inlinesSteps probe inlines
      else [.freshLine, markup "<p>"] ++ inlinesSteps probe inlines ++ [markup "</p>", .newline]
    | .blockQuote =>
      [.freshLine, markup "<blockquote>", .newline] ++ blocksSteps probe false children ++
        [.freshLine, markup "</blockquote>", .newline]
    | .list style tightItems =>
      [.freshLine, listOpening style, .newline] ++ blocksSteps probe tightItems children ++
        [.freshLine, listClosing style, .newline]
    | .listItem => itemSteps (transcript false (blocksSteps probe tight children))
    | .atxHeader level | .setextHeader level =>
      [.freshLine, headerTag "<h" level] ++ inlinesSteps probe inlines ++
        [headerTag "</h" level, .newline]
    | .indentedCode => [.freshLine, markup "<pre><code>"] ++ codeBody probe literal
    | .fencedCode info =>
      [.freshLine, markup "<pre><code"] ++
        (match info.firstWord? with
          | none => []
          | some language =>
            markup " class=\"language-" :: valueSteps probe language ++ [markup "\""]) ++
        [markup ">"] ++ codeBody probe literal
    | .htmlBlock => .freshLine :: literal.elim [] verbatim
    | .horizontalRuler => [.freshLine, markup "<hr />", .newline]
    | .referenceDefinition _ => []

/-- The steps of blocks, one after another (`HtmlRenderer::blocks`). -/
def blocksSteps (probe : Probe) (tight : Bool) : List Block → List Step
  | [] => []
  | b :: bs => blockSteps probe tight b ++ blocksSteps probe tight bs

end

/-- Why a rendering stopped. -/
inductive RenderError where
  /-- The sink took no more. -/
  | write
  deriving DecidableEq, Repr

/-- The error in words. -/
def RenderError.message : RenderError → String
  | write => "Failed to write output"

/-- Renders a tree into a writer (`HtmlRenderer::render`). On an error the sink keeps what it took before. -/
def render {σ : Type} [Sink σ] (probe : Probe) (tight : Bool) (root : Block) (w : Writer σ) :
    Writer σ × Except RenderError Unit :=
  match w.run (blockSteps probe tight root) with
  | (w', true) => (w', .ok ())
  | (w', false) => (w', .error .write)

/-- Renders a tree into a text of its own (`HtmlRenderer::render_to_string`). On an error there is none. -/
def renderToString (probe : Probe) (tight : Bool) (root : Block) : Except RenderError Text :=
  match render probe tight root ⟨({} : Buffer), true⟩ with
  | (w, .ok ()) => .ok w.sink.text
  | (_, .error e) => .error e

/-- The HTML of a tree: what is rendered where nothing fails. -/
def renderToText (probe : Probe) (tight : Bool) (root : Block) : Text :=
  transcript true (blockSteps probe tight root)

/-- The HTML of a tree that keeps character references where they may stand (`render_html`). -/
def renderHtml (root : Block) : Text := renderToText .html5 false root

end CommonMark.Html
