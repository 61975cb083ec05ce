import CommonMark.CharacterReference
import CommonMark.CharacterReference.Names
import CommonMark.Command
import CommonMark.Command.Arguments
import CommonMark.Config
import CommonMark.Document
import CommonMark.Document.Builder
import CommonMark.Event
import CommonMark.FileSystem
import CommonMark.FileTree
import CommonMark.Html.Escape
import CommonMark.Html.Render
import CommonMark.Html.Writer
import CommonMark.Main
import CommonMark.Markup
import CommonMark.Markup.Definition
import CommonMark.Markup.Draft
import CommonMark.Markup.Emphasis
import CommonMark.Markup.Inline
import CommonMark.Markup.Label
import CommonMark.Markup.Line
import CommonMark.Markup.LineStart
import CommonMark.Markup.Link
import CommonMark.Markup.OpenBlocks
import CommonMark.Markup.Prose
import CommonMark.Markup.RawTag
import CommonMark.Proofs.Forest
import CommonMark.Text.Basic
import CommonMark.Text.Blank
import CommonMark.Text.CaseFolding
import CommonMark.Text.Literal
import CommonMark.Text.Punctuation
import CommonMark.Text.Segment
import CommonMark.Toml.Quoted
import CommonMark.Toml.Reader
import CommonMark.Toml.Table
import CommonMark.Toml.Value
import CommonMark.Proofs.Translation
import CommonMark.Proofs.Html.Spelling
import CommonMark.Proofs.Html.Transcript
import CommonMark.Proofs.Html.Shown
import CommonMark.Proofs.Html.Composition
import CommonMark.Proofs.Html.WellFormed
import CommonMark.Proofs.Html.VisibleText
import CommonMark.Proofs.Detached
import CommonMark.Proofs.SourceFree
import CommonMark.Proofs.Html.Limited
import CommonMark.Proofs.Html.LineStart
import CommonMark.Proofs.Closing
import CommonMark.Proofs.Kept
import CommonMark.Proofs.Nesting
import CommonMark.Proofs.Order
import CommonMark.Proofs.Html.NormalForm
import CommonMark.Proofs.Reference
import CommonMark.Proofs.Html.Joined
import CommonMark.Proofs.Html.Keeping
import CommonMark.Proofs.FileSystem
import CommonMark.Proofs.Command
import CommonMark.Proofs.Growth
import CommonMark.Proofs.Opened
import CommonMark.Proofs.Unsupported
import CommonMark.Proofs.Definitions
import CommonMark.Proofs.OpenLists
import CommonMark.Proofs.Cut
import CommonMark.Proofs.Utf8
import CommonMark.Proofs.Html.Decoding
import CommonMark.Proofs.Html.Scan
import CommonMark.Proofs.NameTable
import CommonMark.Proofs.Recognition
import CommonMark.Proofs.Html.BlankLines
import CommonMark.Proofs.Html.ParagraphTags
import CommonMark.Proofs.Html.AltText
import CommonMark.Proofs.Html.Probing
import CommonMark.Proofs.Html.LineFlag
import CommonMark.Proofs.Html.Trimming
import CommonMark.Proofs.DistinctKeys
import CommonMark.Proofs.Configuration
import CommonMark.Proofs.Readings
import CommonMark.Proofs.Sharing
import CommonMark.Proofs.Discovery
import CommonMark.Proofs.Adjacent
