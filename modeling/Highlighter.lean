import Highlighter.Main
import Highlighter.Proofs.Qhantoom.Suggestions
import Highlighter.Proofs.Qhantoom.States
import Highlighter.Proofs.Qhantoom.Structure
import Highlighter.Proofs.Reindent.Passes
import Highlighter.Proofs.Scan.Tiling
import Highlighter.Proofs.Session
import Highlighter.Proofs.Scan.Resume
import Highlighter.Proofs.Theme
import Highlighter.Proofs.Command
import Highlighter.Proofs.Toml.Spelling
import Highlighter.Proofs.Toml.Strings
import Highlighter.Proofs.Toml.Scalars
import Highlighter.Proofs.Toml.Sections
import Highlighter.Proofs.Assoc
import Highlighter.Proofs.Toml.Documents
import Highlighter.Proofs.Config
import Highlighter.Proofs.Fold.Exact
import Highlighter.Proofs.Indent.OpenBrackets
import Highlighter.Proofs.Qhantoom.Classification
import Highlighter.Proofs.Color
import Highlighter.Proofs.Qhantoom.Numbers
import Highlighter.Proofs.Qhantoom.QuotedCharacters
import Highlighter.Proofs.Qhantoom.Markers
import Highlighter.Proofs.Qhantoom.ShadowedRule
import Highlighter.Proofs.Fold.FirstOnLine
import Highlighter.Proofs.Fold.NestedFolds
import Highlighter.Proofs.Qhantoom.LeadingClosers
import Highlighter.Proofs.Scan.States
import Highlighter.Proofs.Highlight.Runs
import Highlighter.Proofs.Pattern.Anchored
import Highlighter.Proofs.RuleTable.WellFormed
import Highlighter.Proofs.Meta
import Highlighter.Proofs.Qhantoom.Commenting
import Highlighter.Proofs.Theme.Overrides
import Highlighter.Proofs.Theme.Rendering
import Highlighter.Proofs.Registry
import Highlighter.Proofs.Command.Rows
import Highlighter.Proofs.Command.TokenLines
import Highlighter.Proofs.Config.Partial
import Highlighter.Proofs.Scan.Parts
import Highlighter.Proofs.Indent.Search
import Highlighter.Proofs.Text.Columns
