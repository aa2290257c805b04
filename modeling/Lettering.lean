import Lettering.Canvas
import Lettering.Draw.Report
import Lettering.OpenType.Library
import Lettering.Proofs.Canvas.Drawing
import Lettering.Proofs.Canvas.Fonts
import Lettering.Proofs.Canvas.Page
import Lettering.Proofs.Canvas.Paints
import Lettering.Proofs.Canvas.Typesetting
import Lettering.Proofs.Color.Components
import Lettering.Proofs.Color.Hexadecimal
import Lettering.Proofs.Draw.LogLines
import Lettering.Proofs.Draw.Positions
import Lettering.Proofs.Draw.Refusals
import Lettering.Proofs.Draw.Tallies
import Lettering.Proofs.Length.Numerals
import Lettering.Proofs.Length.Reachable
import Lettering.Proofs.Length.Rounding
import Lettering.Proofs.Length.Singles
import Lettering.Proofs.Length.Words
import Lettering.Proofs.Markup.Nesting
import Lettering.Proofs.Markup.Numbering
import Lettering.Proofs.Markup.Printing
import Lettering.Proofs.Markup.Scan
import Lettering.Proofs.Markup.Search
import Lettering.Proofs.Single.Rounding
import Lettering.Proofs.Style.Layers
import Lettering.Proofs.Style.Parts
import Lettering.Proofs.Style.Weights
import Lettering.Proofs.Typeface.Admissions
import Lettering.Proofs.Typeface.Resolving
import Lettering.Proofs.Typeface.Widths
import Lettering.Proofs.Wrap.Boundaries
import Lettering.Proofs.Wrap.Cursor
import Lettering.Proofs.Wrap.Hyphens
import Lettering.Proofs.Wrap.Skipping
import Lettering.Proofs.Wrap.Splitting
import Lettering.Proofs.Wrap.Wider
