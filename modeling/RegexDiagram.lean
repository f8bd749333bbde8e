import RegexDiagram.Main
import RegexDiagram.Logging
import RegexDiagram.Proofs.Pattern.Quantifiers
import RegexDiagram.Proofs.Pattern.Spans
import RegexDiagram.Proofs.Pattern.Tiling
import RegexDiagram.Proofs.Pattern.Nested
import RegexDiagram.Proofs.Pattern.Lossless
import RegexDiagram.Proofs.Pattern.Escapes
import RegexDiagram.Proofs.Pattern.Gather
import RegexDiagram.Proofs.Pattern.Scanner
import RegexDiagram.Proofs.Pattern.Diagnostics
import RegexDiagram.Proofs.Drawing.Texts
import RegexDiagram.Proofs.Drawing.Words
import RegexDiagram.Proofs.Pattern.Groups
import RegexDiagram.Proofs.Drawing.Routes
import RegexDiagram.Proofs.Drawing.Separation
import RegexDiagram.Proofs.Svg.Document
import RegexDiagram.Proofs.Canvas.Readable
import RegexDiagram.Proofs.Pattern.LiteralForm
import RegexDiagram.Proofs.Pattern.Lookahead
import RegexDiagram.Proofs.Pattern.Composition
import RegexDiagram.Proofs.Pattern.Repeated
import RegexDiagram.Proofs.Pattern.Ranges
import RegexDiagram.Proofs.Pattern.Shapes
import RegexDiagram.Proofs.Pattern.Ordinals
import RegexDiagram.Proofs.Drawing.Wrapping
import RegexDiagram.Proofs.Drawing.Discernible
import RegexDiagram.Proofs.Drawing.Measured
import RegexDiagram.Proofs.Drawing.Curves
import RegexDiagram.Proofs.Canvas.Segments
import RegexDiagram.Proofs.Canvas.Containment
import RegexDiagram.Proofs.Canvas.Alphabet
import RegexDiagram.Proofs.Canvas.WholeCells
import RegexDiagram.Proofs.Svg.Legal
import RegexDiagram.Proofs.Canvas.Storage
import RegexDiagram.Proofs.Canvas.Protection
import RegexDiagram.Proofs.Canvas.Picture
import RegexDiagram.Proofs.Canvas.Coloring
import RegexDiagram.Proofs.Pattern.Culprits
import RegexDiagram.Proofs.Pattern.Listing
import RegexDiagram.Proofs.Drawing.Verbatim
import RegexDiagram.Proofs.Pattern.Flags
import RegexDiagram.Proofs.Pattern.Cursors
import RegexDiagram.Proofs.Canvas.Occupied
