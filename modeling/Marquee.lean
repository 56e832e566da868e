import Marquee.Color
import Marquee.Counter
import Marquee.Canvas.Drawing
import Marquee.Timeline
import Marquee.Display.RoundPanel
import Marquee.Display.Screen
import Marquee.Settings.Document
import Marquee.Settings.Notice
import Marquee.Settings.Review
import Marquee.Sign
import Marquee.Wire.Script
import Marquee.Proofs.Canvas.SquareRoot
import Marquee.Proofs.Wire.Segments
import Marquee.Proofs.Wire.Acceptance
import Marquee.Proofs.Wire.Delimiting
import Marquee.Proofs.Display.Composition
import Marquee.Proofs.Display.Freshness
import Marquee.Proofs.Timeline.Order
import Marquee.Proofs.Stage.Refusal
import Marquee.Proofs.Stage.Binding
import Marquee.Proofs.Stage.References
import Marquee.Proofs.Stage.Scripts
import Marquee.Proofs.Stage.Interleaving
import Marquee.Proofs.Link.Schedule
import Marquee.Proofs.Link.Accounting
import Marquee.Proofs.Canvas.Drawing
import Marquee.Proofs.Canvas.Layers
import Marquee.Proofs.Scene.Changes
import Marquee.Proofs.Scene.Names
import Marquee.Proofs.Stage.Opacity
import Marquee.Proofs.Stage.Renewal
import Marquee.Proofs.Stage.Answers
import Marquee.Proofs.Wire.Timed
import Marquee.Proofs.Wire.Conservation
import Marquee.Proofs.Wire.Timeouts
import Marquee.Proofs.Display.Discipline
import Marquee.Proofs.Display.Readiness
import Marquee.Proofs.Timeline.Selection
import Marquee.Proofs.Stage.Playback
import Marquee.Proofs.Stage.Repeats
import Marquee.Proofs.Stage.Bitmaps
import Marquee.Proofs.Wire.Endings
import Marquee.Proofs.Link.LineRate
import Marquee.Proofs.Link.Loops
import Marquee.Proofs.Link.Reports
import Marquee.Proofs.Settings.Lines
import Marquee.Proofs.Settings.Documents
import Marquee.Proofs.Display.Pixels
import Marquee.Proofs.Display.Rows
import Marquee.Proofs.Canvas.Rectangles
import Marquee.Proofs.Settings.Numbers
import Marquee.Proofs.Wire.Overwriting
