import PanelRelay.Main
import PanelRelay.Proofs.Envelope.Acceptance
import PanelRelay.Proofs.Capture.Loading
import PanelRelay.Proofs.Xml.Escaping
import PanelRelay.Proofs.Xml.Printing
import PanelRelay.Proofs.Envelope.Shape
import PanelRelay.Proofs.Envelope.Distinctness
import PanelRelay.Proofs.Xml.Lexing
import PanelRelay.Proofs.Xml.Following
import PanelRelay.Proofs.Envelope.Decoding
import PanelRelay.Proofs.Envelope.Renaming
import PanelRelay.Proofs.Envelope.RoundTrip
import PanelRelay.Proofs.Capture.Refusal
import PanelRelay.Proofs.EventLogger.Outcome
import PanelRelay.Proofs.Property.History
import PanelRelay.Proofs.Envelope.Edits
import PanelRelay.Proofs.Xml.Plain
import PanelRelay.Proofs.Device.Identity
import PanelRelay.Proofs.Event.Report
import PanelRelay.Proofs.Event.Disclosure
import PanelRelay.Proofs.Capture.Presentation
import PanelRelay.Proofs.Json.Compact
import PanelRelay.Proofs.Property.Json
import PanelRelay.Proofs.Capture.Writing
import PanelRelay.Proofs.Capture.Availability
import PanelRelay.Proofs.Capture.Placement
import PanelRelay.Proofs.Device.Session
import PanelRelay.Proofs.Event.Distinctness
import PanelRelay.Proofs.Host.Outcome
import PanelRelay.Proofs.Envelope.Resending
import PanelRelay.Proofs.Envelope.Prefixes
import PanelRelay.Proofs.Property.Sameness
import PanelRelay.Proofs.Property.Sizes
import PanelRelay.Proofs.Device.Explanation
import PanelRelay.Proofs.Settings.Layering
import PanelRelay.Proofs.Device.Interchange
import PanelRelay.Proofs.Envelope.Details
import PanelRelay.Proofs.Envelope.Values
import PanelRelay.Proofs.Envelope.Composition
import PanelRelay.Proofs.Capture.Files
import PanelRelay.Proofs.Envelope.Pieces
import PanelRelay.Proofs.Envelope.AttributeOrder
import PanelRelay.Proofs.Capture.Forms
import PanelRelay.Proofs.Device.Json
import PanelRelay.Proofs.Event.Composing
import PanelRelay.Proofs.Event.Start
import PanelRelay.Proofs.Envelope.Integers
import PanelRelay.Proofs.Capture.Numbers
