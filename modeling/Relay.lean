import Relay.Main
import Relay.Payload.ListPair
import Relay.Session.Action
import Relay.Shape.Layout
import Relay.Proofs.Bench
import Relay.Proofs.Disposal
import Relay.Proofs.Form.RoundTrip
import Relay.Proofs.Invocation.SingleToken
import Relay.Proofs.Program
import Relay.Proofs.Session.Crews
import Relay.Proofs.Session.Delivery
import Relay.Proofs.Settings.Layers
import Relay.Proofs.Shape.Name
import Relay.Proofs.Sharing.Disturbance
import Relay.Proofs.Sharing.Snapshot
import Relay.Proofs.Sorting.Halves
import Relay.Proofs.Sorting.Weave
import Relay.Proofs.Text.Numerals
import Relay.Proofs.Text.RoundTrip
