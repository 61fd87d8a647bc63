import Beacon.Roster.Admission
import Beacon.Roster.Budget
import Beacon.Roster.Tombstones
import Beacon.Roster.Agreement
import Beacon.Roster.Ledgering
import Beacon.Roster.Quarantine
import Beacon.Roster.Epochs
import Beacon.Roster.Price
import Beacon.Roster.Refusals
import Beacon.Roster.Shortcut
import Beacon.Roster.Adoption
import Beacon.Roster.Invented
import Beacon.Roster.Restart
import Beacon.Roster.Courier
import Beacon.Roster.ServerList
import Beacon.Client
import Beacon.Client.Enroll
import Beacon.Client.Listing
import Beacon.Family
import Beacon.Gossip
import Beacon.Splits
import Beacon.Churn.Clock
import Beacon.Churn.Pruning
import Beacon.Consent
import Beacon.Envelope
import Beacon.Outbox.Accounts
import Beacon.Outbox.Order
import Beacon.Outbox.Delivery
import Beacon.Outbox.Bounds
import Beacon.Outbox.Budget
import Beacon.Outbox.Pacing
import Beacon.Outbox.Sessions
import Beacon.Outbox.InProcess
import Beacon.Session.Pair
import Beacon.Session.Fallback
import Beacon.Session.Attribution
import Beacon.Session.Host
import Beacon.Passage
import Beacon.Letters
import Beacon.Pairing
import Beacon.Transport.Binding
import Beacon.Transport.Requests
import Beacon.Transport.Rotation
import Beacon.Transport.Clones
import Beacon.Transport.Agent
import Beacon.Rfc3339.Format
import Beacon.Rfc3339.Shape
import Beacon.Rfc3339.Civil
import Beacon.Address
import Beacon.Address.Grammar
import Beacon.Address.Display
