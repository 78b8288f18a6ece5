import P2PFileShare.Tracker.Replay
import P2PFileShare.Tracker.Authorisation
import P2PFileShare.Tracker.Independence
import P2PFileShare.Tracker.Replicas
import P2PFileShare.Tracker.Joining
import P2PFileShare.Client.ProcessInput
import P2PFileShare.Client.FileIO
import P2PFileShare.Client.Download
import P2PFileShare.Client.Integrity
import P2PFileShare.Network.Socket
import P2PFileShare.Tracker.Mirroring
import P2PFileShare.Network.Descriptors
import P2PFileShare.Network.Exhaustion
import P2PFileShare.Tracker.Exchange
import P2PFileShare.Tracker.Catalogue
import P2PFileShare.Network.Bookkeeping
import P2PFileShare.Client.Commands
import P2PFileShare.Client.Records
import P2PFileShare.Swarm.Seeding
import P2PFileShare.Swarm.Progress
import P2PFileShare.Swarm.Disclosure
import P2PFileShare.Network.Messages
import P2PFileShare.Tracker.Links
import P2PFileShare.Tracker.Strangers
import P2PFileShare.Tracker.Confinement
import P2PFileShare.Tracker.Membership
import P2PFileShare.Client.Offers
import P2PFileShare.Client.Failover
import P2PFileShare.Client.Identity
import P2PFileShare.Client.Passes
import P2PFileShare.Client.Announcements
import P2PFileShare.Client.Queue
import P2PFileShare.Client.Reassembly
import P2PFileShare.Client.Peers
import P2PFileShare.Tracker.Malformed
import P2PFileShare.Tracker.Seeders
import P2PFileShare.Tracker.Listings
import P2PFileShare.Tracker.Cluster
import P2PFileShare.Tracker.Chronicle
import P2PFileShare.Tracker.Accounts
import P2PFileShare.Tracker.Takeover
import P2PFileShare.Client.Inventory
import P2PFileShare.Client.MainLoop
import P2PFileShare.Client.Pausing
import P2PFileShare.Client.Status
import P2PFileShare.Common.TrackerInfo
