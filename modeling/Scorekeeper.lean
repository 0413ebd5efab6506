import Scorekeeper.Remote.Settings
import Scorekeeper.Rehearsal.Stage
import Scorekeeper.Proofs.Queue.Crossing
import Scorekeeper.Proofs.Save.Rollback
import Scorekeeper.Proofs.Save.Attendance
import Scorekeeper.Proofs.Save.Confluence
import Scorekeeper.Proofs.Save.Settling
import Scorekeeper.Proofs.Save.Effects
import Scorekeeper.Proofs.Save.Timers
import Scorekeeper.Proofs.Card.Derived
import Scorekeeper.Proofs.Card.LastWrites
import Scorekeeper.Proofs.Card.Roster
import Scorekeeper.Proofs.Card.Normal
import Scorekeeper.Proofs.Card.Ranking
import Scorekeeper.Proofs.Card.Answers
import Scorekeeper.Proofs.Card.Ids
import Scorekeeper.Proofs.Service.Restoring
import Scorekeeper.Proofs.Service.Refused
import Scorekeeper.Proofs.Queue.Ledger
import Scorekeeper.Proofs.Queue.Addresses
import Scorekeeper.Proofs.Queue.Atomicity
import Scorekeeper.Proofs.Service.Format
import Scorekeeper.Proofs.Queue.Partition
import Scorekeeper.Proofs.Save.Neighbours
import Scorekeeper.Proofs.Service.Openings
import Scorekeeper.Proofs.Service.Faults
import Scorekeeper.Proofs.Service.Limits
import Scorekeeper.Proofs.Service.Offers
import Scorekeeper.Proofs.Service.NewCards
import Scorekeeper.Proofs.Queue.Listing
import Scorekeeper.Proofs.Remote.Confirmed
import Scorekeeper.Proofs.Service.Catalogs
import Scorekeeper.Proofs.Queue.Leftovers
