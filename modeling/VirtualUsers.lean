import VirtualUsers.Failure
import VirtualUsers.Bridge
import VirtualUsers.Bridge.Acting
import VirtualUsers.Bridge.Observation
import VirtualUsers.Bridge.Registration
import VirtualUsers.Bridge.Service
import VirtualUsers.Call
import VirtualUsers.Cbor
import VirtualUsers.CommandLine.Arguments
import VirtualUsers.CommandLine.Grammar
import VirtualUsers.CommandLine.Run
import VirtualUsers.Environment
import VirtualUsers.Files
import VirtualUsers.Homeserver.Client
import VirtualUsers.Homeserver.Request
import VirtualUsers.Journal
import VirtualUsers.Journal.LineFormat
import VirtualUsers.Main
import VirtualUsers.Number.Decimal
import VirtualUsers.Number.Double
import VirtualUsers.Protocol
import VirtualUsers.Registry
import VirtualUsers.Room.Event
import VirtualUsers.Room.PowerLevels
import VirtualUsers.Settings
import VirtualUsers.Store
import VirtualUsers.Table
import VirtualUsers.Tally
import VirtualUsers.Text
import VirtualUsers.Text.CaseTable
import VirtualUsers.Text.PrintableTable
import VirtualUsers.Text.WordTable
import VirtualUsers.Toml
import VirtualUsers.Toml.Document
import VirtualUsers.Toml.Written
import VirtualUsers.Value
import VirtualUsers.Value.Coerce
import VirtualUsers.Proofs.Outcome
import VirtualUsers.Proofs.LocalFailures
import VirtualUsers.Proofs.Traffic
import VirtualUsers.Proofs.Requests
import VirtualUsers.Proofs.Turns
import VirtualUsers.Proofs.Walks
import VirtualUsers.Proofs.Refusals
import VirtualUsers.Proofs.Entry
import VirtualUsers.Proofs.Runs
import VirtualUsers.Proofs.Registrations
import VirtualUsers.Proofs.Absorption
import VirtualUsers.Proofs.Memberships
import VirtualUsers.Proofs.Mirroring
import VirtualUsers.Proofs.Payloads
import VirtualUsers.Proofs.Carriage
import VirtualUsers.Proofs.Contract
import VirtualUsers.Proofs.Transactions
import VirtualUsers.Proofs.Numbering
import VirtualUsers.Proofs.Gate
import VirtualUsers.Proofs.Admissions
import VirtualUsers.Proofs.Counts
import VirtualUsers.Proofs.Accounts
import VirtualUsers.Proofs.Copies
import VirtualUsers.Proofs.ReadBack
import VirtualUsers.Proofs.Reordering
import VirtualUsers.Proofs.Unrecognised
import VirtualUsers.Proofs.FileTexts
import VirtualUsers.Proofs.EscapedTexts
import VirtualUsers.Proofs.Restarts
import VirtualUsers.Proofs.Addresses
import VirtualUsers.Proofs.Localparts
import VirtualUsers.Proofs.Identities
import VirtualUsers.Proofs.Inviters
import VirtualUsers.Proofs.QuotedTexts
import VirtualUsers.Proofs.FirstSettings
import VirtualUsers.Proofs.Levels
import VirtualUsers.Proofs.LevelChange
import VirtualUsers.Proofs.Clones
import VirtualUsers.Proofs.Typing
import VirtualUsers.Proofs.InfiniteLevels
import VirtualUsers.Proofs.SentStates
import VirtualUsers.Proofs.RoomStates
import VirtualUsers.Proofs.KnownLevels
import VirtualUsers.Proofs.StringTexts
import VirtualUsers.Proofs.KeyTexts
import VirtualUsers.Proofs.ValueTexts
import VirtualUsers.Proofs.LineTexts
import VirtualUsers.Proofs.NewLines
import VirtualUsers.Proofs.TablePaths
import VirtualUsers.Proofs.Omissions
import VirtualUsers.Proofs.ArrayEntries
import VirtualUsers.Proofs.RegistryPlaces
import VirtualUsers.Proofs.PlaceTexts
import VirtualUsers.Proofs.InlineTables
import VirtualUsers.Proofs.LineEnds
import VirtualUsers.Proofs.RegistryText
import VirtualUsers.Proofs.TableValues
import VirtualUsers.Proofs.RegistryWrites
import VirtualUsers.Proofs.RegistryFiles
import VirtualUsers.Proofs.Cells
import VirtualUsers.Proofs.JoinedMembers
import VirtualUsers.Proofs.Sizes
import VirtualUsers.Proofs.GivenTimes
import VirtualUsers.Proofs.LevelEdits
import VirtualUsers.Proofs.EventGrammar
import VirtualUsers.Proofs.SettingsOverlay
import VirtualUsers.Proofs.FileGrowth
import VirtualUsers.Proofs.JournalSetup
