import BattleRoster.Main
import BattleRoster.Upgrade.SelfCall
import BattleRoster.Proofs.Text.Pieces
import BattleRoster.Proofs.Text.OneLine
import BattleRoster.Proofs.Text.Numerals
import BattleRoster.Proofs.Collection.Occurrences
import BattleRoster.Proofs.Session.Restore
import BattleRoster.Proofs.Roster.FreshStart
import BattleRoster.Proofs.Team.Numbering
import BattleRoster.Proofs.Roster.Seating
import BattleRoster.Proofs.Json.Lexing
import BattleRoster.Proofs.Json.RoundTrip
import BattleRoster.Proofs.Roster.Commanders
import BattleRoster.Proofs.Roster.Stances
import BattleRoster.Proofs.Roster.Order
import BattleRoster.Proofs.Roster.Histories
import BattleRoster.Proofs.Upgrade.Evaluation
import BattleRoster.Proofs.Session.QuietCommands
import BattleRoster.Proofs.Session.Reachable
import BattleRoster.Proofs.Session.Replies
import BattleRoster.Proofs.Session.Succession
import BattleRoster.Proofs.Session.RecordText
import BattleRoster.Proofs.Session.Commands
import BattleRoster.Proofs.Session.Lines
import BattleRoster.Proofs.Session.TakingBack
import BattleRoster.Proofs.Side.Lines
import BattleRoster.Proofs.Side.OneLine
import BattleRoster.Proofs.Side.Meaning
import BattleRoster.Proofs.Side.Entries
import BattleRoster.Proofs.Session.Rightful
import BattleRoster.Proofs.Session.History
import BattleRoster.Proofs.Session.Removals
import BattleRoster.Proofs.Session.Pending
import BattleRoster.Proofs.Session.Accounts
import BattleRoster.Proofs.Session.ReportLines
import BattleRoster.Proofs.Session.Effects
import BattleRoster.Proofs.Upgrade.Registration
import BattleRoster.Proofs.Session.Holdings
import BattleRoster.Proofs.Session.SavedUpgrades
import BattleRoster.Proofs.Session.Exchanges
import BattleRoster.Proofs.Roster.Leagues
import BattleRoster.Proofs.Roster.MuteSides
import BattleRoster.Proofs.Session.Listing
import BattleRoster.Proofs.Session.NeutralSeat
import BattleRoster.Proofs.Session.ResponseTexts
import BattleRoster.Proofs.Session.OneLine
import BattleRoster.Proofs.Session.Framing
import BattleRoster.Proofs.Roster.ManagedTeams
import BattleRoster.Proofs.Roster.LocalPlayer
import BattleRoster.Proofs.Collection.LastWins
import BattleRoster.Proofs.Session.HandOver
import BattleRoster.Proofs.Session.RefusedGames
import BattleRoster.Proofs.Session.RefusedSpawns
import BattleRoster.Proofs.Session.Overwriting
import BattleRoster.Proofs.Roster.GameTeams
import BattleRoster.Proofs.Roster.Regards
import BattleRoster.Proofs.Upgrade.OneShot
import BattleRoster.Proofs.Upgrade.Passes
import BattleRoster.Proofs.Collection.FirstOccurrences
import BattleRoster.Proofs.Upgrade.Admission
import BattleRoster.Proofs.Upgrade.NamesAndSets
import BattleRoster.Proofs.Roster.Names
import BattleRoster.Proofs.Roster.CampaignHumans
import BattleRoster.Proofs.Session.ShownNames
import BattleRoster.Proofs.Session.GivenNames
import BattleRoster.Proofs.Roster.MaskVisits
import BattleRoster.Proofs.Upgrade.LastBlueprints
import BattleRoster.Proofs.Session.LoadedBlueprints
