import KungFuChess.Library.Dict
import KungFuChess.Library.Sorting
import KungFuChess.Library.Run
import KungFuChess.Library.Conservation
import KungFuChess.Library.Threads
import KungFuChess.Library.Words
import KungFuChess.Library.GreedyMatching
import KungFuChess.Engine.Board
import KungFuChess.Engine.Rules
import KungFuChess.Engine.Arbiter
import KungFuChess.Engine.GameEngine
import KungFuChess.Engine.BoardParser
import KungFuChess.Engine.Legality
import KungFuChess.Engine.Landing
import KungFuChess.Engine.FlightInv
import KungFuChess.Engine.HeadOn
import KungFuChess.Engine.PieceNames
import KungFuChess.Engine.StatusAgreement
import KungFuChess.Engine.Captures
import KungFuChess.Engine.PieceLoss
import KungFuChess.Engine.KingCapture
import KungFuChess.Engine.GridBounds
import KungFuChess.Engine.BoardPrinter
import KungFuChess.Engine.BoardGrammar
import KungFuChess.Engine.CaptureAccount
import KungFuChess.Engine.Mirror
import KungFuChess.Engine.MirrorPlay
import KungFuChess.Engine.TickSplit
import KungFuChess.Engine.SimultaneousArrival
import KungFuChess.Engine.PawnCapture
import KungFuChess.Engine.Promotion
import KungFuChess.Engine.FlightTime
import KungFuChess.Engine.Controller
import KungFuChess.Engine.Alike
import KungFuChess.Engine.Resume
import KungFuChess.Script.ScriptRunner
import KungFuChess.Script.ScriptGame
import KungFuChess.Script.ScriptResume
import KungFuChess.Library.Effect
import KungFuChess.Server.Domain
import KungFuChess.Server.EloRounding
import KungFuChess.Server.State
import KungFuChess.Server.EngineAdapter
import KungFuChess.Server.RoomService
import KungFuChess.Server.GameService
import KungFuChess.Server.MatchmakingService
import KungFuChess.Server.ServerRuntime
import KungFuChess.Server.Outcomes
import KungFuChess.Server.Actions
import KungFuChess.Server.RoomInv
import KungFuChess.Server.RoomRoles
import KungFuChess.Server.Seated
import KungFuChess.Server.Members
import KungFuChess.Server.Release
import KungFuChess.Server.RatedPlayers
import KungFuChess.Server.RatingWrites
import KungFuChess.Server.Pairing
import KungFuChess.Server.FailedPair
import KungFuChess.Server.FirstCome
import KungFuChess.Server.SeatingCalls
import KungFuChess.Server.RoomOpening
import KungFuChess.Server.GameHistory
import KungFuChess.Server.AllocatorKeys
import KungFuChess.Server.AwaitedTick
import KungFuChess.Server.AwaitedGrace
import KungFuChess.Split.Matchmaker
import KungFuChess.Split.CancelledSearch
import KungFuChess.Split.SamePairs
import KungFuChess.Split.GameServer
import KungFuChess.Split.Cluster
import KungFuChess.Split.Handlers
import KungFuChess.Split.ClusterSteps
import KungFuChess.Split.CommandBus
import KungFuChess.Split.FailedCalls
import KungFuChess.Split.OneSeat
import KungFuChess.Split.MatchServed
import KungFuChess.Split.Directory
import KungFuChess.Split.Rejoin
import KungFuChess.Transport.ConnectionRegistry
import KungFuChess.Transport.Protocol
import KungFuChess.Transport.MessageFields
import KungFuChess.Transport.WireMessages
import KungFuChess.Transport.WireRoundTrip
import KungFuChess.Transport.MessageRouter
import KungFuChess.Accounts.AuthService
import KungFuChess.Accounts.Logins
import KungFuChess.Accounts.SessionLifetime
import KungFuChess.Client.NetworkClient
import KungFuChess.Client.GameController
import KungFuChess.Client.Requests
import KungFuChess.Client.Animation
import KungFuChess.Transport.OwnMoves
import KungFuChess.Split.StatusCalls
import KungFuChess.Split.Gateway
import KungFuChess.Split.Presence
import KungFuChess.Server.Iteration
import KungFuChess.Server.Exclusion
import KungFuChess.Server.FinalState
import KungFuChess.Server.Heard
import KungFuChess.Client.Broadcasts
import KungFuChess.Client.SameBoard
import KungFuChess.Server.EventRule
import KungFuChess.Server.RoomGames
import KungFuChess.Server.Results
import KungFuChess.Library.Totals
import KungFuChess.Server.RatingTotal
import KungFuChess.Server.ResultTicks
import KungFuChess.Server.AbsentPlayer
