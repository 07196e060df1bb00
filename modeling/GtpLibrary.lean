import GtpLibrary.Lib.Bytes
import GtpLibrary.Lib.Lists
import GtpLibrary.Lib.Arrays
import GtpLibrary.Lib.CommandText
import GtpLibrary.Lib.Sextets
import GtpLibrary.Lib.Runs
import GtpLibrary.Lib.Horner
import GtpLibrary.Lib.Checks
import GtpLibrary.Lib.Cells
import GtpLibrary.Bits.BitProcessor
import GtpLibrary.Morse.Morse
import GtpLibrary.Morse.Decoding
import GtpLibrary.Sockets.PortToCharArray
import GtpLibrary.Sockets.DateServer
import GtpLibrary.Sockets.DateReply
import GtpLibrary.Mail.Base64
import GtpLibrary.Mail.Base64RoundTrip
import GtpLibrary.Mail.DecodedBits
import GtpLibrary.Mail.CurlEmail
import GtpLibrary.Mail.Upload
import GtpLibrary.Mail.Attachment
import GtpLibrary.Mail.AttachmentPieces
import GtpLibrary.Mail.HeaderLines
import GtpLibrary.Player.LogLines
import GtpLibrary.Player.LogRun
import GtpLibrary.Player.PyText
import GtpLibrary.Player.FeedOutput
import GtpLibrary.Player.Reading
import GtpLibrary.Player.FeedRun
import GtpLibrary.Player.ChunkIndependence
import GtpLibrary.Lib.Ledger
import GtpLibrary.Mysql.Connection
import GtpLibrary.Mysql.ResultSet
import GtpLibrary.Mysql.Ownership
import GtpLibrary.Mysql.StoreResult
import GtpLibrary.App.SubProgram
import GtpLibrary.Digits.RemoveNonDigitChars
import GtpLibrary.Digits.Agreement
import GtpLibrary.Digits.ExactValue
import GtpLibrary.Polling.PollLoop
import GtpLibrary.Polling.Delivery
import GtpLibrary.Login.Values
import GtpLibrary.Login.LoginSystem
import GtpLibrary.Login.CreateAnAccount
import GtpLibrary.Login.Requests
import GtpLibrary.Login.DistinctEmails
import GtpLibrary.Login.InsertText
import GtpLibrary.Login.InsertTokens
import GtpLibrary.Login.InsertMeaning
import GtpLibrary.Login.Activation
import GtpLibrary.Login.LoginAfterActivation
import GtpLibrary.Cron.CrontabSecond
import GtpLibrary.Cron.PidFile
import GtpLibrary.Cron.SingleInstance
import GtpLibrary.Cron.Restart
import GtpLibrary.Cron.FailingCommands
import GtpLibrary.Lib.Paths
import GtpLibrary.Flask.FileWrapper
import GtpLibrary.Flask.ServeStatic
import GtpLibrary.Player.RemoteList
import GtpLibrary.Player.SftpUrl
import GtpLibrary.Player.TrackBrowser
import GtpLibrary.Player.Urlparse
import GtpLibrary.Player.Unquote
import GtpLibrary.Player.KeptPath
import GtpLibrary.Player.BrowserInvariant
import GtpLibrary.Lib.Base64
import GtpLibrary.Lib.Mime
import GtpLibrary.MyFramework.Email
import GtpLibrary.MyFramework.EmailLines
import GtpLibrary.MyFramework.ParsesBack
import GtpLibrary.MyFramework.WebPage
import GtpLibrary.Paint.Screen
import GtpLibrary.Paint.Legend
import GtpLibrary.Lib.Canvas
import GtpLibrary.Paint.LineTracing
import GtpLibrary.Lib.Shell
import GtpLibrary.Kms.Cryptor
import GtpLibrary.Stratus.SendStream
import GtpLibrary.Stratus.Membership
import GtpLibrary.Lib.Numbers
import GtpLibrary.Meniu.OpenWindow
import GtpLibrary.Meniu.WindowNumbers
import GtpLibrary.PCTracker.Register
import GtpLibrary.PCTracker.ShownIds
import GtpLibrary.Lib.Sql
import GtpLibrary.PCTracker.TrackAndView
import GtpLibrary.PCTracker.OwnRow
import GtpLibrary.Lib.Numerals
import GtpLibrary.Lib.Words
import GtpLibrary.Lib.Forms
import GtpLibrary.Lib.Search
import GtpLibrary.McxIndia.ValueExtractor
import GtpLibrary.GitlabRunner.Scripts
import GtpLibrary.GitlabRunner.Containers
import GtpLibrary.K8s.Nodes
import GtpLibrary.Html.HTMLDocument
import GtpLibrary.Html.Renderings
import GtpLibrary.Html.Attributes
import GtpLibrary.Lib.Terminal
import GtpLibrary.ImageCleaner.DrawMenu
import GtpLibrary.ImageCleaner.Geometry
import GtpLibrary.K8s.Addressing
import GtpLibrary.Sums.FindIndex
import GtpLibrary.Sums.BalancePoint
import GtpLibrary.Sums.NoOverflow
import GtpLibrary.Lib.Decimals
import GtpLibrary.Digits.Timer
import GtpLibrary.Sockets.EchoServer
import GtpLibrary.Lib.InfiniteRuns
import GtpLibrary.Sockets.AcceptClient
import GtpLibrary.Sockets.AcceptDiscipline
import GtpLibrary.Lib.Mutex
import GtpLibrary.Lib.Progress
import GtpLibrary.Lib.Logs
import GtpLibrary.Barrier.Program
import GtpLibrary.Barrier.Passing
import GtpLibrary.Barrier.Finishing
import GtpLibrary.Sockets.Reaper
import GtpLibrary.Sockets.Listening
import GtpLibrary.Lib.Registry
import GtpLibrary.PCTracker.Store
import GtpLibrary.Lib.Components
import GtpLibrary.Polling.Client
import GtpLibrary.Mail.Main
import GtpLibrary.ImageCleaner.Removal
import GtpLibrary.Player.PlayModal
import GtpLibrary.Player.OnePlayer
import GtpLibrary.GitlabRunner.Runner
import GtpLibrary.GitlabRunner.Isolation
import GtpLibrary.GitlabRunner.Leftovers
import GtpLibrary.Kms.Script
import GtpLibrary.Kms.RoundTrip
import GtpLibrary.Login.Registered
import GtpLibrary.Sums.Program
import GtpLibrary.Player.PlayMarked
import GtpLibrary.Flask.Download
import GtpLibrary.Bits.Program
