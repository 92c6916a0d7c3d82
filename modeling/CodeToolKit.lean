import CodeToolKit.Lib.Critical
import CodeToolKit.Lib.Delimited
import CodeToolKit.Lib.Heap
import CodeToolKit.Lib.Journal
import CodeToolKit.Lib.LinkedList
import CodeToolKit.Lib.Performed
import CodeToolKit.Lib.Pick
import CodeToolKit.Lib.Printf
import CodeToolKit.Lib.Program
import CodeToolKit.Lib.Reader
import CodeToolKit.Lib.RecLock
import CodeToolKit.Lib.Scan
import CodeToolKit.Lib.Siblings
import CodeToolKit.Lib.Slots
import CodeToolKit.Lib.Tickets
import CodeToolKit.Lib.Transition
import CodeToolKit.Lib.Upsert
import CodeToolKit.Lib.Utf16
import CodeToolKit.Lib.Words
import CodeToolKit.SQL.Database
import CodeToolKit.SQL.Kinds
import CodeToolKit.SQL.QuoteCount
import CodeToolKit.SQL.Quotes
import CodeToolKit.SQL.Statement
import CodeToolKit.SQL.Template
import CodeToolKit.SQL.TextLength
import CodeToolKit.SQL.Token
import CodeToolKit.HwbrapSqlite.BufferSize
import CodeToolKit.HwbrapSqlite.Calls
import CodeToolKit.HwbrapSqlite.Changes
import CodeToolKit.HwbrapSqlite.CommitLock
import CodeToolKit.HwbrapSqlite.CommitRequest
import CodeToolKit.HwbrapSqlite.CommitThread
import CodeToolKit.HwbrapSqlite.Compose
import CodeToolKit.HwbrapSqlite.Connection
import CodeToolKit.HwbrapSqlite.Durability
import CodeToolKit.HwbrapSqlite.FailedConnect
import CodeToolKit.HwbrapSqlite.Filter
import CodeToolKit.HwbrapSqlite.FilterStatement
import CodeToolKit.HwbrapSqlite.Handle
import CodeToolKit.HwbrapSqlite.Lifetime
import CodeToolKit.HwbrapSqlite.Linearize
import CodeToolKit.HwbrapSqlite.LinkData
import CodeToolKit.HwbrapSqlite.LinkQuery
import CodeToolKit.HwbrapSqlite.LinkRoundTrip
import CodeToolKit.HwbrapSqlite.LinkUpsert
import CodeToolKit.HwbrapSqlite.NewId
import CodeToolKit.HwbrapSqlite.Pieces
import CodeToolKit.HwbrapSqlite.Quoting
import CodeToolKit.HwbrapSqlite.ReadBack
import CodeToolKit.HwbrapSqlite.Reconnect
import CodeToolKit.HwbrapSqlite.ResultCells
import CodeToolKit.HwbrapSqlite.RuleDelete
import CodeToolKit.HwbrapSqlite.RuleQuery
import CodeToolKit.HwbrapSqlite.RuleRoundTrip
import CodeToolKit.HwbrapSqlite.RuleSelect
import CodeToolKit.HwbrapSqlite.RuleUpsert
import CodeToolKit.HwbrapSqlite.Session
import CodeToolKit.HwbrapSqlite.Stored
import CodeToolKit.HwbrapSqlite.Tables
import CodeToolKit.HwbrapSqlite.WriteStatement
import CodeToolKit.HwbrapSqlite.ZenoSQL
import CodeToolKit.TrimTSFile.Dom
import CodeToolKit.TrimTSFile.Frame
import CodeToolKit.TrimTSFile.Leaves
import CodeToolKit.TrimTSFile.Loading
import CodeToolKit.TrimTSFile.MainWindow
import CodeToolKit.TrimTSFile.Reached
import CodeToolKit.TrimTSFile.ReadAndSave
import CodeToolKit.TrimTSFile.RecallAll
import CodeToolKit.TrimTSFile.Saved
import CodeToolKit.TrimTSFile.Trim
import CodeToolKit.TrimTSFile.View
import CodeToolKit.TrimTSFile.Written
import CodeToolKit.ViBe.Model
import CodeToolKit.ViBe.Neighbourhood
import CodeToolKit.ViBe.Provenance
import CodeToolKit.ViBe.Refresh
import CodeToolKit.ViBe.Streak
import CodeToolKit.ViBe.Visits
import CodeToolKit.Libmms.AsfHeader
import CodeToolKit.Libmms.AsfObjects
import CodeToolKit.Libmms.AsfSound
import CodeToolKit.Libmms.Bswap
import CodeToolKit.Libmms.Http
import CodeToolKit.Libmms.Mmsh
import CodeToolKit.Libmms.MmshFilm
import CodeToolKit.Libmms.MmshRead
import CodeToolKit.Libmms.MmshSeek
import CodeToolKit.Libmms.Selection
import CodeToolKit.Libmms.Server
import CodeToolKit.Libmms.Uri
import CodeToolKit.Libmms.Utf
import CodeToolKit.Mms.Downloader
import CodeToolKit.ObjectDetect.Borders
import CodeToolKit.ObjectDetect.Contours
import CodeToolKit.ObjectDetect.GetRandom
import CodeToolKit.ObjectDetect.LifeLength
import CodeToolKit.ObjectDetect.Steps
import CodeToolKit.ObjectDetect.Subscripts
import CodeToolKit.ObjectDetect.Vibe
import CodeToolKit.Serialize.Invertible
import CodeToolKit.Serialize.Ownership
import CodeToolKit.Serialize.SerializeData
