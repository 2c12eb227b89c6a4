import RatboxServices.Conf.Lexer
import RatboxServices.Conf.Parser
import RatboxServices.Conf.ParserRun
import RatboxServices.Conf.Quoted
import RatboxServices.Db.Exec
import RatboxServices.Db.Format
import RatboxServices.Db.FormatNumber
import RatboxServices.Db.FormatQuote
import RatboxServices.Db.HookSync
import RatboxServices.Db.Statements
import RatboxServices.Irc.CString
import RatboxServices.Irc.Hash
import RatboxServices.Irc.InetAgree
import RatboxServices.Irc.InetFields
import RatboxServices.Irc.InetPton
import RatboxServices.Irc.InetQuad
import RatboxServices.Irc.InetSkim
import RatboxServices.Irc.InetText
import RatboxServices.Irc.Line
import RatboxServices.Irc.Match
import RatboxServices.Irc.MatchGlob
import RatboxServices.Lib.Assign
import RatboxServices.Lib.BSearch
import RatboxServices.Lib.Bits
import RatboxServices.Lib.Buckets
import RatboxServices.Lib.Choice
import RatboxServices.Lib.Dlink
import RatboxServices.Lib.Edits
import RatboxServices.Lib.Evolve
import RatboxServices.Lib.Firsts
import RatboxServices.Lib.Flex
import RatboxServices.Lib.Glob
import RatboxServices.Lib.Heap
import RatboxServices.Lib.Ids
import RatboxServices.Lib.Index
import RatboxServices.Lib.Keyed
import RatboxServices.Lib.Ledger
import RatboxServices.Lib.Lookup
import RatboxServices.Lib.Numeral
import RatboxServices.Lib.Odometer
import RatboxServices.Lib.Outcome
import RatboxServices.Lib.Printf
import RatboxServices.Lib.Refcount
import RatboxServices.Lib.Run
import RatboxServices.Lib.Split
import RatboxServices.Lib.Table
import RatboxServices.Lib.Track
import RatboxServices.Lib.Walk
import RatboxServices.Lib.Word
import RatboxServices.Net.Act
import RatboxServices.Net.BanList
import RatboxServices.Net.BanMask
import RatboxServices.Net.Channel
import RatboxServices.Net.ChannelCommand
import RatboxServices.Net.ChannelEvolve
import RatboxServices.Net.ChannelInv
import RatboxServices.Net.ChannelList
import RatboxServices.Net.ChannelLookup
import RatboxServices.Net.ChannelName
import RatboxServices.Net.ChannelPath
import RatboxServices.Net.ChannelRun
import RatboxServices.Net.Cidr
import RatboxServices.Net.ClientCommand
import RatboxServices.Net.Data
import RatboxServices.Net.Dcc
import RatboxServices.Net.Effect
import RatboxServices.Net.Exit
import RatboxServices.Net.ExitFrame
import RatboxServices.Net.ExitTree
import RatboxServices.Net.HandlerEffect
import RatboxServices.Net.Hazard
import RatboxServices.Net.HookCall
import RatboxServices.Net.HookMove
import RatboxServices.Net.HookReach
import RatboxServices.Net.HostTable
import RatboxServices.Net.JoinAgree
import RatboxServices.Net.JoinEffect
import RatboxServices.Net.LineEffect
import RatboxServices.Net.LineRun
import RatboxServices.Net.LineSafe
import RatboxServices.Net.Link
import RatboxServices.Net.LinkStep
import RatboxServices.Net.ListRun
import RatboxServices.Net.Marks
import RatboxServices.Net.Mode
import RatboxServices.Net.ModeAgree
import RatboxServices.Net.ModeBuffer
import RatboxServices.Net.ModeHeard
import RatboxServices.Net.ModeInv
import RatboxServices.Net.ModeLines
import RatboxServices.Net.ModeReplay
import RatboxServices.Net.ModeRound
import RatboxServices.Net.ModeRun
import RatboxServices.Net.ModeTrack
import RatboxServices.Net.Modebuild
import RatboxServices.Net.PingRun
import RatboxServices.Net.Raised
import RatboxServices.Net.ReconnectRun
import RatboxServices.Net.RemoveModes
import RatboxServices.Net.Reseat
import RatboxServices.Net.Rest
import RatboxServices.Net.RestEffect
import RatboxServices.Net.RestService
import RatboxServices.Net.SentJoin
import RatboxServices.Net.SentModes
import RatboxServices.Net.ServerCommand
import RatboxServices.Net.SignoffRun
import RatboxServices.Net.SjoinMerge
import RatboxServices.Net.State
import RatboxServices.Net.System
import RatboxServices.Net.TableRun
import RatboxServices.Net.Tables
import RatboxServices.Net.TakeoverAgree
import RatboxServices.Net.TopicBurst
import RatboxServices.Net.Tree
import RatboxServices.Net.TsRun
import RatboxServices.Net.Uid
import RatboxServices.Serv.AccessRun
import RatboxServices.Serv.Accounts
import RatboxServices.Serv.Alis
import RatboxServices.Serv.AlisMode
import RatboxServices.Serv.AlisQuery
import RatboxServices.Serv.AlisRun
import RatboxServices.Serv.BanCache
import RatboxServices.Serv.BanCommand
import RatboxServices.Serv.BanListRun
import RatboxServices.Serv.BanMove
import RatboxServices.Serv.BanRows
import RatboxServices.Serv.BanRun
import RatboxServices.Serv.ChanBan
import RatboxServices.Serv.ChanEnforce
import RatboxServices.Serv.ChanHook
import RatboxServices.Serv.ChanKick
import RatboxServices.Serv.ChanNotes
import RatboxServices.Serv.Chanfix
import RatboxServices.Serv.ChanfixFlags
import RatboxServices.Serv.ChanfixHistory
import RatboxServices.Serv.ChanfixLink
import RatboxServices.Serv.ChanfixList
import RatboxServices.Serv.ChanfixMatch
import RatboxServices.Serv.ChanfixRun
import RatboxServices.Serv.ChanfixScore
import RatboxServices.Serv.CommandTable
import RatboxServices.Serv.EnforceRun
import RatboxServices.Serv.ExpireBonus
import RatboxServices.Serv.FloodRun
import RatboxServices.Serv.HelpCache
import RatboxServices.Serv.HelpCacheRun
import RatboxServices.Serv.HelpIndex
import RatboxServices.Serv.HelpPart
import RatboxServices.Serv.Ignore
import RatboxServices.Serv.JoinTable
import RatboxServices.Serv.JupeRun
import RatboxServices.Serv.Jupes
import RatboxServices.Serv.KickRun
import RatboxServices.Serv.LangCheck
import RatboxServices.Serv.LangFormat
import RatboxServices.Serv.LoginRun
import RatboxServices.Serv.LookupRun
import RatboxServices.Serv.MailReset
import RatboxServices.Serv.MemberRows
import RatboxServices.Serv.Memo
import RatboxServices.Serv.MemoRun
import RatboxServices.Serv.MergeRun
import RatboxServices.Serv.ModeEnforce
import RatboxServices.Serv.ModeTable
import RatboxServices.Serv.NickOwner
import RatboxServices.Serv.NickTable
import RatboxServices.Serv.OperBanRun
import RatboxServices.Serv.OperBanSync
import RatboxServices.Serv.OperBans
import RatboxServices.Serv.OperConf
import RatboxServices.Serv.OperRefRun
import RatboxServices.Serv.OperRefs
import RatboxServices.Serv.Privilege
import RatboxServices.Serv.RegCommand
import RatboxServices.Serv.RegInv
import RatboxServices.Serv.RegMove
import RatboxServices.Serv.RegSettle
import RatboxServices.Serv.RegTable
import RatboxServices.Serv.RegexpLoad
import RatboxServices.Serv.RegexpRun
import RatboxServices.Serv.Regexps
import RatboxServices.Serv.RegisterLimit
import RatboxServices.Serv.Regs
import RatboxServices.Serv.ScoreList
import RatboxServices.Serv.SjoinConverge
import RatboxServices.Serv.TempTime
import RatboxServices.Serv.Token
import RatboxServices.Serv.TokenRun
import RatboxServices.Serv.Unverified
import RatboxServices.Serv.Welcome
