import EspLinux.Lib.Run
import EspLinux.Lib.Chain
import EspLinux.Lib.Loop
import EspLinux.Lib.Weave
import EspLinux.Lib.Mutual
import EspLinux.Lib.Ledger
import EspLinux.Lib.Words
import EspLinux.Ccd.Device
import EspLinux.Ccd.Exposure
import EspLinux.Ccd.Queue
import EspLinux.Ccd.Links
import EspLinux.Ccd.Linked
import EspLinux.Ccd.Refine
import EspLinux.Ccd.Lists
import EspLinux.Ccd.Blocking
import EspLinux.Ccd.Counting
import EspLinux.Ccd.Entries
import EspLinux.Ccd.Timer
import EspLinux.Ccd.Latch
import EspLinux.Ccd.Framing
import EspLinux.Ccd.TextFrame
import EspLinux.Ccd.Parse
import EspLinux.Ccd.Stream
import EspLinux.Ccd.TextMeaning
import EspLinux.Ccd.TextClients
import EspLinux.Ccd.TextBinary
import EspLinux.Ser2net.Escape
import EspLinux.Ser2net.Listen
import EspLinux.Ser2net.Options
import EspLinux.Ser2net.Independent
import EspLinux.Ser2net.Wire
import EspLinux.Ser2net.ReadSize
import EspLinux.Ser2net.Monitor
import EspLinux.Ser2net.Descriptors
import EspLinux.Net.Resolv
import EspLinux.Lib.Assign
import EspLinux.Net.Failover
import EspLinux.Net.Masquerade
import EspLinux.Net.ShoreRoute
import EspLinux.SxUsb.Busy
import EspLinux.Vi.Unsaved
import EspLinux.Vi.Pointers
import EspLinux.Vi.Room
import EspLinux.Ser2net.DevCfg
import EspLinux.Ser2net.Decoder
import EspLinux.Ser2net.Inbound
import EspLinux.Ser2net.Trace
import EspLinux.Ccd.Wedge
import EspLinux.Ccd.AbortRead
import EspLinux.Ccd.Polling
import EspLinux.Ccd.Staging
import EspLinux.SxUsb.ReadPixels
import EspLinux.Vi.ReadFile
import EspLinux.Vi.Substitute
import EspLinux.Vi.DeletePut
import EspLinux.Vi.Keyboard
import EspLinux.Vi.Cursor
import EspLinux.Vi.UndoLine
import EspLinux.Vi.Pairs
import EspLinux.Vi.Render
import EspLinux.Ser2net.TimerRuns
import EspLinux.Vi.StatusLine
import EspLinux.Vi.BufferRuns
import EspLinux.Kermit.FileData
import EspLinux.Kermit.Damage
import EspLinux.Kermit.Transfer
