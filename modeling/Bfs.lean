import Bfs.Lib.ByteSeq
import Bfs.Lib.Buf
import Bfs.Fs.Layout
import Bfs.Fs.BlkMeta
import Bfs.Fs.MetaSlots
import Bfs.Lib.HeapTree
import Bfs.Lib.Aead
import Bfs.Fs.MerkleTree
import Bfs.Fs.BlockPath
import Bfs.Fs.TreeContents
import Bfs.Fs.TreeSetup
import Bfs.Fs.Stored
import Bfs.Fs.NativeVolume
import Bfs.Fs.NativeMount
import Bfs.Fs.Primitives
import Bfs.Fs.BlockRun
import Bfs.Fs.Rollback
import Bfs.Fs.Rejection
import Bfs.Fs.Remount
import Bfs.Ext4.BlockDev
import Bfs.Ext4.TreeBatch
import Bfs.Ext4.DevWrite
import Bfs.Client.WriteBack
import Bfs.Client.BufferedWrite
import Bfs.Client.Staging
import Bfs.Client.Sending
import Bfs.Client.FlushSync
import Bfs.Ext4.BlockDev
import Bfs.Ext4.TreeBatch
import Bfs.Ext4.DevWrite
import Bfs.Ext4.DevRead
import Bfs.Ext4.DevRun
import Bfs.Ext4.ReadAfterWrite
import Bfs.Ext4.DevRollback
import Bfs.Lib.LinkedRing
import Bfs.Utils.BfsCache
import Bfs.Utils.LruLaw
import Bfs.Device.Packet
import Bfs.Device.Storage
import Bfs.Device.NetworkDevice
import Bfs.Device.RemoteDevice
import Bfs.Device.RemoteLink
import Bfs.Device.RemoteArray
import Bfs.Device.Channel
import Bfs.Blk.BlockDevice
import Bfs.Lib.Concat
import Bfs.Blk.Cluster
import Bfs.Blk.ClusterArray
import Bfs.Blk.CachedCluster
import Bfs.Blk.CacheTransparency
import Bfs.Lib.Prog
import Bfs.Native.Codec
import Bfs.Native.State
import Bfs.Native.Dentries
import Bfs.Native.FileIo
import Bfs.Native.Effects
import Bfs.Rpc.Message
import Bfs.Server.UserContext
import Bfs.Server.Connections
import Bfs.Rpc.Session
import Bfs.Rpc.ChannelSafety
import Bfs.Native.Exceptions
import Bfs.Native.Access
import Bfs.Native.AccessDecision
import Bfs.Server.Lifecycle
import Bfs.Rpc.Errors
import Bfs.Server.Parsing
import Bfs.Native.Format
import Bfs.Server.NativeHandlers
import Bfs.Server.Answered
import Bfs.Client.Threads
import Bfs.Client.LocalFiles
import Bfs.Ext4.Handles
import Bfs.Ext4.RenameFile
import Bfs.Ext4.TreeUpdate
import Bfs.Native.Handles
import Bfs.Native.InodeCache
import Bfs.Native.RoundTrip
import Bfs.Native.Mkfs
import Bfs.Native.FileBytes
import Bfs.Native.WriteLoop
import Bfs.Native.FileLimit
import Bfs.Native.Steps
import Bfs.Utils.CfgParser
import Bfs.Comms.NetworkConnection
import Bfs.Utils.FlexData
import Bfs.Utils.SecAssociation
import Bfs.Device.PacketBuffer
import Bfs.Ext4.FileOps
import Bfs.Ext4.HandleErrors
import Bfs.Rpc.Encoding
import Bfs.Rpc.Listing
import Bfs.Client.FlushLoop
import Bfs.Blk.AddressMap
import Bfs.Client.DirtyAccount
import Bfs.Fs.Regions
import Bfs.Lib.Compaction
import Bfs.Comms.ConnectionMux
import Bfs.Utils.Base64
import Bfs.Utils.CfgItem
import Bfs.Utils.FlexDeque
import Bfs.Utils.ParseTree
import Bfs.Lib.EpsSearch
import Bfs.Utils.RegLanguage
import Bfs.Utils.RegText
import Bfs.Client.LockBalance
import Bfs.Utils.CfgStore
import Bfs.Utils.CfgLoad
import Bfs.Utils.CfgExact
import Bfs.Native.BlkAllocator
import Bfs.Native.FailedCalls
import Bfs.Native.FileRuns
import Bfs.Server.RemoteFiles
import Bfs.Native.InoAllocator
