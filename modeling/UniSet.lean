import UniSet.Lib.Cascade
import UniSet.Lib.Machine
import UniSet.Processes.Sensor
import UniSet.Processes.IOConfig
import UniSet.Processes.IOController
import UniSet.Processes.IONotifyController
import UniSet.Processes.VisibleValue
import UniSet.Processes.Depend
import UniSet.Processes.Concurrent
import UniSet.Processes.Consumers
import UniSet.Stream.Session
import UniSet.Stream.ServerSession
import UniSet.Lib.ReadLoop
import UniSet.Stream.OnRead
import UniSet.Stream.AsyncClient
import UniSet.Lib.Loop
import UniSet.UNet.Packet
import UniSet.UNet.Receiver
import UniSet.UNet.Current
import UniSet.UNet.Reorder
import UniSet.UNet.Position
import UniSet.UNet.Channels
import UniSet.UNet.Sender
import UniSet.Various.MessageQueue
import UniSet.Various.QueueWriters
import UniSet.Lib.Latch
import UniSet.Processes.CommonEventLoop
import UniSet.Processes.Threshold
import UniSet.Modbus.Server
import UniSet.SharedMemory.HeartBeat
import UniSet.Modbus.TCPSession
import UniSet.Modbus.RealReceive
import UniSet.Modbus.Framing
import UniSet.Modbus.FileTransfer
import UniSet.Modbus.TCPServer
import UniSet.ModbusMaster.ChangeOnly
import UniSet.ModbusMaster.Config
import UniSet.ModbusMaster.Modes
import UniSet.ModbusMaster.InitItem
import UniSet.ModbusMaster.Grouping
import UniSet.ModbusMaster.PreInit
import UniSet.ModbusMaster.Reload
import UniSet.Lib.Writes
import UniSet.ModbusMaster.Polling
import UniSet.ModbusMaster.RegMap
import UniSet.ModbusMaster.MultiChannel
import UniSet.IOBase
import UniSet.ModbusSlave.RegMap
import UniSet.ModbusSlave.RoundTrip
import UniSet.ModbusSlave.InitItem
import UniSet.ModbusSlave.SensorInfo
import UniSet.ModbusSlave.Answers
import UniSet.LogicProcessor.Schema
import UniSet.LogicProcessor.LProcessor
import UniSet.OPCUAExchange.Exchange
import UniSet.OPCUAExchange.Channels
import UniSet.LogicProcessor.Element
import UniSet.IOControl.Control
import UniSet.IOControl.Lamps
import UniSet.IOControl.Moves
import UniSet.UWebSocketGate.Gate
import UniSet.Log.LogAgregator
import UniSet.Log.Hierarchy
import UniSet.Log.LogServer
import UniSet.DBServer.PostgreSQL
import UniSet.Backend.ClickHouse
import UniSet.Backend.OpenTSDB
import UniSet.Processes.Broadcast
import UniSet.Processes.Eviction
import UniSet.UNet.Stored
import UniSet.UNet.Losses
import UniSet.UNet.Force
import UniSet.UNet.Bounds
import UniSet.Core.Split
import UniSet.Processes.Unchanged
import UniSet.UNet.Cache
import UniSet.UNet.Size
import UniSet.UNet.Packs
import UniSet.Various.IndexWrap
import UniSet.Various.LossCounter
import UniSet.Various.Resize
import UniSet.Timers.LTObject
import UniSet.Timers.Oversleep
import UniSet.Timers.TickCount
import UniSet.Lib.Bits
import UniSet.Modbus.Autodetect
import UniSet.Modbus.BitsBuffer
import UniSet.ModbusMaster.RegID
import UniSet.Processes.OutputSeq
import UniSet.Modbus.RegisterReplies
import UniSet.Modbus.Broadcast
import UniSet.Modbus.ByteQueue
import UniSet.Modbus.Client
import UniSet.Modbus.DeviceId
import UniSet.Modbus.ForceCoils
import UniSet.Modbus.Wire
import UniSet.Modbus.FixedFrames
import UniSet.Lib.Crc
import UniSet.UNet.Crc
import UniSet.IOBase.Delays
import UniSet.ModbusMaster.Partition
import UniSet.ModbusSlave.Allocation
import UniSet.ModbusSlave.BlockRead
import UniSet.ModbusSlave.BlockWrite
import UniSet.Lib.Fields
import UniSet.ModbusMaster.Update
import UniSet.ModbusMaster.SharedRegister
import UniSet.ModbusMaster.SafeMode
import UniSet.ModbusMaster.PollCycle
import UniSet.ModbusMaster.Exclusive
import UniSet.IOBase.Debounce
import UniSet.IOBase.Threshold
import UniSet.IOBase.Diagram
import UniSet.LogicProcessor.Links
import UniSet.Timers.HourGlass
import UniSet.IOBase.DigitalFilter
import UniSet.Various.TriggerOUT
import UniSet.IOControl.Priority
import UniSet.IOControl.TestMode
import UniSet.LogicProcessor.Events
import UniSet.LogicProcessor.Delay
import UniSet.Calibration.Parts
import UniSet.Calibration.Cache
import UniSet.Calibration.Inverse
import UniSet.Lib.Lines
import UniSet.Log.TextLines
import UniSet.ModbusMaster.MTR
import UniSet.DBServer.QueryBuffer
import UniSet.DBServer.Statements
import UniSet.Backend.ClickHouseTags
import UniSet.UWebSocketGate.Ping
import UniSet.Core.MessageLoop
import UniSet.Core.UInterface
import UniSet.HttpAPIGateway.UHttpRouter
import UniSet.Lib.Reading
import UniSet.Lib.Simulation
import UniSet.LogDB.Store
import UniSet.LogicProcessor.Passive
import UniSet.SharedMemory.History
import UniSet.UNet.Link
