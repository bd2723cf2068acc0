import NewCPP.ConverterLaws
import NewCPP.Tools.MD5Stream
import NewCPP.Types.DataContainer
import NewCPP.V4LFrameHostile
import NewCPP.V4LFrameTruncated
import NewCPP.DatFileReader
import NewCPP.DatFileRepeats
import NewCPP.DatFileStreams
import NewCPP.DatFileIndex
import NewCPP.Stm.Termination
import NewCPP.Stm.PassiveBodies
import NewCPP.Stm.ParameterOwner
import NewCPP.TimerFramework.CallbackOwner
import NewCPP.TimerFramework.TimerProgress
import NewCPP.TimerFramework.DefaultLoop
import NewCPP.TimerFramework.WakeUp
import NewCPP.Tools.SlidingWindowMgr
import NewCPP.Tools.MemWritter
import NewCPP.Ipc.Connections
import NewCPP.Ipc.Relay
import NewCPP.Ipc.ShortWrites
import NewCPP.Ipc.Crossing
import NewCPP.Ipc.ShutDown
import NewCPP.Deployment.DeployPipeline
import NewCPP.Deployment.Unpacker
import NewCPP.Deployment.CopyCommand
import NewCPP.Deployment.MovedMonitor
import NewCPP.Network.NetworkSetup
import NewCPP.Network.Socket
import NewCPP.Network.SocketWindows
import NewCPP.Network.WriteData
import NewCPP.Network.NaiveURIParser
import NewCPP.Deployment.UnpackCommand
import NewCPP.Deployment.HandOver
import NewCPP.Deployment.InotifyDecoding
import NewCPP.Deployment.SystemObserver
import NewCPP.Deployment.MovePackage
import NewCPP.Ipc.SelectService
import NewCPP.Ipc.AcceptQueue
import NewCPP.Ipc.Registration
import NewCPP.Ipc.ConnectorStart
import NewCPP.Tools.TickerRestart
import NewCPP.DatFileLoop
import NewCPP.Network.IpcSocketWindows
import NewCPP.Ipc.SocketAddress
import NewCPP.LogLoger
import NewCPP.Deployment.UsbMonitor
import NewCPP.Deployment.PackageDetector
import NewCPP.Deployment.Redeploy
import NewCPP.Deployment.UsbDeployment
import NewCPP.Deployment.UsbObserver
