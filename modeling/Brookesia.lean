import Brookesia.TaskScheduler.Promises
import Brookesia.TaskScheduler.Periodic
import Brookesia.TaskScheduler.Exclusion
import Brookesia.TaskScheduler.Delayed
import Brookesia.TaskScheduler.Accounting
import Brookesia.TaskScheduler.WaitSlots
import Brookesia.StateMachine.Model
import Brookesia.StateMachine.Runs
import Brookesia.StateMachine.Timers
import Brookesia.ServiceManager.References
import Brookesia.ServiceManager.Closure
import Brookesia.DataFlow.Registry
import Brookesia.DataStore.Delivery
import Brookesia.SystemCore.DialogQueue
import Brookesia.SystemCore.AppRuns
import Brookesia.SystemCore.Lifecycle
import Brookesia.AppPackage.Agreement
import Brookesia.AppPackage.PrivateData
import Brookesia.SystemCore.TimerDelivery
import Brookesia.SystemCore.HostBridgeCalls
import Brookesia.SystemCore.HostBridgeHandles
import Brookesia.SystemCore.BindingOrder
import Brookesia.SystemCore.GuiPreferences
import Brookesia.SystemCore.InitRetry
import Brookesia.Usb.Completion
import Brookesia.Wifi.StoredAps
import Brookesia.Gui.FastPath
import Brookesia.Wifi.Agreement
import Brookesia.Audio.StreamPlaying
import Brookesia.Audio.CaptureOwner
import Brookesia.Audio.PlaybackQueue
import Brookesia.Agent.Requests
import Brookesia.Agent.Agreement
import Brookesia.TaskScheduler.WasmTimers
import Brookesia.TaskScheduler.GroupIndex
import Brookesia.ServiceManager.Recursion
import Brookesia.StateMachine.Failure
import Brookesia.StateMachine.Pending
import Brookesia.Sntp.Tasks
import Brookesia.DisplayService.Frames
import Brookesia.DisplayService.Events
import Brookesia.DisplayService.Mirror
import Brookesia.AppStore.ScanComplete
import Brookesia.AppStore.RefreshOnce
import Brookesia.AppStore.InstallAnnounced
import Brookesia.Http.Accounted
import Brookesia.Describe.RoundTrip
import Brookesia.Runtime.Ends
import Brookesia.Signal.Delivery
import Brookesia.Hal.Lifetimes
import Brookesia.ServiceManager.CallAnswers
import Brookesia.ServiceManager.BatchCalls
import Brookesia.ServiceManager.InitOrder
import Brookesia.AppPackage.ZipBounds
import Brookesia.SystemCore.StoragePaths
import Brookesia.SystemCore.Uninstall
import Brookesia.JsonUi.Interactions
import Brookesia.JsonUi.StringReferences
import Brookesia.JsonUi.Typing
import Brookesia.Gui.Fonts
import Brookesia.AppStore.Versions
import Brookesia.AppStore.CacheFiles
import Brookesia.Agent.AudioOperations
import Brookesia.Describe.Numbers
import Brookesia.ServiceManager.Parameters
import Brookesia.Hal.Published
import Brookesia.DisplayService.Buffers
import Brookesia.Runtime.InitAgain
