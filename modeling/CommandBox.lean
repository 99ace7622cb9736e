import CommandBox.Lib.Memory
import CommandBox.Lib.Machine
import CommandBox.Lib.Hex
import CommandBox.Lib.Xor
import CommandBox.Protocol
import CommandBox.Parser
import CommandBox.Wire
import CommandBox.Codec
import CommandBox.Refinement
import CommandBox.Stream
import CommandBox.RoundTrip
import CommandBox.LineErrors
import CommandBox.Box
import CommandBox.Validate
import CommandBox.BoxEffect
import CommandBox.BoxTrace
import CommandBox.BridgeLink
import CommandBox.Debounce
import CommandBox.Tasks
import CommandBox.BackToBack
import CommandBox.Messages
import CommandBox.Invariant
import CommandBox.Lib.Clock
import CommandBox.RetrySchedule
import CommandBox.LedPhase
import CommandBox.BeepCode
import CommandBox.AckWait
import CommandBox.Bridge
import CommandBox.Lib.Fair
import CommandBox.Lib.Queue
import CommandBox.Network
import CommandBox.NetworkEffect
import CommandBox.NetworkDrain
import CommandBox.NetworkFlow
import CommandBox.TaskPasses
import CommandBox.BridgeMain
import CommandBox.Exchange
import CommandBox.ExchangeDrain
import CommandBox.KernelQueue
import CommandBox.KernelRest
import CommandBox.BoardIo
import CommandBox.BoardTime
import CommandBox.BoardDebounce
import CommandBox.Firmware
import CommandBox.FirmwareCounters
import CommandBox.FirmwareDrain
import CommandBox.TextApi
import CommandBox.KernelLists
import CommandBox.KernelRunning
import CommandBox.KernelTime
import CommandBox.KernelPeriod
import CommandBox.KernelTicks
import CommandBox.KernelBlocking
