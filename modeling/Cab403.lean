import Cab403.Library.ActionRuns
import Cab403.Library.CText
import Cab403.Library.CDecimal
import Cab403.Library.LinkedChain
import Cab403.Library.CriticalSection
import Cab403.Library.Tally
import Cab403.Library.Lending
import Cab403.Library.NodeHeap
import Cab403.Library.Custody
import Cab403.Library.LockProgram
import Cab403.Elevator.Floors
import Cab403.Elevator.SharedMemory
import Cab403.Elevator.ElevatorLoop
import Cab403.Elevator.DoorGraph
import Cab403.Elevator.EmergencyMode
import Cab403.Elevator.SafetyMonitor
import Cab403.Elevator.MonitorWait
import Cab403.Elevator.LoopMoves
import Cab403.Elevator.Framing
import Cab403.Elevator.ReceiveBlock
import Cab403.Elevator.FloorQueue
import Cab403.Elevator.FloorInsertion
import Cab403.Elevator.CallKept
import Cab403.Elevator.QueueBlocks
import Cab403.Elevator.CarProcess
import Cab403.Elevator.CarFloors
import Cab403.Elevator.DoorReasons
import Cab403.Elevator.StopLink
import Cab403.Elevator.StuckStops
import Cab403.Elevator.CarRegistry
import Cab403.Elevator.CarListLock
import Cab403.Elevator.ConnectionEnd
import Cab403.Elevator.ControllerPeers
import Cab403.Elevator.PeerSteps
import Cab403.Elevator.CallMessage
import Cab403.Elevator.CarMessage
import Cab403.Elevator.CarShaft
import Cab403.Elevator.PeerFrame
import Cab403.Elevator.PeerSoundness
import Cab403.Elevator.PeerIsolation
import Cab403.Elevator.CallDispatch
import Cab403.Elevator.CarRegistration
import Cab403.Elevator.ValidFloors
import Cab403.Elevator.ServiceMode
import Cab403.Elevator.ServiceRecovery
import Cab403.Assignment1.DblVector
import Cab403.Assignment1.ShmIpc
import Cab403.Workshops.BoundedBuffer
import Cab403.Workshops.ConditionBuffer
import Cab403.Workshops.RoundRobin
import Cab403.Workshops.HashTable
import Cab403.Workshops.ParallelSearch
import Cab403.Workshops.RandomArray
import Cab403.ChatApp.LineStream
import Cab403.ChatApp.DescriptorOwners
import Cab403.Elevator.MonitorBytes
import Cab403.Elevator.FloorValidators
import Cab403.Elevator.DestinationReached
import Cab403.Elevator.Announcements
import Cab403.Elevator.TripKept
import Cab403.Elevator.CarNames
import Cab403.Assignment1.BlockRequests
import Cab403.Elevator.QueueNodes
import Cab403.Elevator.QueueNodeRuns
import Cab403.Elevator.CallQueue
import Cab403.Elevator.ControllerLocks
import Cab403.Elevator.NotifyPipe
import Cab403.Elevator.CarConnection
import Cab403.Elevator.CallAnswer
import Cab403.Workshops.HashTableLifetime
import Cab403.Workshops.HashTableMain
import Cab403.Elevator.FalseAlarms
import Cab403.Elevator.LinkUpkeep
import Cab403.Elevator.StopService
import Cab403.Assignment1.ShmLifetime
import Cab403.Workshops.PrintPid
