import HomeAutomation.Lib.Transition
import HomeAutomation.Lib.History
import HomeAutomation.Lib.WrapClock
import HomeAutomation.Lib.Register
import HomeAutomation.Lib.Updates
import HomeAutomation.Lib.CString
import HomeAutomation.Lib.Memory
import HomeAutomation.CentralBoard.Board
import HomeAutomation.CentralBoard.Pins
import HomeAutomation.CentralBoard.Commands
import HomeAutomation.CentralBoard.Loop
import HomeAutomation.CentralBoard.Agreement
import HomeAutomation.CentralBoard.Buffers
import HomeAutomation.CentralBoard.Payload
import HomeAutomation.CentralBoard.Gates
import HomeAutomation.LightSwitch.RestClient
import HomeAutomation.LightSwitch.HeaderQueue
import HomeAutomation.LightSwitch.Response
import HomeAutomation.LightSwitch.Sketch
import HomeAutomation.LightSwitch.Discipline
import HomeAutomation.LightSwitch.Visits
import HomeAutomation.LightSwitch.StatusLed
import HomeAutomation.LightSwitch.HeldPresses
import HomeAutomation.WifiSwitch.Sketch
import HomeAutomation.WifiSwitch.Presses
import HomeAutomation.WifiSwitch.Debounce
import HomeAutomation.OpenHab.Items
import HomeAutomation.OpenHab.Heating
import HomeAutomation.OpenHab.HeatingControl
import HomeAutomation.OpenHab.VirtualSwitches
import HomeAutomation.OpenHab.QuickSet
import HomeAutomation.OpenHab.NightTimer
import HomeAutomation.OpenHab.SmartSwitch
import HomeAutomation.Raspberry.DoorSensor
import HomeAutomation.Ethernet.Socket
import HomeAutomation.Lib.Links
import HomeAutomation.Ethernet.Receive
import HomeAutomation.LightSwitch.Session
import HomeAutomation.Uip.MemoryPool
import HomeAutomation.Uip.PoolOrder
import HomeAutomation.Uip.PoolOperations
import HomeAutomation.Uip.PoolHeap
import HomeAutomation.Uip.Packets
import HomeAutomation.Uip.Sequence
import HomeAutomation.Uip.Inbound
import HomeAutomation.Uip.InOrder
import HomeAutomation.Uip.Stopping
import HomeAutomation.Lib.Http
import HomeAutomation.LightSwitch.Served
import HomeAutomation.Uip.Outbound
import HomeAutomation.Uip.Pending
import HomeAutomation.Uip.Acknowledged
import HomeAutomation.Lib.OnesComplement
import HomeAutomation.Uip.Checksum
import HomeAutomation.Ethernet.Dns
import HomeAutomation.Uip.Dns
import HomeAutomation.Lib.Residents
import HomeAutomation.Uip.Arp
import HomeAutomation.Uip.ArpTable
import HomeAutomation.Uip.Enc28J60
import HomeAutomation.Uip.ReceiveBuffer
import HomeAutomation.Uip.BlockMove
