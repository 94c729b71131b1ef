import LibreXC.Arduino.Responses
import LibreXC.SerialLink.Delivery
import LibreXC.SerialLink.Device
import LibreXC.SerialLink.Damage
import LibreXC.SerialLink.Windows
import LibreXC.Linuino.Answers
import LibreXC.Linuino.LogIds
import LibreXC.Linuino.Validation
import LibreXC.Linuino.SameStream
import LibreXC.Linuino.Observers
import LibreXC.Linuino.StartUp
import LibreXC.Linuino.LiveStream
import LibreXC.Linuino.LogFile
import LibreXC.System.Answers
import LibreXC.Autobahn.Delivery
