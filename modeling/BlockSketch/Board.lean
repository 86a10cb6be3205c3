import BlockSketch.Text.Quoted

namespace BlockSketch

inductive PinUse
  | input | output | pwm | servo | analog | interrupt | serial | twoWire | spi
  deriving DecidableEq

namespace PinUse

def all : List PinUse :=
  [input, output, pwm, servo, analog, interrupt, serial, twoWire, spi]

def label : PinUse → String
  | input => "digital-input"
  | output => "digital-output"
  | pwm => "pwm"
  | servo => "servo"
  | analog => "analog-input"
  | interrupt => "interrupt"
  | serial => "serial"
  | twoWire => "i2c/two-wire"
  | spi => "spi"

def ofLabel? (label : String) : Option PinUse := all.find? (·.label == label)

def unknownMessage (label : String) : String := Text.quoted label ++ " is not a valid PinType"

end PinUse

structure Board where
  key : String
  name : String
  description : String
  digitalPins : List String
  /-- The pins of the bus, each after the part it plays. -/
  spiPins : List (String × String)
  deriving DecidableEq

namespace Board

/-- Pins numbered from zero, then analog pins that can be used like them. -/
def numberedPins (digital analog : Nat) : List String :=
  (List.range digital).map toString ++ (List.range analog).map fun n => "A" ++ toString n

def busPins (mosi miso sck : String) : List (String × String) :=
  [("MOSI", mosi), ("MISO", miso), ("SCK", sck)]

def uno : Board :=
  ⟨"uno", "Arduino Uno", "ATmega328P, 14 digital + 6 analog pins", numberedPins 14 6,
    busPins "11" "12" "13"⟩

def nano : Board :=
  ⟨"nano", "Arduino Nano", "ATmega328P, 14 digital + 8 analog pins", numberedPins 14 8,
    busPins "11" "12" "13"⟩

def mega : Board :=
  ⟨"mega", "Arduino Mega 2560", "ATmega2560, 54 digital + 16 analog pins", numberedPins 54 16,
    busPins "51" "50" "52"⟩

/-- The bus of this board is on a header of its own. -/
def leonardo : Board :=
  ⟨"leonardo", "Arduino Leonardo", "ATmega32u4, SPI on the ICSP header only", numberedPins 14 6,
    busPins "ICSP-4" "ICSP-1" "ICSP-3"⟩

def catalog : List Board := [uno, nano, mega, leonardo]

def find? (key : String) : Option Board := catalog.find? (·.key == key)

/-- The keys in alphabetical order, as messages list them. -/
def sortedKeys : List String := (catalog.map key).mergeSort (fun a b => decide (a ≤ b))

def unknownMessage (key : String) : String :=
  "Unknown board " ++ Text.quoted key ++ ". Valid boards: " ++
    ", ".intercalate sortedKeys ++ "."

end Board

end BlockSketch
