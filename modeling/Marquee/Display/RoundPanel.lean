import Marquee.Display.Bus

/-!
# The round panel

The controller of a round panel of 240 by 240 pixels on a serial bus.

* `RoundPanel.start` resets the panel and sends its power-up sequence;
* `RoundPanel.write` shows a frame: the drawing window is set to the whole panel, and then all pixels
  are sent, high byte first, in transfers of `RoundPanel.transferPixels` pixels.
-/

namespace Marquee

/-- A round panel on its bus. -/
structure RoundPanel where
  /-- Its bus. -/
  bus : Bus
  /-- It was started. -/
  started : Bool
  deriving Inhabited

namespace RoundPanel

/-- Width in pixels. -/
def width : Nat := 240

/-- Height in pixels. -/
def height : Nat := 240

/-- The most pixels of one transfer. -/
def transferPixels : Nat := 64

/-- A panel that was not started. -/
def new (bus : Bus) : RoundPanel := ⟨bus, false⟩

/-! ### Commands of the controller -/

/-- Leave the sleep mode. -/
def sleepOut : UInt8 := 0x11

/-- Show all colors inverted. -/
def invertOn : UInt8 := 0x21

/-- Switch the picture on. -/
def displayOn : UInt8 := 0x29

/-- Set the columns of the drawing window. -/
def columnWindow : UInt8 := 0x2A

/-- Set the rows of the drawing window. -/
def rowWindow : UInt8 := 0x2B

/-- Write pixels into the drawing window. -/
def memoryWrite : UInt8 := 0x2C

/-- Signal the start of each picture. -/
def tearingOn : UInt8 := 0x35

/-- Set the order of rows, columns and colors. -/
def memoryAccess : UInt8 := 0x36

/-- Set the bits of a pixel. -/
def pixelFormat : UInt8 := 0x3A

/-- First half of opening the inner registers. -/
def interEnable₁ : UInt8 := 0xFE

/-- Second half of opening the inner registers. -/
def interEnable₂ : UInt8 := 0xEF

/-- The commands after a reset, with their data, in order. Those without a name set analog values
and the gamma curves. -/
def powerUp : List (UInt8 × List UInt8) := [
  (interEnable₂, []),
  (0xEB, [0x14]),
  (interEnable₁, []),
  (interEnable₂, []),
  (0xEB, [0x14]),
  (0x84, [0x40]),
  (0x85, [0xFF]),
  (0x86, [0xFF]),
  (0x87, [0xFF]),
  (0x88, [0x0A]),
  (0x89, [0x21]),
  (0x8A, [0x00]),
  (0x8B, [0x80]),
  (0x8C, [0x01]),
  (0x8D, [0x01]),
  (0x8E, [0xFF]),
  (0x8F, [0xFF]),
  (0xB6, [0x00, 0x20]),
  (memoryAccess, [0x08]),
  (pixelFormat, [0x05]),
  (0x90, [0x08, 0x08, 0x08, 0x08]),
  (0xBD, [0x06]),
  (0xBC, [0x00]),
  (0xFF, [0x60, 0x01, 0x04]),
  (0xC3, [0x13]),
  (0xC4, [0x13]),
  (0xC9, [0x22]),
  (0xBE, [0x11]),
  (0xE1, [0x10, 0x0E]),
  (0xDF, [0x21, 0x0C, 0x02]),
  (0xF0, [0x45, 0x09, 0x08, 0x08, 0x26, 0x2A]),
  (0xF1, [0x43, 0x70, 0x72, 0x36, 0x37, 0x6F]),
  (0xF2, [0x45, 0x09, 0x08, 0x08, 0x26, 0x2A]),
  (0xF3, [0x43, 0x70, 0x72, 0x36, 0x37, 0x6F]),
  (0xED, [0x1B, 0x0B]),
  (0xAE, [0x77]),
  (0xCD, [0x63]),
  (0x70, [0x07, 0x07, 0x04, 0x0E, 0x0F, 0x09, 0x07, 0x08, 0x03]),
  (0xE8, [0x34]),
  (0x62, [0x18, 0x0D, 0x71, 0xED, 0x70, 0x70, 0x18, 0x0F, 0x71, 0xEF, 0x70, 0x70]),
  (0x63, [0x18, 0x11, 0x71, 0xF1, 0x70, 0x70, 0x18, 0x13, 0x71, 0xF3, 0x70, 0x70]),
  (0x64, [0x28, 0x29, 0xF1, 0x01, 0xF1, 0x00, 0x07]),
  (0x66, [0x3C, 0x00, 0xCD, 0x67, 0x45, 0x45, 0x10, 0x00, 0x00, 0x00]),
  (0x67, [0x00, 0x3C, 0x00, 0x00, 0x00, 0x01, 0x54, 0x10, 0x32, 0x98]),
  (0x74, [0x10, 0x85, 0x80, 0x00, 0x00, 0x4E, 0x00]),
  (0x98, [0x3E, 0x07]),
  (tearingOn, []),
  (invertOn, [])]

/-! ### Programs -/

open BusProgram

/-- Reset the panel by its reset line, with the waits it needs. -/
def hardReset : BusProgram Unit := do
  step (.select true)
  step (.reset true)
  delay 10
  step (.reset false)
  delay 10
  step (.reset true)
  delay 120

/-- Reset the panel, set it up and switch it on. -/
def startUp : BusProgram Unit := do
  hardReset
  powerUp.forM fun entry => command entry.1 entry.2
  command sleepOut []
  delay 120
  command displayOn []
  delay 20

/-- A word as two bytes, the high byte first. -/
def bigEndian (w : UInt16) : List UInt8 := [(w >>> 8).toUInt8, w.toUInt8]

/-- The window from the first to the last of `count` columns or rows. -/
def window (count : Nat) : List UInt8 := bigEndian 0 ++ bigEndian (count - 1).toUInt16

/-- Set the drawing window to the whole panel. -/
def setFullWindow : BusProgram Unit := do
  command columnWindow (window width)
  command rowWindow (window height)

/-- The bytes of transfer `i` of a list of pixels. -/
def transfer (pixels : Array UInt16) (i : Nat) : List UInt8 :=
  (pixels.extract (i * transferPixels) (i * transferPixels + transferPixels)).toList.flatMap
    bigEndian

/-- The number of transfers of a number of pixels; the last may be short. -/
def transferCount (pixels : Nat) : Nat := (pixels + (transferPixels - 1)) / transferPixels

/-- Send pixels, with the panel listening. -/
def sendPixels (pixels : Array UInt16) : BusProgram Unit := do
  step (.dataCommand false)
  step (.write [memoryWrite])
  step (.dataCommand true)
  (List.range (transferCount pixels.size)).forM fun i => step (.write (transfer pixels i))
  step .flush

/-- Set the window and send a frame into it. -/
def sendFrame (pixels : Array UInt16) : BusProgram Unit := do
  setFullWindow
  whileSelected (sendPixels pixels)

/-- Reset the panel and set it up. A panel that was started before stays so even if this fails. -/
def start (p : RoundPanel) : Except PanelFault Unit × RoundPanel :=
  match startUp p.bus with
  | (.ok (), bus) => (.ok (), ⟨bus, true⟩)
  | (.error e, bus) => (.error e, { p with bus := bus })

/-- Show a frame. -/
def write (p : RoundPanel) (pixels : Array UInt16) : Except PanelFault Unit × RoundPanel :=
  if p.started then
    if pixels.size = width * height then
      let (result, bus) := sendFrame pixels p.bus
      (result, { p with bus := bus })
    else (.error .invalidDimensions, p)
  else (.error .notInitialized, p)

instance : Panel RoundPanel where
  size _ := (width, height)
  write := write

end RoundPanel

end Marquee
