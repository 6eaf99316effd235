import OrderDesk.Price.Tick
import OrderDesk.Table

/-!
# Tick bitmaps

The initialized ticks of a pool are multiples of its spacing. Tick `t` is the compressed tick
`t / spacing`; bit `c % 256` of word `c / 256` says whether compressed tick `c` is initialized.
-/

namespace OrderDesk

abbrev Bitmap := Table Int Int

def compressTick (tick spacing : Int) : Except PriceFault Int := divDown tick spacing

/-- The greatest multiple of the spacing that is not above the tick. -/
def normalizeTick (tick spacing : Int) : Except PriceFault Int := do
  return (← compressTick tick spacing) * spacing

def wordOf (compressed : Int) : Int := compressed / 256
def bitOf (compressed : Int) : Nat := (compressed % 256).toNat

def bitmapPosition (tick spacing : Int) : Except PriceFault (Int × Nat) := do
  let compressed ← compressTick tick spacing
  return (wordOf compressed, bitOf compressed)

namespace Bitmap

/-- The 256 bits of a word; an absent word has none. -/
def word (bitmap : Bitmap) (position : Int) : Nat :=
  (((Table.get? bitmap position).getD 0) % wordCount).toNat

def setBit (bitmap : Bitmap) (position : Int) (bit : Nat) : Bitmap :=
  let bits := (Table.get? bitmap position).getD 0
  Table.set bitmap position ((bits.toNat ||| 2 ^ bit : Nat) : Int)

def mark (spacing : Int) (bitmap : Bitmap) (tick : Int) : Except PriceFault Bitmap := do
  let (position, bit) ← bitmapPosition tick spacing
  return bitmap.setBit position bit

def ofTicks (spacing : Int) (ticks : List Int) : Except PriceFault Bitmap :=
  ticks.foldlM (mark spacing) []

/-- How far below `bit`, itself included, the nearest set bit lies. -/
def distanceDown (bits bit : Nat) : Option Nat :=
  (List.range (bit + 1)).find? fun distance => bits.testBit (bit - distance)

/-- How far above `bit`, itself included, the nearest set bit of a word lies. -/
def distanceUp (bits bit : Nat) : Option Nat :=
  (List.range (256 - bit)).find? fun distance => bits.testBit (bit + distance)

/-- The nearest initialized tick in the word of `tick`: at or below it if `downward`, else above
it. Without one, the last tick of the word on that side, and `false`. -/
def nextTick (bitmap : Bitmap) (tick spacing : Int) (downward : Bool) :
    Except PriceFault (Int × Bool) := do
  let compressed ← compressTick tick spacing
  if downward then
    let bit := bitOf compressed
    match distanceDown (bitmap.word (wordOf compressed)) bit with
    | some distance => return ((compressed - distance) * spacing, true)
    | none => return ((compressed - bit) * spacing, false)
  else
    let start := compressed + 1
    let bit := bitOf start
    match distanceUp (bitmap.word (wordOf start)) bit with
    | some distance => return ((start + distance) * spacing, true)
    | none => return ((start + (255 - bit)) * spacing, false)

end Bitmap

end OrderDesk
