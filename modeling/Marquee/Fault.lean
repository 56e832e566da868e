/-!
# What a stage refuses

A command that reads well can still ask for something that cannot be done. `StageFault` lists the
reasons.
-/

namespace Marquee

/-- Why a command is refused. -/
inductive StageFault where
  /-- It names a palette index that has no color yet. -/
  | indexOutOfRange
  /-- The palette holds as many colors as it can. -/
  | paletteFull
  /-- A picture without pixels, or with another number of pixels than its size says. -/
  | emptyGraphic
  /-- A picture of more pixels than a sprite may have. -/
  | tooLarge
  deriving DecidableEq, Repr, Inhabited

/-- What is said of the fault. -/
def StageFault.message : StageFault → String
  | .indexOutOfRange => "palette index out of range"
  | .paletteFull => "palette is full"
  | .emptyGraphic => "zero-sized graphic"
  | .tooLarge => "graphic exceeds pixel limit"

end Marquee
