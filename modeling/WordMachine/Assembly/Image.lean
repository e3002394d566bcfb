import Std.Data.ExtTreeMap
import WordMachine.Word

/-!
# Load images

A load image holds a word at each of finitely many addresses. Any integer may be an address; only
those of the memory can be loaded.
-/

namespace WordMachine

/-- Words by address. -/
abbrev Image := Std.ExtTreeMap Int Word compare

namespace Image

/-- The image without words. -/
def empty : Image := ∅

/-- The image of a list of pairs. A later pair replaces an earlier one with the same address. -/
def ofPairs (pairs : List (Int × Word)) : Image :=
  pairs.foldl (fun image pair => image.insert pair.1 pair.2) empty

/-- The addresses and words of an image, by ascending address. -/
def pairs (image : Image) : List (Int × Word) := image.toList

/-- The addresses of an image in ascending order. -/
def addresses (image : Image) : List Int := image.keys

end Image

end WordMachine
