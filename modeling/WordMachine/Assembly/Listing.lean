import WordMachine.Assembly.Diagnostic
import WordMachine.Word

/-!
# Listings

A listing has one row for each source line. A row shows the address and the word that the line was
assembled to, the source, and the reason why the line was rejected.
-/

namespace WordMachine

/-- What a source line was assembled to. -/
inductive Content where
  /-- Nothing but blanks and a comment. -/
  | blank
  /-- A location directive. -/
  | location
  /-- A label without an assembled statement. -/
  | label
  /-- A word at an address. -/
  | word (address : Int) (word : Word)
  /-- A rejected statement, which takes up an address. -/
  | rejected (address : Int)
  deriving DecidableEq, Repr

namespace Content

/-- The address that a row shows. -/
def address? : Content → Option Int
  | word address _ => some address
  | rejected address => some address
  | _ => none

/-- What stands before the source in a row. -/
def columns : Content → Text
  | blank => []
  | location => List.replicate 14 Text.space
  | label => List.replicate 6 Text.space
  | word address w => Numeral.padded 8 6 address ++ [Text.space] ++ w.octal ++ [Text.space]
  | rejected address =>
    Numeral.padded 8 6 address ++ [Text.space] ++ List.replicate 6 Text.space ++ [Text.space]

/-- A row as text. A blank row is its source alone; every other row can carry a remark. -/
def render (content : Content) (source : Text) (remark : Option Text) : Text :=
  match content, remark with
  | blank, _ => source
  | _, none => content.columns ++ source
  | _, some reason => content.columns ++ source ++ Text.ascii " ; ERROR: " ++ reason

end Content

/-- A row of a listing. -/
structure Row where
  source : Text
  content : Content
  diagnostic : Option Diagnostic
  deriving DecidableEq, Repr

/-- A row as text. -/
def Row.render (row : Row) : Text :=
  row.content.render row.source (row.diagnostic.map Diagnostic.reason)

/-- The rows of a program, in the order of its lines. -/
abbrev Listing := List Row

/-- A listing as text, one line for each row. -/
def Listing.render (listing : Listing) : Text := Text.unlines (listing.map Row.render)

end WordMachine
