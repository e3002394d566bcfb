import WordMachine.Assembly.Program
import WordMachine.Assembly.Shape
import WordMachine.Log

/-!
# The journal of an assembly

While a program is assembled, both readings tell what they do: how labels and operands are
resolved, which words are placed, and what is cut off, ignored or overwritten. The journal is read
off the same steps that assemble the program.
-/

namespace WordMachine.Journal

/-- A message that begins with a line number. -/
def atLine (line : Int) (text : Text) : Text := Numeral.decimal line ++ Text.ascii ": " ++ text

/-- An address as six octal digits. -/
def octal (address : Int) : Text := Numeral.padded 8 6 address

/-- A count as a decimal number. -/
def count (n : Nat) : Text := Numeral.decimal n

/-- One step of a fold, after what `note` says before it. -/
def advance {σ α : Type} (step : σ → α → σ) (note : σ → α → List Notice)
    (state : σ × Array Notice) (item : α) : σ × Array Notice :=
  let notes := note state.1 item
  (step state.1 item, state.2 ++ notes)

/-- Collects what `note` says before each `step` of a fold. -/
def along {σ α : Type} (step : σ → α → σ) (note : σ → α → List Notice) (start : σ)
    (items : List α) : List Notice :=
  (items.foldl (advance step note) (start, #[])).2.toList

/-! ## The first reading -/

/-- What the first reading says about a label. -/
def layoutLine (line : Nat) (layout : Layout) (raw : Text) : List Notice :=
  match Statement.parse raw with
  | none => []
  | some statement =>
    match statement.label with
    | none => []
    | some name =>
      if (layout.labels.lookup name).isSome then []
      else
        [.info 2 (atLine line (Text.ascii "label " ++ Text.quote name ++ Text.ascii " at " ++
          octal layout.counter))]

/-- The journal of the first reading. -/
def layout (rule : LabelRule) (lines : List Text) : List Notice :=
  let labels := layoutLabels rule lines
  [.info 1 (Text.ascii "Beginning pass 1 (" ++ count lines.length ++ Text.ascii " lines)")] ++
  along (fun (state : Nat × Layout) raw => (state.1 + 1, state.2.step rule raw))
    (fun state raw => layoutLine state.1 state.2 raw) (1, Layout.start) lines ++
  [.info 1 (Text.ascii "Pass 1 found " ++ count labels.size ++ Text.ascii " labels")]

/-! ## The second reading -/

/-- What is said about resolving an operand. -/
def resolve (line : Int) (labels : Labels) (token : Text) : List Notice :=
  match Numeral.readNumber token with
  | .ok _ => []
  | .error .notNumeric =>
    match labels.lookup token with
    | none => []
    | some address =>
      [.operand (atLine line (Text.ascii "label " ++ Text.quote token ++
        Text.ascii " resolved to " ++ octal address))]
  | .error cause =>
    [.operand (atLine line (Text.ascii "invalid numeric operand " ++ Text.quote token ++
      Text.ascii ": " ++ cause.message))]

/-- The warning about an address that its field cuts off. -/
def truncation (line : Int) (labels : Labels) (token : Text) : List Notice :=
  match Operand.resolve labels token with
  | .error _ => []
  | .ok value =>
    if value < Fields.addressLimit then []
    else
      [.warning (atLine line (Text.ascii "address " ++ Numeral.decimal value ++
        Text.ascii " does not fit in 5 bits, truncated to " ++
        Numeral.decimal (lowWord value Fields.addressBits).toInt))]

/-- What is said about encoding an instruction. -/
def encoding (line : Int) (labels : Labels) (keyword : Text) (operands : List Text) :
    List Notice :=
  match Shape.parse keyword operands with
  | .error _ => []
  | .ok shape =>
    let target := match shape.target with
      | none => []
      | some token => resolve line labels token ++ truncation line labels token
    let result := match shape.toWord labels with
      | .error _ => []
      | .ok word =>
        [.info 2 (atLine line (keyword ++ Text.ascii " -> " ++ binary word.toInt Word.bits ++
          Text.ascii " (" ++ word.octal ++ Text.ascii ")"))]
    target ++ result

/-- What is said about reading a data directive. -/
def data (line : Int) (labels : Labels) (operands : Text) : List Notice :=
  match Operand.single Keyword.data operands with
  | .error _ => []
  | .ok token => resolve line labels token

/-- What is said about a keyword with its operands. -/
def keyword (line : Int) (labels : Labels) (word operands : Text) : List Notice :=
  if word = Keyword.loc then []
  else if word = Keyword.data then data line labels operands
  else encoding line labels word (Statement.splitOperands operands)

/-- What is said about the statement of a line before its demand is met. -/
def statement (rule : LabelRule) (line : Int) (labels : Labels) (s : Statement) : List Notice :=
  match s.label with
  | none => keyword line labels s.keyword s.operands
  | some name =>
    if s.keyword.isEmpty then []
    else if rule = .legacy then
      if s.body = Operation.hlt.keyword then []
      else
        [.warning (atLine line (Text.ascii "statement after label " ++ Text.quote name ++
          Text.ascii " ignored: " ++ s.body))]
    else keyword line labels s.keyword s.operands

/-- What is said about a rejected line. -/
def rejection (diagnostic : Diagnostic) : List Notice := [.info 1 diagnostic.message]

/-- What is said about placing a word. -/
def placing (e : Emission) (word : Word) : List Notice :=
  if maxAddress < e.counter then rejection e.overflow
  else
    let overwriting := match e.image[e.counter]? with
      | none => []
      | some previous =>
        [Notice.warning (atLine e.lineNumber (Text.ascii "address " ++ octal e.counter ++
          Text.ascii " overwritten (was " ++ previous.octal ++ Text.ascii ", now " ++
          word.octal ++ Text.ascii ")"))]
    overwriting ++
      [.info 2 (atLine e.lineNumber (octal e.counter ++ [Text.space] ++ word.octal))]

/-- What is said when a demand is met. -/
def demand (e : Emission) (column : Int) : Demand → List Notice
  | .emit word => placing e word
  | .reject cause => rejection ⟨e.position column, cause⟩
  | _ => []

/-- What the second reading says about a line. -/
def emissionLine (rule : LabelRule) (labels : Labels) (e : Emission) (raw : Text) : List Notice :=
  match Statement.parse raw with
  | none => []
  | some s =>
    statement rule e.lineNumber labels s ++
      demand e s.column (Demand.ofStatement rule labels s)

/-- The journal of the second reading. -/
def emission (rule : LabelRule) (labels : Labels) (lines : List Text) : List Notice :=
  let final := Emission.run rule labels lines
  [.info 1 (Text.ascii "Beginning pass 2 (" ++ count lines.length ++ Text.ascii " lines)")] ++
  along (Emission.step rule labels) (emissionLine rule labels) Emission.start lines ++
  [.info 1 (Text.ascii "Pass 2 emitted " ++ count final.image.size ++ Text.ascii " words with " ++
    count final.diagnostics.size ++ Text.ascii " errors")]

/-- The journal of both readings. -/
def program (rule : LabelRule) (lines : List Text) : List Notice :=
  layout rule lines ++ emission rule (layoutLabels rule lines) lines

end WordMachine.Journal
