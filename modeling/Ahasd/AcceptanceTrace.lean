/-
  File:      Ahasd/AcceptanceTrace.lean
  Subject:   THE ACCEPTANCE TRACE AS A FILE: its writer (gen_acceptance_trace.py) and its two
             readers (SyntheticAcceptanceModel.cc, reproduce_paper_data.py).

  A text is a list of characters. Of the standard libraries there is what the three use:
  `std::stoul`, `std::stof`, `std::getline`; `int`, `float`, the lines of a file opened with
  `newline=""`, `csv.writer`, `csv.reader`, `csv.DictReader`. Floating-point numbers are decimals:
  infinity, NaN and hexadecimal forms are not read.

  * `loadTraceCsv`: the reader of the simulator;
  * `loadAcceptanceTrace`: the reader of the replay script;
  * `writeTrace`: the writer; `generateRows`: the rows it is called with.
-/
import Ahasd.Acceptance
import Ahasd.Lib.Text

namespace Ahasd

open Text

namespace AcceptanceTrace

/-! ## 1. The reader of the simulator -/

/-- The blanks `trim` cuts off. -/
def isBlank (c : Char) : Bool := c = ' ' || c = '\t' || c = '\r' || c = '\n'

/-- `trim`. -/
def trim (s : List Char) : List Char :=
  ((s.dropWhile isBlank).reverse.dropWhile isBlank).reverse

/-- `isspace`. -/
def isSpace (c : Char) : Bool := isBlank c || c = '\x0b' || c = '\x0c'

/-- `std::stoul`: none when it throws. A minus wraps around. -/
def stoul (s : List Char) : Option Nat :=
  let (negative, cs) := scanSign (s.dropWhile isSpace)
  let digits := cs.takeWhile Char.isDigit
  if digits = [] ∨ 2 ^ 64 ≤ number digits then none
  else some (if negative then (2 ^ 64 - number digits) % 2 ^ 64 else number digits)

/-- Rounding to a float gives infinity from here on. -/
def floatOverflow : ℚ := 2 ^ 128 - 2 ^ 103

/-- The least float of full precision. -/
def floatTiny : ℚ := 1 / 2 ^ 126

/-- A float holds the number. -/
def FloatFits (x : ℚ) : Prop := |x| < floatOverflow ∧ (x = 0 ∨ floatTiny ≤ |x|)

instance (x : ℚ) : Decidable (FloatFits x) :=
  inferInstanceAs (Decidable (_ ∧ _))

/-- `std::stof`: none when it throws. -/
def stof (s : List Char) : Option ℚ :=
  (scanDecimal (s.dropWhile isSpace)).bind fun r => if FloatFits r.1 then some r.1 else none

/-- `static_cast<uint32_t>`. -/
def toUInt32 (n : Nat) : Nat := n % 2 ^ 32

/-- One line of the trace: four cells, or five with the request id first. -/
def parseTraceLine (t : List Char) : Option (TraceKey × TraceRow) :=
  match (pieces ',' t).map trim with
  | [round, draftLength, avgEntropy, acceptedLength] => do
      let specRound ← stoul round
      let draftLength ← stoul draftLength
      let avgEntropy ← stof avgEntropy
      let acceptedLength ← stoul acceptedLength
      some (⟨0, toUInt32 specRound⟩,
        ⟨toUInt32 draftLength, avgEntropy, toUInt32 acceptedLength⟩)
  | [requestId, round, draftLength, avgEntropy, acceptedLength] => do
      let requestId ← stoul requestId
      let specRound ← stoul round
      let draftLength ← stoul draftLength
      let avgEntropy ← stof avgEntropy
      let acceptedLength ← stoul acceptedLength
      some (⟨toUInt32 requestId, toUInt32 specRound⟩,
        ⟨toUInt32 draftLength, avgEntropy, toUInt32 acceptedLength⟩)
  | _ => none

/-- The loop over the lines; the rows are those stored so far, the newest first. -/
def loadLoop : Bool → List (List Char) → List (TraceKey × TraceRow) → List (TraceKey × TraceRow)
  | _, [], rows => rows
  | headerSeen, line :: lines, rows =>
      let t := trim line
      if t = [] ∨ t.head? = some '#' then loadLoop headerSeen lines rows
      else if !headerSeen && decide ("draft_length".toList <:+: t) then loadLoop true lines rows
      else
        match parseTraceLine t with
        | some row => loadLoop true lines (row :: rows)
        | none => loadLoop true lines rows

/-- `load_trace_csv`: the map, the newest entry of a key first. -/
def loadTraceCsv (text : List Char) : List (TraceKey × TraceRow) :=
  loadLoop false (pieces '\n' text) []

/-! ## 2. The reader of the replay script -/

/-- The white space of `str.strip` and of `str.lstrip`. -/
def isWhitespace (c : Char) : Bool :=
  isSpace c || ('\x1c' ≤ c && c ≤ '\x1f') || c = '\x85' || c = '\xa0'

/-- `str.strip`. -/
def strip (s : List Char) : List Char :=
  ((s.dropWhile isWhitespace).reverse.dropWhile isWhitespace).reverse

/-- The digits with the underscores between two of them dropped; none for another underscore. -/
def dropUnderscores : Bool → List Char → Option (List Char)
  | _, [] => some []
  | afterDigit, c :: cs =>
      if c = '_' then
        if afterDigit && cs.head?.any Char.isDigit then dropUnderscores false cs else none
      else (dropUnderscores c.isDigit cs).map (c :: ·)

/-- `int`: none when it raises. -/
def toInt (s : List Char) : Option Int :=
  (dropUnderscores false (strip s)).bind fun s =>
    let (negative, digits) := scanSign s
    if digits = [] ∨ digits.any (fun c => !c.isDigit) then none
    else some (if negative then -(number digits : Int) else number digits)

/-- `float`: none when it raises. -/
def toFloat (s : List Char) : Option ℚ :=
  (dropUnderscores false (strip s)).bind fun s =>
    (scanDecimal s).bind fun r => if r.2 = [] then some r.1 else none

/-- The lines of a file opened with `newline=""`, with their ends. -/
def fileLines : List Char → List (List Char)
  | [] => []
  | '\r' :: '\n' :: cs => ['\r', '\n'] :: fileLines cs
  | c :: cs =>
      if c = '\r' ∨ c = '\n' then [c] :: fileLines cs
      else
        match fileLines cs with
        | [] => [[c]]
        | l :: ls => (c :: l) :: ls

/-- The states of `csv.reader`. -/
inductive CsvMode where
  | startRecord
  | startField
  | inField
  | inQuotedField
  | quoteInQuotedField
  | eatCrnl
  deriving DecidableEq

/-- `csv.reader` inside a record: the field it reads, and those it has. -/
structure CsvState where
  mode : CsvMode := .startRecord
  field : List Char := []
  fields : List (List Char) := []
  deriving DecidableEq

namespace CsvState

/-- `parse_save_field`. -/
def saveField (st : CsvState) (mode : CsvMode) : CsvState where
  mode := mode
  fields := st.fields ++ [st.field]

/-- `parse_add_char`. -/
def addChar (st : CsvState) (mode : CsvMode) (c : Char) : CsvState :=
  { st with
    mode := mode
    field := st.field ++ [c] }

/-- The end of a record. -/
def endRecord (st : CsvState) (c : Option Char) : CsvState :=
  st.saveField (if c = none then .startRecord else .eatCrnl)

/-- The first character of a field. -/
def startField (st : CsvState) : Option Char → CsvState
  | none => st.endRecord none
  | some c =>
      if c = '\r' ∨ c = '\n' then st.endRecord (some c)
      else if c = '"' then { st with mode := .inQuotedField }
      else if c = ',' then st.saveField .startField
      else st.addChar .inField c

/-- `parse_process_char`; `none` is the end of the line. None when it raises. -/
def char (st : CsvState) (c : Option Char) : Option CsvState :=
  match st.mode with
  | .startRecord =>
      match c with
      | none => some st
      | some c =>
          if c = '\r' ∨ c = '\n' then some { st with mode := .eatCrnl }
          else some (st.startField (some c))
  | .startField => some (st.startField c)
  | .inField =>
      match c with
      | none => some (st.endRecord none)
      | some c =>
          if c = '\r' ∨ c = '\n' then some (st.endRecord (some c))
          else if c = ',' then some (st.saveField .startField)
          else some (st.addChar .inField c)
  | .inQuotedField =>
      match c with
      | none => some st
      | some c =>
          if c = '"' then some { st with mode := .quoteInQuotedField }
          else some (st.addChar .inQuotedField c)
  | .quoteInQuotedField =>
      match c with
      | none => some (st.endRecord none)
      | some c =>
          if c = '"' then some (st.addChar .inQuotedField c)
          else if c = ',' then some (st.saveField .startField)
          else if c = '\r' ∨ c = '\n' then some (st.endRecord (some c))
          else some (st.addChar .inField c)
  | .eatCrnl =>
      match c with
      | none => some { st with mode := .startRecord }
      | some c => if c = '\r' ∨ c = '\n' then some st else none

/-- The characters of a line, and its end. -/
def line (st : CsvState) (l : List Char) : Option CsvState :=
  (l.map some ++ [none]).foldlM char st

end CsvState

/-- `csv.reader`: the records of the lines; a quoted field may go on in the next line. None when it
    raises. -/
def csvRecords : CsvState → List (List Char) → Option (List (List (List Char)))
  | st, [] =>
      if st.field ≠ [] ∨ st.mode = .inQuotedField then some [(st.saveField .startRecord).fields]
      else some []
  | st, l :: ls => do
      let st ← st.line l
      if st.mode = .startRecord then
        let records ← csvRecords {} ls
        some (st.fields :: records)
      else csvRecords st ls

/-- The value of a column in a row of `csv.DictReader`: none without the column, `some none` when
    the row is too short. The last column of a name counts. -/
def column (fieldnames row : List (List Char)) (key : List Char) : Option (Option (List Char)) :=
  (fieldnames.zip (row.map some) ++ (fieldnames.drop row.length).map (·, none)).reverse.lookup key

/-- A row of the trace as the script keeps it. -/
structure AcceptRow where
  round : Int
  draftLength : Int
  acceptedLength : Int
  avgEntropy : ℚ
  deriving DecidableEq

/-- One row; none when it is skipped. `n` is the number of rows so far. -/
def acceptRow (fieldnames row : List (List Char)) (n : Nat) : Option AcceptRow := do
  let value := column fieldnames row
  let round ←
    match value "round".toList with
    | none => some (n : Int)
    | some v => v.bind toInt
  let draftLength ← (← value "draft_length".toList).bind toInt
  let acceptedLength ← (← value "accepted_length".toList).bind toInt
  let avgEntropy ←
    match value "avg_entropy".toList with
    | none => some 0
    | some v => v.bind toFloat
  some ⟨round, draftLength, acceptedLength, avgEntropy⟩

/-- The loop over the rows; `DictReader` passes over empty ones. -/
def acceptLoop (fieldnames : List (List Char)) : List (List (List Char)) → List AcceptRow →
    List AcceptRow
  | [], out => out
  | row :: rows, out =>
      if row = [] then acceptLoop fieldnames rows out
      else
        match acceptRow fieldnames row out.length with
        | some item => acceptLoop fieldnames rows (out ++ [item])
        | none => acceptLoop fieldnames rows out

/-- `load_acceptance_trace`; none when `csv` raises. -/
def loadAcceptanceTrace (text : List Char) : Option (List AcceptRow) := do
  let lines := (fileLines text).filter fun row => (row.dropWhile isWhitespace).head? ≠ some '#'
  match ← csvRecords {} lines with
  | [] => some []
  | fieldnames :: rows => some (acceptLoop fieldnames rows [])

/-! ## 3. The writer -/

/-- A row of the trace, before it is written. -/
structure TraceLine where
  round : Nat
  draftLength : Nat
  avgEntropy : ℚ
  acceptedLength : Nat
  deriving DecidableEq

/-- The algorithms the generator has priors for. -/
inductive PriorAlgorithm where
  | specdec
  | svip
  | adaedl
  | banditspec
  deriving DecidableEq, Repr

/-- The name on the command line. -/
def PriorAlgorithm.key : PriorAlgorithm → List Char
  | specdec => "specdec".toList
  | svip => "svip".toList
  | adaedl => "adaedl".toList
  | banditspec => "banditspec".toList

/-- What the comment lines report: the arguments and the coefficients. -/
structure Provenance where
  modelPair : List Char
  algorithm : PriorAlgorithm
  coeffs : AcceptanceCoeffs
  seed : Int
  rounds : Int
  maxDraftLength : Int

/-- `str` of an `int`. -/
def intText : Int → List Char
  | .ofNat n => Nat.toDigits 10 n
  | .negSucc n => '-' :: Nat.toDigits 10 (n + 1)

/-- The comment lines. -/
def Provenance.lines (p : Provenance) : List (List Char) :=
  [ "# B2.5 synthetic acceptance trace (NOT calibrated against real LLMs)".toList,
    "# model_pair=".toList ++ p.modelPair ++ " algorithm=".toList ++ p.algorithm.key,
    "# coeffs base=".toList ++ fixed 3 p.coeffs.base ++ " alpha=".toList ++
      fixed 3 p.coeffs.alpha ++ " length_decay=".toList ++ fixed 3 p.coeffs.lengthDecay ++
      " p_min=".toList ++ fixed 3 p.coeffs.pMin,
    "# seed=".toList ++ intText p.seed ++ " rounds=".toList ++ intText p.rounds ++
      " max_draft_length=".toList ++ intText p.maxDraftLength ]

/-- A field as `csv.writer` writes it, in quotes where it needs them. -/
def csvField (field : List Char) : List Char :=
  if field.any fun c => c = ',' || c = '"' || c = '\r' || c = '\n' then
    '"' :: field.flatMap (fun c => if c = '"' then ['"', '"'] else [c]) ++ ['"']
  else field

/-- `writerow`. -/
def csvRow (fields : List (List Char)) : List Char :=
  [','].intercalate (fields.map csvField) ++ ['\r', '\n']

/-- The header. -/
def header (requestId : Option Int) : List (List Char) :=
  (if requestId.isSome then ["request_id".toList] else []) ++
    ["round".toList, "draft_length".toList, "avg_entropy".toList, "accepted_length".toList]

/-- The cells of a row. -/
def TraceLine.cells (requestId : Option Int) (r : TraceLine) : List (List Char) :=
  (requestId.map intText).toList ++
    [intText r.round, intText r.draftLength, fixed 4 r.avgEntropy, intText r.acceptedLength]

/-- What `main` writes. -/
def writeTrace (provenance : Option Provenance) (requestId : Option Int)
    (rows : List TraceLine) : List Char :=
  (provenance.toList.flatMap fun p => p.lines.flatMap (· ++ ['\n'])) ++
    csvRow (header requestId) ++ rows.flatMap fun r => csvRow (r.cells requestId)

/-- The rows of `main`: the rounds are counted from 0; the draft length, the entropy and the
    accepted length of each are drawn. -/
def generateRows (rounds : Nat) (draw : Nat → Nat × ℚ × Nat) : List TraceLine :=
  (List.range rounds).map fun r => ⟨r, (draw r).1, (draw r).2.1, (draw r).2.2⟩

end AcceptanceTrace

end Ahasd
