import MixedWorkload.Csv.Reader
import MixedWorkload.Range
import MixedWorkload.Text.Quoted
import MixedWorkload.Decimal.Style

/-!
# What can go wrong

Every failure is recorded by its cause. `MixedWorkload.Error.message` puts a cause into
words and `MixedWorkload.Error.kind` names its category; nothing else in the library
looks at either text. What is wrong with a structured file is the one cause that is not
recorded: its parser has words of its own for it, and failures that differ in these words
only count as the same.
-/

namespace MixedWorkload

/-! ### Files -/

/-- Why a file could not be read or written. -/
inductive FileError
  /-- There is nothing of that name. -/
  | notFound
  /-- There is something of that name already. -/
  | alreadyExists
  /-- Something on the way to the file is no directory. -/
  | notADirectory
  /-- The file is a directory. -/
  | isADirectory
  /-- A part of the name is longer than names may be. -/
  | nameTooLong
  /-- The file was to be read as text and is not UTF-8. -/
  | notText
  /-- The system gave a reason of its own. -/
  | other (reason : String)
  deriving DecidableEq, Repr

/-- The cause in words, with the system's error number where there is one. -/
def FileError.message : FileError → String
  | .notFound => "No such file or directory (os error 2)"
  | .alreadyExists => "File exists (os error 17)"
  | .notADirectory => "Not a directory (os error 20)"
  | .isADirectory => "Is a directory (os error 21)"
  | .nameTooLong => "File name too long (os error 36)"
  | .notText => "stream did not contain valid UTF-8"
  | .other reason => reason

/-! ### Rows of a timing log -/

/-- The columns of a timing log, in their order. -/
inductive Column
  | transactionType
  | startTime
  | latency
  | worker
  | phase
  deriving DecidableEq, Repr

namespace Column

/-- The columns from left to right. -/
def all : List Column :=
  [.transactionType, .startTime, .latency, .worker, .phase]

/-- The name of a column. -/
def name : Column → String
  | .transactionType => "transaction_type"
  | .startTime => "start_time"
  | .latency => "latency"
  | .worker => "worker_id"
  | .phase => "phase"

end Column

/-- What is wrong with a row. -/
inductive RowFault
  /-- It has another number of cells than there are columns. -/
  | cellCount (found : Nat)
  /-- The cell in a column does not hold a value of that column. -/
  | cell (column : Column) (text : String)
  deriving DecidableEq, Repr

/-- The fault in words. -/
def RowFault.message : RowFault → String
  | .cellCount found =>
    "expected " ++ toString Column.all.length ++ " columns, found " ++ toString found
  | .cell column text => "invalid " ++ column.name ++ " value " ++ Text.quoted text

/-- What keeps a file from being read or written as records of text. -/
inductive RecordFault
  /-- The file could not be read or written. -/
  | file (cause : FileError)
  /-- A field is not UTF-8 behind its first `validUpTo` bytes. -/
  | invalidText (record : Nat) (start : Csv.Position) (field validUpTo : Nat)
  deriving DecidableEq, Repr

/-- The fault in words. -/
def RecordFault.message : RecordFault → String
  | .file cause => cause.message
  | .invalidText record start field validUpTo =>
    "CSV parse error: record " ++ toString record ++ " (line " ++ toString start.line ++
      ", field: " ++ toString field ++ ", byte: " ++ toString start.byte ++
      "): invalid utf-8: invalid UTF-8 in field " ++ toString field ++
      " near byte index " ++ toString validUpTo

/-! ### Settings -/

/-- The settings of an analysis. -/
inductive Setting
  | newOrderId
  | lowerId
  | upperId
  | binWidth
  deriving DecidableEq, Repr

namespace Setting

/-- The settings in the order in which the environment is consulted. -/
def all : List Setting :=
  [.newOrderId, .lowerId, .upperId, .binWidth]

/-- The entry of a configuration file that holds a setting. -/
def entry : Setting → String
  | .newOrderId => "new_order_id"
  | .lowerId => "olap_lower_id"
  | .upperId => "olap_upper_id"
  | .binWidth => "throughput_bin_secs"

/-- The environment variable that overrides a setting. -/
def variableName : Setting → String
  | .newOrderId => "CHBENCH_NEW_ORDER_ID"
  | .lowerId => "CHBENCH_OLAP_LOWER_ID"
  | .upperId => "CHBENCH_OLAP_UPPER_ID"
  | .binWidth => "CHBENCH_THROUGHPUT_BIN_SECS"

end Setting

/-- What is wrong with the settings, the scale factor or the normalization factors. -/
inductive ConfigFault
  /-- The range ends before it begins. -/
  | emptyRange (range : AnalyticalRange)
  /-- NewOrder is one of the analytical types. -/
  | analyticalNewOrder (newOrderId : TransactionType) (range : AnalyticalRange)
  /-- The width of a throughput bin is no length. -/
  | binWidth (width : Float)
  /-- An environment variable does not hold a value of its setting. -/
  | variableValue (setting : Setting) (text : String)
  /-- The scale factor is no number. -/
  | scaleFactorText (text : String)
  /-- The scale factor is no positive finite number. -/
  | scaleFactor (value : Float)
  /-- A key of a factor file is no query offset. -/
  | offsetText (key : String)
  /-- The built-in factors are for another number of queries. -/
  | builtInFactorCount (builtIn queries : Nat)
  /-- A list of factors is too long or too short. -/
  | factorCount (queries given : Nat)
  /-- A factor is given for a query that does not exist. -/
  | offsetOutside (offset : UInt32) (queries : Nat)
  /-- A query has no factor. -/
  | missingFactor (query : Nat)
  /-- The factor of a query is negative or no finite number. -/
  | factor (query : Nat) (value : Float)

/-- Numbers in messages are positional throughout, and whole ones have no point. -/
def Error.number : Decimal.Style where
  scientificBelow := none
  scientificFrom := none
  wholeSuffix := ""
  exponentPlus := ""
  tie := .awayFromZero

/-- The words for a bin width that is no length. -/
def binWidthMessage (width : Float) : String :=
  "throughput bin width must be positive, got " ++ Error.number.render width

/-- The fault in words. -/
def ConfigFault.message : ConfigFault → String
  | .emptyRange range =>
    "analytical range is empty: lower id " ++ toString range.lower ++ " > upper id " ++
      toString range.upper
  | .analyticalNewOrder newOrderId range =>
    "NewOrder id " ++ toString newOrderId ++ " lies inside the analytical range " ++
      toString range.lower ++ "..=" ++ toString range.upper
  | .binWidth width => binWidthMessage width
  | .variableValue setting text =>
    "invalid value for " ++ setting.variableName ++ ": " ++ Text.quoted text
  | .scaleFactorText text => "invalid scale factor " ++ Text.quoted text
  | .scaleFactor value =>
    "scale factor must be a positive number, got " ++ Error.number.render value
  | .offsetText key =>
    "invalid query offset " ++ Text.quoted key ++ " in normalization factors"
  | .builtInFactorCount builtIn queries =>
    "built-in normalization table covers " ++ toString builtIn ++
      " queries but the analytical range has " ++ toString queries ++
      "; supply factors explicitly"
  | .factorCount queries given =>
    "expected " ++ toString queries ++ " normalization factors, got " ++ toString given
  | .offsetOutside offset queries =>
    "normalization factor offset " ++ toString offset ++ " outside 1..=" ++ toString queries
  | .missingFactor query => "missing normalization factor for query " ++ toString query
  | .factor query value =>
    "normalization factor for query " ++ toString query ++
      " must be a non-negative number, got " ++ Error.number.render value

/-! ### The evaluation itself -/

/-- Why there is too little in a log to evaluate. -/
inductive DataFault
  /-- No record has an analytical type. -/
  | noAnalyticalQueries (range : AnalyticalRange)
  /-- There is no group to take a mean of. -/
  | noGroups
  deriving DecidableEq, Repr

/-- The fault in words. -/
def DataFault.message : DataFault → String
  | .noAnalyticalQueries range =>
    "no analytical queries with transaction type in " ++ toString range.lower ++ "..=" ++
      toString range.upper
  | .noGroups => "geometric mean of zero query groups"

/-- A value for which a quantity is not defined. -/
inductive DomainFault
  /-- The mean latency of a query is not positive. -/
  | meanLatency (queryNumber : UInt32) (type : TransactionType) (mean : Float)
  /-- The last NewOrder lies too many bins after the start. -/
  | binCount (last : Float) (limit : Nat) (width : Float)

/-- The fault in words. -/
def DomainFault.message : DomainFault → String
  | .meanLatency queryNumber type mean =>
    "query " ++ toString queryNumber ++ " (type " ++ toString type ++
      ") has non-positive mean latency " ++ Error.number.render mean
  | .binCount last limit width =>
    "NewOrder start time " ++ Error.number.render last ++ "s needs more than " ++
      toString limit ++ " throughput bins of " ++ Error.number.render width ++ "s"

/-- The formats of structured files. -/
inductive DocumentFormat
  | json
  | toml
  deriving DecidableEq, Repr

/-- The name of a format. -/
def DocumentFormat.name : DocumentFormat → String
  | .json => "JSON"
  | .toml => "TOML"

/-- A failure and its cause. -/
inductive Error
  /-- A file could not be read or written. -/
  | io (cause : FileError)
  /-- A row of a timing log is not as it should be. -/
  | format (line : Nat) (fault : RowFault)
  /-- A timing log could not be read, or a table written, as records of text. -/
  | csv (fault : RecordFault)
  /-- Something that was chosen for the analysis is not acceptable. -/
  | config (fault : ConfigFault)
  /-- There is too little to evaluate. -/
  | insufficientData (fault : DataFault)
  /-- A quantity is not defined for the values at hand. -/
  | domain (fault : DomainFault)
  /-- A structured file does not have the contents it should have. The failure tells the format
  that was expected; what the parser of this format says about the place and the cause is left
  out, so two failures of this kind are the same if they are about the same format. -/
  | serialization (expected : DocumentFormat)

namespace Error

/-- The category of a failure. -/
def kind : Error → String
  | .io _ => "io"
  | .format _ _ => "format"
  | .csv _ => "format"
  | .config _ => "config"
  | .insufficientData _ => "insufficient-data"
  | .domain _ => "domain"
  | .serialization _ => "serialization"

/-- The failure in words, but for those of a parser about a structured file. -/
def message : Error → String
  | .io cause => "IO error: " ++ cause.message
  | .format line fault => "Format error at line " ++ toString line ++ ": " ++ fault.message
  | .csv fault => "CSV error: " ++ fault.message
  | .config fault => "Configuration error: " ++ fault.message
  | .insufficientData fault => "Insufficient data: " ++ fault.message
  | .domain fault => "Domain error: " ++ fault.message
  | .serialization expected => "Serialization error: not a valid " ++ expected.name ++ " document"

/-- The words of the cause behind a failure, where the failure only passes one on. -/
def source? : Error → Option String
  | .io cause => some cause.message
  | .csv fault => some fault.message
  | _ => none

/-- The failure in words, followed by the cause that it passes on. -/
def chain (e : Error) : String :=
  match e.source? with
  | some source => e.message ++ ": " ++ source
  | none => e.message

end Error

end MixedWorkload
