/-! # Settings of a validation

What a user may choose: which log entries are shown, how batches are run, and how documents are
read and reported.
-/
namespace DtdConformance
set_option autoImplicit false

structure Settings where
  logLevel : String := "WARNING"
  maxWorkers : Int := 4
  executor : String := "thread"
  /-- The line of the reader stands for the line of a start tag that was not found. -/
  useParserLines : Bool := true
  /-- How much of a misplaced text a message shows. -/
  textPreviewLength : Int := 20
  /-- Documents may nest deeper. -/
  hugeTree : Bool := false
  deriving Repr, DecidableEq

end DtdConformance
