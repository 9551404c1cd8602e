import DtdConformance.Log
import DtdConformance.Settings.Basic

/-! # The fields of the settings

Their names in files, their kinds of values and the environment variables that set them.
-/
namespace DtdConformance.Settings
set_option autoImplicit false

inductive Kind where
  | text
  | integer
  | truth
  deriving Repr, DecidableEq

def Kind.name : Kind → String
  | text => "str"
  | integer => "int"
  | truth => "bool"

inductive Field where
  | logLevel
  | maxWorkers
  | executor
  | useParserLines
  | textPreviewLength
  | hugeTree
  deriving Repr, DecidableEq

def variableOpening : String := "DTD_VALIDATOR_"

namespace Field

def all : List Field :=
  [logLevel, maxWorkers, executor, useParserLines, textPreviewLength, hugeTree]

def name : Field → String
  | logLevel => "log_level"
  | maxWorkers => "max_workers"
  | executor => "executor"
  | useParserLines => "use_parser_lines"
  | textPreviewLength => "text_preview_length"
  | hugeTree => "huge_tree"

def constant : Field → String
  | logLevel => "LOG_LEVEL"
  | maxWorkers => "MAX_WORKERS"
  | executor => "EXECUTOR"
  | useParserLines => "USE_PARSER_LINES"
  | textPreviewLength => "TEXT_PREVIEW_LENGTH"
  | hugeTree => "HUGE_TREE"

def environmentVariable (field : Field) : String := variableOpening ++ field.constant

def kind : Field → Kind
  | logLevel | executor => .text
  | maxWorkers | textPreviewLength => .integer
  | useParserLines | hugeTree => .truth

def ofName? (text : String) : Option Field := all.find? fun field => field.name = text

end Field

end DtdConformance.Settings
