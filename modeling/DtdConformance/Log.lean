/-! # Log entries

What a validation reports about its own work. Entries are data: they are collected in the order in
which they arise, and whoever ran the validation decides which of them are shown.
-/
namespace DtdConformance.Log
set_option autoImplicit false

inductive Level where
  | debug
  | info
  | warning
  | error
  | critical
  deriving Repr, DecidableEq

namespace Level

def all : List Level := [critical, error, warning, info, debug]

def name : Level → String
  | debug => "DEBUG"
  | info => "INFO"
  | warning => "WARNING"
  | error => "ERROR"
  | critical => "CRITICAL"

def severity : Level → Nat
  | debug => 10
  | info => 20
  | warning => 30
  | error => 40
  | critical => 50

def ofName? (text : String) : Option Level := all.find? (fun level => level.name = text)

end Level

/-- The part of the program that an entry comes from. -/
inductive Channel where
  | commandLine
  | compiler
  | tagScanner
  | lineCorrelator
  | documentReader
  | structuralCheck
  | run
  | pool
  deriving Repr, DecidableEq

def Channel.name : Channel → String
  | commandLine => "xml_dtd_validator.cli"
  | compiler => "xml_dtd_validator.dtd.compiler"
  | tagScanner => "xml_dtd_validator.parsing.tag_scanner"
  | lineCorrelator => "xml_dtd_validator.parsing.line_correlator"
  | documentReader => "xml_dtd_validator.parsing.xml_parser"
  | structuralCheck => "xml_dtd_validator.validation.structural_validator"
  | run => "xml_dtd_validator.validation.orchestrator"
  | pool => "xml_dtd_validator.processing.parallel_coordinator"

structure Entry where
  channel : Channel
  level : Level
  text : String
  deriving Repr, DecidableEq

def Entry.line (time : String) (entry : Entry) : String :=
  s!"{time} - {entry.channel.name} - {entry.level.name} - {entry.text}"

end DtdConformance.Log
