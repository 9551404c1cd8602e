/-! # Kinds of pools

A batch is run by threads or by processes of their own.
-/
namespace DtdConformance
set_option autoImplicit false

inductive Executor where
  | thread
  | process
  deriving Repr, DecidableEq

namespace Executor

def all : List Executor := [thread, process]

def name : Executor → String
  | thread => "thread"
  | process => "process"

def ofName? (text : String) : Option Executor := all.find? fun executor => executor.name = text

end Executor

end DtdConformance
