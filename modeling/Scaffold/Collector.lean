import Scaffold.Recipe.Basic

/-!
# Collected prompts

The prompts that a run has found and not yet got answers to.  While it collects, a run records an
inquiry for every answer it will need; an inquiry with a key that is already there takes the place of
the earlier one.  Contexts that belong to all inquiries are kept once each.
-/

namespace Scaffold

/-- A pending answer, by the key it will have. -/
structure Inquiry where
  key : String
  prompt : String
  contexts : List String := []
  outputDescription : String := ""
  typeHint : Option String := none
  examples : List Example := []
  source : Option String := none
  metadata : Record Value := []
  deriving Inhabited, Repr

/-- The pending inquiries of a session. -/
structure Collector where
  collecting : Bool := false
  inquiries : Record Inquiry := []
  contexts : List String := []
  deriving Inhabited, Repr

namespace Collector

/-- Starts to collect. -/
def enter (c : Collector) : Collector := { c with collecting := true }

/-- Stops collecting and keeps what there is. -/
def leave (c : Collector) : Collector := { c with collecting := false }

/-- Records an inquiry. -/
def add (c : Collector) (i : Inquiry) : Collector := { c with inquiries := c.inquiries.put i.key i }

/-- Adds a context for all inquiries, unless it is empty or there already. -/
def addContext (c : Collector) (s : String) : Collector :=
  if s = "" || c.contexts.contains s then c else { c with contexts := c.contexts ++ [s] }

/-- Whether an inquiry is pending. -/
def isPending (c : Collector) : Bool := !c.inquiries.isEmpty

/-- The pending inquiries in order. -/
def pending (c : Collector) : List Inquiry := c.inquiries.map (·.2)

/-- The keys of the pending inquiries. -/
def keys (c : Collector) : List String := c.inquiries.keys

/-- Drops everything and stops collecting. -/
def clear (_ : Collector) : Collector := {}

end Collector

end Scaffold
