import Devicetree.Event
import Devicetree.Text.Escaped

/-!
# The log

Notices become records, and a logger writes the records up to its level as lines to a sink, the
only output there is early in a boot. Names are escaped, so that a blob cannot write lines of its
own.
-/

namespace Devicetree

/-- How much a record matters, from what matters most to what matters least. -/
inductive Level where
  | error
  | warn
  | info
  | debug
  | trace
  deriving DecidableEq, Repr

namespace Level

def rank : Level → Nat
  | error => 1
  | warn => 2
  | info => 3
  | debug => 4
  | trace => 5

def name : Level → String
  | error => "ERROR"
  | warn => "WARN"
  | info => "INFO"
  | debug => "DEBUG"
  | trace => "TRACE"

end Level

structure Record where
  level : Level
  /-- The part of the program that the record is about. -/
  target : String
  message : String
  deriving DecidableEq, Repr

def Record.line (r : Record) : String :=
  r.level.name ++ " (" ++ r.target ++ ") :: " ++ r.message

namespace Notice

def level : Notice → Level
  | nodeOpened .. | nodeClosed .. | propertyPassed .. | treeEnded => .trace
  | nodeFound .. | nodeEntered .. | propertyFound .. | nothingFound .. | cellCounts .. => .debug
  | blobOpened .. | memoryFound .. => .info
  | halted .. => .error

def target : Notice → String
  | nodeOpened .. | nodeClosed .. | propertyPassed .. | treeEnded => "fdt_lookup::base::walk"
  | nodeFound .. | nodeEntered .. | propertyFound .. | nothingFound .. => "fdt_lookup::base::lookup"
  | cellCounts .. | blobOpened .. | memoryFound .. | halted .. => "fdt_lookup::boot"

/-- What is told of a node or a property that a walk passes: one space for each level above. -/
def indented (depth : Nat) (s : String) : String :=
  String.ofList (List.replicate depth ' ') ++ s

def sized (name : Bytes) (size : Nat) : String :=
  "property " ++ Escaped.name name ++ " (" ++ toString size ++ " bytes)"

def message : Notice → String
  | nodeOpened depth name => indented depth ("node " ++ Escaped.name name)
  | nodeClosed depth => indented depth "end node"
  | propertyPassed depth name size => indented depth (sized name size)
  | treeEnded => "end of structure block"
  | nodeFound name body => "lookup: node " ++ Escaped.name name ++ " at " ++ Hex.numeral body
  | nodeEntered name => "lookup: descending into " ++ Escaped.name name
  | propertyFound name size => "lookup: " ++ sized name size
  | nothingFound segment => "lookup: no match for " ++ Escaped.name segment
  | cellCounts addressCells sizeCells =>
    "#address-cells = " ++ toString addressCells.toNat ++ ", #size-cells = "
      ++ toString sizeCells.toNat
  | blobOpened totalSize version lastCompatible =>
    "device tree: " ++ toString totalSize.toNat ++ " bytes, version " ++ toString version.toNat
      ++ " (compatible with " ++ toString lastCompatible.toNat ++ ")"
  | memoryFound start stop =>
    "memory: " ++ Hex.numeral start ++ " - " ++ Hex.numeral stop
  | halted e => "device tree: " ++ e.message

def record (n : Notice) : Record :=
  ⟨n.level, n.target, n.message⟩

end Notice

/-- An emitter of text, with the text that it has received. -/
structure Sink where
  text : String
  deriving DecidableEq, Repr

namespace Sink

def empty : Sink := ⟨""⟩

def putText (k : Sink) (s : String) : Sink :=
  ⟨k.text ++ s⟩

def putChar (k : Sink) (c : Char) : Sink :=
  k.putText (String.singleton c)

end Sink

/-- Writes the records up to a level. -/
structure Logger where
  maxLevel : Level
  deriving DecidableEq, Repr

namespace Logger

def isEnabled (l : Logger) (level : Level) : Bool :=
  level.rank ≤ l.maxLevel.rank

/-- Writes a record as a line if its level is enabled. -/
def log (l : Logger) (k : Sink) (r : Record) : Sink :=
  if l.isEnabled r.level then k.putText (r.line ++ "\n") else k

/-- The records of the notices whose level is enabled. The others are not put into words. -/
def records (l : Logger) (ns : List Notice) : List Record :=
  (ns.filter fun n => l.isEnabled n.level).map Notice.record

/-- The text that a sink receives for some notices. -/
def write (l : Logger) (k : Sink) (ns : List Notice) : Sink :=
  (l.records ns).foldl l.log k

end Logger

end Devicetree
