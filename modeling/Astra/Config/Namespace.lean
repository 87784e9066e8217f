import Astra.Config.Fault
import Astra.Config.Value

/-!
# Namespaces of configuration files

Tables within tables, reached by dotted keys, and the marks that tell which of them may still be
declared or extended.
-/

namespace Astra.Config

/-- Changes the table behind a dotted key, and makes the tables on the way that are missing. The way
may lead through the last item of an array of tables. A value of another kind bars it. -/
def Table.within (throughArrays : Bool) (key : Key) (edit : Table → Except Cause Table)
    (table : Table) : Except Cause Table :=
  match key with
  | [] => edit table
  | part :: rest =>
    match table.lookup part with
    | none => do
      let inner ← Table.within throughArrays rest edit []
      return Assoc.put part (.table inner) table
    | some (.table inner) => do
      let inner ← Table.within throughArrays rest edit inner
      return Assoc.put part (.table inner) table
    | some (.array items) =>
      match throughArrays, items.getLast? with
      | true, some (.table inner) => do
        let inner ← Table.within throughArrays rest edit inner
        return Assoc.put part (.array (items.dropLast ++ [.table inner])) table
      | _, _ => .error .overwrites
    | some _ => .error .overwrites

/-- Gives a key that is still free its value; `taken` is the complaint about another. -/
def Table.add (taken : Cause) (part : List Char) (value : Value) (table : Table) :
    Except Cause Table :=
  match table.lookup part with
  | none => .ok (Assoc.put part value table)
  | some _ => .error taken

def Table.extend (part : List Char) (table : Table) : Except Cause Table :=
  match table.lookup part with
  | none => .ok (Assoc.put part (.array [.table []]) table)
  | some (.array items) => .ok (Assoc.put part (.array (items ++ [.table []])) table)
  | some _ => .error .overwrites

/-- What is known of a dotted key: a table that is declared may not be declared again, and what is
frozen takes no further keys, at any depth. -/
inductive Mark where
  | declared (key : Key)
  | frozen (key : Key)
  deriving DecidableEq, Repr

def Mark.key : Mark → Key
  | declared key => key
  | frozen key => key

def isDeclared (marks : List Mark) (key : Key) : Bool := marks.contains (.declared key)

def isFrozen (marks : List Mark) (key : Key) : Bool :=
  marks.any fun
    | .frozen front => front.isPrefixOf key
    | .declared _ => false

def forget (key : Key) (marks : List Mark) : List Mark :=
  marks.filter fun mark => !key.isPrefixOf mark.key

/-- Inline tables and arrays are frozen once they are given. -/
def freeze (key : Key) (value : Value) (marks : List Mark) : List Mark :=
  match value with
  | .array _ => .frozen key :: marks
  | .table _ => .frozen key :: marks
  | _ => marks

/-- A document while it is read: its tables, the table that keys now belong to, the marks, and the
tables that dotted keys have opened since the last declaration. -/
structure Document where
  root : Table
  current : Key
  marks : List Mark
  opened : List Key

def Document.empty : Document := ⟨[], [], [], []⟩

/-- Closes to declaration the tables that dotted keys have opened. -/
def Document.settle (document : Document) : Document :=
  { document with marks := document.opened.map .declared ++ document.marks, opened := [] }

def Document.declareTable (key : Key) (document : Document) : Except Cause Document := do
  let document := document.settle
  if isDeclared document.marks key || isFrozen document.marks key then .error (.declaredTwice key)
  let root ← document.root.within true key .ok
  return { document with root, current := key, marks := .declared key :: document.marks }

/-- Appends a table to an array of tables and moves to it. The keys below it are free again. -/
def Document.declareItem (key : Key) (document : Document) : Except Cause Document := do
  let document := document.settle
  if isFrozen document.marks key then .error (.immutableNamespace key)
  let root ← document.root.within true key.dropLast (Table.extend (key.getLastD []))
  return { document with
    root, current := key, marks := .declared key :: forget key document.marks }

def passedTables (current key : Key) : List Key :=
  (List.range (key.length - 1)).map fun n => current ++ key.take (n + 1)

def Document.assign (key : Key) (value : Value) (document : Document) : Except Cause Document := do
  let passed := passedTables document.current key
  -- a dotted key may not reach into a table that has a declaration of its own
  match passed.find? (isDeclared document.marks) with
  | some front => .error (.redefinedNamespace front)
  | none =>
    let parent := document.current ++ key.dropLast
    if isFrozen document.marks parent then .error (.immutableNamespace parent)
    let root ← document.root.within true parent (Table.add .overwrites (key.getLastD []) value)
    return { document with
      root
      marks := freeze (document.current ++ key) value document.marks
      opened := passed ++ document.opened }

def assignInline (marks : List Mark) (key : Key) (value : Value) (table : Table) :
    Except Cause Table :=
  let part := key.getLastD []
  if isFrozen marks key then .error (.immutableNamespace key)
  else table.within false key.dropLast (Table.add (.duplicateKey part) part value)

end Astra.Config
