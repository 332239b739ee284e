/-! # TOML documents

A document says what is at each path of keys. Tables are made by headers, on the way to the tables
of headers, by points in keys, or by braces, and how one was made decides what may still be added
to it. Nothing is ever given twice. -/

namespace Offside.Toml

inductive Origin where
  /-- A header of its own. -/
  | header
  /-- The header of a table below it. -/
  | passed
  /-- A point in a key. -/
  | point
  /-- Braces. Such a table is complete. -/
  | braces
  deriving DecidableEq

/-- What is at a path. Of the kinds that no setting has, only the kind is kept. -/
inductive Node where
  | string (text : String)
  | integer (n : Int)
  | boolean (b : Bool)
  | float
  | dateTime
  | array (length : Nat)
  | table (origin : Origin)
  /-- Tables with one header each. What is below the path is in the last of them. -/
  | tables
  deriving DecidableEq

structure Document where
  nodes : List (List String × Node)
  deriving DecidableEq

structure Value where
  node : Node
  fields : Document
  deriving DecidableEq

namespace Document

def empty : Document := ⟨[]⟩

def find? (d : Document) (path : List String) : Option Node :=
  (d.nodes.find? fun n => n.1 == path).map Prod.snd

def put (d : Document) (path : List String) (node : Node) : Document :=
  ⟨(path, node) :: d.nodes.filter fun n => n.1 != path⟩

def graft (d : Document) (path : List String) (v : Value) : Document :=
  ⟨(path, v.node) :: v.fields.nodes.map (fun n => (path ++ n.1, n.2)) ++ d.nodes⟩

def clearBelow (d : Document) (path : List String) : Document :=
  ⟨d.nodes.filter fun n => n.1 == path || !path.isPrefixOf n.1⟩

def keys (d : Document) (path : List String) : List String :=
  d.nodes.filterMap fun n =>
    match path.isPrefixOf? n.1 with
    | some [key] => some key
    | _ => none

def isVoid (d : Document) (path : List String) : Bool :=
  match d.find? path with
  | some (.array length) => length == 0
  | some (.table _) => (d.keys path).isEmpty
  | _ => false

/-- Makes sure that there is a table at a path to which something may be added from here: from
below a header if `byHeader`, or else by a key with points in it, which may not reach into a table
that has a header. -/
def enter? (d : Document) (byHeader : Bool) (path : List String) : Option Document :=
  match d.find? path with
  | none => some (d.put path (.table (if byHeader then .passed else .point)))
  | some (.table .header) => if byHeader then some d else none
  | some (.table .passed) | some (.table .point) | some .tables => some d
  | some _ => none

def descend? (d : Document) (byHeader : Bool) (path : List String) :
    List String → Option Document
  | [] => some d
  | key :: keys =>
    (d.enter? byHeader (path ++ [key])).bind fun d => d.descend? byHeader (path ++ [key]) keys

/-- Gives a value to a key, which may have points in it, of the table at a path. Behind a point
there may only be tables made by points. -/
def addValue? (d : Document) (table key : List String) (v : Value) : Option Document :=
  match d.descend? false table key.dropLast with
  | none => none
  | some d =>
    let path := table ++ key
    let isOpen := key.length ≤ 1 || d.find? path.dropLast == some (.table .point)
    if isOpen && (d.find? path).isNone then some (d.graft path v) else none

def addTable? (d : Document) (path : List String) : Option Document :=
  match d.descend? true [] path.dropLast with
  | none => none
  | some d =>
    match d.find? path with
    | none | some (.table .passed) => some (d.put path (.table .header))
    | some _ => none

def addElement? (d : Document) (path : List String) : Option Document :=
  match d.descend? true [] path.dropLast with
  | none => none
  | some d =>
    match d.find? path with
    | none | some .tables => some ((d.clearBelow path).put path .tables)
    | some _ => none

end Document

end Offside.Toml
