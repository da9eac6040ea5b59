import KixScript.Config.Toml.Fault
import KixScript.Setting

/-!
# TOML documents in the making

The tables of a document as far as it has been read, with the marks that say what later statements
may still do to them. A table that a header has opened cannot be opened again, and nothing can be
added to an array or inline table once it is written.
-/

namespace KixScript.Toml

/-- The keys of a table with their values, in the order of the document. -/
abbrev Fields := List (String × Value)

/-- Fields with the value of a key replaced. -/
def replaceField (key : String) (value : Value) (fields : Fields) : Fields :=
  fields.map fun field => if field.1 = key then (key, value) else field

/-- Changes the table that a path leads to; tables on the way are made where there are none. With
`throughLists`, a path goes through the last table of an array of tables. -/
def changeAt (throughLists : Bool) (change : Fields → Except Cause Fields) :
    KeyPath → Fields → Except Cause Fields
  | [], fields => change fields
  | key :: path, fields =>
    match fields.lookup key with
    | none => do
      let inner ← changeAt throughLists change path []
      return fields ++ [(key, .table inner)]
    | some (.table inner) => do
      let inner ← changeAt throughLists change path inner
      return replaceField key (.table inner) fields
    | some (.list items) =>
      match throughLists, items.getLast? with
      | true, some (.table inner) => do
        let inner ← changeAt throughLists change path inner
        return replaceField key (.list (items.dropLast ++ [.table inner])) fields
      | _, _ => throw .overwrite
    | some _ => throw .overwrite

/-- Adds a key that a table does not have yet. -/
def addField (key : String) (value : Value) (taken : Cause) (fields : Fields) :
    Except Cause Fields :=
  if (fields.lookup key).isSome then throw taken else return fields ++ [(key, value)]

/-- Adds an empty table to an array of tables. -/
def addTable (key : String) (fields : Fields) : Except Cause Fields :=
  match fields.lookup key with
  | none => return fields ++ [(key, .list [.table []])]
  | some (.list items) => return replaceField key (.list (items ++ [.table []])) fields
  | some _ => throw .overwrite

/-- A document as far as it has been read. -/
structure Document where
  fields : Fields
  /-- Where the tables are that no header may open. -/
  declared : List KeyPath
  /-- Where nothing may be added, nor further down. -/
  sealed : List KeyPath
  /-- Tables made by dotted keys, which no header may open from the next header on. -/
  pending : List KeyPath
  /-- The table that keys belong to. -/
  header : KeyPath

/-- Whether a value is an array or a table. -/
def isCompound : Value → Bool
  | .list _ => true
  | .table _ => true
  | _ => false

/-- Whether a path lies under one of some others, or is one of them. -/
def liesUnder (path : KeyPath) (others : List KeyPath) : Bool :=
  others.any fun other => other.isPrefixOf path

namespace Document

/-- A document that nothing has been read of. -/
def empty : Document :=
  { fields := [], declared := [], sealed := [], pending := [], header := [] }

/-- Takes the marks that wait for a header. -/
def settle (document : Document) : Document :=
  { document with declared := document.declared ++ document.pending, pending := [] }

/-- Opens a table by its header. -/
def openTable (document : Document) (path : KeyPath) : Except Cause Document := do
  let document := document.settle
  if document.declared.contains path || liesUnder path document.sealed then
    throw (.declaredTwice path)
  let fields ← changeAt true pure path document.fields
  return { document with fields, declared := path :: document.declared, header := path }

/-- Adds a table to an array of tables by its header. What was said of the tables before it is
forgotten. -/
def appendTable (document : Document) (path : KeyPath) : Except Cause Document := do
  let document := document.settle
  if liesUnder path document.sealed then throw (.immutable path)
  let fields ← changeAt true (addTable (path.getLast?.getD "")) path.dropLast document.fields
  let elsewhere (other : KeyPath) : Bool := !path.isPrefixOf other
  return { document with
    fields
    declared := path :: document.declared.filter elsewhere
    sealed := document.sealed.filter elsewhere
    header := path }

/-- The tables that a dotted key goes through, from the top of the document. -/
def through (document : Document) (key : KeyPath) : List KeyPath :=
  (List.range' 1 (key.length - 1)).map fun count => document.header ++ key.take count

/-- Gives a value to a key of the open table. -/
def assign (document : Document) (key : KeyPath) (value : Value) : Except Cause Document := do
  let through := document.through key
  match through.find? document.declared.contains with
  | some path => throw (.redefined path)
  | none =>
    let table := document.header ++ key.dropLast
    if liesUnder table document.sealed then throw (.immutable table)
    let fields ←
      changeAt true (addField (key.getLast?.getD "") value .overwrite) table document.fields
    let sealed :=
      if isCompound value then (document.header ++ key) :: document.sealed else document.sealed
    return { document with fields, pending := document.pending ++ through, sealed }

end Document

end KixScript.Toml
