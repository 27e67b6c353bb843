import ServiceTrace.Ast.Basic
import ServiceTrace.ModuleName
import ServiceTrace.NameSet

/-!
# `ServiceTrace.Import.Table` — what the names of a scope are imported from

An import binds a name, its *alias*, to a module or to a symbol of a module; a wildcard import binds
every name that a module has. The table of a scope lists its bindings in the order they were made, each
binding once. A call is qualified through the table: a chain `a.b.f` by the longest alias that it
begins with, the earlier of two equally long ones, and a plain name by the first symbol that it is an
alias of, or else by the first wildcard.

## Contents
- **`ImportTarget`**, **`ImportEntry`**, **`ImportTable`**, **`Resolver`**.
- **`ImportTable.add`**, **`ImportTable.register`** — bindings, and the bindings of a statement.
- **`ImportTable.bestFor?`**, **`ImportTable.attribute?`**, **`ImportTable.plain?`** — qualification.
- **`ImportTable.shadowing`** — an inner scope over an outer one.
- **`ImportTable.mark`** — which names were called through an alias.
-/

namespace ServiceTrace

/-- What an alias stands for. -/
inductive ImportTarget where
  | whole (module : String)
  | symbol (module name : String)
  | wildcard (module : String)
deriving DecidableEq, Repr

/-- The module that an import reads. -/
def ImportTarget.module : ImportTarget → String
  | .whole module | .symbol module _ | .wildcard module => module

/-- Whether a target stands for all names of a module. -/
def ImportTarget.isWildcard : ImportTarget → Bool
  | .wildcard _ => true
  | _ => false

/-- A binding. -/
structure ImportEntry where
  localName : String
  target : ImportTarget
  /-- The names that were called through the alias. -/
  referenced : NameSet
deriving DecidableEq

/-- The bindings of a scope, in the order they were made. -/
structure ImportTable where
  entries : List ImportEntry
deriving DecidableEq

/-- A call qualified through an alias: a name in a module. -/
structure Qualified where
  localName : String
  module : String
  name : String
deriving DecidableEq, Repr

/-- Finds modules by their names. A name without a file, such as that of a builtin module, resolves to
    nothing. -/
abbrev Resolver := String → Option ModuleRef

namespace ImportTable

/-- The table without bindings. -/
def empty : ImportTable :=
  ⟨[]⟩

/-- Whether a table has no bindings. -/
def isEmpty (t : ImportTable) : Bool :=
  t.entries.isEmpty

/-- One more binding, unless the table has it. -/
def add (t : ImportTable) (localName : String) (target : ImportTarget) : ImportTable :=
  if t.entries.any fun e => e.localName = localName ∧ e.target = target then t
  else ⟨t.entries ++ [⟨localName, target, .empty⟩]⟩

/-! ## Statements -/

/-- What `from base import name` stands for: the module `base.name` when there is one, otherwise a
    symbol of `base`. -/
def memberTarget (resolve : Resolver) (base name : String) : ImportTarget :=
  let full := ModuleName.member base name
  if (resolve full).isSome then .whole full else .symbol base name

/-- The bindings that an import statement adds, for a module in the given package. A relative import
    that leaves the top level binds nothing. -/
def register (resolve : Resolver) (package : List String) (t : ImportTable) : Stmt → ImportTable
  | .imports names _ => names.foldl (fun t n => t.add n.bound (.whole n.name)) t
  | .importFrom module names wildcard _ =>
    match ModuleName.absolute? package module with
    | none => t
    | some base =>
      if wildcard then t.add "*" (.wildcard base)
      else names.foldl (fun t n => t.add n.bound (memberTarget resolve base n.name)) t
  | _ => t

/-- The table of a list of import statements. -/
def ofStmts (resolve : Resolver) (package : List String) (stmts : List Stmt) : ImportTable :=
  stmts.foldl (register resolve package) empty

/-! ## Qualification -/

/-- What follows an alias and a dot in a chain. Nothing follows when the chain ends there. -/
def afterAlias? (localName : String) (chain : List Char) : Option (List Char) :=
  match Text.dropInitial? (localName.toList ++ ['.']) chain with
  | some (c :: rest) => some (c :: rest)
  | _ => none

/-- The entry of the longest alias that a chain begins with, the first of the longest ones, and the
    rest of the chain after it. -/
def bestFor? (t : ImportTable) (chain : String) : Option (ImportEntry × List Char) :=
  t.entries.foldl longer none
where
  /-- The better one of the best entry so far and the next one. -/
  longer (best : Option (ImportEntry × List Char)) (e : ImportEntry) :
      Option (ImportEntry × List Char) :=
    if e.target.isWildcard then best
    else
      match afterAlias? e.localName chain.toList, best with
      | none, _ => best
      | some rest, none => some (e, rest)
      | some rest, some (current, _) =>
        -- an alias of the same length does not replace the earlier one
        if current.localName.utf8ByteSize < e.localName.utf8ByteSize then some (e, rest) else best

/-- A chain such as `cart.api.items` qualified by the longest alias. Behind a symbol only one name can
    follow. -/
def attribute? (t : ImportTable) (chain : String) : Option Qualified :=
  match t.bestFor? chain with
  | none => none
  | some (e, rest) =>
    match e.target, Text.splitLast? '.' rest with
    | .whole module, none => some ⟨e.localName, module, String.ofList rest⟩
    | .whole module, some (middle, name) =>
      some ⟨e.localName, module ++ "." ++ String.ofList middle, String.ofList name⟩
    | .symbol module _, none => some ⟨e.localName, module, String.ofList rest⟩
    | _, _ => none

/-- A plain name qualified by the symbol that it is an alias of, or else by the first wildcard. -/
def plain? (t : ImportTable) (name : String) : Option Qualified :=
  let symbol := t.entries.findSome? fun e =>
    match e.target with
    | .symbol module imported =>
      if e.localName = name then some ⟨e.localName, module, imported⟩ else none
    | _ => none
  let wildcard := t.entries.findSome? fun e =>
    match e.target with
    | .wildcard module => some ⟨e.localName, module, name⟩
    | _ => none
  symbol.or wildcard

/-! ## Scopes -/

/-- The table of an inner scope: its own bindings first, then those of the scope around it. -/
def shadowing (inner outer : ImportTable) : ImportTable :=
  outer.entries.foldl (fun t e => t.add e.localName e.target) inner

/-- Notes that `name` was called through an alias, in the first entry with that alias. -/
def mark (t : ImportTable) (localName name : String) : ImportTable :=
  ⟨go t.entries⟩
where
  /-- The entries with the first one of that alias marked. -/
  go : List ImportEntry → List ImportEntry
    | [] => []
    | e :: es =>
      if e.localName = localName then { e with referenced := e.referenced.insert name } :: es
      else e :: go es

end ImportTable

end ServiceTrace
