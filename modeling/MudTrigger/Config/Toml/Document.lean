import MudTrigger.Config.Toml.Token

/-!
# TOML documents

`Document.read?` accepts the documents of TOML 1.0 and gives the tree of their tables. A key may be
given once; a table may have one header, and what dotted keys or a pair of braces made is closed to
headers.
-/

set_option autoImplicit false

namespace MudTrigger.Toml

/-- What a key is bound to. -/
inductive Node where
  /-- A value; `integer` is its number if it is one. -/
  | value (integer : Option Int)
  /-- A table; `implicit` if it has no header yet, `dotted` if dotted keys made it. -/
  | table (implicit dotted : Bool) (entries : List (String × Node))
  /-- An array of tables, the last one first. -/
  | tables (elements : List (List (String × Node)))

abbrev Entries := List (String × Node)

namespace Entries

def get? (t : Entries) (k : String) : Option Node := (t.find? (·.1 = k)).map (·.2)

/-- Binds `k` anew, where it stood before or at the end. -/
def set (t : Entries) (k : String) (n : Node) : Entries :=
  if t.any (·.1 = k) then t.map fun e => if e.1 = k then (k, n) else e else t ++ [(k, n)]

/-- Changes the table at `path`; missing ones are made, closed ones refuse dotted keys. -/
def change (dotted : Bool) (f : Entries → Option Entries) : List String → Entries → Option Entries
  | [], t => f t
  | k :: path, t =>
    match get? t k with
    | none => (change dotted f path []).map fun s => set t k (.table true dotted s)
    | some (.table implicit wasDotted s) =>
      if dotted && !implicit then none
      else (change dotted f path s).map fun s => set t k (.table implicit wasDotted s)
    | some (.tables (s :: others)) =>
      (change dotted f path s).map fun s => set t k (.tables (s :: others))
    | some _ => none

/-- The table at `path` was made by dotted keys. -/
def isDotted : List String → Entries → Bool
  | [], _ => false
  | [k], t => match get? t k with
    | some (.table _ dotted _) => dotted
    | some _ => false
    | none => true
  | k :: path, t => match get? t k with
    | some (.table _ _ s) => isDotted path s
    | some (.tables (s :: _)) => isDotted path s
    | _ => true

/-- Binds a dotted key, which may not be bound. -/
def bind? (t : Entries) (path : List String) (n : Node) : Option Entries :=
  match path.reverse with
  | [] => none
  | last :: front =>
    let front := front.reverse
    if isDotted front t == front.isEmpty then none
    else change true (fun s => if (get? s last).isSome then none else some (set s last n)) front t

/-- Opens the table of a header. -/
def openTable? (t : Entries) (path : List String) : Option Entries :=
  match path.reverse with
  | [] => none
  | last :: front =>
    change false (fun s => match get? s last with
      | none => some (set s last (.table false false []))
      | some (.table true false es) => some (set s last (.table false false es))
      | some _ => none) front.reverse t

/-- Opens the next element of an array of tables. -/
def openElement? (t : Entries) (path : List String) : Option Entries :=
  match path.reverse with
  | [] => none
  | last :: front =>
    change false (fun s => match get? s last with
      | none => some (set s last (.tables [[]]))
      | some (.tables es) => some (set s last (.tables ([] :: es)))
      | some _ => none) front.reverse t

end Entries

/-! ## Values -/

mutual

/-- A value inside of `depth` more brackets at most. -/
def value : Nat → Nat → List Char → Option (Option Int × List Char)
  | 0, _, _ => none
  | fuel + 1, depth, cs =>
    match cs with
    | '[' :: cs =>
      if depth = 0 then none else (elements fuel (depth - 1) cs).map fun rest => (none, rest)
    | '\x7b' :: cs =>
      if depth = 0 then none
      else match skipSpace cs with
        | '\x7d' :: rest => some (none, rest)
        | cs => (pairs fuel (depth - 1) [] cs).map fun rest => (none, rest)
    | '"' :: _ => (afterString? cs).map fun rest => (none, rest)
    | '\'' :: _ => (afterString? cs).map fun rest => (none, rest)
    | cs => (bareValue? (bareRun cs).1).map fun v => (v, (bareRun cs).2)

/-- What follows the elements of an array and its bracket. -/
def elements : Nat → Nat → List Char → Option (List Char)
  | 0, _, _ => none
  | fuel + 1, depth, cs =>
    (skipLines cs.length cs).bind fun cs =>
      match cs with
      | ']' :: rest => some rest
      | cs => (value fuel depth cs).bind fun (_, cs) =>
        (skipLines cs.length cs).bind fun cs =>
          match cs with
          | ',' :: cs => elements fuel depth cs
          | ']' :: rest => some rest
          | _ => none

/-- What follows the pairs of an inline table and its brace. -/
def pairs : Nat → Nat → Entries → List Char → Option (List Char)
  | 0, _, _, _ => none
  | fuel + 1, depth, t, cs =>
    (key cs).bind fun (path, cs) =>
      match cs with
      | '=' :: cs => (value fuel depth (skipSpace cs)).bind fun (v, cs) =>
        (Entries.bind? t path (.value v)).bind fun t =>
          match skipSpace cs with
          | ',' :: cs => pairs fuel depth t cs
          | '\x7d' :: rest => some rest
          | _ => none
      | _ => none

end

/-! ## Lines -/

/-- The tables so far, and the header that the next pairs belong to. -/
structure Document where
  root : Entries := []
  header : List String := []

namespace Document

def open? (d : Document) (path : List String) (root : Option Entries) : Option Document :=
  root.map fun t => { d with root := t, header := path }

/-- Reads what stands on the line: a header, a pair, or nothing. -/
def line? (d : Document) (cs : List Char) : Option (Document × List Char) :=
  match skipSpace cs with
  | '[' :: '[' :: cs => (key cs).bind fun (path, cs) =>
    match cs with
    | ']' :: ']' :: cs => (d.open? path (d.root.openElement? path)).map (·, cs)
    | _ => none
  | '[' :: cs => (key cs).bind fun (path, cs) =>
    match cs with
    | ']' :: cs => (d.open? path (d.root.openTable? path)).map (·, cs)
    | _ => none
  | [] => some (d, [])
  | c :: cs =>
    if c = '#' ∨ c = '\n' ∨ c = '\r' then some (d, c :: cs)
    else (key (c :: cs)).bind fun (path, cs) =>
      match cs with
      | '=' :: cs =>
        let cs := skipSpace cs
        (value (3 * cs.length + 3) (depthLimit - 1) cs).bind fun (v, cs) =>
          (Entries.change false (·.bind? path (.value v)) d.header d.root).map fun t =>
            ({ d with root := t }, cs)
      | _ => none

/-- Reads line after line; `fuel` bounds their number. -/
def lines? : Nat → Document → List Char → Option Document
  | 0, d, cs => if cs.isEmpty then some d else none
  | fuel + 1, d, cs =>
    if cs.isEmpty then some d
    else (d.line? cs).bind fun (d, cs) => (endLine cs).bind (lines? fuel d)

/-- The tables of a document, if it is well formed; a byte order mark may stand before it. -/
def read? (text : String) : Option Entries :=
  let cs := match text.toList with
    | '\uFEFF' :: cs => cs
    | cs => cs
  (lines? (cs.length + 1) {} cs).map (·.root)

end Document

end MudTrigger.Toml
