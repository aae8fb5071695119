namespace SmallLisp.Toml

/-- How a table came to be: by a header below it, by a dotted key, or by its own header. -/
inductive Origin where
  | implied
  | dotted
  | header
  deriving DecidableEq

inductive Item where
  | string (s : String)
  | integer (n : Int)
  | float
  | boolean (b : Bool)
  | moment
  | array (items : List Item)
  | inlineTable (entries : List (String × Item))
  | table (origin : Origin) (entries : List (String × Item))
  | tables (latest : List (List (String × Item)))
  deriving Inhabited

abbrev Entries := List (String × Item)

def Entries.set (key : String) (v : Item) : Entries → Entries
  | [] => [(key, v)]
  | (k, w) :: es => if k = key then (k, v) :: es else (k, w) :: Entries.set key v es

/-- Changes the table that is reached along a path, making tables where there are none. A dotted key
reaches only tables that dotted keys made at its end, and none that has a header on the way; the
path of a header reaches every table. In an array of tables it is the latest that counts. -/
def Entries.within (dotted : Bool) (change : Entries → Option Entries) :
    List String → Entries → Option Entries
  | [], es => change es
  | k :: ks, es =>
      match es.lookup k with
      | none => do
          let sub ← Entries.within dotted change ks []
          return Entries.set k (.table (if dotted then .dotted else .implied) sub) es
      | some (.table origin sub) =>
          if dotted && (origin = .header || (ks.isEmpty && origin ≠ .dotted)) then none
          else do
            let sub ← Entries.within dotted change ks sub
            return Entries.set k (.table origin sub) es
      | some (.tables (sub :: before)) =>
          if dotted && ks.isEmpty then none
          else do
            let sub ← Entries.within dotted change ks sub
            return Entries.set k (.tables (sub :: before)) es
      | some _ => none

def Entries.insert (key : String) (v : Item) (es : Entries) : Option Entries :=
  if (es.lookup key).isSome then none else some (Entries.set key v es)

def Entries.assign (path : List String) (key : String) (v : Item) (es : Entries) :
    Option Entries :=
  Entries.within true (Entries.insert key v) path es

def Entries.openTable (key : String) (es : Entries) : Option Entries :=
  match es.lookup key with
  | none => some (Entries.set key (.table .header []) es)
  | some (.table .implied sub) => some (Entries.set key (.table .header sub) es)
  | some _ => none

def Entries.addTable (key : String) (es : Entries) : Option Entries :=
  match es.lookup key with
  | none => some (Entries.set key (.tables [[]]) es)
  | some (.tables subs) => some (Entries.set key (.tables ([] :: subs)) es)
  | some _ => none

/-- One line of a document. A key is the path to a table and a name in it. -/
inductive Statement where
  | assign (path : List String) (key : String) (v : Item)
  | openTable (path : List String) (key : String)
  | addTable (path : List String) (key : String)

structure Document where
  location : List String := []
  entries : Entries := []

def Document.add (d : Document) : Statement → Option Document
  | .assign path key v => do
      let es ← Entries.within false (Entries.assign path key v) d.location d.entries
      return { d with entries := es }
  | .openTable path key => do
      let es ← Entries.within false (Entries.openTable key) path d.entries
      return ⟨path ++ [key], es⟩
  | .addTable path key => do
      let es ← Entries.within false (Entries.addTable key) path d.entries
      return ⟨path ++ [key], es⟩

def Entries.ofStatements? (ss : List Statement) : Option Entries :=
  (ss.foldlM Document.add {}).map (·.entries)

end SmallLisp.Toml
