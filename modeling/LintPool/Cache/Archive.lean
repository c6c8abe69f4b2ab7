import LintPool.Cache.Store

/-!
# Cache files

A table is kept in a file between runs, as a JSON array of its rows. An empty file is an empty
table.

## Main definitions

* `LintPool.Cache.Table.archive` : the text of a table.
* `LintPool.Cache.Table.ofArchive?` : the table of a text.
-/

namespace LintPool.Cache

namespace Row

/-- The JSON form of a row. -/
def toJson (row : Row) : Json :=
  .object
    [Json.member "key" (.text row.key), Json.member "data" (.text row.data),
      Json.member "created" (.int row.created)]

/-- The members of a row. -/
structure Parts where
  key : Option Bytes := none
  data : Option Bytes := none
  created : Option Int64 := none

/-- The fields of a row. -/
def fields : List (Json.Field Parts Empty) :=
  [.simple "key" Parts.key (fun p x => { p with key := x }) Json.Field.text?,
    .simple "data" Parts.data (fun p x => { p with data := x }) Json.Field.text?,
    .simple "created" Parts.created (fun p x => { p with created := x }) Json.Field.integer?]

/-- The row of a value. -/
def ofJson? (v : Json) : Option Row :=
  match Json.readRecord .strict fields {} v with
  | .ok { key := some key, data := some data, created := some created } =>
    some { key, data, created := created.toInt }
  | _ => none

end Row

namespace Table

/-- The text of a table. -/
def archive (t : Table) : Bytes := (Json.array (t.rows.map Row.toJson)).print

/-- The table of a text. -/
def ofArchive? (ttl : Duration) (s : Bytes) : Option Table :=
  if s.isEmpty then some { ttl }
  else
    match Json.parse? s with
    | some (.array items) => (items.mapM Row.ofJson?).map fun rows => { ttl, rows }
    | _ => none

end Table

end LintPool.Cache
