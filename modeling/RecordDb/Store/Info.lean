import RecordDb.Store

/-!
# Info requests

What a node answers to info requests: the request, a tab and the value asked for.
-/
namespace RecordDb.Store

/-- What all nodes report when nothing particular is asked for. -/
def overview (s : Store) : String :=
  "node\tBB9000000000000\nbuild\t0.1.0\nstatistics\tobjects=" ++ toString s.records.length

/-- The report on the index that a path names: the namespace up to the first slash, then
the index. -/
def indexStatus (s : Store) (path : List Char) : String :=
  let found := (Text.splitFirst? '/' path).bind fun (ns, index) =>
    Dict.get? s.indexes ⟨String.ofList ns, String.ofList index⟩
  match found with
  | some (options, _) =>
    let keys := (Dict.values s.records).countP fun r =>
      r.key.ns == options.ns && Dict.contains r.bins options.bin
    "keys=" ++ toString keys ++ ";load_pct=100;state=RW"
  | none => "FAIL:201:NO INDEX"

def moduleList (s : Store) : String :=
  ";".intercalate ((Dict.keys s.modules).map fun m => "filename=" ++ m ++ ",hash=0,type=LUA")

/-- The namespaces that hold records, each once and in order. -/
def namespaces (s : Store) : String :=
  ";".intercalate (Dict.keys (Dict.ofList ((Dict.values s.records).map fun r => (r.key.ns, ()))))

/-- The text after a leading part, if it leads. -/
def after? : List Char → List Char → Option (List Char)
  | [], cs => some cs
  | _ :: _, [] => none
  | p :: ps, c :: cs => if p = c then after? ps cs else none

def infoValue (s : Store) (request : String) : String :=
  match after? "sindex/".toList request.toList with
  | some path => s.indexStatus path
  | none =>
    if request = "udf-list" then s.moduleList
    else if request = "namespaces" then s.namespaces
    else if request = "statistics" then "objects=" ++ toString s.records.length
    else ""

def info (s : Store) : Option String → String
  | none => s.overview
  | some request => request ++ "\t" ++ s.infoValue request

end RecordDb.Store
