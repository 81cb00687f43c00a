import RecordDb.Error
import RecordDb.Value
import RecordDb.Wire.Json.Parser
import RecordDb.Wire.Json.Printer

/-!
# GeoJSON texts

GeoJSON documents are kept as their text. A given text stays as it is, once it is known to be JSON;
a document that is built or handed over has its fields sorted.
-/
namespace RecordDb.Geo

open Wire (Doc)

/-- A JSON document that can be read as a whole. -/
def document? (text : String) : Option Doc :=
  (Wire.Json.parse? text).filter Doc.storable

def ofText (text : String) : Except Error String :=
  match document? text with
  | some _ => .ok text
  | none => .error (.geoJson none)

def ofDoc (d : Doc) : Except Error String :=
  let text := Wire.Json.render d.sorted
  match d with
  | .obj _ => .ok text
  | _ => .error (.geoJson (some ("expected a JSON object, got " ++ text)))

def shape (name : String) (coordinates : List Doc) : String :=
  Wire.Json.render (.obj [("coordinates", .arr coordinates), ("type", .text name)])

def point (lng lat : Binary64) : String := shape "Point" [.float lng, .float lat]

def circle (lng lat radius : Binary64) : String :=
  shape "AeroCircle" [.arr [.float lng, .float lat], .float radius]

end RecordDb.Geo
