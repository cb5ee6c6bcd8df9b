import FilterLine.Text.Basic

/-!
JSON values. Objects keep their entries in the order in which they are written, repeated keys
included, and numbers keep their digits. A string whose escapes leave a surrogate unpaired spells no
text; it may be written all the same, so the content of a string is optional.
-/
namespace FilterLine

/-- A JSON value. -/
inductive Json where
  | null
  | bool (b : Bool)
  | number (digits : Text)
  | string (content : Option Text)
  | array (items : List Json)
  | object (entries : List (Option Text × Json))

namespace Json

instance : Inhabited Json := ⟨null⟩

def text (t : Text) : Json := string (some t)

def texts (ts : List Text) : Json := array (ts.map text)

def record (entries : List (Text × Json)) : Json := object (entries.map fun e => (some e.1, e.2))

/-- The text that a string spells. -/
def text? : Json → Option Text
  | string content => content
  | _ => none

def texts? : Json → Option (List Text)
  | array items => items.mapM text?
  | _ => none

def entries? : Json → Option (List (Text × Json))
  | object entries => entries.mapM fun e => e.1.map (·, e.2)
  | _ => none

theorem texts?_texts (ts : List Text) : (texts ts).texts? = some ts := by
  simp only [texts, texts?]
  induction ts with
  | nil => rfl
  | cons t ts ih => simp [List.mapM_cons, text, text?, ih]

/-- The entries of a record are those that it was made of. -/
theorem entries?_record (entries : List (Text × Json)) :
    (record entries).entries? = some entries := by
  simp only [record, entries?]
  induction entries with
  | nil => rfl
  | cons e es ih => simp [List.mapM_cons, ih]

end Json
end FilterLine
