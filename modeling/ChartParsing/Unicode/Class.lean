import ChartParsing.Unicode.Age
import ChartParsing.Unicode.ScriptExtension
import ChartParsing.Unicode.Segmentation

/-!
# Classes by name

`classNamed?` looks up whatever a class in a pattern can name by one name: a property, a general category
or a script.  `classValued?` looks up the value of a property that is not a yes-or-no one.
-/

namespace ChartParsing

/-- Folds the spellings of a name: letters in lower case, and neither blanks, hyphens, underscores
nor a leading `is`.  What remains of `isc` is put back, for that is not `c`. -/
def foldName (name : String) : String :=
  let fold (cs : List Char) : List Char :=
    (cs.filter (fun c => c.toNat < 128 ∧ c ≠ ' ' ∧ c ≠ '_' ∧ c ≠ '-')).map Char.toLower
  match name.toList with
  | i :: s :: rest =>
      if i.toLower = 'i' ∧ s.toLower = 's' then
        let folded := fold rest
        if folded = ['c'] then "isc" else String.ofList folded
      else String.ofList (fold name.toList)
  | cs => String.ofList (fold cs)

/-- The class that a name on its own stands for.  Properties come first, then general categories,
then scripts; but `cf`, `sc` and `lc` are general categories. -/
def classNamed? (name : String) : Option CharSet :=
  let name := foldName name
  let category := (Category.named? name).or (Script.named? name)
  if name = "cf" ∨ name = "sc" ∨ name = "lc" then category
  else ((Property.find? name).map Property.set).or category

/-- The values of the properties that have values, by the names of the properties. -/
def valueTables : List (List String × (String → Option CharSet)) :=
  [(["gc", "generalcategory"], Category.named?),
   (["sc", "script"], Script.named?),
   (["scx", "scriptextensions"], ScriptExtension.named?),
   (["age"], Age.named?),
   (["gcb", "graphemeclusterbreak"],
    fun value => Segmentation.valued? value CharSet.empty Segmentation.graphemes),
   (["wb", "wordbreak"],
    fun value => Segmentation.valued? value CharSet.empty Segmentation.words),
   (["sb", "sentencebreak"],
    fun value => Segmentation.valued? value CharSet.empty Segmentation.sentences)]

/-- The class of the characters for which a property that is not a yes-or-no one has this value. -/
def classValued? (property value : String) : Option CharSet :=
  (valueTables.find? (fun row => row.1.contains (foldName property))).bind
    (fun row => row.2 (foldName value))

end ChartParsing
